import Aes67Daemon.Net.Url
import Mathlib.Data.List.TakeWhile

/-!
# The URLs that `parse_url` takes

A URL is `scheme://host`, then perhaps a colon and a port, then perhaps a slash and the rest of
the path.  `parse_url` looks for either character of the separator where the separator should
be, skips three characters without looking at them, and looks for the colon of the port in the
path as well.

## Main definitions

* `Authority`, `UrlForm` — what is behind the scheme, and a whole URL.
* `UrlTaken` — the text is taken exactly if it is a URL, with its components.
* `UrlHandled` — the texts for which this is so, by `urlTaken_iff`.
-/
namespace Aes67Daemon

open Text

/-! ## The form of a URL -/

/-- A character of a separator. -/
def isUrlSep (c : Char) : Bool := c = ':' || c = '/'

/-- Neither a colon nor a slash. -/
def UrlPlain (t : Text) : Prop := ∀ c ∈ t, isUrlSep c = false

/-- The port in the text: none, or a colon and a port. -/
inductive PortPart : Text → Text → Prop
  | absent : PortPart [] []
  | present {port : Text} : '/' ∉ port → PortPart (':' :: port) port

/-- The path in the text; the path is a slash when there is none. -/
inductive PathPart : Text → Text → Prop
  | absent : PathPart [] ['/']
  | present (rest : Text) : PathPart ('/' :: rest) ('/' :: rest)

/-- What is behind the separator; the host may be empty here. -/
def Authority (t host port path : Text) : Prop :=
  UrlPlain host ∧ ∃ colon slash, PortPart colon port ∧ PathPart slash path ∧ t = host ++ (colon ++ slash)

/-- A URL and its components. -/
def UrlForm (u scheme host port path : Text) : Prop :=
  scheme ≠ [] ∧ UrlPlain scheme ∧ host ≠ [] ∧
    ∃ t, Authority t host port path ∧ u = scheme ++ (':' :: '/' :: '/' :: t)

/-- Nothing is thrown, and the text is taken with these components exactly if it is a URL with
these components. -/
def UrlTaken (u : Text) : Prop :=
  ∃ r, parseUrl u = some r ∧ ∀ scheme host port path,
    (r.ok = true ∧ r.protocol = scheme ∧ r.host = host ∧ r.port = port ∧ r.path = path) ↔
      UrlForm u scheme host port path

/-! ## Behind the scheme -/

/-- There is a slash before the first colon. -/
def SlashFirst (t : Text) : Prop := ':' ∈ t ∧ '/' ∈ t.takeWhile (· ≠ ':')

instance (t : Text) : Decidable (SlashFirst t) := inferInstanceAs (Decidable (_ ∧ _))

/-- How `parse_url` takes the rest apart. -/
def splitAuthority (t : Text) : Text × Text × Text :=
  match t.findIdx? (· = ':') with
  | some q =>
    match t.findIdx? (· = '/') with
    | some r =>
      (t.take q, if r < q then t.drop (q + 1) else (t.drop (q + 1)).take (r - q - 1), t.drop r)
    | none => (t.take q, t.drop (q + 1), ['/'])
  | none =>
    match t.findIdx? (· = '/') with
    | some r => (t.take r, [], t.drop r)
    | none => (t, [], ['/'])

theorem parseUrl_eq (u : Text) :
    parseUrl u =
      match u.findIdx? isUrlSep with
      | none => some {}
      | some p =>
        if u.length < p + 3 then none
        else
          let a := splitAuthority (u.drop (p + 3))
          some { ok := a.1 != [], protocol := u.take p, host := a.1, port := a.2.1, path := a.2.2 } := by
  have hsep : (fun c : Char => decide (c = ':') || decide (c = '/')) = isUrlSep := rfl
  rw [parseUrl, hsep]
  cases u.findIdx? isUrlSep with
  | none => rfl
  | some p =>
    dsimp only
    rw [splitAuthority]
    cases (u.drop (p + 3)).findIdx? (· = ':') <;> cases (u.drop (p + 3)).findIdx? (· = '/') <;> rfl

variable {t u scheme host port path : Text}

/-! ### Positions -/

theorem findIdx?_of_head {p : Char → Bool} {a b : Text} {c : Char} (ha : ∀ d ∈ a, p d = false) (hc : p c = true) :
    (a ++ c :: b).findIdx? p = some a.length := by
  rw [List.findIdx?_append, List.findIdx?_eq_none_iff.mpr ha, List.findIdx?_cons, hc]
  simp

theorem urlPlain_of_all (h : t.all (!isUrlSep ·) = true) : UrlPlain t := fun c hc => by
  simpa using List.all_eq_true.mp h c hc

theorem UrlPlain.colon (h : UrlPlain t) : ':' ∉ t := fun hmem => by
  have := h _ hmem
  contradiction

theorem UrlPlain.slash (h : UrlPlain t) : '/' ∉ t := fun hmem => by
  have := h _ hmem
  contradiction

theorem decide_ne_of_notMem {c : Char} (h : c ∉ t) : ∀ d ∈ t, decide (d = c) = false := fun _ hd =>
  decide_eq_false fun e => h (e ▸ hd)

theorem findIdx?_of_notMem {c : Char} (h : c ∉ t) : t.findIdx? (· = c) = none :=
  List.findIdx?_eq_none_iff.mpr (decide_ne_of_notMem h)

theorem findIdx?_of_notMem_left {c : Char} {b : Text} (h : c ∉ t) :
    (t ++ c :: b).findIdx? (· = c) = some t.length :=
  findIdx?_of_head (decide_ne_of_notMem h) (decide_eq_true rfl)

theorem takeWhile_ne_append {c : Char} {b : Text} (h : c ∉ t) : (t ++ c :: b).takeWhile (· ≠ c) = t := by
  rw [List.takeWhile_append_of_pos fun d hd => by simpa using ne_of_mem_of_not_mem hd h]
  simp

/-- A slash and then a colon. -/
theorem slashFirst_of_mem {a b : Text} (ha : ':' ∉ a) (hb : ':' ∈ b) : SlashFirst (a ++ '/' :: b) := by
  refine ⟨List.mem_append_right _ (List.mem_cons_of_mem _ hb), ?_⟩
  rw [List.takeWhile_append_of_pos fun c hc => by simpa using ne_of_mem_of_not_mem hc ha]
  simp

/-! ### The split -/

/-- The rest is taken apart as it is made up, unless a slash comes before a colon. -/
theorem splitAuthority_eq (h : Authority t host port path) (ht : ¬SlashFirst t) :
    splitAuthority t = (host, port, path) := by
  obtain ⟨hhost, colon, slash, hport, hpath, rfl⟩ := h
  cases hport with
  | absent =>
    cases hpath with
    | absent =>
      rw [List.nil_append, List.append_nil, splitAuthority, findIdx?_of_notMem hhost.colon,
        findIdx?_of_notMem hhost.slash]
    | present rest =>
      have hrest : ':' ∉ rest := fun hmem => ht (slashFirst_of_mem hhost.colon hmem)
      have hcolon : ':' ∉ host ++ '/' :: rest := by simp [hhost.colon, hrest]
      rw [List.nil_append, splitAuthority, findIdx?_of_notMem hcolon, findIdx?_of_notMem_left hhost.slash]
      simp
  | present hport =>
    rw [List.cons_append, splitAuthority, findIdx?_of_notMem_left hhost.colon]
    cases hpath with
    | absent =>
      have hslash : '/' ∉ host ++ ':' :: (port ++ []) := by simp [hhost.slash, hport]
      rw [findIdx?_of_notMem hslash]
      simp [← List.drop_drop]
    | present rest =>
      have hslash : '/' ∉ host ++ ':' :: port := by simp [hhost.slash, hport]
      have hidx := findIdx?_of_notMem_left (b := rest) hslash
      rw [List.append_assoc, List.cons_append] at hidx
      rw [hidx]
      simp [← List.drop_drop]

/-- Every text can be made up so. -/
theorem exists_authority (t : Text) : ∃ host port path, Authority t host port path := by
  cases hsep : t.find? isUrlSep with
  | none => exact ⟨t, [], ['/'], by simpa [UrlPlain] using hsep, [], [], .absent, .absent, by simp⟩
  | some c =>
    obtain ⟨hc, host, rest, rfl, hhost⟩ := List.find?_eq_some_iff_append.mp hsep
    have hplain : UrlPlain host := fun d hd => by simpa using hhost d hd
    have hc : c = ':' ∨ c = '/' := by simpa [isUrlSep] using hc
    rcases hc with rfl | rfl
    · by_cases hslash : '/' ∈ rest
      · obtain ⟨port, path, rfl, hport⟩ := List.eq_append_cons_of_mem hslash
        exact ⟨host, port, '/' :: path, hplain, _, _, .present hport, .present path, by simp⟩
      · exact ⟨host, rest, ['/'], hplain, _, _, .present hslash, .absent, by simp⟩
    · exact ⟨host, [], '/' :: rest, hplain, _, _, .absent, .present rest, by simp⟩

theorem host_eq (t : Text) :
    (splitAuthority t).1 =
      match t.findIdx? (· = ':') with
      | some q => t.take q
      | none =>
        match t.findIdx? (· = '/') with
        | some r => t.take r
        | none => t := by
  rw [splitAuthority]
  split <;> split <;> rfl

/-- The host is found empty in these cases alone. -/
theorem host_eq_nil_iff (t : Text) :
    (splitAuthority t).1 = [] ↔ t = [] ∨ t.head? = some ':' ∨ t.head? = some '/' ∧ ':' ∉ t := by
  rw [host_eq]
  cases t with
  | nil => simp
  | cons c t =>
    by_cases hcolon : ':' ∈ c :: t
    · obtain ⟨a, b, hab, ha⟩ := List.eq_append_cons_of_mem hcolon
      rw [hab, findIdx?_of_notMem_left ha]
      cases a <;> simp_all [eq_comm]
    · rw [findIdx?_of_notMem hcolon]
      by_cases hslash : '/' ∈ c :: t
      · obtain ⟨a, b, hab, ha⟩ := List.eq_append_cons_of_mem hslash
        rw [hab] at hcolon ⊢
        rw [findIdx?_of_notMem_left ha]
        cases a <;> simp_all [eq_comm]
      · rw [findIdx?_of_notMem hslash]
        simp_all [eq_comm]

/-- With a slash before the colon the host has a slash. -/
theorem slash_mem_host (h : SlashFirst t) : '/' ∈ (splitAuthority t).1 := by
  obtain ⟨hcolon, hslash⟩ := h
  obtain ⟨a, b, rfl, ha⟩ := List.eq_append_cons_of_mem hcolon
  rw [takeWhile_ne_append ha] at hslash
  rw [host_eq, findIdx?_of_notMem_left ha]
  simpa using hslash

/-- The split finds the one way to make up the rest. -/
theorem authority_iff (ht : ¬SlashFirst t) : Authority t host port path ↔ splitAuthority t = (host, port, path) := by
  refine ⟨fun h => splitAuthority_eq h ht, fun h => ?_⟩
  obtain ⟨host', port', path', h'⟩ := exists_authority t
  have heq := (splitAuthority_eq h' ht).symm.trans h
  simp only [Prod.mk.injEq] at heq
  obtain ⟨rfl, rfl, rfl⟩ := heq
  exact h'

/-! ## The whole URL -/

/-- The separator at `p` is whole, and something is in front of it. -/
def ProperSep (u : Text) (p : ℕ) : Prop := 0 < p ∧ (u.drop p).take 3 = "://".toList

instance (u : Text) (p : ℕ) : Decidable (ProperSep u p) := inferInstanceAs (Decidable (_ ∧ _))

/-- The texts without a separator; those with a scheme and a whole separator, and no slash before
a colon in the rest; and others, with three characters from the first colon or slash on, behind
which there is nothing, or a colon, or a slash and no colon. -/
def UrlHandled (u : Text) : Prop :=
  match u.findIdx? isUrlSep with
  | none => True
  | some p =>
    p + 3 ≤ u.length ∧
      if ProperSep u p then ¬SlashFirst (u.drop (p + 3))
      else u.drop (p + 3) = [] ∨ (u.drop (p + 3)).head? = some ':' ∨
        (u.drop (p + 3)).head? = some '/' ∧ ':' ∉ u.drop (p + 3)

theorem UrlForm.findIdx? (h : UrlForm u scheme host port path) : u.findIdx? isUrlSep = some scheme.length := by
  obtain ⟨-, hplain, -, t, -, rfl⟩ := h
  exact findIdx?_of_head hplain rfl

/-- A URL, by its first separator. -/
theorem urlForm_iff {p : ℕ} (hp : u.findIdx? isUrlSep = some p) :
    UrlForm u scheme host port path ↔
      ProperSep u p ∧ u.take p = scheme ∧ host ≠ [] ∧ Authority (u.drop (p + 3)) host port path := by
  constructor
  · intro h
    obtain rfl := Option.some.inj (hp.symm.trans h.findIdx?)
    obtain ⟨hscheme, -, hhost, t, ht, rfl⟩ := h
    refine ⟨⟨List.length_pos_iff.mpr hscheme, by simp⟩, by simp, hhost, ?_⟩
    simpa [← List.drop_drop] using ht
  · rintro ⟨⟨hpos, hsep⟩, rfl, hhost, hrest⟩
    obtain ⟨hlt, -, hbefore⟩ := List.findIdx?_eq_some_iff_getElem.mp hp
    refine ⟨?_, ?_, hhost, u.drop (p + 3), hrest, ?_⟩
    · intro hnil
      rcases List.take_eq_nil_iff.mp hnil with rfl | rfl
      · exact absurd hpos (lt_irrefl 0)
      · exact absurd hlt (Nat.not_lt_zero p)
    · intro c hc
      obtain ⟨j, hj, rfl⟩ := List.mem_take_iff_getElem.mp hc
      simpa using hbefore j (by omega)
    · calc u = u.take p ++ ((u.drop p).take 3 ++ (u.drop p).drop 3) := by
            rw [List.take_append_drop, List.take_append_drop]
        _ = u.take p ++ (':' :: '/' :: '/' :: u.drop (p + 3)) := by
            rw [hsep, List.drop_drop]
            rfl

/-- A scheme and a whole separator. -/
theorem parseUrl_scheme (hscheme : UrlPlain scheme) :
    parseUrl (scheme ++ (':' :: '/' :: '/' :: t)) =
      some { ok := (splitAuthority t).1 != [], protocol := scheme, host := (splitAuthority t).1,
             port := (splitAuthority t).2.1, path := (splitAuthority t).2.2 } := by
  have hlen : ¬(scheme ++ (':' :: '/' :: '/' :: t)).length < scheme.length + 3 := by
    simp only [List.length_append, List.length_cons]
    omega
  rw [parseUrl_eq, findIdx?_of_head hscheme rfl]
  simp only [if_neg hlen]
  simp [← List.drop_drop]

/-- **`parse_url`**: exactly these texts are taken as they should be. -/
theorem urlTaken_iff (u : Text) : UrlTaken u ↔ UrlHandled u := by
  cases hp : u.findIdx? isUrlSep with
  | none =>
    have hno : ∀ scheme host port path, ¬UrlForm u scheme host port path := fun _ _ _ _ h => by
      rw [h.findIdx?] at hp
      cases hp
    simp [UrlTaken, UrlHandled, parseUrl_eq, hp, hno]
  | some p =>
    by_cases hlen : u.length < p + 3
    · simp [UrlTaken, UrlHandled, parseUrl_eq, hp, hlen]
    · rw [UrlTaken, UrlHandled, parseUrl_eq, hp]
      simp only [if_neg hlen, Option.some.injEq, exists_eq_left', urlForm_iff hp, not_lt.mp hlen, true_and]
      by_cases hsep : ProperSep u p
      · rw [if_pos hsep]
        constructor
        · intro h hslash
          have hmem := slash_mem_host hslash
          have hhost : (splitAuthority (u.drop (p + 3))).1 ≠ [] := List.ne_nil_of_mem hmem
          obtain ⟨-, -, -, hplain, -⟩ := (h _ _ _ _).mp ⟨by simpa using hhost, rfl, rfl, rfl, rfl⟩
          exact hplain.slash hmem
        · intro hslash scheme host port path
          rw [authority_iff hslash, Prod.ext_iff, Prod.ext_iff]
          simp only [hsep, true_and, bne_iff_ne]
          constructor
          · rintro ⟨hne, rfl, rfl, rfl, rfl⟩
            exact ⟨rfl, hne, rfl, rfl, rfl⟩
          · rintro ⟨rfl, hne, rfl, rfl, rfl⟩
            exact ⟨hne, rfl, rfl, rfl, rfl⟩
      · rw [if_neg hsep, ← host_eq_nil_iff]
        simp only [hsep, false_and, iff_false, not_and]
        constructor
        · intro h
          by_contra hne
          exact h _ _ _ _ (by simpa using hne) rfl rfl rfl rfl
        · intro h _ _ _ _ hok
          simp [h] at hok

/-- A colon in the path is taken for the one of the port. -/
theorem colon_in_path : ¬UrlTaken "http://h/a:1".toList := by
  have hparse : parseUrl "http://h/a:1".toList =
      some ⟨true, "http".toList, "h/a".toList, "1".toList, "/a:1".toList⟩ := by decide +kernel
  rintro ⟨r, hr, h⟩
  obtain rfl := Option.some.inj (hparse.symm.trans hr)
  obtain ⟨-, -, -, t, ⟨hplain, -⟩, -⟩ := (h _ _ _ _).mp ⟨rfl, rfl, rfl, rfl, rfl⟩
  exact hplain.slash (by decide)

end Aes67Daemon
