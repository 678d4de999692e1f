import Aes67Daemon.Lib.Run
import Aes67Daemon.Rtsp.Session
import Mathlib.Data.List.TakeWhile

/-!
# Requests and reads

How a stream of bytes is cut into reads makes no difference to the requests a
session sees, with one exception: where a read ends between the carriage return and
the newline of the empty line that ends a request, the request passes for complete,
more bytes are counted than have been read, and the buffer is shifted by a negative
length.

The text of a request is taken apart into its lines; what an incomplete request
leaves in `cseq_` is overwritten when the request is read again.

## Main definitions

* `OpenRequest` — the lines of a request up to the empty line that ends it.
* `Halts` — the texts on which a session breaks down.
* `RtspSession.drain_append` — a text that comes in two parts.
* `RtspSession.framing_iff` — when reads make no difference.
-/
namespace Aes67Daemon

open Text

/-! ## The loop over the headers -/

/-- The loop goes on after the line. -/
def HeaderLine.Goes : HeaderLine → Prop
  | .cseq _ | .other => True
  | .ending | .unreadable => False

/-- The `CSeq` after some headers. -/
def lastCseq (cseq : ℤ) (headers : List Text) : ℤ :=
  headers.foldl (fun c l => match headerLine l with
    | .cseq n => n
    | _ => c) cseq

section
variable {cseq : ℤ} {consumed : ℕ} {l t : Text} {hs : List Text}

theorem headerLine_cr : headerLine ['\r'] = .ending := rfl

theorem headerLine_ending (h : headerLine l = .ending) : l = [] ∨ l = ['\r'] := by
  by_contra hne
  rw [headerLine, if_neg hne] at h
  dsimp only at h
  split at h
  · split at h <;> cases h
  · cases h

/-- Headers in front of other text. -/
theorem readHeaders_unlines (hgoes : ∀ l ∈ hs, '\n' ∉ l ∧ (headerLine l).Goes) (t : Text) :
    readHeaders cseq consumed (getLines (unlines hs ++ t)) =
      readHeaders (lastCseq cseq hs) (consumed + (unlines hs).length) (getLines t) := by
  induction hs generalizing cseq consumed with
  | nil => rfl
  | cons l hs ih =>
      obtain ⟨⟨hline, hgo⟩, hrest⟩ := List.forall_mem_cons.mp hgoes
      rw [unlines_cons, List.append_assoc, List.cons_append, getLines_line_append hline]
      have hlength : consumed + (l ++ '\n' :: unlines hs).length =
          consumed + l.length + 1 + (unlines hs).length := by
        simp only [List.length_append, List.length_cons]
        omega
      rw [hlength, lastCseq, List.foldl_cons, readHeaders]
      cases hl : headerLine l with
      | ending =>
          rw [hl] at hgo
          exact hgo.elim
      | unreadable =>
          rw [hl] at hgo
          exact hgo.elim
      | cseq n => exact ih hrest
      | other => exact ih hrest

/-- Headers and the empty line after them. -/
theorem readHeaders_ending (hgoes : ∀ l ∈ hs, '\n' ∉ l ∧ (headerLine l).Goes) {e : Text}
    (he : e = [] ∨ e = ['\r']) (t : Text) :
    readHeaders cseq consumed (getLines (unlines hs ++ e ++ '\n' :: t)) =
      { isEnd := true, cseq := lastCseq cseq hs,
        consumed := consumed + (unlines hs).length + e.length + 1 } := by
  have hline : '\n' ∉ e := by rcases he with rfl | rfl <;> decide
  have hkind : headerLine e = .ending := by rcases he with rfl | rfl <;> rfl
  rw [List.append_assoc, readHeaders_unlines hgoes, getLines_line_append hline, readHeaders, hkind]

/-- Headers and a carriage return that nothing follows yet. -/
theorem readHeaders_cut (hgoes : ∀ l ∈ hs, '\n' ∉ l ∧ (headerLine l).Goes) :
    readHeaders cseq consumed (getLines (unlines hs ++ ['\r'])) =
      { isEnd := true, cseq := lastCseq cseq hs,
        consumed := consumed + (unlines hs).length + 2 } := by
  rw [readHeaders_unlines hgoes, getLines_of_not_mem (by decide) (by decide), readHeaders,
    headerLine_cr]
  rfl

/-- The loop ends at an empty line or at a carriage return at the end of the text. -/
theorem exists_of_isEnd (h : (readHeaders cseq consumed (getLines t)).isEnd = true) :
    ∃ hs, (∀ l ∈ hs, '\n' ∉ l ∧ (headerLine l).Goes) ∧
      ((∃ e t', (e = [] ∨ e = ['\r']) ∧ t = unlines hs ++ e ++ '\n' :: t') ∨
        t = unlines hs ++ ['\r']) := by
  induction t using line_induction generalizing cseq consumed with
  | last t hline =>
      by_cases ht : t = []
      · subst ht
        cases h
      · rw [getLines_of_not_mem ht hline, readHeaders] at h
        cases hl : headerLine t with
        | ending =>
            rcases headerLine_ending hl with rfl | rfl
            · exact absurd rfl ht
            · exact ⟨[], nofun, .inr rfl⟩
        | cseq n =>
            rw [hl] at h
            cases h
        | unreadable =>
            rw [hl] at h
            cases h
        | other =>
            rw [hl] at h
            cases h
  | line l t hline ih =>
      rw [getLines_line_append hline, readHeaders] at h
      have hcons : (headerLine l).Goes → (∃ cseq consumed,
          (readHeaders cseq consumed (getLines t)).isEnd = true) →
          ∃ hs, (∀ l ∈ hs, '\n' ∉ l ∧ (headerLine l).Goes) ∧
            ((∃ e t', (e = [] ∨ e = ['\r']) ∧ l ++ '\n' :: t = unlines hs ++ e ++ '\n' :: t') ∨
              l ++ '\n' :: t = unlines hs ++ ['\r']) := by
        rintro hgo ⟨c, n, hend⟩
        obtain ⟨hs, hgoes, hcase⟩ := ih hend
        refine ⟨l :: hs, List.forall_mem_cons.mpr ⟨⟨hline, hgo⟩, hgoes⟩, ?_⟩
        rcases hcase with ⟨e, t', he, rfl⟩ | rfl
        · exact .inl ⟨e, t', he, by simp [unlines_cons]⟩
        · exact .inr (by simp [unlines_cons])
      cases hl : headerLine l with
      | ending => exact ⟨[], nofun, .inl ⟨l, t, headerLine_ending hl, rfl⟩⟩
      | unreadable =>
          rw [hl] at h
          cases h
      | cseq n =>
          rw [hl] at h hcons
          exact hcons trivial ⟨_, _, h⟩
      | other =>
          rw [hl] at h hcons
          exact hcons trivial ⟨_, _, h⟩

/-! ### What is left of an incomplete request -/

/-- A text that ends in something else than white space stays in front when white
space behind it is dropped. -/
theorem prefix_trimRight {p z : Text} {c : Char} (hc : isSpace c = false) :
    p ++ [c] <+: (trimLeft (p ++ [c] ++ z).reverse).reverse := by
  have hrev : (p ++ [c] ++ z).reverse = z.reverse ++ c :: p.reverse := by simp
  rw [hrev, trimLeft, List.dropWhile_append]
  split
  · rw [List.dropWhile_cons_of_neg (by simp [hc])]
    simp
  · simp

/-- More text behind a `CSeq` header does not make it another header. -/
theorem headerLine_append {n : ℤ} (h : headerLine l = .cseq n) (x : Text) :
    (∃ k, headerLine (l ++ x) = .cseq k) ∨ headerLine (l ++ x) = .unreadable := by
  have hne : ¬ (l = [] ∨ l = ['\r']) := by
    rintro (rfl | rfl) <;> cases h
  rw [headerLine, if_neg hne] at h
  dsimp only at h
  split at h
  next hpre =>
    have hword : "cseq:".toList = "cseq".toList ++ [':'] := rfl
    -- the word is at the front of what white space in front is dropped from
    have hfront : "cseq:".toList <+: trimLeft (toLower l) := by
      refine hpre.trans ?_
      rw [trim]
      have hsuffix := List.dropWhile_suffix (l := (trimLeft (toLower l)).reverse) isSpace
      exact List.reverse_suffix.mp (by simpa [trimLeft] using hsuffix)
    have hnonempty : ¬ (trimLeft (toLower l)).isEmpty = true := by
      intro hempty
      rw [List.isEmpty_iff.mp hempty] at hfront
      cases List.prefix_nil.mp hfront
    have hwhole : "cseq:".toList <+: trim (toLower (l ++ x)) := by
      obtain ⟨z, hz⟩ := hfront
      have hleft : trimLeft (toLower (l ++ x)) = "cseq".toList ++ [':'] ++ (z ++ toLower x) := by
        have happ : toLower (l ++ x) = toLower l ++ toLower x := List.map_append
        calc trimLeft (toLower (l ++ x))
            = trimLeft (toLower l) ++ toLower x := by
              rw [happ, trimLeft, List.dropWhile_append]
              exact if_neg hnonempty
          _ = "cseq".toList ++ [':'] ++ (z ++ toLower x) := by
              rw [← hz, hword, List.append_assoc]
      rw [trim, hleft]
      exact prefix_trimRight (p := "cseq".toList) (c := ':') (by decide)
    have hne' : ¬ (l ++ x = [] ∨ l ++ x = ['\r']) := by
      rintro (hnil | hcr)
      · exact hne (.inl (List.append_eq_nil_iff.mp hnil).1)
      · rcases List.append_eq_singleton_iff.mp hcr with ⟨hl, -⟩ | ⟨hl, -⟩
        · exact hne (.inl hl)
        · exact hne (.inr hl)
    rw [headerLine, if_neg hne']
    dsimp only
    rw [if_pos hwhole]
    split
    · exact .inl ⟨_, rfl⟩
    · exact .inr rfl
  next => cases h

variable (cseq consumed) in
/-- **Reading again**: what the headers read so far have left in `cseq_` makes no
difference to a request that is complete. -/
theorem readHeaders_again {m : ℕ} {u : Text}
    (hend : (readHeaders cseq consumed (getLines (t ++ u))).isEnd = true) :
    (readHeaders (readHeaders cseq m (getLines t)).cseq consumed (getLines (t ++ u))).cseq =
      (readHeaders cseq consumed (getLines (t ++ u))).cseq := by
  induction t using line_induction generalizing cseq consumed m with
  | last t hline =>
      by_cases ht : t = []
      · subst ht
        rfl
      · rw [getLines_of_not_mem ht hline, readHeaders.eq_2 cseq m]
        cases hl : headerLine t with
        | ending => rfl
        | unreadable => rfl
        | other => rfl
        | cseq n =>
            -- the line goes on with the text that follows
            by_cases hu : '\n' ∈ u
            · obtain ⟨x, u, rfl, hx⟩ := List.eq_append_cons_of_mem hu
              have hlong : '\n' ∉ t ++ x := by simp [hline, hx]
              rw [← List.append_assoc, getLines_line_append hlong] at hend ⊢
              rw [readHeaders] at hend
              rcases headerLine_append hl x with ⟨k, hk⟩ | hbad
              · simp only [readHeaders, hk]
              · rw [hbad] at hend
                cases hend
            · have hlong : '\n' ∉ t ++ u := by simp [hline, hu]
              have hne : t ++ u ≠ [] := by simp [ht]
              rw [getLines_of_not_mem hne hlong, readHeaders] at hend
              rcases headerLine_append hl u with ⟨k, hk⟩ | hbad
              · rw [hk] at hend
                cases hend
              · rw [hbad] at hend
                cases hend
  | line l t hline ih =>
      rw [List.append_assoc, List.cons_append, getLines_line_append hline, readHeaders] at hend
      rw [List.append_assoc, List.cons_append, getLines_line_append hline,
        getLines_line_append hline, readHeaders.eq_2 cseq m, readHeaders.eq_2 cseq consumed]
      cases hl : headerLine l with
      | ending => rw [readHeaders, hl]
      | unreadable => rw [readHeaders, hl]
      | cseq n => rw [readHeaders, hl]
      | other =>
          rw [hl] at hend
          rw [readHeaders, hl]
          exact ih _ _ hend

end

/-! ## Requests -/

/-- The lines of a request up to the empty line that ends it: a request line with at
least three fields, and headers whose `CSeq` can be read. -/
structure OpenRequest where
  line : Text
  headers : List Text
  one_line : '\n' ∉ line
  three_fields : 3 ≤ (requestFields line).length
  headers_go : ∀ l ∈ headers, '\n' ∉ l ∧ (headerLine l).Goes

namespace OpenRequest

/-- The text of the lines. -/
def text (o : OpenRequest) : Text := unlines (o.line :: o.headers)

/-- The `CSeq` of the request. -/
def cseq (o : OpenRequest) : ℤ := lastCseq (-1) o.headers

/-- What becomes of the request, as the first thing on its connection. -/
def answer (h : RtspHost) (dir : Directory) (o : OpenRequest) : Option Answer :=
  Aes67Daemon.answer h dir (requestFields o.line) o.cseq

theorem text_append (o : OpenRequest) (t : Text) :
    o.text ++ t = o.line ++ '\n' :: (unlines o.headers ++ t) := by
  rw [text, unlines_cons, List.append_assoc, List.cons_append]

end OpenRequest

/-- The texts on which a session breaks down: a request whose empty line is cut off
after its carriage return, or one whose URL makes `parse_url` throw, after any
number of requests. -/
inductive Halts (h : RtspHost) (dir : Directory) : Text → Prop
  | cut (o : OpenRequest) : Halts h dir (o.text ++ ['\r'])
  | throws (o : OpenRequest) {e : Text} (he : e = [] ∨ e = ['\r']) (t : Text)
      (hthrows : o.answer h dir = none) : Halts h dir (o.text ++ e ++ '\n' :: t)
  | next (o : OpenRequest) {e t : Text} (he : e = [] ∨ e = ['\r']) (ht : Halts h dir t) :
      Halts h dir (o.text ++ e ++ '\n' :: t)

namespace RtspSession
variable {h : RtspHost} {dir : Directory} {s s' : RtspSession} {o : OpenRequest} {e t : Text}

/-- `process_request` on a text that starts with a line. -/
theorem processRequest_line (hnul : '\x00' ∉ s.buffer) {line rest : Text}
    (hline : '\n' ∉ line) (hbuffer : s.buffer = line ++ '\n' :: rest) :
    s.processRequest h dir =
      if (requestFields line).length < 3 then some (none, s)
      else
        let headers := readHeaders s.cseq (line.length + 1) (getLines rest)
        if headers.isEnd then
          (Aes67Daemon.answer h dir (requestFields line) headers.cseq).map fun a =>
            (some headers.consumed, { s with cseq := headers.cseq }.record line a)
        else some (none, { s with cseq := headers.cseq }) := by
  rw [processRequest, upToNul_eq_self_iff.mpr hnul, hbuffer, getLines_line_append hline]

/-- `process_request` on a complete request. -/
theorem processRequest_complete (hnul : '\x00' ∉ s.buffer) (he : e = [] ∨ e = ['\r'])
    (hbuffer : s.buffer = o.text ++ e ++ '\n' :: t) :
    s.processRequest h dir =
      (Aes67Daemon.answer h dir (requestFields o.line) (lastCseq s.cseq o.headers)).map fun a =>
        (some (o.text.length + e.length + 1),
          { s with cseq := lastCseq s.cseq o.headers }.record o.line a) := by
  have hsplit : s.buffer = o.line ++ '\n' :: (unlines o.headers ++ e ++ '\n' :: t) := by
    rw [hbuffer, List.append_assoc, o.text_append, List.append_assoc]
  have hlength : o.line.length + 1 + (unlines o.headers).length + e.length + 1 =
      o.text.length + e.length + 1 := by
    rw [OpenRequest.text, unlines_cons, List.length_append, List.length_cons]
    omega
  rw [processRequest_line hnul o.one_line hsplit, if_neg (not_lt.mpr o.three_fields),
    readHeaders_ending o.headers_go he, hlength]
  rfl

/-- `process_request` on a request that ends in a carriage return. -/
theorem processRequest_cut (hnul : '\x00' ∉ s.buffer) (hbuffer : s.buffer = o.text ++ ['\r']) :
    s.processRequest h dir =
      (Aes67Daemon.answer h dir (requestFields o.line) (lastCseq s.cseq o.headers)).map fun a =>
        (some (s.buffer.length + 1),
          { s with cseq := lastCseq s.cseq o.headers }.record o.line a) := by
  have hsplit : s.buffer = o.line ++ '\n' :: (unlines o.headers ++ ['\r']) := by
    rw [hbuffer, o.text_append]
  have hlength : o.line.length + 1 + (unlines o.headers).length + 2 = s.buffer.length + 1 := by
    rw [hsplit, List.length_append, List.length_cons, List.length_append]
    simp only [List.length_singleton]
    omega
  rw [processRequest_line hnul o.one_line hsplit, if_neg (not_lt.mpr o.three_fields),
    readHeaders_cut o.headers_go, hlength]
  rfl

/-- The first line of a text can be told from the rest. -/
theorem line_append_inj {l l' u u' : Text} (hl : '\n' ∉ l) (hl' : '\n' ∉ l')
    (heq : l ++ '\n' :: u = l' ++ '\n' :: u') : l = l' ∧ u = u' := by
  have hbreak := congrArg (breakAt '\n') heq
  rw [breakAt_append hl, breakAt_append hl'] at hbreak
  simpa using hbreak

/-- What an attempt leaves in `cseq_` makes no difference to a request that is
complete. -/
def Overwritten (s : RtspSession) (cseq : ℤ) : Prop :=
  ∀ u (o : OpenRequest) e t, (e = [] ∨ e = ['\r']) → s.buffer ++ u = o.text ++ e ++ '\n' :: t →
    lastCseq cseq o.headers = lastCseq s.cseq o.headers

/-- **An attempt to process a request**: there is one, or one that ends in a
carriage return, or the attempt is made again when more has been read. -/
theorem processRequest_cases (h : RtspHost) (dir : Directory) (hnul : '\x00' ∉ s.buffer) :
    (∃ (o : OpenRequest) (e t : Text), (e = [] ∨ e = ['\r']) ∧
      s.buffer = o.text ++ e ++ '\n' :: t) ∨
    (∃ o : OpenRequest, s.buffer = o.text ++ ['\r']) ∨
    (∃ cseq, s.processRequest h dir = some (none, { s with cseq }) ∧ s.Overwritten cseq) := by
  by_cases hmem : '\n' ∈ s.buffer
  · obtain ⟨line, rest, hbuffer, hline⟩ := List.eq_append_cons_of_mem hmem
    rw [processRequest_line hnul hline hbuffer]
    by_cases hfields : (requestFields line).length < 3
    · exact .inr (.inr ⟨s.cseq, if_pos hfields, fun _ _ _ _ _ _ => rfl⟩)
    · rw [if_neg hfields]
      dsimp only
      by_cases hend : (readHeaders s.cseq (line.length + 1) (getLines rest)).isEnd = true
      · obtain ⟨hs, hgoes, hcase⟩ := exists_of_isEnd hend
        let o : OpenRequest := ⟨line, hs, hline, not_lt.mp hfields, hgoes⟩
        rcases hcase with ⟨e, t, he, rfl⟩ | rfl
        · refine .inl ⟨o, e, t, he, ?_⟩
          rw [hbuffer, List.append_assoc, List.append_assoc, o.text_append]
        · exact .inr (.inl ⟨o, by rw [hbuffer, o.text_append]⟩)
      · rw [if_neg hend]
        refine .inr (.inr ⟨_, rfl, fun u o e t he heq => ?_⟩)
        rw [hbuffer, List.append_assoc, List.cons_append, List.append_assoc, o.text_append] at heq
        obtain ⟨rfl, hrest⟩ := line_append_inj hline o.one_line heq
        have hwhole : ∀ c m, readHeaders c m (getLines (rest ++ u)) =
            { isEnd := true, cseq := lastCseq c o.headers,
              consumed := m + (unlines o.headers).length + e.length + 1 } := by
          intro c m
          rw [hrest, ← List.append_assoc, readHeaders_ending o.headers_go he]
        have hagain := readHeaders_again s.cseq 0 (m := o.line.length + 1) (t := rest) (u := u)
          (by rw [hwhole])
        rw [hwhole, hwhole] at hagain
        exact hagain
  · have hempty : s.processRequest h dir = some (none, s) := by
      rw [processRequest, upToNul_eq_self_iff.mpr hnul]
      by_cases hb : s.buffer = []
      · rw [hb]
        rfl
      · rw [getLines_of_not_mem hb hmem]
        dsimp only
        split <;> rfl
    exact .inr (.inr ⟨s.cseq, hempty, fun _ _ _ _ _ _ => rfl⟩)

/-! ## The loop over the requests -/

/-- Process all requests in the buffer. -/
def drain (h : RtspHost) (dir : Directory) (s : RtspSession) : Option RtspSession :=
  serve h dir s.buffer.length s

theorem le_consumed (cseq : ℤ) (consumed : ℕ) (ls : List Text) :
    consumed ≤ (readHeaders cseq consumed ls).consumed := by
  induction ls generalizing cseq consumed with
  | nil => exact le_refl _
  | cons l ls ih =>
      rw [readHeaders]
      have hle : consumed ≤ consumed + l.length + 1 := by omega
      split
      · exact hle
      · exact hle.trans (ih _ _)
      · exact hle
      · exact hle.trans (ih _ _)

/-- A request takes at least one byte, and leaves the buffer to the caller. -/
theorem processRequest_done {consumed : ℕ}
    (hp : s.processRequest h dir = some (some consumed, s')) :
    0 < consumed ∧ s'.buffer = s.buffer := by
  rw [processRequest] at hp
  split at hp
  · cases hp
  next line rest _ =>
    split at hp
    · cases hp
    · dsimp only at hp
      split at hp
      · obtain ⟨a, -, hpair⟩ := Option.map_eq_some_iff.mp hp
        simp only [Prod.mk.injEq, Option.some.injEq] at hpair
        obtain ⟨rfl, rfl⟩ := hpair
        exact ⟨lt_of_lt_of_le (by omega) (le_consumed _ _ _), rfl⟩
      · cases hp

/-- There are no more requests than bytes. -/
theorem serve_eq_drain {n : ℕ} (hn : s.buffer.length ≤ n) : serve h dir n s = drain h dir s := by
  induction n using Nat.strong_induction_on generalizing s with
  | _ n ih =>
      by_cases hb : s.buffer = []
      · have hdrain : drain h dir s = some s := by
          rw [drain, hb]
          rfl
        rw [hdrain]
        cases n with
        | zero => rfl
        | succ n => rw [serve, if_pos hb]
      · obtain ⟨k, hk⟩ := Nat.exists_eq_add_one_of_ne_zero fun h0 => hb (List.length_eq_zero_iff.mp h0)
        obtain ⟨m, rfl⟩ : ∃ m, n = m + 1 := ⟨n - 1, by omega⟩
        rw [drain, hk, serve, serve, if_neg hb, if_neg hb]
        match hp : s.processRequest h dir with
        | none => rfl
        | some (none, s') => rfl
        | some (some consumed, s') =>
            obtain ⟨hpos, hbuffer⟩ := processRequest_done hp
            simp only [Option.bind_some]
            split
            · rfl
            · have hrest : (s'.buffer.drop consumed).length ≤ k := by
                rw [List.length_drop, hbuffer]
                omega
              rw [ih m (by omega) (by dsimp only; omega), ih k (by omega) hrest]

/-- A complete request is taken off the buffer. -/
theorem drain_complete (hnul : '\x00' ∉ s.buffer) (he : e = [] ∨ e = ['\r'])
    (hbuffer : s.buffer = o.text ++ e ++ '\n' :: t) :
    s.drain h dir =
      (Aes67Daemon.answer h dir (requestFields o.line) (lastCseq s.cseq o.headers)).bind fun a =>
        drain h dir { { s with cseq := lastCseq s.cseq o.headers }.record o.line a with
          buffer := t, cseq := -1 } := by
  have hlength : s.buffer.length = o.text.length + e.length + t.length + 1 := by
    rw [hbuffer]
    simp only [List.length_append, List.length_cons]
    omega
  have hdrop : s.buffer.drop (o.text.length + e.length + 1) = t := by
    rw [hbuffer, ← List.length_append, List.append_cons, ← List.length_singleton (a := '\n'),
      ← List.length_append, List.drop_left]
  rw [drain, hlength, serve, if_neg fun hnil => by simp [hnil] at hlength,
    processRequest_complete hnul he hbuffer]
  cases Aes67Daemon.answer h dir (requestFields o.line) (lastCseq s.cseq o.headers) with
  | none => rfl
  | some a =>
      simp only [Option.map_some, Option.bind_some, record]
      rw [if_neg (by omega), hdrop]
      exact serve_eq_drain (by dsimp only; omega)

/-- A request that ends in a carriage return shifts the buffer out of its bounds. -/
theorem drain_cut (hnul : '\x00' ∉ s.buffer) (hbuffer : s.buffer = o.text ++ ['\r']) :
    s.drain h dir = none := by
  have hlength : s.buffer.length = o.text.length + 1 := by
    rw [hbuffer, List.length_append, List.length_singleton]
  rw [drain, hlength, serve, if_neg fun hnil => by simp [hnil] at hlength,
    processRequest_cut hnul hbuffer]
  cases Aes67Daemon.answer h dir (requestFields o.line) (lastCseq s.cseq o.headers) with
  | none => rfl
  | some a =>
      simp only [Option.map_some, Option.bind_some, record]
      exact if_pos (by omega)

/-- An attempt that fails is the last one. -/
theorem drain_more (hp : s.processRequest h dir = some (none, s')) : s.drain h dir = some s' := by
  by_cases hb : s.buffer = []
  · have hsame : s.processRequest h dir = some (none, s) := by
      rw [processRequest, hb]
      rfl
    obtain rfl : s = s' := by simpa [hsame] using hp
    rw [drain, hb]
    rfl
  · obtain ⟨k, hk⟩ := Nat.exists_eq_add_one_of_ne_zero fun h0 => hb (List.length_eq_zero_iff.mp h0)
    rw [drain, hk, serve, if_neg hb, hp]
    rfl

/-! ## Texts in parts -/

/-- The session apart from `cseq_`. -/
def settled (s : RtspSession) : RtspSession := { s with cseq := -1 }

/-- What an attempt has left in `cseq_` makes no difference to the requests that
follow when more is read. -/
theorem drain_overwritten {cseq : ℤ} {u : Text} (hnul : '\x00' ∉ s.buffer ++ u)
    (hover : s.Overwritten cseq) :
    (drain h dir { s with buffer := s.buffer ++ u, cseq }).map settled =
      (drain h dir { s with buffer := s.buffer ++ u }).map settled := by
  have hcomplete : ∀ (o : OpenRequest) (e t : Text), (e = [] ∨ e = ['\r']) →
      s.buffer ++ u = o.text ++ e ++ '\n' :: t →
      drain h dir { s with buffer := s.buffer ++ u, cseq } =
        drain h dir { s with buffer := s.buffer ++ u } := by
    intro o e t he hbuffer
    rw [drain_complete (s := { s with buffer := s.buffer ++ u }) hnul he hbuffer,
      drain_complete (s := { s with buffer := s.buffer ++ u, cseq }) hnul he hbuffer]
    dsimp only
    rw [hover u o e t he hbuffer]
  have hcut : ∀ o : OpenRequest, s.buffer ++ u = o.text ++ ['\r'] →
      drain h dir { s with buffer := s.buffer ++ u, cseq } =
        drain h dir { s with buffer := s.buffer ++ u } := by
    intro o hbuffer
    rw [drain_cut (s := { s with buffer := s.buffer ++ u }) hnul hbuffer,
      drain_cut (s := { s with buffer := s.buffer ++ u, cseq }) hnul hbuffer]
  rcases processRequest_cases (s := { s with buffer := s.buffer ++ u }) h dir hnul with
    ⟨o, e, t, he, hbuffer⟩ | ⟨o, hbuffer⟩ | ⟨c, hp, -⟩
  · rw [hcomplete o e t he hbuffer]
  · rw [hcut o hbuffer]
  · rcases processRequest_cases (s := { s with buffer := s.buffer ++ u, cseq }) h dir hnul with
      ⟨o, e, t, he, hbuffer⟩ | ⟨o, hbuffer⟩ | ⟨c', hp', -⟩
    · rw [hcomplete o e t he hbuffer]
    · rw [hcut o hbuffer]
    · rw [drain_more hp, drain_more hp']
      rfl

/-- **A text in two parts**: what the first part leaves goes on with the second as
the whole text does. -/
theorem drain_append {u : Text} (hnul : '\x00' ∉ s.buffer ++ u) (hs : s.drain h dir = some s') :
    (drain h dir { s with buffer := s.buffer ++ u }).map settled =
      (drain h dir { s' with buffer := s'.buffer ++ u }).map settled := by
  induction hn : s.buffer.length using Nat.strong_induction_on generalizing s with
  | _ n ih =>
      have hnul' : '\x00' ∉ s.buffer := fun hmem => hnul (List.mem_append_left _ hmem)
      rcases processRequest_cases (s := s) h dir hnul' with
        ⟨o, e, t, he, hbuffer⟩ | ⟨o, hbuffer⟩ | ⟨cseq, hp, hover⟩
      · have hlong : s.buffer ++ u = o.text ++ e ++ '\n' :: (t ++ u) := by
          rw [hbuffer, List.append_assoc, List.cons_append]
        rw [drain_complete hnul' he hbuffer] at hs
        obtain ⟨a, ha, hs⟩ := Option.bind_eq_some_iff.mp hs
        rw [drain_complete (s := { s with buffer := s.buffer ++ u }) hnul he hlong, ha,
          Option.bind_some]
        refine ih t.length ?_ ?_ hs rfl
        · rw [← hn, hbuffer, List.length_append, List.length_cons]
          omega
        · rw [hlong] at hnul
          exact fun hmem => hnul (by simp [List.mem_append.mp hmem])
      · rw [drain_cut hnul' hbuffer] at hs
        cases hs
      · rw [drain_more hp] at hs
        obtain rfl := Option.some.inj hs
        exact (drain_overwritten hnul hover).symm

/-- What is left in the buffer is the end of what was there. -/
theorem buffer_drain (hnul : '\x00' ∉ s.buffer) (hs : s.drain h dir = some s') :
    s'.buffer <:+ s.buffer := by
  induction hn : s.buffer.length using Nat.strong_induction_on generalizing s with
  | _ n ih =>
      rcases processRequest_cases (s := s) h dir hnul with
        ⟨o, e, t, he, hbuffer⟩ | ⟨o, hbuffer⟩ | ⟨cseq, hp, -⟩
      · rw [drain_complete hnul he hbuffer] at hs
        obtain ⟨a, -, hs⟩ := Option.bind_eq_some_iff.mp hs
        have hsuffix : t <:+ s.buffer := by
          rw [hbuffer]
          exact (List.suffix_cons '\n' t).trans (List.suffix_append _ _)
        have hlt : t.length < n := by
          rw [← hn, hbuffer, List.length_append, List.length_cons]
          omega
        exact (ih t.length hlt (fun hmem => hnul (hsuffix.subset hmem)) hs rfl).trans hsuffix
      · rw [drain_cut hnul hbuffer] at hs
        cases hs
      · rw [drain_more hp] at hs
        obtain rfl := Option.some.inj hs
        exact List.suffix_rfl

theorem drain_of_halts (hnul : '\x00' ∉ s.buffer) (hcseq : s.cseq = -1)
    (hhalts : Halts h dir s.buffer) : s.drain h dir = none := by
  generalize hb : s.buffer = b at hhalts
  induction hhalts generalizing s with
  | cut o => exact drain_cut hnul hb
  | throws o he t hthrows =>
      rw [OpenRequest.answer, OpenRequest.cseq, ← hcseq] at hthrows
      rw [drain_complete hnul he hb, hthrows, Option.bind_none]
  | next o he ht ih =>
      rw [drain_complete hnul he hb]
      refine Option.bind_eq_none_iff.mpr fun a _ => ih ?_ rfl rfl
      rw [hb] at hnul
      exact fun hmem => hnul (by simp [hmem])

theorem halts_of_drain (hnul : '\x00' ∉ s.buffer) (hcseq : s.cseq = -1)
    (hdrain : s.drain h dir = none) : Halts h dir s.buffer := by
  induction hn : s.buffer.length using Nat.strong_induction_on generalizing s with
  | _ n ih =>
      rcases processRequest_cases (s := s) h dir hnul with
        ⟨o, e, t, he, hbuffer⟩ | ⟨o, hbuffer⟩ | ⟨cseq, hp, -⟩
      · have hlt : t.length < n := by
          rw [← hn, hbuffer, List.length_append, List.length_cons]
          omega
        have hnul' : '\x00' ∉ t := by
          rw [hbuffer] at hnul
          exact fun hmem => hnul (by simp [hmem])
        rw [drain_complete hnul he hbuffer, hcseq] at hdrain
        rw [hbuffer]
        cases ha : o.answer h dir with
        | none => exact .throws o he t ha
        | some a =>
            rw [OpenRequest.answer, OpenRequest.cseq] at ha
            rw [ha, Option.bind_some] at hdrain
            exact .next o he (ih t.length hlt hnul' rfl hdrain rfl)
      · rw [hbuffer]
        exact .cut o
      · rw [drain_more hp] at hdrain
        cases hdrain

/-- **Where a session breaks down**, when it starts on a request. -/
theorem drain_eq_none_iff (hnul : '\x00' ∉ s.buffer) (hcseq : s.cseq = -1) :
    s.drain h dir = none ↔ Halts h dir s.buffer :=
  ⟨halts_of_drain hnul hcseq, drain_of_halts hnul hcseq⟩

/-! ## Reads -/

/-- A session stands where one read of the whole text would have brought it, and
goes on from there. -/
structure StandsFor (h : RtspHost) (dir : Directory) (s : RtspSession) (text : Text) : Prop where
  length_le : s.buffer.length ≤ text.length
  no_nul : '\x00' ∉ s.buffer
  now : some s.settled = (drain h dir { buffer := text }).map settled
  later : ∀ u, '\x00' ∉ u →
    (drain h dir { s with buffer := s.buffer ++ u }).map settled =
      (drain h dir { buffer := text ++ u }).map settled

theorem standsFor_start : StandsFor h dir {} [] :=
  ⟨le_refl _, nofun, rfl, fun _ _ => rfl⟩

/-- A read that a session survives. -/
theorem standsFor_readSome {text chunk : Text} (H : StandsFor h dir s text)
    (hnul : '\x00' ∉ chunk) (hlen : text.length < maxLength)
    (hread : readSome h dir s chunk = some s') : StandsFor h dir s' (text ++ chunk) := by
  have hle := H.length_le
  rw [readSome, if_neg (by omega)] at hread
  have hdrain : drain h dir { s with buffer := s.buffer ++ chunk } = some s' := hread
  have hnul' : '\x00' ∉ s.buffer ++ chunk := by simp [H.no_nul, hnul]
  have hsuffix := buffer_drain (s := { s with buffer := s.buffer ++ chunk }) hnul' hdrain
  refine ⟨?_, fun hmem => hnul' (hsuffix.subset hmem), ?_, fun u hu => ?_⟩
  · have hlength := hsuffix.length_le
    simp only [List.length_append] at hlength ⊢
    omega
  · rw [← H.later chunk hnul, hdrain]
    rfl
  · have happend := drain_append (s := { s with buffer := s.buffer ++ chunk }) (u := u)
      (by simp [H.no_nul, hnul, hu]) hdrain
    dsimp only at happend
    rw [← happend, List.append_assoc, List.append_assoc]
    exact H.later (chunk ++ u) (by simp [hnul, hu])

/-- A read breaks a session down where the whole text in one read would. -/
theorem readSome_eq_none_iff {text chunk : Text} (H : StandsFor h dir s text)
    (hnul : '\x00' ∉ text ++ chunk) (hlen : text.length < maxLength) :
    readSome h dir s chunk = none ↔ Halts h dir (text ++ chunk) := by
  have hle := H.length_le
  have hmap := H.later chunk fun hmem => hnul (List.mem_append_right _ hmem)
  rw [readSome, if_neg (by omega), ← drain_eq_none_iff (s := { buffer := text ++ chunk }) hnul rfl]
  constructor
  · intro hnone
    rw [show drain h dir { s with buffer := s.buffer ++ chunk } = none from hnone] at hmap
    exact Option.map_eq_none_iff.mp hmap.symm
  · intro hnone
    rw [hnone] at hmap
    exact Option.map_eq_none_iff.mp hmap

/-- A run of reads breaks down at the first text that breaks down in one read, and
otherwise ends where one read would. -/
theorem run_readSome {text : Text} (reads : List Text) (H : StandsFor h dir s text)
    (hnul : '\x00' ∉ text ++ reads.flatten) (hlen : (text ++ reads.flatten).length < maxLength)
    (hhalts : ¬ Halts h dir text) :
    (run (readSome h dir) s reads = none ∧ ∃ n, Halts h dir (text ++ (reads.take n).flatten)) ∨
      ∃ s', run (readSome h dir) s reads = some s' ∧ StandsFor h dir s' (text ++ reads.flatten) ∧
        ∀ n, ¬ Halts h dir (text ++ (reads.take n).flatten) := by
  induction reads generalizing s text with
  | nil => exact .inr ⟨s, rfl, by simpa using H, by simpa using hhalts⟩
  | cons chunk reads ih =>
      rw [List.flatten_cons, ← List.append_assoc] at hnul hlen
      have hnul' : '\x00' ∉ text ++ chunk := fun hmem => hnul (List.mem_append_left _ hmem)
      have hlen' : text.length < maxLength := by
        simp only [List.length_append] at hlen
        omega
      have hnone := readSome_eq_none_iff H hnul' hlen'
      rw [run_cons]
      cases hread : readSome h dir s chunk with
      | none =>
          refine .inl ⟨rfl, 1, ?_⟩
          rw [List.take_succ_cons, List.take_zero, List.flatten_singleton]
          exact hnone.mp hread
      | some s₁ =>
          have hno : ¬ Halts h dir (text ++ chunk) := fun hh => by
            rw [hnone.mpr hh] at hread
            cases hread
          have H₁ := standsFor_readSome H (fun hmem => hnul' (List.mem_append_right _ hmem))
            hlen' hread
          rw [Option.bind_some]
          rcases ih H₁ hnul hlen hno with ⟨hrun, n, hn⟩ | ⟨s', hrun, H', hall⟩
          · refine .inl ⟨hrun, n + 1, ?_⟩
            rwa [List.take_succ_cons, List.flatten_cons, ← List.append_assoc]
          · refine .inr ⟨s', hrun, ?_, fun n => ?_⟩
            · rwa [List.flatten_cons, ← List.append_assoc]
            · cases n with
              | zero => simpa using hhalts
              | succ n =>
                  rw [List.take_succ_cons, List.flatten_cons, ← List.append_assoc]
                  exact hall n

theorem not_halts_nil : ¬ Halts h dir [] := by
  intro hhalts
  generalize hb : ([] : Text) = b at hhalts
  cases hhalts <;> simp at hb

/-- **Framing**: a session sees the same requests, with the same answers, in any
reads of a stream as in one read of all of it, if and only if none of the reads ends
where the session breaks down, unless it breaks down on the whole stream in one read
too. -/
theorem framing_iff (h : RtspHost) (dir : Directory) (reads : List Text)
    (hnul : '\x00' ∉ reads.flatten) (hlen : reads.flatten.length < maxLength) :
    (run (readSome h dir) {} reads).map log = (run (readSome h dir) {} [reads.flatten]).map log ↔
      ∀ n, Halts h dir (reads.take n).flatten → Halts h dir reads.flatten := by
  have hone : (run (readSome h dir) {} [reads.flatten]) =
      drain h dir { buffer := reads.flatten } := by
    rw [run_cons]
    cases hread : readSome h dir {} reads.flatten <;> exact hread.symm
  have hwhole : drain h dir { buffer := reads.flatten } = none ↔ Halts h dir reads.flatten :=
    drain_eq_none_iff hnul rfl
  rw [hone]
  rcases run_readSome reads standsFor_start hnul hlen not_halts_nil with
    ⟨hrun, n, hn⟩ | ⟨s', hrun, H', hall⟩
  · rw [hrun, Option.map_none, eq_comm, Option.map_eq_none_iff, hwhole]
    exact ⟨fun hh _ _ => hh, fun hh => hh n hn⟩
  · have hlog := congrArg (Option.map log) H'.now
    rw [Option.map_map] at hlog
    rw [hrun]
    exact ⟨fun _ n hn => absurd hn (hall n), fun _ => hlog⟩

/-- A request in three reads, cut inside its `CSeq` and before its last line. -/
theorem framing_describe : ∃ reads : List Text, 3 ≤ reads.length ∧
    (run (readSome {} (oneSource 1 "v=0".toList)) {} reads).map log =
      some [.answered "DESCRIBE rtsp://h/by-id/1 RTSP/1.0".toList 312 (.described 1 "v=0".toList)] ∧
    (run (readSome {} (oneSource 1 "v=0".toList)) {} reads).map log =
      (run (readSome {} (oneSource 1 "v=0".toList)) {} [reads.flatten]).map log := by
  refine ⟨["DESCRIBE rtsp://h/by-id/1 RTSP/1.0\r\nCSeq: 3".toList, "12\r\n".toList,
    "\r\n".toList], by decide, by decide +kernel, ?_⟩
  refine (framing_iff {} (oneSource 1 "v=0".toList) _ (by decide +kernel) (by decide +kernel)).mpr
    fun n hn => ?_
  have hno : ∀ b : Text, '\x00' ∉ b →
      (drain {} (oneSource 1 "v=0".toList) { buffer := b }).isSome = true →
      ¬ Halts {} (oneSource 1 "v=0".toList) b := by
    intro b hnul hsome hhalts
    rw [drain_of_halts hnul rfl hhalts] at hsome
    cases hsome
  match n with
  | 0 => exact absurd hn not_halts_nil
  | 1 => exact absurd hn (hno _ (by decide +kernel) (by decide +kernel))
  | 2 => exact absurd hn (hno _ (by decide +kernel) (by decide +kernel))
  | n + 3 => simpa using hn

/-- A read ends between the last carriage return and its newline. -/
theorem framing_cut : ∃ reads : List Text, '\x00' ∉ reads.flatten ∧
    reads.flatten.length < maxLength ∧
    (run (readSome {} (oneSource 1 "v=0".toList)) {} reads).map log ≠
      (run (readSome {} (oneSource 1 "v=0".toList)) {} [reads.flatten]).map log :=
  ⟨["DESCRIBE rtsp://h/by-id/1 RTSP/1.0\r\nCSeq: 312\r\n\r".toList, "\n".toList],
    by decide +kernel, by decide +kernel, by decide +kernel⟩

end RtspSession
end Aes67Daemon
