import Aes67Daemon.Lib.Text

/-!
# Columns

A table in text has its columns apart by one or more blanks.  It is taken apart by
`boost::split` with token compression, which takes adjacent separators for one.

## Main definitions

* `squeeze`, `splitCompressed` — `boost::split` with token compression.
* `columns` — a line of fields, with a gap after each but the last.
* `splitCompressed_columns`, `isInfix_columns_iff` — the fields are told apart, and a
  text without blanks is found in a line if it is in a field.
-/
namespace Aes67Daemon

namespace Text

/-- Of adjacent separators the last is kept. -/
def squeeze (p : Char → Bool) : Text → Text
  | [] => []
  | c :: t => if p c && t.head?.any p then squeeze p t else c :: squeeze p t

/-- `boost::split` with token compression. -/
def splitCompressed (p : Char → Bool) (t : Text) : List Text := splitBy p (squeeze p t)

/-- Fields with the gaps after them, a gap being one blank and some more, and a last field. -/
def columns (c : Char) : List (Text × ℕ) → Text → Text
  | [], last => last
  | (f, n) :: fs, last => f ++ List.replicate (n + 1) c ++ columns c fs last

/-- What a field of a line must be. -/
def IsColumn (c : Char) (f : Text) : Prop := f ≠ [] ∧ c ∉ f

variable {c : Char} {f last : Text} {fs : List (Text × ℕ)}

theorem squeeze_append {p : Char → Bool} (h : ∀ d ∈ f, p d = false) (t : Text) :
    squeeze p (f ++ t) = f ++ squeeze p t := by
  induction f with
  | nil => rfl
  | cons d f ih =>
      rw [List.cons_append, squeeze, h d List.mem_cons_self, Bool.false_and]
      rw [ih fun e he => h e (List.mem_cons_of_mem _ he)]
      rfl

/-- A gap is one separator. -/
theorem squeeze_replicate {p : Char → Bool} (hc : p c = true) (n : ℕ) {t : Text}
    (ht : t.head?.any p = false) : squeeze p (List.replicate (n + 1) c ++ t) = c :: squeeze p t := by
  induction n with
  | zero => simp [squeeze, hc, ht]
  | succ n ih =>
      have hhead : (List.replicate (n + 1) c ++ t).head?.any p = true := by
        simp [List.replicate_succ, hc]
      rw [List.replicate_succ, List.cons_append, squeeze, hc, hhead]
      exact ih

theorem head?_columns (hf : ∀ g ∈ fs, IsColumn c g.1) (hlast : IsColumn c last) :
    (columns c fs last).head?.any (· = c) = false := by
  have hfield : ∀ g t : Text, IsColumn c g → (g ++ t).head?.any (· = c) = false := by
    intro g t hg
    obtain ⟨d, g, rfl⟩ := List.exists_cons_of_ne_nil hg.1
    have hd : d ≠ c := fun h => hg.2 (h ▸ List.mem_cons_self)
    simpa using hd
  cases fs with
  | nil => simpa [columns] using hfield last [] hlast
  | cons g fs =>
      rw [columns, List.append_assoc]
      exact hfield g.1 _ (hf g List.mem_cons_self)

/-- **The fields of a line are told apart.** -/
theorem splitCompressed_columns (hf : ∀ g ∈ fs, IsColumn c g.1) (hlast : IsColumn c last) :
    splitCompressed (· = c) (columns c fs last) = fs.map Prod.fst ++ [last] := by
  have hno : ∀ g : Text, IsColumn c g → ∀ d ∈ g, decide (d = c) = false := fun g hg d hd =>
    decide_eq_false fun h => hg.2 (h ▸ hd)
  induction fs with
  | nil =>
      have hself := squeeze_append (hno last hlast) []
      rw [List.append_nil] at hself
      rw [columns, splitCompressed, hself, squeeze, List.append_nil]
      exact splitBy_eq_singleton (hno last hlast)
  | cons g fs ih =>
      have hg := hf g List.mem_cons_self
      have hfs : ∀ g ∈ fs, IsColumn c g.1 := fun g' hg' => hf g' (List.mem_cons_of_mem _ hg')
      have hhead := head?_columns hfs hlast
      rw [columns, splitCompressed, List.append_assoc, squeeze_append (hno _ hg),
        squeeze_replicate (by simp) _ hhead, splitBy_append_cons (hno _ hg) (by simp)]
      exact congrArg (g.1 :: ·) (ih hfs)

/-- A text does not go over a character that it does not have. -/
theorem isInfix_append_cons_iff {s a b : Text} (hs : c ∉ s) :
    s <:+: a ++ c :: b ↔ s <:+: a ∨ s <:+: b := by
  constructor
  · rintro ⟨u, v, h⟩
    rw [List.append_assoc] at h
    rcases List.append_eq_append_iff.mp h with ⟨w, hw, hwv⟩ | ⟨w, hw, hwv⟩
    · rcases List.append_eq_append_iff.mp hwv with ⟨x, hx, -⟩ | ⟨x, hx, hxv⟩
      · exact .inl ⟨u, x, by rw [hw, hx, List.append_assoc]⟩
      · cases x with
        | nil =>
            rw [List.append_nil] at hx
            exact .inl ⟨u, [], by rw [hw, hx, List.append_nil]⟩
        | cons d x =>
            obtain ⟨rfl, -⟩ := List.cons.inj hxv
            exact absurd (hx ▸ List.mem_append_right _ List.mem_cons_self) hs
    · cases w with
      | nil =>
          cases s with
          | nil => exact .inl (List.nil_infix)
          | cons d s =>
              obtain ⟨rfl, -⟩ := List.cons.inj hwv
              exact absurd List.mem_cons_self hs
      | cons d w =>
          obtain ⟨rfl, hb⟩ := List.cons.inj hwv
          exact .inr ⟨w, v, by rw [hb, List.append_assoc]; rfl⟩
  · rintro (h | h)
    · exact h.trans (List.prefix_append _ _).isInfix
    · exact h.trans ((List.suffix_cons _ _).trans (List.suffix_append _ _)).isInfix

/-- **A text without blanks is found in a line if it is in one of the fields.** -/
theorem isInfix_columns_iff {s : Text} (hs : c ∉ s) (hne : s ≠ []) :
    s <:+: columns c fs last ↔ (∃ g ∈ fs, s <:+: g.1) ∨ s <:+: last := by
  have hgap : ∀ n t, s <:+: List.replicate n c ++ t ↔ s <:+: t := by
    intro n t
    induction n with
    | zero => rfl
    | succ n ih =>
        have hnil := isInfix_append_cons_iff (a := []) (b := List.replicate n c ++ t) hs
        rw [List.replicate_succ, List.cons_append, ← List.nil_append (c :: _), hnil, ih]
        exact or_iff_right fun h => hne (List.infix_nil.mp h)
  induction fs with
  | nil => simp [columns]
  | cons g fs ih =>
      rw [columns, List.replicate_succ, List.append_assoc, List.cons_append,
        isInfix_append_cons_iff hs, hgap, List.exists_mem_cons_iff, or_assoc]
      exact or_congr_right ih

/-- The characters of a line. -/
theorem mem_columns {d : Char} (h : d ∈ columns c fs last) : d = c ∨ (∃ g ∈ fs, d ∈ g.1) ∨ d ∈ last := by
  induction fs with
  | nil => exact .inr (.inr h)
  | cons g fs ih =>
      rw [columns, List.mem_append, List.mem_append] at h
      rcases h with (h | h) | h
      · exact .inr (.inl ⟨g, List.mem_cons_self, h⟩)
      · exact .inl (List.eq_of_mem_replicate h)
      · rcases ih h with h | ⟨g', hg', h⟩ | h
        · exact .inl h
        · exact .inr (.inl ⟨g', List.mem_cons_of_mem _ hg', h⟩)
        · exact .inr (.inr h)

/-- The characters of fields with a separator between them. -/
theorem mem_intercalate {d : Char} {ls : List Text} (h : d ∈ [c].intercalate ls) :
    d = c ∨ ∃ l ∈ ls, d ∈ l := by
  induction ls with
  | nil => cases h
  | cons l ls ih =>
      cases ls with
      | nil =>
          rw [List.intercalate_singleton] at h
          exact .inr ⟨l, List.mem_cons_self, h⟩
      | cons l' ls =>
          rw [List.intercalate_cons_cons, List.mem_append, List.mem_append, List.mem_singleton] at h
          rcases h with (h | h) | h
          · exact .inr ⟨l, List.mem_cons_self, h⟩
          · exact .inl h
          · rcases ih h with h | ⟨l'', hl, h⟩
            · exact .inl h
            · exact .inr ⟨l'', List.mem_cons_of_mem _ hl, h⟩

/-- Fields with a separator between them are told apart. -/
theorem splitBy_intercalate {ls : List Text} (h : ∀ l ∈ ls, c ∉ l) (hne : ls ≠ []) :
    splitBy (· = c) ([c].intercalate ls) = ls := by
  have hp : (fun d : Char => decide (d = c)) = (· == c) := by
    funext d
    exact (beq_eq_decide d c).symm
  rw [splitBy, hp]
  exact List.splitOn_intercalate c h hne

/-! ## Hexadecimal numbers -/

/-- `strtol` with base 16. -/
def strtolHex (t : Text) : ℤ :=
  let (neg, t) := sign (trimLeft t)
  let t := if t.head? = some '0' ∧ (t.drop 1).head?.any (fun x => x.toLower = 'x') ∧
    (t.drop 2).head?.any (fun d => (hexDigit d).isSome) then t.drop 2 else t
  let n := (t.takeWhile fun d => (hexDigit d).isSome).foldl (fun v d => 16 * v + (hexDigit d).getD 0) 0
  if neg then max (-9223372036854775808) (-n) else min 9223372036854775807 n

end Text
end Aes67Daemon
