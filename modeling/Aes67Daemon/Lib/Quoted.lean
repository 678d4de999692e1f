import Aes67Daemon.Lib.JsonText

/-!
# Texts cut at their quotes

A document that is written by hand is a row of strings in quotes, each followed by what
stands between its closing quote and the next string.  Whoever looks for a member with a
string value by its words, key, colon and value, finds it wherever two strings in a row
are the key and the value with a colon between them.

## Main definitions

* `quotedText` — strings in quotes, each with what follows it.
* `fieldText` — the words of a member.
* `words_infix_iff`, `fieldText_infix_iff` — where words in quotes are found.
-/
namespace Aes67Daemon

/-- Strings in quotes, each with the text that follows it. -/
def quotedText (us : List (Text × Text)) : Text := us.flatMap fun u => inQuotes u.1 ++ u.2

/-- A member with a string value. -/
def fieldText (key value : Text) : Text := inQuotes key ++ ": ".toList ++ inQuotes value

/-- The strings that follow a key and a colon. -/
def fieldValues (key : Text) : List (Text × Text) → List Text
  | [] => []
  | [_] => []
  | u :: u' :: us =>
    if u = (key, ": ".toList) then u'.1 :: fieldValues key (u' :: us) else fieldValues key (u' :: us)

variable {key v : Text} {us us' : List (Text × Text)}

@[simp] theorem quotedText_nil : quotedText [] = [] := rfl

theorem quotedText_cons (u : Text × Text) (us : List (Text × Text)) :
    quotedText (u :: us) = '"' :: (u.1 ++ '"' :: (u.2 ++ quotedText us)) := by
  simp [quotedText, inQuotes]

theorem quotedText_append (us us' : List (Text × Text)) : quotedText (us ++ us') = quotedText us ++ quotedText us' :=
  List.flatMap_append

theorem fieldText_eq (key value : Text) : fieldText key value = '"' :: (key ++ '"' :: (": ".toList ++ '"' :: (value ++ ['"']))) := by
  simp [fieldText, inQuotes]

/-! ## Where a text begins that begins with a quote -/

/-- Up to a character that neither part has, texts agree part by part. -/
theorem append_cons_prefix_iff {c : Char} {a b s t : Text} (ha : c ∉ a) (hb : c ∉ b) :
    a ++ c :: s <+: b ++ c :: t ↔ a = b ∧ s <+: t := by
  induction a generalizing b with
  | nil =>
    cases b with
    | nil => simp
    | cons d b =>
      have hne : c ≠ d := fun heq => hb (heq ▸ List.mem_cons_self)
      simp [hne]
  | cons d a ih =>
    have hd : d ≠ c := fun heq => ha (heq ▸ List.mem_cons_self)
    cases b with
    | nil => simp [hd]
    | cons e b =>
      have ih := ih (fun hmem => ha (List.mem_cons_of_mem _ hmem)) (b := b) fun hmem => hb (List.mem_cons_of_mem _ hmem)
      rw [List.cons_append, List.cons_append, List.cons_prefix_cons, ih, List.cons_eq_cons, and_assoc]

/-- What is without a character is no place for a text with it. -/
theorem not_prefix_of_notMem {c : Char} {a s t : Text} (ht : c ∉ t) : ¬ a ++ c :: s <+: t := by
  rintro ⟨u, rfl⟩
  exact ht (by simp)

/-- A text that begins with a character is not found before it. -/
theorem cons_infix_append_iff {c : Char} {p x t : Text} (hx : c ∉ x) : c :: p <:+: x ++ t ↔ c :: p <:+: t := by
  induction x with
  | nil => rfl
  | cons d x ih =>
    rw [List.mem_cons, not_or] at hx
    rw [List.cons_append, List.infix_cons_iff, ih hx.2]
    simp [hx.1]

/-- **Words that stand around a string in quotes are found where it is one of the strings.** -/
theorem words_infix_iff {sep rest : Text} (hkey : '"' ∉ key) (hsep : '"' ∉ sep)
    (hus : ∀ u ∈ us, '"' ∉ u.1 ∧ '"' ∉ u.2 ∧ u.2 ≠ key) :
    '"' :: (key ++ '"' :: (sep ++ '"' :: rest)) <:+: quotedText us ↔
      ∃ a u b, us = a ++ (key, sep) :: u :: b ∧ rest <+: u.1 ++ '"' :: (u.2 ++ quotedText b) := by
  induction us with
  | nil => simp
  | cons u us ih =>
    obtain ⟨⟨hstring, hrest, hne⟩, hus⟩ := List.forall_mem_cons.mp hus
    rw [quotedText_cons, List.infix_cons_iff, List.cons_prefix_cons, cons_infix_append_iff hstring,
      List.infix_cons_iff, List.cons_prefix_cons, append_cons_prefix_iff hkey hstring, cons_infix_append_iff hrest,
      ih hus]
    simp only [true_and]
    -- The words do not begin at a closing quote, for what follows it is not the key.
    have hclosing : ¬ key ++ '"' :: (sep ++ '"' :: rest) <+: u.2 ++ quotedText us := by
      cases us with
      | nil =>
        rw [quotedText_nil, List.append_nil]
        exact not_prefix_of_notMem hrest
      | cons u' us =>
        rw [quotedText_cons, append_cons_prefix_iff hkey hrest]
        exact fun h => hne h.1.symm
    constructor
    · rintro (⟨hfirst, hpre⟩ | hpre | ⟨a, u', b, heq, hpre⟩)
      · cases us with
        | nil =>
          rw [quotedText_nil, List.append_nil] at hpre
          exact absurd hpre (not_prefix_of_notMem hrest)
        | cons u' us =>
          rw [quotedText_cons, append_cons_prefix_iff hsep hrest] at hpre
          exact ⟨[], u', us, by rw [hfirst, hpre.1]; rfl, hpre.2⟩
      · exact absurd hpre hclosing
      · exact ⟨u :: a, u', b, by rw [heq]; rfl, hpre⟩
    · rintro ⟨a, u', b, heq, hpre⟩
      cases a with
      | nil =>
        cases heq
        rw [quotedText_cons, append_cons_prefix_iff hsep hrest]
        exact .inl ⟨rfl, rfl, hpre⟩
      | cons w a =>
        obtain ⟨-, rfl⟩ := List.cons.inj heq
        exact .inr (.inr ⟨a, u', b, rfl, hpre⟩)

theorem mem_fieldValues_iff :
    v ∈ fieldValues key us ↔ ∃ a u b, us = a ++ (key, ": ".toList) :: u :: b ∧ v = u.1 := by
  induction us with
  | nil => simp [fieldValues]
  | cons u us ih =>
    cases us with
    | nil =>
      refine iff_of_false List.not_mem_nil ?_
      rintro ⟨a, u', b, heq, -⟩
      have hlen := congrArg List.length heq
      simp only [List.length_append, List.length_cons, List.length_nil] at hlen
      omega
    | cons u' us =>
      have hcons : (∃ a w b, u :: u' :: us = a ++ (key, ": ".toList) :: w :: b ∧ v = w.1) ↔
          (u = (key, ": ".toList) ∧ v = u'.1) ∨ v ∈ fieldValues key (u' :: us) := by
        rw [ih]
        constructor
        · rintro ⟨a, w, b, heq, hv⟩
          cases a with
          | nil =>
            cases heq
            exact .inl ⟨rfl, hv⟩
          | cons x a => exact .inr ⟨a, w, b, (List.cons.inj heq).2, hv⟩
        · rintro (⟨rfl, hv⟩ | ⟨a, w, b, heq, hv⟩)
          · exact ⟨[], u', us, rfl, hv⟩
          · exact ⟨u :: a, w, b, by rw [heq]; rfl, hv⟩
      rw [hcons, fieldValues]
      split
      · rename_i heq
        simp only [heq, List.mem_cons, true_and]
      · rename_i hne
        simp only [hne, false_and, false_or]

/-- **The words of a member are found where its key and its value are strings in a row.** -/
theorem fieldText_infix_iff (hkey : '"' ∉ key) (hv : '"' ∉ v)
    (hus : ∀ u ∈ us, '"' ∉ u.1 ∧ '"' ∉ u.2 ∧ u.2 ≠ key) : fieldText key v <:+: quotedText us ↔ v ∈ fieldValues key us := by
  rw [fieldText_eq, words_infix_iff hkey (by decide) hus, mem_fieldValues_iff]
  refine exists_congr fun a => exists_congr fun u => exists_congr fun b => and_congr_right fun heq => ?_
  have hu : '"' ∉ u.1 := (hus u (by simp [heq])).1
  rw [append_cons_prefix_iff hv hu, and_iff_left List.nil_prefix]

/-- They are there, whatever the texts are. -/
theorem fieldText_infix (us us' : List (Text × Text)) (rest : Text) :
    fieldText key v <:+: quotedText (us ++ (key, ": ".toList) :: (v, rest) :: us') := by
  refine ⟨quotedText us, rest ++ quotedText us', ?_⟩
  rw [quotedText_append, quotedText_cons, quotedText_cons, fieldText_eq]
  simp

end Aes67Daemon
