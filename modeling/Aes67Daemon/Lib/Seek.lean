import Aes67Daemon.Lib.Text

/-!
# Searching a text that is made of lines

`std::string::find` looks through a text as a whole.  When what it looks for
stands on one line, it finds it on the first line that has it.  A position in a
text is the rest of the text from there.

## Main definitions

* `seek` — `std::string::find`, from the start of a text.
* `afterLines` — what follows the first line of a text.
* `seekLine` — the search, line by line.
* `seek_lines` — the two searches find the same place.
* `occurrence`, `seekNth_lines` — the searches from one hit to the next, line by line.
* `sections` — the lines from one of a kind to the next.
-/
namespace Aes67Daemon
namespace Text

/-- The text from the first occurrence of `n`. -/
def seek (n : Text) : Text → Option Text
  | [] => if n = [] then some [] else none
  | c :: t => if n.isPrefixOf (c :: t) then some (c :: t) else seek n t

theorem seek_isSome_iff {n t : Text} : (seek n t).isSome ↔ n <:+: t := by
  induction t with
  | nil => simp [seek]
  | cons c t ih =>
      rw [List.infix_cons_iff, ← ih, seek]
      split
      · simp [List.isPrefixOf_iff_prefix.mp ‹_›]
      · simp [mt List.isPrefixOf_iff_prefix.mpr ‹_›]

theorem seek_eq_none_iff {n t : Text} : seek n t = none ↔ ¬ n <:+: t := by
  rw [← seek_isSome_iff, Option.not_isSome_iff_eq_none]

theorem seek_of_isPrefix {n t : Text} (h : n <+: t) : seek n t = some t := by
  cases t with
  | nil => simp [seek, List.prefix_nil.mp h]
  | cons c t => rw [seek, if_pos (List.isPrefixOf_iff_prefix.mpr h)]

theorem seek_cons_of_not_isPrefix {n : Text} {c : Char} {t : Text} (h : ¬ n <+: c :: t) :
    seek n (c :: t) = seek n t := by
  rw [seek, if_neg (mt List.isPrefixOf_iff_prefix.mp h)]

/-- What a search finds is an end of the text, and starts with `n`. -/
theorem seek_eq_some {n t r : Text} (h : seek n t = some r) : r <:+ t ∧ n <+: r := by
  induction t with
  | nil =>
      simp only [seek, Option.ite_none_right_eq_some, Option.some.injEq] at h
      obtain ⟨rfl, rfl⟩ := h
      exact ⟨List.suffix_rfl, List.prefix_rfl⟩
  | cons c t ih =>
      rw [seek] at h
      split at h
      · cases h
        exact ⟨List.suffix_rfl, List.isPrefixOf_iff_prefix.mp ‹_›⟩
      · exact (ih h).imp_left fun hr => hr.trans (List.suffix_cons c t)

/-- A search finds the first place. -/
theorem seek_eq_some_iff {n t r : Text} : seek n t = some r ↔
    ∃ pre, t = pre ++ r ∧ n <+: r ∧ ∀ a b, t = a ++ (n ++ b) → pre.length ≤ a.length := by
  induction t generalizing r with
  | nil =>
      simp only [seek, Option.ite_none_right_eq_some, Option.some.injEq]
      constructor
      · rintro ⟨rfl, rfl⟩
        exact ⟨[], rfl, List.prefix_rfl, fun _ _ _ => Nat.zero_le _⟩
      · rintro ⟨pre, heq, hpre, -⟩
        obtain ⟨rfl, rfl⟩ := List.append_eq_nil_iff.mp heq.symm
        exact ⟨List.prefix_nil.mp hpre, rfl⟩
  | cons c t ih =>
      by_cases hn : n <+: c :: t
      · rw [seek_of_isPrefix hn, Option.some.injEq]
        constructor
        · rintro rfl
          exact ⟨[], rfl, hn, fun _ _ _ => Nat.zero_le _⟩
        · rintro ⟨pre, heq, -, hfirst⟩
          obtain ⟨b, hb⟩ := hn
          have hnil : pre = [] := List.length_eq_zero_iff.mp (Nat.le_zero.mp (hfirst [] b hb.symm))
          rw [heq, hnil, List.nil_append]
      · rw [seek_cons_of_not_isPrefix hn, ih]
        constructor
        · rintro ⟨pre, rfl, hpre, hfirst⟩
          refine ⟨c :: pre, rfl, hpre, fun a b heq => ?_⟩
          cases a with
          | nil => exact absurd ⟨b, heq.symm⟩ hn
          | cons d a => exact Nat.succ_le_succ (hfirst a b (List.cons.inj heq).2)
        · rintro ⟨pre, heq, hpre, hfirst⟩
          cases pre with
          | nil =>
              rw [List.nil_append] at heq
              exact absurd (heq ▸ hpre) hn
          | cons d pre =>
              obtain ⟨rfl, rfl⟩ := List.cons.inj heq
              exact ⟨pre, rfl, hpre, fun a b heq =>
                Nat.le_of_succ_le_succ (hfirst (c :: a) b (by rw [heq]; rfl))⟩

/-! ## Ends of lines -/

/-- A text that is empty or starts with a newline. -/
def EndsLine (t : Text) : Prop := t = [] ∨ ∃ u, t = '\n' :: u

/-- What is looked for: something on a line. -/
structure OnLine (n : Text) : Prop where
  ne_nil : n ≠ []
  newline : '\n' ∉ n

instance (n : Text) : Decidable (OnLine n) :=
  decidable_of_iff (n ≠ [] ∧ '\n' ∉ n) ⟨fun h => ⟨h.1, h.2⟩, fun h => ⟨h.1, h.2⟩⟩

theorem prefix_append_iff {n l t : Text} (hn : '\n' ∉ n) (ht : EndsLine t) :
    n <+: l ++ t ↔ n <+: l := by
  constructor
  · intro h
    rcases ht with rfl | ⟨u, rfl⟩
    · rwa [List.append_nil] at h
    · by_cases hlen : n.length ≤ l.length
      · exact List.prefix_of_prefix_length_le h (List.prefix_append _ _) hlen
      · have hl : l ++ ['\n'] <+: n := List.prefix_of_prefix_length_le
          ⟨u, by simp⟩ h (by simp only [List.length_append, List.length_singleton]; omega)
        exact absurd (hl.subset (by simp)) hn
  · exact fun h => h.trans (List.prefix_append _ _)

theorem takeWhile_append {p : Char → Bool} (hp : p '\n' = false) {t : Text} (ht : EndsLine t)
    (l : Text) : (l ++ t).takeWhile p = l.takeWhile p := by
  induction l with
  | nil =>
      rcases ht with rfl | ⟨u, rfl⟩
      · rfl
      · rw [List.nil_append, List.takeWhile_cons, if_neg (by simp [hp]), List.takeWhile_nil]
  | cons c l ih => simp only [List.cons_append, List.takeWhile_cons, ih]

/-- A search that does not stop on the first line goes on behind it. -/
theorem seek_append {n l t : Text} (hn : OnLine n) (ht : EndsLine t) :
    seek n (l ++ t) = ((seek n l).map (· ++ t)).or (seek n t) := by
  induction l with
  | nil => simp [seek, hn.ne_nil]
  | cons c l ih =>
      by_cases h : n <+: c :: l
      · rw [seek_of_isPrefix h, seek_of_isPrefix ((prefix_append_iff hn.newline ht).mpr h)]
        rfl
      · rw [seek_cons_of_not_isPrefix h, List.cons_append, seek_cons_of_not_isPrefix, ih]
        exact fun h' => h ((prefix_append_iff hn.newline ht).mp h')

theorem seek_newline_cons {n t : Text} (hn : OnLine n) : seek n ('\n' :: t) = seek n t := by
  refine seek_cons_of_not_isPrefix fun h => ?_
  obtain ⟨c, n', hcn⟩ := List.exists_cons_of_ne_nil hn.ne_nil
  rw [hcn, List.cons_prefix_cons] at h
  exact hn.newline (by simp [hcn, h.1])

/-- A search for the start of a line passes over a line. -/
theorem seek_newline_append {n l t : Text} (hl : '\n' ∉ l) :
    seek ('\n' :: n) (l ++ t) = seek ('\n' :: n) t := by
  induction l with
  | nil => rfl
  | cons c l ih =>
      rw [List.mem_cons, not_or] at hl
      rw [List.cons_append, seek_cons_of_not_isPrefix, ih hl.2]
      rw [List.cons_prefix_cons]
      exact fun h => hl.1 h.1

/-! ## Texts made of lines -/

/-- What follows the first line of a text: more lines and an end. -/
def afterLines (e : Text) : List Text → Text
  | [] => e
  | l :: ls => '\n' :: (l ++ afterLines e ls)

theorem endsLine_afterLines {e : Text} (he : EndsLine e) (ls : List Text) :
    EndsLine (afterLines e ls) := by
  cases ls with
  | nil => exact he
  | cons l ls => exact .inr ⟨_, rfl⟩

theorem afterLines_suffix {e : Text} {ls ls' : List Text} (h : ls' <:+ ls) :
    afterLines e ls' <:+ afterLines e ls := by
  obtain ⟨pre, rfl⟩ := h
  induction pre with
  | nil => exact List.suffix_rfl
  | cons l pre ih => exact (ih.trans (List.suffix_append _ _)).trans (List.suffix_cons _ _)

/-- A text is its lines and perhaps a newline. -/
theorem exists_afterLines (t : Text) : ∃ e, (e = [] ∨ e = ['\n']) ∧
    (getLines t = [] → t = []) ∧ (∀ l ∈ getLines t, '\n' ∉ l) ∧
    ∀ l ls, getLines t = l :: ls → t = l ++ afterLines e ls := by
  induction hlen : t.length using Nat.strong_induction_on generalizing t with
  | _ n ih =>
      by_cases hmem : '\n' ∈ t
      · obtain ⟨l, u, rfl, hl⟩ := List.eq_append_cons_of_mem hmem
        obtain ⟨e, he, hnil, hnl, hcons⟩ := ih u.length
          (by rw [← hlen, List.length_append, List.length_cons]; omega) u rfl
        rw [getLines_line_append hl]
        cases hu : getLines u with
        | nil =>
            refine ⟨['\n'], .inr rfl, fun h => absurd h (List.cons_ne_nil _ _),
              List.forall_mem_singleton.mpr hl, ?_⟩
            rintro _ _ ⟨⟩
            rw [hnil hu, afterLines]
        | cons l' ls' =>
            refine ⟨e, he, fun h => absurd h (List.cons_ne_nil _ _), ?_, ?_⟩
            · intro x hx
              rcases List.mem_cons.mp hx with rfl | hx
              · exact hl
              · exact hnl x (hu ▸ hx)
            · rintro _ _ ⟨⟩
              rw [afterLines, ← hcons l' ls' hu]
      · have hsplit : t.splitOn '\n' = [t] := List.splitOn_eq_singleton hmem
        refine ⟨[], .inl rfl, ?_⟩
        simp only [getLines, hsplit, List.getLast?_singleton, Option.some.injEq, List.dropLast_singleton]
        split
        · refine ⟨fun _ => ‹_›, List.forall_mem_nil _, fun l ls h => ?_⟩
          cases h
        · refine ⟨fun h => absurd h (List.cons_ne_nil _ _), List.forall_mem_singleton.mpr hmem, ?_⟩
          rintro _ _ ⟨⟩
          rw [afterLines, List.append_nil]

/-- The first line that contains `n`, from there, and the lines behind it. -/
def seekLine (n : Text) : List Text → Option (Text × List Text)
  | [] => none
  | l :: ls =>
    match seek n l with
    | some r => some (r, ls)
    | none => seekLine n ls

/-- **Searching a text is searching its lines.** -/
theorem seek_lines {n : Text} (hn : OnLine n) {e : Text} (he : e = [] ∨ e = ['\n']) (l : Text)
    (ls : List Text) :
    seek n (l ++ afterLines e ls) = (seekLine n (l :: ls)).map fun r => r.1 ++ afterLines e r.2 := by
  have hend : EndsLine e := he.imp_right fun h => ⟨[], h⟩
  induction ls generalizing l with
  | nil =>
      have hnone : seek n e = none := by
        rcases he with rfl | rfl
        · simp [seek, hn.ne_nil]
        · rw [seek_newline_cons hn]
          simp [seek, hn.ne_nil]
      rw [afterLines, seek_append hn hend, hnone, Option.or_none]
      cases h : seek n l <;> simp [seekLine, h, afterLines]
  | cons l' ls ih =>
      rw [seek_append hn (endsLine_afterLines hend _), afterLines, seek_newline_cons hn, ih]
      cases h : seek n l <;> simp [seekLine, h, afterLines]

/-- A search for a line that starts with `n`, behind the first line. -/
theorem seek_newline_lines {n : Text} (hn : OnLine n) {e : Text} (he : e = [] ∨ e = ['\n']) {l : Text}
    {ls : List Text} (hl : ∀ l' ∈ l :: ls, '\n' ∉ l') :
    seek ('\n' :: n) (l ++ afterLines e ls) =
      match ls.dropWhile fun l' => !n.isPrefixOf l' with
      | [] => none
      | l' :: ls' => some (afterLines e (l' :: ls')) := by
  have hend : EndsLine e := he.imp_right fun h => ⟨[], h⟩
  rw [seek_newline_append (hl l List.mem_cons_self)]
  induction ls generalizing l with
  | nil =>
      rcases he with rfl | rfl
      · simp [afterLines, seek]
      · obtain ⟨c, n', hcn⟩ := List.exists_cons_of_ne_nil hn.ne_nil
        simp [afterLines, seek, hcn]
  | cons l' ls ih =>
      have hpre : '\n' :: n <+: '\n' :: (l' ++ afterLines e ls) ↔ n <+: l' := by
        rw [List.cons_prefix_cons, prefix_append_iff hn.newline (endsLine_afterLines hend _)]
        simp
      rw [List.dropWhile_cons]
      by_cases h : n <+: l'
      · rw [afterLines, seek_of_isPrefix (hpre.mpr h),
          if_neg (by simpa using List.isPrefixOf_iff_prefix.mpr h)]
        rfl
      · have hno : n.isPrefixOf l' = false :=
          Bool.eq_false_iff.mpr (mt List.isPrefixOf_iff_prefix.mp h)
        rw [if_pos (by rw [hno]; rfl), afterLines, seek_cons_of_not_isPrefix (mt hpre.mp h),
          seek_newline_append (hl l' (by simp)),
          ih (l := l') fun x hx => hl x (List.mem_cons_of_mem _ hx)]

/-! ## From one occurrence to the next -/

/-- What a search through lines finds is an end of a line, and the lines behind that line. -/
theorem seekLine_eq_some {n : Text} {ls : List Text} {r : Text × List Text} (h : seekLine n ls = some r) :
    n <+: r.1 ∧ (∃ l ∈ ls, r.1 <:+ l) ∧ r.2 ⊆ ls := by
  induction ls with
  | nil => cases h
  | cons l ls ih =>
      rw [seekLine] at h
      split at h
      · rename_i hl
        cases h
        obtain ⟨hsuffix, hpre⟩ := seek_eq_some hl
        exact ⟨hpre, ⟨l, List.mem_cons_self, hsuffix⟩, List.subset_cons_self l ls⟩
      · obtain ⟨hpre, ⟨l', hl', hsuffix⟩, hsub⟩ := ih h
        exact ⟨hpre, ⟨l', List.mem_cons_of_mem _ hl', hsuffix⟩, fun x hx => List.mem_cons_of_mem _ (hsub hx)⟩

/-- The search for the `k + 1`-th occurrence, each one character behind the last. -/
def seekNth (n : Text) (skip : ℕ) : ℕ → Text → Option Text
  | 0, t => seek n t
  | k + 1, t => (seek n t).bind fun r => seekNth n skip k (r.drop skip)

/-- The `k + 1`-th occurrence in lines, from there, and the lines behind it. -/
def occurrence (n : Text) : ℕ → List Text → Option (Text × List Text)
  | 0, ls => seekLine n ls
  | k + 1, ls => (seekLine n ls).bind fun r => occurrence n k (r.1.tail :: r.2)

/-- An occurrence in lines, and the lines behind it, have no newline either. -/
theorem occurrence_eq_some {n : Text} {k : ℕ} {ls : List Text} {r : Text × List Text}
    (h : occurrence n k ls = some r) (hls : ∀ l ∈ ls, '\n' ∉ l) :
    n <+: r.1 ∧ ∀ l ∈ r.1 :: r.2, '\n' ∉ l := by
  have hfound : ∀ {ls q}, seekLine n ls = some q → (∀ l ∈ ls, '\n' ∉ l) → ∀ l ∈ q.1 :: q.2, '\n' ∉ l := by
    intro ls q hq hls l hl
    obtain ⟨-, ⟨l', hl', hsuffix⟩, hsub⟩ := seekLine_eq_some hq
    rcases List.mem_cons.mp hl with rfl | hl
    · exact fun hmem => hls l' hl' (hsuffix.subset hmem)
    · exact hls l (hsub hl)
  induction k generalizing ls with
  | zero => exact ⟨(seekLine_eq_some h).1, hfound h hls⟩
  | succ k ih =>
      obtain ⟨q, hq, h⟩ := Option.bind_eq_some_iff.mp h
      refine ih h fun l hl => ?_
      rcases List.mem_cons.mp hl with rfl | hl
      · exact fun hmem => hfound hq hls q.1 List.mem_cons_self (List.mem_of_mem_tail hmem)
      · exact hfound hq hls l (List.mem_cons_of_mem _ hl)

/-- **Going from one occurrence to the next is going from line to line.** -/
theorem seekNth_lines {n : Text} (hn : OnLine n) {e : Text} (he : e = [] ∨ e = ['\n']) (k : ℕ)
    (l : Text) (ls : List Text) :
    seekNth n 1 k (l ++ afterLines e ls) =
      (occurrence n k (l :: ls)).map fun r => r.1 ++ afterLines e r.2 := by
  induction k generalizing l ls with
  | zero => rw [seekNth, seek_lines hn he, occurrence]
  | succ k ih =>
      rw [seekNth, seek_lines hn he, occurrence]
      cases hr : seekLine n (l :: ls) with
      | none => rfl
      | some r =>
          obtain ⟨c, m, hcm⟩ : ∃ c m, r.1 = c :: m := List.exists_cons_of_ne_nil fun h0 =>
            hn.ne_nil (List.prefix_nil.mp (h0 ▸ (seekLine_eq_some hr).1))
          simp only [Option.map_some, Option.bind_some, hcm, List.cons_append, List.drop_one, List.tail_cons, ih]

/-! ## Sections -/

/-- The lines before the first one of a kind; then every such line with the lines behind it. -/
def sections (p : Text → Bool) : List Text → List Text × List (Text × List Text)
  | [] => ([], [])
  | l :: ls =>
    if p l then ([], (l, (sections p ls).1) :: (sections p ls).2)
    else (l :: (sections p ls).1, (sections p ls).2)

/-- The lines of sections. -/
def ofSections (secs : List (Text × List Text)) : List Text := secs.flatMap fun s => s.1 :: s.2

theorem sections_eq (p : Text → Bool) (ls : List Text) :
    (sections p ls).1 ++ ofSections (sections p ls).2 = ls := by
  induction ls with
  | nil => rfl
  | cons l ls ih =>
      rw [sections]
      split
      · simpa [ofSections] using ih
      · simpa using ih

/-- A section starts with a line of the kind. -/
theorem of_mem_sections (p : Text → Bool) (ls : List Text) : ∀ s ∈ (sections p ls).2, p s.1 = true := by
  induction ls with
  | nil => simp [sections]
  | cons l ls ih =>
      rw [sections]
      split
      · rename_i hl
        intro s hs
        rcases List.mem_cons.mp hs with rfl | hs
        · exact hl
        · exact ih s hs
      · exact ih

/-- No other line is of the kind. -/
theorem not_of_mem_sections (p : Text → Bool) (ls : List Text) :
    (∀ l ∈ (sections p ls).1, ¬ p l = true) ∧ ∀ s ∈ (sections p ls).2, ∀ l ∈ s.2, ¬ p l = true := by
  induction ls with
  | nil => simp [sections]
  | cons l ls ih =>
      obtain ⟨hpre, hsecs⟩ := ih
      rw [sections]
      split
      · refine ⟨by simp, fun s hs => ?_⟩
        rcases List.mem_cons.mp hs with rfl | hs
        · exact hpre
        · exact hsecs s hs
      · rename_i hl
        refine ⟨fun l' hl' => ?_, hsecs⟩
        rcases List.mem_cons.mp hl' with rfl | hl'
        · exact hl
        · exact hpre l' hl'

end Text
end Aes67Daemon
