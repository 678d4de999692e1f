import Aes67Daemon.Lib.Text
import Mathlib.Data.List.DropRight

/-!
# Decimal fractions

Reading decimal digits with an optional point by `spelled`, and what is lost when
trailing zeros are dropped: nothing behind the point, and a power of ten in front
of it.

## Main definitions

* `ofNat_digitsValue` — digits are printed again.
* `spelled_digits`, `spelled_point` — reading decimal digits.
* `rdropWhile_zerosOrDots` — dropping trailing zeros and dots.
-/
namespace Aes67Daemon.Text

theorem digitsValue_append (t u : Text) :
    digitsValue (t ++ u) = 10 ^ u.length * digitsValue t + digitsValue u := by
  simp only [digitsValue, Nat.ofDigitChars_append]
  rw [Nat.ofDigitChars_eq_ofDigitChars_zero]

theorem digitsValue_append_zeros (t : Text) (k : ℕ) :
    digitsValue (t ++ List.replicate k '0') = 10 ^ k * digitsValue t := by
  simp only [digitsValue, Nat.ofDigitChars_append, Nat.ofDigitChars_replicate_zero]

/-! ## Digits -/

theorem digitChar_of_isDigit {c : Char} (h : c.isDigit = true) : c.toNat - 48 < 10 ∧ Nat.digitChar (c.toNat - 48) = c := by
  simp only [Char.isDigit, Bool.and_eq_true, decide_eq_true_eq] at h
  have h1 := UInt32.le_iff_toNat_le.mp h.1
  have h2 := UInt32.le_iff_toNat_le.mp h.2
  have hval : c.val.toNat = c.toNat := rfl
  simp only [hval] at h1 h2
  have hl : 48 ≤ c.toNat := h1
  have hu : c.toNat ≤ 57 := h2
  refine ⟨by omega, ?_⟩
  have hd := Nat.toNat_digitChar_of_lt_ten (show c.toNat - 48 < 10 by omega)
  exact Char.toNat_inj.mp (by omega)

/-- Digits without a leading zero are printed again. -/
theorem ofNat_digitsValue {t : Text} (hne : t ≠ []) (hdigits : ∀ c ∈ t, c.isDigit = true)
    (hzero : t.head? = some '0' → t.length = 1) : ofNat (digitsValue t) = t := by
  induction t using List.reverseRecOn with
  | nil => exact absurd rfl hne
  | append_singleton u c ih =>
      obtain ⟨hlt, hc⟩ := digitChar_of_isDigit (hdigits c (List.mem_append_right _ List.mem_cons_self))
      have hvalue : digitsValue (u ++ [c]) = 10 * digitsValue u + (c.toNat - 48) := by
        rw [digitsValue_append, List.length_singleton, Nat.pow_one]
        simp [digitsValue, Nat.ofDigitChars_cons]
      rw [hvalue]
      cases u with
      | nil =>
          show Nat.toDigits 10 (0 + (c.toNat - 48)) = [c]
          rw [Nat.zero_add, Nat.toDigits_of_lt_base hlt, hc]
      | cons d u =>
          have hlead : d ≠ '0' := by
            rintro rfl
            have hlen := hzero rfl
            simp at hlen
          have hprinted : ofNat (digitsValue (d :: u)) = d :: u := by
            refine ih (List.cons_ne_nil _ _) (fun e he => hdigits e (List.mem_append_left _ he)) fun hhead => ?_
            exact absurd (Option.some.inj hhead) hlead
          have hpos : 0 < digitsValue (d :: u) := by
            refine Nat.pos_of_ne_zero fun hz => hlead ?_
            rw [hz] at hprinted
            exact (List.cons.inj hprinted).1.symm
          calc ofNat (10 * digitsValue (d :: u) + (c.toNat - 48))
              = ofNat (digitsValue (d :: u)) ++ ofNat (c.toNat - 48) :=
                (Nat.toDigits_append_toDigits (by decide) hpos hlt).symm
            _ = d :: u ++ [c] := by
                rw [hprinted, ofNat, Nat.toDigits_of_lt_base hlt, hc]

/-! ## Reading -/

theorem toLower_of_isDigit {c : Char} (h : c.isDigit = true) : c.toLower = c := by
  simp only [Char.isDigit, Bool.and_eq_true, decide_eq_true_eq] at h
  refine dif_neg fun hu => ?_
  have h1 := UInt32.le_iff_toNat_le.mp h.2
  have h2 := UInt32.le_iff_toNat_le.mp hu.1
  simp at h1 h2
  omega

/-- The character after a first digit does not make a text hexadecimal. -/
theorem ne_x_of_decimal {c : Char} (h : c.isDigit = true ∨ c = '.') : c.toLower ≠ 'x' := by
  rcases h with h | rfl
  · rw [toLower_of_isDigit h]
    rintro rfl
    cases h
  · decide

theorem sign_trimLeft_digit {c : Char} {t : Text} (h : c.isDigit = true) :
    sign (trimLeft (c :: t)) = (false, c :: t) := by
  rw [trimLeft_cons (isSpace_of_isDigit h), sign_cons_of_isDigit h]

/-- A text that starts with a digit and goes on with one or a point, if at all, is
read as a decimal number. -/
theorem spelled_of_digit {c : Char} {t : Text} (hc : c.isDigit = true)
    (ht : ∀ d ∈ t.head?, d.isDigit = true ∨ d = '.') :
    spelled (c :: t) =
      let (whole, frac, rest) := mantissa Char.isDigit (c :: t)
      if whole ++ frac = [] then none
      else
        let (num, den) := scaled (digitsValue (whole ++ frac)) 10 (exponent 'e' rest - frac.length)
        some (.finite false num den) := by
  have hfirst : ∀ d u, d.isDigit = false → (toLower (c :: t)).take 3 ≠ d :: u := by
    intro d u hd h
    have hcd := (List.cons.inj h).1
    rw [toLower_of_isDigit hc] at hcd
    rw [hcd, hd] at hc
    cases hc
  have hinf : (toLower (c :: t)).take 3 ≠ "inf".toList := by
    rw [show "inf".toList = ['i', 'n', 'f'] by decide]
    exact hfirst _ _ (by decide)
  have hnan : (toLower (c :: t)).take 3 ≠ "nan".toList := by
    rw [show "nan".toList = ['n', 'a', 'n'] by decide]
    exact hfirst _ _ (by decide)
  have hread : readFraction (c :: t) =
      let (whole, frac, rest) := mantissa Char.isDigit (c :: t)
      if whole ++ frac = [] then none
      else some (scaled (digitsValue (whole ++ frac)) 10 (exponent 'e' rest - frac.length)) := by
    simp only [readFraction]
    split
    · rename_i r hr
      split at hr
      · rename_i x u heq
        obtain ⟨-, rfl⟩ := List.cons.inj heq
        rw [if_neg fun h => ne_x_of_decimal (ht x rfl) h.1] at hr
        cases hr
      · cases hr
    · rfl
  rw [spelled, sign_trimLeft_digit hc]
  simp only
  rw [if_neg hinf, if_neg hnan, hread]
  simp only
  split <;> rfl

theorem mantissa_digits {ds : Text} (h : ∀ c ∈ ds, c.isDigit = true) :
    mantissa Char.isDigit ds = (ds, [], []) := by
  simp only [mantissa, List.takeWhile_eq_self_iff.mpr h, List.dropWhile_eq_nil_iff.mpr h]

theorem mantissa_point {ds es : Text} (hds : ∀ c ∈ ds, c.isDigit = true)
    (hes : ∀ c ∈ es, c.isDigit = true) :
    mantissa Char.isDigit (ds ++ '.' :: es) = (ds, es, []) := by
  have htake : (ds ++ '.' :: es).takeWhile Char.isDigit = ds := by
    rw [List.takeWhile_append_of_pos hds, List.takeWhile_cons_of_neg (by decide), List.append_nil]
  have hdrop : (ds ++ '.' :: es).dropWhile Char.isDigit = '.' :: es := by
    rw [List.dropWhile_append_of_pos hds, List.dropWhile_cons_of_neg (by decide)]
  simp only [mantissa, htake, hdrop, List.takeWhile_eq_self_iff.mpr hes,
    List.dropWhile_eq_nil_iff.mpr hes]

/-- **Reading digits.** -/
theorem spelled_digits {ds : Text} (hne : ds ≠ []) (h : ∀ c ∈ ds, c.isDigit = true) :
    spelled ds = some (.finite false (digitsValue ds) 1) := by
  obtain ⟨c, t, rfl⟩ := List.exists_cons_of_ne_nil hne
  rw [spelled_of_digit (h c List.mem_cons_self) fun d hd =>
    .inl (h d (List.mem_cons_of_mem _ (List.mem_of_mem_head? hd))), mantissa_digits h]
  simp [exponent, scaled]

/-- **Reading digits with a point.** -/
theorem spelled_point {ds es : Text} (hne : ds ≠ []) (hds : ∀ c ∈ ds, c.isDigit = true)
    (hes : ∀ c ∈ es, c.isDigit = true) (hes' : es ≠ []) :
    spelled (ds ++ '.' :: es) =
      some (.finite false (digitsValue (ds ++ es)) (10 ^ es.length)) := by
  obtain ⟨c, t, rfl⟩ := List.exists_cons_of_ne_nil hne
  have hlen : 0 < es.length := List.length_pos_of_ne_nil hes'
  rw [List.cons_append, spelled_of_digit (hds c List.mem_cons_self) ?_]
  · rw [← List.cons_append, mantissa_point hds hes]
    simp [exponent, scaled, show ¬ es.length = 0 by omega]
  · intro d hd
    cases t with
    | nil => exact .inr (by simpa using hd.symm)
    | cons e t => exact .inl (hds d (by simp at hd; simp [hd]))

/-! ## Dropping trailing zeros -/

theorem rdropWhile_append (p : Char → Bool) (t u : Text) :
    (t ++ u).rdropWhile p =
      if u.rdropWhile p = [] then t.rdropWhile p else t ++ u.rdropWhile p := by
  simp only [List.rdropWhile, List.reverse_append, List.dropWhile_append, List.isEmpty_iff,
    List.reverse_eq_nil_iff]
  split <;> simp

theorem rdropWhile_congr {p q : Char → Bool} {t : Text} (h : ∀ c ∈ t, p c = q c) :
    t.rdropWhile p = t.rdropWhile q := by
  induction t using List.reverseRecOn with
  | nil => rfl
  | append_singleton t c ih =>
      rw [List.rdropWhile_concat, List.rdropWhile_concat,
        ih fun d hd => h d (List.mem_append_left _ hd),
        h c (List.mem_append_right _ List.mem_cons_self)]

/-- What is dropped when trailing zeros are. -/
theorem exists_zeros (t : Text) :
    ∃ k, t = t.rdropWhile (· = '0') ++ List.replicate k '0' := by
  refine ⟨(t.rtakeWhile (· = '0')).length, ?_⟩
  have hzeros : t.rtakeWhile (· = '0') = List.replicate (t.rtakeWhile (· = '0')).length '0' :=
    List.eq_replicate_of_mem fun c hc => by simpa using List.mem_rtakeWhile_imp hc
  conv_lhs => rw [← List.rdropWhile_append_rtakeWhile (p := (· = '0')) (l := t)]
  rw [← hzeros]

/-- Trailing zeros and dots of a decimal fraction: the zeros behind the point go,
and if there is nothing else behind it, the point and the zeros before it. -/
theorem rdropWhile_zerosOrDots {ds es : Text} (hds : ∀ c ∈ ds, c.isDigit = true)
    (hes : ∀ c ∈ es, c.isDigit = true) :
    (ds ++ '.' :: es).rdropWhile (fun c => c = '0' || c = '.') =
      if es.rdropWhile (· = '0') = [] then ds.rdropWhile (· = '0')
      else ds ++ '.' :: es.rdropWhile (· = '0') := by
  have hdigit : ∀ {t : Text}, (∀ c ∈ t, c.isDigit = true) →
      t.rdropWhile (fun c => c = '0' || c = '.') = t.rdropWhile (· = '0') := by
    intro t ht
    refine rdropWhile_congr fun c hc => ?_
    have hne : c ≠ '.' := by
      rintro rfl
      exact absurd (ht _ hc) (by decide)
    simp [hne]
  rw [show ds ++ '.' :: es = (ds ++ ['.']) ++ es by simp, rdropWhile_append, hdigit hes]
  split
  · rw [List.rdropWhile_concat_pos _ _ _ (by decide), hdigit hds]
  · simp

end Aes67Daemon.Text
