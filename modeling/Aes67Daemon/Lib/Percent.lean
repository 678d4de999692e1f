import Aes67Daemon.Lib.Text

/-!
# Percent encoding

A character of a chosen set is written as a percent sign and two hexadecimal digits.  When the
percent sign is not in the set, a text that has such a group already is not read back: decoding
what was encoded is decoding the text itself.

## Main definitions

* `percentEncode`, `percentDecode`.
* `hasEscape` — there is a percent sign with two hexadecimal digits behind it.
* `percentDecode_percentEncode` — decoding undoes encoding and decodes what was there before.
* `percentDecode_eq_self_iff` — decoding leaves exactly the texts without such a group alone.
-/
namespace Aes67Daemon
namespace Text

/-- A hexadecimal digit, in upper case. -/
def upperHexDigit (n : ℕ) : Char := (Nat.digitChar n).toUpper

/-- Encode the characters of a set; each stands for one byte. -/
def percentEncode (p : Char → Bool) (t : Text) : Text :=
  t.flatMap fun c => if p c then ['%', upperHexDigit (c.toNat / 16), upperHexDigit (c.toNat % 16)] else [c]

/-- The two hexadecimal digits at the front of a text. -/
def hexPair : Text → Option ℕ
  | a :: b :: _ => (hexDigit a).bind fun x => (hexDigit b).map fun y => 16 * x + y
  | _ => none

/-- Decode from where `k` characters are still to be skipped. -/
def percentDecodeFrom : ℕ → Text → Text
  | _, [] => []
  | k + 1, _ :: t => percentDecodeFrom k t
  | 0, c :: t =>
    if c = '%' then
      match hexPair t with
      | some n => Char.ofNat n :: percentDecodeFrom 2 t
      | none => '%' :: percentDecodeFrom 0 t
    else c :: percentDecodeFrom 0 t

/-- Replace each percent sign and the two hexadecimal digits behind it. -/
def percentDecode : Text → Text := percentDecodeFrom 0

/-- There is something to decode. -/
def hasEscape : Text → Bool
  | [] => false
  | c :: t => c = '%' && (hexPair t).isSome || hasEscape t

variable {p : Char → Bool} {c : Char} {t u : Text}

@[simp] theorem percentEncode_nil : percentEncode p [] = [] := rfl

theorem percentEncode_append (t u : Text) : percentEncode p (t ++ u) = percentEncode p t ++ percentEncode p u :=
  List.flatMap_append

theorem percentEncode_cons_of_pos (h : p c = true) :
    percentEncode p (c :: t) =
      '%' :: upperHexDigit (c.toNat / 16) :: upperHexDigit (c.toNat % 16) :: percentEncode p t := by
  simp [percentEncode, h]

theorem percentEncode_cons_of_neg (h : p c = false) : percentEncode p (c :: t) = c :: percentEncode p t := by
  simp [percentEncode, h]

theorem percentEncode_eq_self (h : ∀ c ∈ t, p c = false) : percentEncode p t = t := by
  induction t with
  | nil => rfl
  | cons c t ih =>
    rw [List.forall_mem_cons] at h
    rw [percentEncode_cons_of_neg h.1, ih h.2]

theorem hexDigit_upperHexDigit {n : ℕ} (h : n < 16) : hexDigit (upperHexDigit n) = some n := by
  revert n
  decide

theorem hexDigit_percent : hexDigit '%' = none := rfl

theorem percentDecodeFrom_eq (k : ℕ) (t : Text) : percentDecodeFrom k t = percentDecode (t.drop k) := by
  induction t generalizing k with
  | nil => cases k <;> rfl
  | cons c t ih =>
    cases k with
    | zero => rfl
    | succ k => exact ih k

@[simp] theorem percentDecode_nil : percentDecode [] = [] := rfl

theorem percentDecode_cons_of_ne (h : c ≠ '%') : percentDecode (c :: t) = c :: percentDecode t :=
  if_neg h

theorem percentDecode_percent :
    percentDecode ('%' :: t) =
      match hexPair t with
      | some n => Char.ofNat n :: percentDecode (t.drop 2)
      | none => '%' :: percentDecode t := by
  rw [← percentDecodeFrom_eq 2 t]
  simp only [percentDecode, percentDecodeFrom, if_pos]

/-- What is decoded, case by case. -/
theorem percentDecode_induction {motive : Text → Prop} (nil : motive [])
    (escape : ∀ a b t n, hexPair [a, b] = some n → motive t → motive ('%' :: a :: b :: t))
    (percent : ∀ t, hexPair t = none → motive t → motive ('%' :: t))
    (other : ∀ c t, c ≠ '%' → motive t → motive (c :: t)) (t : Text) : motive t := by
  suffices h : ∀ n (t : Text), t.length ≤ n → motive t from h _ t (le_refl _)
  intro n
  induction n with
  | zero =>
    intro t ht
    rwa [List.length_eq_zero_iff.mp (Nat.le_zero.mp ht)]
  | succ n ih =>
    intro t ht
    cases t with
    | nil => exact nil
    | cons c t =>
      replace ht : t.length ≤ n := Nat.le_of_succ_le_succ ht
      by_cases hc : c = '%'
      · subst hc
        cases hpair : hexPair t with
        | none => exact percent t hpair (ih t ht)
        | some k =>
          match t with
          | [] | [a] => cases hpair
          | a :: b :: t =>
            simp only [List.length_cons] at ht
            exact escape a b t k hpair (ih t (by omega))
      · exact other c t hc (ih t ht)

/-- A text without percent signs in front. -/
theorem percentDecode_append (h : '%' ∉ t) : percentDecode (t ++ u) = t ++ percentDecode u := by
  induction t with
  | nil => rfl
  | cons c t ih =>
    rw [List.mem_cons, not_or] at h
    rw [List.cons_append, percentDecode_cons_of_ne (Ne.symm h.1), ih h.2, List.cons_append]

/-! ## Decoding what was encoded -/

/-- Encoding leaves the digits at the front alone, and brings none there. -/
theorem hexPair_percentEncode (hhex : ∀ c, (hexDigit c).isSome = true → p c = false) (t : Text) :
    hexPair (percentEncode p t) = hexPair t := by
  have hnone : ∀ c, p c = true → hexDigit c = none := fun c hc => by
    by_contra hne
    rw [hhex c (Option.isSome_iff_ne_none.mpr hne)] at hc
    cases hc
  cases t with
  | nil => rfl
  | cons a t =>
    cases ha : p a with
    | true =>
      rw [percentEncode_cons_of_pos ha]
      cases t <;> simp [hexPair, hexDigit_percent, hnone a ha]
    | false =>
      rw [percentEncode_cons_of_neg ha]
      cases t with
      | nil => rfl
      | cons b t =>
        cases hb : p b with
        | true =>
          rw [percentEncode_cons_of_pos hb]
          simp [hexPair, hexDigit_percent, hnone b hb]
        | false =>
          rw [percentEncode_cons_of_neg hb]
          rfl

/-- **Decoding after encoding**: the encoded characters come back, and what could be decoded
before is decoded. -/
theorem percentDecode_percentEncode (hpercent : p '%' = false) (hhex : ∀ c, (hexDigit c).isSome = true → p c = false)
    (hbyte : ∀ c ∈ t, p c = true → c.toNat < 256) : percentDecode (percentEncode p t) = percentDecode t := by
  induction t using percentDecode_induction with
  | nil => rfl
  | escape a b t n hpair ih =>
    obtain ⟨x, hx, hy⟩ := Option.bind_eq_some_iff.mp hpair
    obtain ⟨y, hy, -⟩ := Option.map_eq_some_iff.mp hy
    have ha := hhex a (by rw [hx]; rfl)
    have hb := hhex b (by rw [hy]; rfl)
    have hpair' : ∀ u, hexPair (a :: b :: u) = some n := fun _ => hpair
    rw [percentEncode_cons_of_neg hpercent, percentEncode_cons_of_neg ha, percentEncode_cons_of_neg hb,
      percentDecode_percent, percentDecode_percent, hpair', hpair']
    exact congrArg _ (ih fun c hc => hbyte c (by simp [hc]))
  | percent t hpair ih =>
    rw [percentEncode_cons_of_neg hpercent, percentDecode_percent, percentDecode_percent,
      hexPair_percentEncode hhex, hpair]
    exact congrArg _ (ih fun c hc => hbyte c (List.mem_cons_of_mem _ hc))
  | other c t hc ih =>
    have ih := ih fun c hc => hbyte c (List.mem_cons_of_mem _ hc)
    rw [percentDecode_cons_of_ne hc]
    cases hp : p c with
    | false => rw [percentEncode_cons_of_neg hp, percentDecode_cons_of_ne hc, ih]
    | true =>
      have hlt := hbyte c List.mem_cons_self hp
      have hpair : hexPair (upperHexDigit (c.toNat / 16) :: upperHexDigit (c.toNat % 16) :: percentEncode p t) =
          some c.toNat := by
        rw [hexPair, hexDigit_upperHexDigit (by omega), hexDigit_upperHexDigit (Nat.mod_lt _ (by decide))]
        exact congrArg some (Nat.div_add_mod c.toNat 16)
      rw [percentEncode_cons_of_pos hp, percentDecode_percent, hpair]
      simp [ih]

/-- What is not in the text, or is encoded, is not in the encoded text. -/
theorem notMem_percentEncode (hmem : p c = true ∨ c ∉ t) (hpercent : c ≠ '%') (hhex : hexDigit c = none)
    (hbyte : ∀ c ∈ t, p c = true → c.toNat < 256) : c ∉ percentEncode p t := by
  intro h
  obtain ⟨d, hd, hc⟩ := List.mem_flatMap.mp h
  cases hp : p d with
  | false =>
    rw [hp] at hc
    obtain rfl := List.mem_singleton.mp hc
    rcases hmem with hpc | hno
    · rw [hp] at hpc
      cases hpc
    · exact hno hd
  | true =>
    have hlt := hbyte d hd hp
    have hdigit : ∀ n, n < 16 → c ≠ upperHexDigit n := by
      rintro n hn rfl
      rw [hexDigit_upperHexDigit hn] at hhex
      cases hhex
    simp [hp, hpercent, hdigit _ (show d.toNat / 16 < 16 by omega), hdigit _ (Nat.mod_lt d.toNat (by decide : 16 > 0))] at hc

/-! ## What decoding changes -/

/-- Decoding leaves a text without such a group alone, and makes every other text shorter. -/
theorem percentDecode_change (t : Text) :
    hasEscape t = false ∧ percentDecode t = t ∨
      hasEscape t = true ∧ (percentDecode t).length < t.length := by
  induction t using percentDecode_induction with
  | nil => exact .inl ⟨rfl, rfl⟩
  | escape a b t n hpair ih =>
    have hpair' : hexPair (a :: b :: t) = some n := hpair
    refine .inr ⟨by simp [hasEscape, hpair'], ?_⟩
    rw [percentDecode_percent, hpair']
    have hle : (percentDecode t).length ≤ t.length := by
      rcases ih with ⟨-, heq⟩ | ⟨-, hlt⟩
      · rw [heq]
      · exact hlt.le
    simp only [List.length_cons, List.drop_succ_cons, List.drop_zero]
    omega
  | percent t hpair ih =>
    have hsame : hasEscape ('%' :: t) = hasEscape t := by simp [hasEscape, hpair]
    rw [hsame, percentDecode_percent, hpair]
    simpa using ih
  | other c t hc ih =>
    have hsame : hasEscape (c :: t) = hasEscape t := by simp [hasEscape, hc]
    rw [hsame, percentDecode_cons_of_ne hc]
    simpa using ih

theorem percentDecode_eq_self_iff : percentDecode t = t ↔ hasEscape t = false := by
  rcases percentDecode_change t with ⟨hno, heq⟩ | ⟨hyes, hlt⟩
  · exact iff_of_true heq hno
  · refine iff_of_false (fun heq => ?_) (by simp [hyes])
    rw [heq] at hlt
    exact lt_irrefl _ hlt

theorem length_percentDecode_le (t : Text) : (percentDecode t).length ≤ t.length := by
  rcases percentDecode_change t with ⟨-, heq⟩ | ⟨-, hlt⟩
  · rw [heq]
  · exact hlt.le

end Text
end Aes67Daemon
