import Aes67Daemon.Lib.Text
import Mathlib.Algebra.Order.Archimedean.Basic
import Mathlib.Algebra.Order.Field.Power
import Mathlib.Data.Rat.Floor
import Mathlib.Tactic.FieldSimp
import Mathlib.Tactic.Linarith
import Mathlib.Tactic.Positivity
import Mathlib.Tactic.Ring

/-!
# Rounding to doubles

A double is an integer of 53 bits times a power of two.  An operation on doubles is the exact
operation followed by a rounding, which takes a number to a nearest double.  The exponent has
no bounds here; `stod` throws where they would be needed.

## Main definitions

* `IsDouble` — numbers of 53 bits.
* `ToNearest` — roundings that take every number to a nearest double.
* `ToNearest.natCast_le_div_iff` — a quotient of a double does not cross a whole number.
* `roundDouble` — the rounding that breaks ties to even.
* `Text.stod`, `Real64` — reading a double.
-/
namespace Aes67Daemon

/-! ## Rounding to integers -/

/-- `n / d`, rounded to the nearest integer, a tie to the even one. -/
def roundHalfEven (n d : ℕ) : ℕ :=
  if 2 * (n % d) < d then n / d
  else if d < 2 * (n % d) then n / d + 1
  else if n / d % 2 = 0 then n / d else n / d + 1

/-- Rounding to the nearest integer is off by at most a half. -/
theorem roundHalfEven_bounds (n : ℕ) {d : ℕ} (hd : 0 < d) :
    2 * (d * roundHalfEven n d) ≤ 2 * n + d ∧ 2 * n ≤ 2 * (d * roundHalfEven n d) + d := by
  have hdiv := Nat.div_add_mod n d
  have hmod := Nat.mod_lt n hd
  have hsucc : d * (n / d + 1) = d * (n / d) + d := by ring
  simp only [roundHalfEven]
  split
  · omega
  · split
    · rw [hsucc]; omega
    · split
      · omega
      · rw [hsucc]; omega

/-- The fraction does not have to be in lowest terms. -/
theorem roundHalfEven_mul {k : ℕ} (hk : 0 < k) (n d : ℕ) : roundHalfEven (k * n) (k * d) = roundHalfEven n d := by
  have hdouble : 2 * (k * (n % d)) = k * (2 * (n % d)) := by ring
  unfold roundHalfEven
  simp only [Nat.mul_mod_mul_left, Nat.mul_div_mul_left _ _ hk, hdouble, Nat.mul_lt_mul_left hk]

/-- A rational number, rounded to an integer. -/
theorem abs_roundHalfEven_sub_le {x : ℚ} (hx : 0 ≤ x) : |(roundHalfEven x.num.toNat x.den : ℚ) - x| ≤ 1 / 2 := by
  have hden : (0 : ℚ) < x.den := by exact_mod_cast x.pos
  have hnum : ((x.num.toNat : ℕ) : ℚ) = x * x.den := by
    rw [Rat.mul_den_eq_num, ← Int.cast_natCast, Int.toNat_of_nonneg (Rat.num_nonneg.mpr hx)]
  obtain ⟨hup, hdown⟩ := roundHalfEven_bounds x.num.toNat x.pos
  generalize roundHalfEven x.num.toNat x.den = r at hup hdown
  have hup' : 2 * ((x.den : ℚ) * r) ≤ 2 * (x * x.den) + x.den := by
    rw [← hnum]
    exact_mod_cast hup
  have hdown' : 2 * (x * x.den) ≤ 2 * ((x.den : ℚ) * r) + x.den := by
    rw [← hnum]
    exact_mod_cast hdown
  rw [abs_le]
  constructor
  · nlinarith
  · nlinarith

/-- No integer is nearer than one that is off by at most a half. -/
theorem abs_sub_le_of_half {x : ℚ} {r : ℤ} (h : |(r : ℚ) - x| ≤ 1 / 2) (k : ℤ) : |(r : ℚ) - x| ≤ |(k : ℚ) - x| := by
  by_cases hk : k = r
  · rw [hk]
  · have hone : (1 : ℚ) ≤ |(k : ℚ) - r| := by
      have hint : 1 ≤ |k - r| := Int.one_le_abs (sub_ne_zero.mpr hk)
      exact_mod_cast hint
    have htriangle := abs_sub_le (k : ℚ) x r
    rw [abs_sub_comm x (r : ℚ)] at htriangle
    linarith

/-! ## Doubles -/

/-- A number of 53 bits. -/
def IsDouble (x : ℚ) : Prop := ∃ m e : ℤ, |m| < 2 ^ 53 ∧ x = m * 2 ^ e

/-- A rounding that takes every number to a nearest double. -/
structure ToNearest (double : ℚ → ℚ) : Prop where
  isDouble : ∀ x, IsDouble (double x)
  nearest : ∀ x w, IsDouble w → |double x - x| ≤ |w - x|

theorem isDouble_natCast {n : ℕ} (hn : n < 2 ^ 53) : IsDouble n :=
  ⟨n, 0, by rw [Nat.abs_cast]; exact_mod_cast hn, by simp⟩

theorem isDouble_zero : IsDouble 0 := ⟨0, 0, by norm_num, by norm_num⟩

/-- The double before a whole number. -/
theorem isDouble_sub {n f : ℕ} (hn : n < 2 ^ (f + 1)) (hpos : 0 < n) (hf : f ≤ 52) :
    IsDouble (n - 2 ^ ((f : ℤ) - 52)) := by
  have hpow : (2 : ℤ) ^ (f + 1) * 2 ^ (52 - f) = 2 ^ 53 := by
    rw [← pow_add]
    congr 1
    omega
  refine ⟨n * 2 ^ (52 - f) - 1, (f : ℤ) - 52, ?_, ?_⟩
  · have hn' : (n : ℤ) < 2 ^ (f + 1) := by exact_mod_cast hn
    have hpos' : (1 : ℤ) ≤ n := by exact_mod_cast hpos
    have hlarge : (1 : ℤ) ≤ 2 ^ (52 - f) := one_le_pow₀ (by norm_num)
    rw [abs_of_nonneg (by nlinarith)]
    nlinarith
  · have hexp : ((2 : ℚ) ^ (52 - f)) * 2 ^ ((f : ℤ) - 52) = 1 := by
      rw [← zpow_natCast, ← zpow_add₀ (by norm_num)]
      have hzero : ((52 - f : ℕ) : ℤ) + ((f : ℤ) - 52) = 0 := by omega
      rw [hzero, zpow_zero]
    push_cast
    rw [sub_mul, one_mul, mul_assoc, hexp, mul_one]

/-- A double that is not small keeps away from the whole numbers above it. -/
theorem IsDouble.le_sub {x : ℚ} (hx : IsDouble x) {k n : ℕ} (hk : k ≤ 52) (hlow : 2 ^ k ≤ x) (hlt : x < n) :
    (2 : ℚ) ^ ((k : ℤ) - 52) ≤ n - x := by
  obtain ⟨m, e, hm, rfl⟩ := hx
  have he : (k : ℤ) - 52 ≤ e := by
    have hmq : (m : ℚ) < 2 ^ 53 := by
      have hself := lt_of_le_of_lt (le_abs_self m) hm
      exact_mod_cast hself
    have hpow : (2 : ℚ) ^ (k : ℤ) < 2 ^ (53 + e) := by
      calc (2 : ℚ) ^ (k : ℤ) = 2 ^ k := zpow_natCast 2 k
        _ ≤ m * 2 ^ e := hlow
        _ < 2 ^ 53 * 2 ^ e := mul_lt_mul_of_pos_right hmq (by positivity)
        _ = 2 ^ (53 + e) := by rw [zpow_add₀ (by norm_num)]; norm_num
    have hexp := (zpow_lt_zpow_iff_right₀ (one_lt_two (α := ℚ))).mp hpow
    omega
  -- both are multiples of the unit
  have hmultiple : ∀ i : ℤ, (k : ℤ) - 52 ≤ i →
      (2 : ℚ) ^ i = ((2 ^ (i - ((k : ℤ) - 52)).toNat : ℤ) : ℚ) * 2 ^ ((k : ℤ) - 52) := by
    intro i hi
    push_cast
    rw [← zpow_natCast, ← zpow_add₀ (by norm_num), Int.toNat_of_nonneg (by omega)]
    congr 1
    ring
  have hone := hmultiple 0 (by omega)
  rw [zpow_zero] at hone
  have hsplit : (n : ℚ) - m * 2 ^ e = ((n * 2 ^ (0 - ((k : ℤ) - 52)).toNat -
      m * 2 ^ (e - ((k : ℤ) - 52)).toNat : ℤ) : ℚ) * 2 ^ ((k : ℤ) - 52) := by
    rw [hmultiple e he, ← mul_one (n : ℚ)]
    nth_rewrite 1 [hone]
    push_cast
    ring
  have hunit : (0 : ℚ) < 2 ^ ((k : ℤ) - 52) := by positivity
  rw [hsplit]
  refine le_mul_of_one_le_left hunit.le ?_
  have hgt : 0 < (n * 2 ^ (0 - ((k : ℤ) - 52)).toNat - m * 2 ^ (e - ((k : ℤ) - 52)).toNat : ℤ) := by
    have hq : (0 : ℚ) < n - m * 2 ^ e := by linarith
    rw [hsplit] at hq
    exact_mod_cast (mul_pos_iff_of_pos_right hunit).mp hq
  exact_mod_cast hgt

namespace ToNearest
variable {double : ℚ → ℚ} (H : ToNearest double)
include H

/-- A double is rounded to itself. -/
theorem eq_self {x : ℚ} (hx : IsDouble x) : double x = x := by
  have h := H.nearest x x hx
  rw [sub_self, abs_zero] at h
  exact sub_eq_zero.mp (abs_nonpos_iff.mp h)

/-- No rounding goes below a double that is not above the number. -/
theorem le_of_le {x w : ℚ} (hw : IsDouble w) (h : w ≤ x) : w ≤ double x := by
  by_contra hlt
  have hnear := H.nearest x w hw
  rw [abs_of_nonpos (by linarith), abs_of_nonpos (by linarith)] at hnear
  linarith

theorem nonneg {x : ℚ} (hx : 0 ≤ x) : 0 ≤ double x := H.le_of_le isDouble_zero hx

/-- A number that is nearer to the double before is not rounded to a whole number. -/
theorem lt_of_lt {x : ℚ} {n f : ℕ} (hlow : 2 ^ f ≤ n) (hhigh : n < 2 ^ (f + 1)) (hf : f ≤ 52)
    (h : x + 2 ^ ((f : ℤ) - 53) < n) : double x < n := by
  have hhalf : (2 : ℚ) ^ ((f : ℤ) - 52) = 2 * 2 ^ ((f : ℤ) - 53) := by
    rw [← zpow_one_add₀ (by norm_num)]
    congr 1
    ring
  have hpos : (0 : ℚ) < 2 ^ ((f : ℤ) - 53) := by positivity
  have hnear := H.nearest x _ (isDouble_sub hhigh (lt_of_lt_of_le (Nat.two_pow_pos f) hlow) hf)
  by_contra hge
  rw [abs_of_nonneg (by linarith), hhalf] at hnear
  rcases le_total (0 : ℚ) (n - 2 * 2 ^ ((f : ℤ) - 53) - x) with hsign | hsign
  · rw [abs_of_nonneg hsign] at hnear
    linarith
  · rw [abs_of_nonpos hsign] at hnear
    linarith

/-- Rounding a number that is not negative changes it by less than one part in `2 ^ 52`. -/
theorem le_mul {x : ℚ} (hx : 0 ≤ x) : double x ≤ x * (1 + 1 / 2 ^ 52) := by
  rcases eq_or_lt_of_le hx with rfl | hpos
  · rw [H.eq_self isDouble_zero, zero_mul]
  obtain ⟨e, hlow, hhigh⟩ := exists_mem_Ico_zpow hpos (one_lt_two (α := ℚ))
  -- the double below, and by how much it is missed
  set u : ℚ := 2 ^ (e - 52) with hu
  have hupos : 0 < u := by positivity
  have hulow : u * 2 ^ 52 = 2 ^ e := by
    rw [hu, ← zpow_natCast, ← zpow_add₀ (by norm_num)]
    congr 1
    push_cast
    ring
  have huhigh : u * 2 ^ 53 = 2 ^ (e + 1) := by
    rw [zpow_add_one₀ (by norm_num), ← hulow]
    ring
  have hfloor := Int.floor_le (x / u)
  have hnext := Int.lt_floor_add_one (x / u)
  rw [le_div_iff₀ hupos] at hfloor
  rw [div_lt_iff₀ hupos] at hnext
  have hnonneg : 0 ≤ ⌊x / u⌋ := Int.floor_nonneg.mpr (by positivity)
  have hbits : |⌊x / u⌋| < 2 ^ 53 := by
    rw [abs_of_nonneg hnonneg, Int.floor_lt, div_lt_iff₀ hupos]
    push_cast
    linarith
  have hnear := H.nearest x _ ⟨⌊x / u⌋, e - 52, hbits, rfl⟩
  rw [← hu, abs_of_nonpos (show (⌊x / u⌋ : ℚ) * u - x ≤ 0 by linarith)] at hnear
  have hpart : u ≤ x * (1 / 2 ^ 52) := by
    rw [mul_one_div, le_div_iff₀ (by positivity)]
    linarith
  have habs := le_abs_self (double x - x)
  linarith

/-- **A quotient of a double does not cross a whole number**, unless the divisor is a power of two
or the numbers are large. -/
theorem natCast_le_div_iff {x : ℚ} (hx : IsDouble x) {n d c : ℕ} (hlow : 2 ^ c < d) (hhigh : d < 2 ^ (c + 1))
    (hpos : 0 < n) (hn : n.log2 + c ≤ 52) : (n : ℚ) ≤ double (x / d) ↔ (d * n : ℚ) ≤ x := by
  have hd : (0 : ℚ) < d := by
    have hd : 0 < d := lt_trans (Nat.two_pow_pos c) hlow
    exact_mod_cast hd
  have hf := Nat.log2_self_le hpos.ne'
  have hf' : n < 2 ^ (n.log2 + 1) := Nat.lt_log2_self
  have hsize : n < 2 ^ 53 := lt_of_lt_of_le hf' (Nat.pow_le_pow_right (by norm_num) (by omega))
  constructor
  · intro h
    by_contra hlt
    rw [not_le] at hlt
    refine absurd h (not_le.mpr (H.lt_of_lt hf hf' (by omega) ?_))
    generalize n.log2 = f at hn hf hf' ⊢
    have hfq : (2 : ℚ) ^ f ≤ n := by exact_mod_cast hf
    have hdq : (d : ℚ) < 2 ^ (c + 1) := by exact_mod_cast hhigh
    have hdq' : (2 : ℚ) ^ c + 1 ≤ d := by exact_mod_cast hlow
    -- what is missing to the whole number, times the divisor
    have hgap : (2 : ℚ) ^ ((f : ℤ) - 53) * 2 ^ (c + 1) ≤ d * n - x := by
      have hunit : (2 : ℚ) ^ ((f : ℤ) - 53) * 2 ^ (c + 1) = 2 ^ ((f : ℤ) + c - 52) := by
        rw [← zpow_natCast, ← zpow_add₀ (by norm_num)]
        congr 1
        push_cast
        ring
      rw [hunit]
      rcases lt_or_ge x (2 ^ (f + c)) with hsmall | hlarge
      · have hone : (2 : ℚ) ^ ((f : ℤ) + c - 52) ≤ 1 := zpow_le_one_of_nonpos₀ (by norm_num) (by omega)
        have hpow : (2 : ℚ) ^ (f + c) = 2 ^ f * 2 ^ c := pow_add _ _ _
        have honef : (1 : ℚ) ≤ 2 ^ f := one_le_pow₀ (by norm_num)
        have hprod : (2 : ℚ) ^ f * (2 ^ c + 1) ≤ n * d := mul_le_mul hfq hdq' (by positivity) (by positivity)
        rw [hpow] at hsmall
        linarith
      · have hgap := hx.le_sub (k := f + c) (n := d * n) (by omega) hlarge (by push_cast; exact hlt)
        push_cast at hgap
        exact hgap
    have hstep : (2 : ℚ) ^ ((f : ℤ) - 53) * d < d * n - x :=
      lt_of_lt_of_le (mul_lt_mul_of_pos_left hdq (by positivity)) hgap
    rw [← lt_sub_iff_add_lt, div_lt_iff₀ hd, sub_mul]
    linarith
  · intro h
    refine H.le_of_le (isDouble_natCast hsize) ?_
    rw [le_div_iff₀ hd]
    linarith

end ToNearest

/-! ## The rounding of the machine -/

/-- The exponent of a number: that of the largest power of two which is not above it. -/
def binaryExponent (x : ℚ) : ℤ :=
  let e := (x.num.natAbs.log2 : ℤ) - x.den.log2
  if x < 2 ^ e then e - 1 else e

/-- A positive number, rounded to 53 bits. -/
def roundBits (x : ℚ) : ℚ :=
  let u : ℚ := 2 ^ (binaryExponent x - 52)
  roundHalfEven (x / u).num.toNat (x / u).den * u

/-- Rounding to the nearest double, a tie to the even one. -/
def roundDouble (x : ℚ) : ℚ := if x = 0 then 0 else if 0 < x then roundBits x else -roundBits (-x)

theorem binaryExponent_spec {x : ℚ} (hx : 0 < x) : (2 : ℚ) ^ binaryExponent x ≤ x ∧ x < 2 ^ (binaryExponent x + 1) := by
  have hnum : x.num.natAbs ≠ 0 := Int.natAbs_ne_zero.mpr (Rat.num_ne_zero.mpr hx.ne')
  have hvalue : x * x.den = x.num.natAbs := by
    rw [Rat.mul_den_eq_num, ← Int.cast_natCast, Int.natAbs_of_nonneg (Rat.num_nonneg.mpr hx.le)]
  have hden : (0 : ℚ) < x.den := by exact_mod_cast x.pos
  have hn : (2 : ℚ) ^ x.num.natAbs.log2 ≤ x * x.den := by
    rw [hvalue]
    exact_mod_cast Nat.log2_self_le hnum
  have hn' : x * x.den < 2 ^ (x.num.natAbs.log2 + 1) := by
    rw [hvalue]
    exact_mod_cast Nat.lt_log2_self
  have hd : (2 : ℚ) ^ x.den.log2 ≤ x.den := by exact_mod_cast Nat.log2_self_le x.den_nz
  have hd' : (x.den : ℚ) < 2 ^ (x.den.log2 + 1) := by exact_mod_cast Nat.lt_log2_self
  unfold binaryExponent
  dsimp only
  generalize x.num.natAbs.log2 = a at hn hn'
  generalize x.den.log2 = b at hd hd'
  have hpow : ∀ i : ℤ, (2 : ℚ) ^ ((a : ℤ) - b + i) * 2 ^ b = 2 ^ a * 2 ^ i := by
    intro i
    rw [← zpow_natCast, ← zpow_natCast, ← zpow_add₀ (by norm_num), ← zpow_add₀ (by norm_num)]
    congr 1
    ring
  have hb : (0 : ℚ) < 2 ^ b := by positivity
  split
  · rename_i hlt
    refine ⟨?_, by rwa [sub_add_cancel]⟩
    have hstep := hpow (-1)
    rw [zpow_neg_one] at hstep
    by_contra hge
    rw [not_le, sub_eq_add_neg] at hge
    have hsmall : x * x.den < 2 ^ ((a : ℤ) - b + -1) * 2 ^ (b + 1) :=
      mul_lt_mul hge hd'.le hden (by positivity)
    rw [pow_succ, ← mul_assoc, hstep] at hsmall
    linarith
  · rename_i hge
    rw [not_lt] at hge
    refine ⟨hge, ?_⟩
    have hstep := hpow 1
    rw [zpow_one] at hstep
    by_contra hlarge
    rw [not_lt] at hlarge
    have hbig : (2 : ℚ) ^ ((a : ℤ) - b + 1) * 2 ^ b ≤ x * x.den := mul_le_mul hlarge hd hb.le hx.le
    rw [hstep, ← pow_succ] at hbig
    linarith

/-- A positive number is rounded to a nearest double. -/
theorem roundBits_nearest {x : ℚ} (hx : 0 < x) :
    IsDouble (roundBits x) ∧ ∀ w, IsDouble w → |roundBits x - x| ≤ |w - x| := by
  obtain ⟨hlow, hhigh⟩ := binaryExponent_spec hx
  unfold roundBits
  dsimp only
  generalize binaryExponent x = e at hlow hhigh ⊢
  set u : ℚ := 2 ^ (e - 52) with hu
  have hupos : 0 < u := by positivity
  have hulow : u * 2 ^ 52 = 2 ^ e := by
    rw [hu, ← zpow_natCast, ← zpow_add₀ (by norm_num)]
    congr 1
    push_cast
    ring
  have huhigh : u * 2 ^ 53 = 2 ^ (e + 1) := by
    rw [zpow_add_one₀ (by norm_num), ← hulow]
    ring
  have hscaled : x / u * u = x := div_mul_cancel₀ x hupos.ne'
  have hhalf := abs_roundHalfEven_sub_le (x := x / u) (by positivity)
  generalize roundHalfEven (x / u).num.toNat (x / u).den = r at hhalf
  -- no multiple of the unit is nearer
  have hmultiple : ∀ k : ℤ, |(r : ℚ) * u - x| ≤ |(k : ℚ) * u - x| := by
    intro k
    have hnear := abs_sub_le_of_half (x := x / u) (r := r) (by exact_mod_cast hhalf) k
    have hscale : ∀ y : ℚ, |y * u - x| = |y - x / u| * u := by
      intro y
      rw [← abs_of_pos hupos, ← abs_mul, abs_of_pos hupos, sub_mul, hscaled]
    rw [hscale, hscale]
    exact mul_le_mul_of_nonneg_right (by exact_mod_cast hnear) hupos.le
  constructor
  · have hbound : r ≤ 2 ^ 53 := by
      have hlt : x / u < 2 ^ 53 := by
        rw [div_lt_iff₀ hupos]
        linarith
      have habs := le_trans (le_abs_self _) hhalf
      have hle : (r : ℚ) < 2 ^ 53 + 1 := by linarith
      have hle : r < 2 ^ 53 + 1 := by exact_mod_cast hle
      omega
    rcases eq_or_lt_of_le hbound with rfl | hlt
    · refine ⟨2 ^ 52, e - 51, by norm_num, ?_⟩
      have hexp : (2 : ℚ) ^ (e - 51) = 2 * u := by
        rw [hu, ← zpow_one_add₀ (by norm_num)]
        congr 1
        ring
      rw [hexp]
      push_cast
      ring
    · refine ⟨r, e - 52, ?_, by push_cast; rfl⟩
      rw [Nat.abs_cast]
      exact_mod_cast hlt
  · rintro w ⟨m, i, hm, rfl⟩
    rcases le_or_gt (e - 52) i with hi | hi
    · have hw : (m : ℚ) * 2 ^ i = ((m * 2 ^ (i - (e - 52)).toNat : ℤ) : ℚ) * u := by
        push_cast
        rw [mul_assoc, hu, ← zpow_natCast, ← zpow_add₀ (by norm_num), Int.toNat_of_nonneg (by omega)]
        congr 2
        ring
      rw [hw]
      exact hmultiple _
    · -- a double that is no multiple lies below the power of two, which is one
      have hbelow : (m : ℚ) * 2 ^ i ≤ 2 ^ e := by
        have hmq : (m : ℚ) ≤ 2 ^ 53 := by
          have hself := (lt_of_le_of_lt (le_abs_self m) hm).le
          exact_mod_cast hself
        calc (m : ℚ) * 2 ^ i ≤ 2 ^ 53 * 2 ^ i := mul_le_mul_of_nonneg_right hmq (by positivity)
          _ = 2 ^ (53 + i) := by rw [zpow_add₀ (by norm_num)]; norm_num
          _ ≤ 2 ^ e := zpow_le_zpow_right₀ (by norm_num) (by omega)
      have hpower := hmultiple (2 ^ 52)
      have hcast : (((2 : ℤ) ^ 52 : ℤ) : ℚ) * u = 2 ^ e := by
        rw [← hulow]
        push_cast
        ring
      rw [hcast, abs_of_nonpos (show (2 : ℚ) ^ e - x ≤ 0 by linarith)] at hpower
      rw [abs_of_nonpos (show (m : ℚ) * 2 ^ i - x ≤ 0 by linarith)]
      linarith

theorem IsDouble.neg {x : ℚ} (hx : IsDouble x) : IsDouble (-x) := by
  obtain ⟨m, e, hm, rfl⟩ := hx
  exact ⟨-m, e, by rwa [abs_neg], by push_cast; ring⟩

/-- **The rounding of the machine is one to nearest.** -/
theorem toNearest_roundDouble : ToNearest roundDouble := by
  have hboth : ∀ x, IsDouble (roundDouble x) ∧ ∀ w, IsDouble w → |roundDouble x - x| ≤ |w - x| := by
    intro x
    unfold roundDouble
    split
    · rename_i hzero
      subst hzero
      refine ⟨isDouble_zero, fun w _ => ?_⟩
      rw [sub_self, abs_zero]
      exact abs_nonneg _
    · rename_i hne
      split
      · rename_i hpos
        exact roundBits_nearest hpos
      · rename_i hneg
        obtain ⟨hdouble, hnear⟩ := roundBits_nearest (x := -x) (by
          have hlt := lt_of_le_of_ne (not_lt.mp hneg) hne
          linarith)
        refine ⟨hdouble.neg, fun w hw => ?_⟩
        have h := hnear (-w) hw.neg
        have hflip : ∀ a : ℚ, |-a - x| = |a - -x| := by
          intro a
          rw [show -a - x = -(a - -x) by ring, abs_neg]
        rw [hflip, show w - x = -(-w - -x) by ring, abs_neg]
        exact h
  exact ⟨fun x => (hboth x).1, fun x w hw => (hboth x).2 w hw⟩

/-! ## Reading -/

/-- A double: a sign and a magnitude, or a word. -/
inductive Real64
  | finite (neg : Bool) (abs : ℚ)
  | inf
  | nan
  deriving DecidableEq

namespace Text

/-- `strtod` reports a range error for a number that is rounded to infinity, and for one below the
normal numbers that is not a double itself. -/
def inRange (double : ℚ → ℚ) (x : ℚ) : Bool :=
  x = 0 || (double x < 2 ^ 1024 && (1 ≤ double x * 2 ^ 1022 || (x * 2 ^ 1074).den = 1))

/-- `std::stod`, on a machine that rounds by `double`. -/
def stod (double : ℚ → ℚ) (t : Text) : Option Real64 :=
  match spelled t with
  | some (.finite neg num den) =>
    if inRange double (num / den) then some (.finite neg (double (num / den))) else none
  | some .inf => some .inf
  | some .nan => some .nan
  | none => none

end Text
end Aes67Daemon
