import Aes67Daemon.Lib.Crc
import Mathlib.Algebra.CharP.Two
import Mathlib.Algebra.Polynomial.Div
import Mathlib.Algebra.Polynomial.Monic
import Mathlib.Algebra.Field.ZMod
import Mathlib.Tactic.Ring
import Mathlib.Tactic.LinearCombination

/-!
# A CRC is a remainder

Read the bits of a register and of a message as the coefficients of polynomials over the
field of two elements.  A bit that is taken in multiplies by X and reduces by the generator,
and so the register after a message is the remainder of a division.

## Main definitions

* `Crc.poly`, `Crc.message` — the polynomials of a register and of a message.
* `Crc.divisor` — the generator, with its leading term.
* `Crc.poly_feed` — one bit.
* `Crc.poly_register` — a message.
-/
namespace Aes67Daemon
namespace Crc

open Polynomial

variable {w : ℕ}

/-- A bit as an element of the field. -/
def bit (b : Bool) : ZMod 2 := if b then 1 else 0

/-- The polynomial of a register. -/
noncomputable def poly (r : BitVec w) : (ZMod 2)[X] := ∑ i ∈ Finset.range w, monomial i (bit (r.getLsbD i))

/-- The polynomial of a message, the first bit with the highest degree. -/
noncomputable def message (bits : List Bool) : (ZMod 2)[X] := bits.foldl (fun p b => X * p + C (bit b)) 0

/-- The generator with its leading term. -/
noncomputable def divisor (g : BitVec w) : (ZMod 2)[X] := X ^ w + poly g

theorem bit_xor (a b : Bool) : bit (a ^^ b) = bit a + bit b := by
  cases a <;> cases b <;> decide

theorem coeff_poly (r : BitVec w) (i : ℕ) : (poly r).coeff i = bit (r.getLsbD i) := by
  rw [poly, finsetSum_coeff]
  simp only [coeff_monomial, Finset.sum_ite_eq', Finset.mem_range]
  split
  · rfl
  · rename_i hi
    rw [BitVec.getLsbD_of_ge r i (not_lt.mp hi)]
    rfl

theorem degree_poly_lt (r : BitVec w) : (poly r).degree < w := by
  rw [degree_lt_iff_coeff_zero]
  intro i hi
  rw [coeff_poly, BitVec.getLsbD_of_ge r i hi]
  rfl

theorem monic_divisor (g : BitVec w) : (divisor g).Monic := monic_X_pow_add (degree_poly_lt g)

theorem degree_divisor (g : BitVec w) : (divisor g).degree = w := by
  rw [divisor, degree_add_eq_left_of_degree_lt] <;> rw [degree_X_pow]
  exact degree_poly_lt g

theorem poly_xor (a b : BitVec w) : poly (a ^^^ b) = poly a + poly b := by
  ext i
  rw [coeff_add, coeff_poly, coeff_poly, coeff_poly, BitVec.getLsbD_xor, bit_xor]

/-- A shift multiplies by X and loses the leading term. -/
theorem poly_shiftLeft (r : BitVec w) : poly (r <<< 1) + C (bit r.msb) * X ^ w = X * poly r := by
  have hfalse : bit false = 0 := rfl
  ext i
  rw [coeff_add, coeff_C_mul_X_pow, coeff_poly, BitVec.getLsbD_shiftLeft, BitVec.msb_eq_getLsbD_last]
  cases i with
  | zero =>
      rw [coeff_X_mul_zero]
      split
      · rename_i hw
        rw [BitVec.getLsbD_of_ge r (w - 1) (by omega)]
        simp [hfalse]
      · simp [hfalse]
  | succ i =>
      rw [coeff_X_mul, coeff_poly]
      by_cases hi : i + 1 < w
      · simp [hi, hi.ne]
      · by_cases hw : i + 1 = w
        · simp [hw, hfalse, show w - 1 = i by omega]
        · rw [BitVec.getLsbD_of_ge r i (by omega)]
          simp [hi, hw, hfalse]

/-- **A bit that is taken in multiplies by X, and the rest is reduced.** -/
theorem poly_feed (g r : BitVec w) (b : Bool) :
    poly (feed g r b) = (X * poly r + C (bit b) * X ^ w) %ₘ divisor g := by
  have hfeed : poly (feed g r b) = poly (r <<< 1) + C (bit (r.msb ^^ b)) * poly g := by
    rw [feed]
    cases r.msb ^^ b with
    | false => simp [bit]
    | true => simp [bit, poly_xor]
  have htwo : C (bit (r.msb ^^ b)) * poly g + C (bit (r.msb ^^ b)) * poly g = 0 := CharTwo.add_self_eq_zero _
  refine (div_modByMonic_unique (C (bit (r.msb ^^ b))) _ (monic_divisor g) ⟨?_, ?_⟩).2.symm
  · rw [hfeed, divisor, ← poly_shiftLeft]
    have hxor : C (bit (r.msb ^^ b)) = C (bit r.msb) + C (bit b) := by rw [bit_xor, C_add]
    linear_combination htwo + X ^ w * hxor
  · rw [degree_divisor]
    exact degree_poly_lt _

theorem message_append (bits : List Bool) (b : Bool) : message (bits ++ [b]) = X * message bits + C (bit b) := by
  rw [message, List.foldl_append]
  rfl

/-- **The register after a message is the remainder of the division by the generator.** -/
theorem poly_register (g init : BitVec w) (bits : List Bool) :
    poly (register g init bits) = (poly init * X ^ bits.length + message bits * X ^ w) %ₘ divisor g := by
  induction bits using List.reverseRecOn with
  | nil =>
      rw [register, message, List.foldl_nil, List.foldl_nil, List.length_nil, pow_zero, mul_one, zero_mul, add_zero]
      refine ((modByMonic_eq_self_iff (monic_divisor g)).mpr ?_).symm
      rw [degree_divisor]
      exact degree_poly_lt init
  | append_singleton bits b ih =>
      rw [register_append, register, List.foldl_cons, List.foldl_nil, poly_feed, ih, message_append, List.length_append,
        List.length_singleton, pow_succ]
      refine modByMonic_eq_of_dvd_sub (monic_divisor g) ?_
      have hdiv := modByMonic_add_div (poly init * X ^ bits.length + message bits * X ^ w) (divisor g)
      refine ⟨-(X * ((poly init * X ^ bits.length + message bits * X ^ w) /ₘ divisor g)), ?_⟩
      linear_combination X * hdiv

end Crc
end Aes67Daemon
