import Mathlib.Algebra.Group.Nat.Even
import Mathlib.Data.Nat.Bitwise

/-!
# Counting ones

How many of the low bits of a number are one, counted from either end.  Taking the number and
its predecessor together clears exactly one of them, which is how a loop counts them without
looking at each bit.

## Main definitions

* `ones w n` — the ones among the low `w` bits.
* `ones_and_pred` — one less.
-/
namespace Aes67Daemon

/-- The number of ones among the low `w` bits of `n`. -/
def ones (w n : ℕ) : ℕ := (List.range w).countP n.testBit

@[simp] theorem ones_zero_left (n : ℕ) : ones 0 n = 0 := rfl

@[simp] theorem ones_zero_right (w : ℕ) : ones w 0 = 0 := by simp [ones]

theorem ones_succ (w n : ℕ) : ones (w + 1) n = ones w n + (n.testBit w).toNat := by
  rw [ones, ones, List.range_succ, List.countP_append]
  cases h : n.testBit w <;> simp [h]

/-- The same, from the lowest bit. -/
theorem ones_succ_half (w n : ℕ) : ones (w + 1) n = n % 2 + ones w (n / 2) := by
  have hshift : (n.testBit ∘ Nat.succ) = (n / 2).testBit := funext fun i => Nat.testBit_succ n i
  rw [ones, ones, List.range_succ_eq_map, List.countP_cons, List.countP_map, hshift, Nat.testBit_zero]
  rcases Nat.mod_two_eq_zero_or_one n with h | h <;> simp [h, Nat.add_comm]

theorem ones_congr {w m n : ℕ} (h : ∀ i < w, m.testBit i = n.testBit i) : ones w m = ones w n :=
  List.countP_congr fun i hi => by rw [h i (List.mem_range.mp hi)]

/-- **A number and its predecessor have all ones in common but one.** -/
theorem ones_and_pred {w n : ℕ} (hn : n ≠ 0) (hlt : n < 2 ^ w) : ones w (n &&& (n - 1)) + 1 = ones w n := by
  induction w generalizing n with
  | zero =>
      rw [pow_zero] at hlt
      omega
  | succ w ih =>
      rw [pow_succ] at hlt
      rw [ones_succ_half, ones_succ_half, Nat.and_div_two]
      rcases Nat.mod_two_eq_zero_or_one n with h | h
      · -- The lowest bit is clear, and the predecessor borrows from the rest.
        have hbit : (n &&& (n - 1)) % 2 = 0 := by
          have hone := @Nat.and_mod_two_eq_one n (n - 1)
          omega
        have hpred : (n - 1) / 2 = n / 2 - 1 := by omega
        have hrest := @ih (n / 2) (by omega) (by omega)
        rw [hbit, h, hpred]
        omega
      · have hbit : (n &&& (n - 1)) % 2 = 0 := by
          have hone := @Nat.and_mod_two_eq_one n (n - 1)
          omega
        have hpred : (n - 1) / 2 = n / 2 := by omega
        rw [hbit, h, hpred, Nat.and_self]
        omega

end Aes67Daemon
