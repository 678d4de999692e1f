import Mathlib.Data.Nat.Notation
import Mathlib.Logic.Function.Basic

/-!
# A ring of slots

Items that are numbered from zero go to `n` slots in turn, each to the slot of its number
modulo `n`, where it takes the place of the item `n` before it.

## Main definitions

* `Latest n written slots` — each slot has the latest of the items written to it.
* `Latest.write` — the next item keeps this.
* `add_le_of_mod_eq` — two items of one slot are at least a lap apart.
-/
namespace Aes67Daemon

/-- Of the items below `written`, each slot has the latest that belongs there. -/
structure Latest (n written : ℕ) (slots : ℕ → Option ℕ) : Prop where
  slot : ∀ c item, slots c = some item → item % n = c ∧ item < written ∧ written ≤ item + n
  filled : ∀ c, c < n → c < written → (slots c).isSome = true

/-- Two items of one slot are at least a lap apart. -/
theorem add_le_of_mod_eq {a b n : ℕ} (h : a % n = b % n) (hlt : a < b) : a + n ≤ b := by
  have hdvd : n ∣ b - a := Nat.dvd_of_mod_eq_zero (Nat.sub_mod_eq_zero_of_mod_eq h.symm)
  have hle := Nat.le_of_dvd (Nat.sub_pos_of_lt hlt) hdvd
  omega

/-- Two items of one slot that are less than a lap apart are the same. -/
theorem eq_of_mod_eq {a b n : ℕ} (h : a % n = b % n) (hab : a < b + n) (hba : b < a + n) : a = b := by
  rcases Nat.lt_trichotomy a b with hlt | heq | hgt
  · have := add_le_of_mod_eq h hlt
    omega
  · exact heq
  · have := add_le_of_mod_eq h.symm hgt
    omega

variable {n written : ℕ} {slots : ℕ → Option ℕ}

theorem Latest.empty (n : ℕ) : Latest n 0 fun _ => none where
  slot := fun _ _ h => by cases h
  filled := fun c _ h => absurd h (Nat.not_lt_zero c)

theorem Latest.write (hn : 0 < n) (H : Latest n written slots) :
    Latest n (written + 1) (Function.update slots (written % n) (some written)) where
  slot := by
    intro c item hitem
    rcases eq_or_ne c (written % n) with rfl | hne
    · rw [Function.update_self] at hitem
      obtain rfl := Option.some.inj hitem
      exact ⟨rfl, by omega, by omega⟩
    · rw [Function.update_of_ne hne] at hitem
      obtain ⟨hslot, hlt, hle⟩ := H.slot c item hitem
      refine ⟨hslot, by omega, ?_⟩
      have hlap : written ≠ item + n := by
        rintro rfl
        rw [Nat.add_mod_right] at hne
        exact hne hslot.symm
      omega
  filled := by
    intro c hc hlt
    rcases eq_or_ne c (written % n) with rfl | hne
    · rw [Function.update_self]
      rfl
    · rw [Function.update_of_ne hne]
      refine H.filled c hc ?_
      rcases Nat.lt_succ_iff_lt_or_eq.mp hlt with hlt | rfl
      · exact hlt
      · exact absurd (Nat.mod_eq_of_lt hc).symm hne

/-- After an item comes a later one, unless none has been written since. -/
theorem Latest.lt_next (H : Latest n written slots) {c item next : ℕ} (hitem : item < written) (hc : (item + 1) % n = c)
    (hnext : slots c = some next) : item < next ↔ item + 1 < written := by
  obtain ⟨hslot, hlt, hle⟩ := H.slot c next hnext
  constructor
  · omega
  · intro hwritten
    by_contra hge
    have := add_le_of_mod_eq (hslot.trans hc.symm) (by omega)
    omega

end Aes67Daemon
