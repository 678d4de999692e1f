import Mathlib.Data.Nat.Notation
import Mathlib.Order.Basic

/-!
# Retracting what was announced

A sender announces, in rounds, what is active.  What has become inactive it
retracts, `limit` times, once in every round, and then forgets.  For one item
this is a counter: `none` when the item is unknown, `some 0` while it is active,
and `some c` after `c` retractions.

## Main definitions

* `Retraction.next` — one round.
* `Retraction.Rounds` — the counter along a sequence of rounds.
* `Rounds.quiet` — what happens to an item that stays inactive.
-/
namespace Aes67Daemon.Retraction

/-- One round of the counter of an item. -/
def next (limit : ℕ) (active : Bool) (c : Option ℕ) : Option ℕ :=
  if active then some 0
  else c.bind fun n => if limit ≤ n + 1 then none else some (n + 1)

/-- Whether a round retracts the item. -/
def retracts (active : Bool) (c : Option ℕ) : Bool := !active && c.isSome

/-- The counter is in range: below the limit, and zero exactly after a round in
which the item was active. -/
def InRange (limit : ℕ) (active : Bool) (c : Option ℕ) : Prop :=
  if active then c = some 0 else ∀ n, c = some n → 1 ≤ n ∧ n + 1 ≤ limit

theorem inRange_next (limit : ℕ) (active : Bool) (c : Option ℕ) :
    InRange limit active (next limit active c) := by
  cases active with
  | true => rfl
  | false =>
      intro n hn
      simp only [next, Bool.false_eq_true, if_false, Option.bind_eq_some_iff] at hn
      obtain ⟨k, -, hk⟩ := hn
      split at hk
      · cases hk
      · obtain rfl := Option.some.inj hk
        omega

/-- The counters after each round of a sequence of rounds. -/
def Rounds (limit : ℕ) (active : ℕ → Bool) (c : ℕ → Option ℕ) : Prop :=
  ∀ i, c (i + 1) = next limit (active i) (c i)

variable {limit : ℕ} {active : ℕ → Bool} {c : ℕ → Option ℕ}

/-- `k` quiet rounds after an active one, the item has been retracted `k` times,
or it is forgotten. -/
theorem Rounds.counter (h : Rounds limit active c) (hlimit : 1 ≤ limit) {i : ℕ}
    (hi : active i = true) (k : ℕ) (hquiet : ∀ j, i < j → j ≤ i + k → active j = false) :
    c (i + k + 1) = if k < limit then some k else none := by
  induction k with
  | zero => rw [Nat.add_zero, h i, hi, if_pos (by omega)]; rfl
  | succ k ih =>
      have hk := ih fun j hj hjk => hquiet j hj (by omega)
      have hstep : c (i + (k + 1) + 1) = next limit false (c (i + k + 1)) := by
        rw [h, show i + (k + 1) = i + k + 1 by omega, hquiet (i + k + 1) (by omega) (by omega)]
      rw [hstep, hk]
      by_cases hlt : k < limit
      · by_cases hlt' : k + 1 < limit
        · rw [if_pos hlt, if_pos hlt']
          simp [next, show ¬ limit ≤ k + 1 by omega]
        · rw [if_pos hlt, if_neg hlt']
          simp [next, show limit ≤ k + 1 by omega]
      · rw [if_neg hlt, if_neg (by omega)]
        rfl

/-- **An item that stays inactive is retracted in the next `limit` rounds, and in
no later one.** -/
theorem Rounds.retracts_iff (h : Rounds limit active c) (hlimit : 1 ≤ limit) {i : ℕ}
    (hi : active i = true) (k : ℕ) (hquiet : ∀ j, i < j → j ≤ i + (k + 1) → active j = false) :
    retracts (active (i + (k + 1))) (c (i + (k + 1))) = decide (k < limit) := by
  have hk := h.counter hlimit hi k fun j hj hjk => hquiet j hj (by omega)
  rw [hquiet _ (by omega) (Nat.le_refl _), show i + (k + 1) = i + k + 1 by omega, hk]
  by_cases hlt : k < limit <;> simp [retracts, hlt]

end Aes67Daemon.Retraction
