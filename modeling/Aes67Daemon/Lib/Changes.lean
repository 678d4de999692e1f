import Mathlib.Data.List.Basic

/-!
# Changes in a sequence of observations

How often a quantity that is observed again and again was seen to change.  What is added
at the end of the observations counts when there is a last one and it was another.

## Main definitions

* `changes` — how many adjacent observations differ.
* `changes_concat`, `changes_le_of_prefix` — one more observation, and more of them.
-/
namespace Aes67Daemon

universe u
variable {α : Type u} [DecidableEq α] {l m : List α} {a b : α}

/-- How many adjacent elements of a list differ. -/
def changes (l : List α) : ℕ := (l.zip l.tail).countP fun p => p.1 ≠ p.2

@[simp] theorem changes_nil : changes ([] : List α) = 0 := rfl

@[simp] theorem changes_singleton (a : α) : changes [a] = 0 := rfl

theorem changes_cons_cons (a b : α) (l : List α) :
    changes (a :: b :: l) = changes (b :: l) + if a = b then 0 else 1 := by
  simp [changes, List.countP_cons]

theorem changes_concat (l : List α) (a : α) :
    changes (l ++ [a]) = changes l + if l.getLast? = none ∨ l.getLast? = some a then 0 else 1 := by
  induction l with
  | nil => simp
  | cons b l ih =>
      cases l with
      | nil => simp [changes_cons_cons]
      | cons c l =>
          rw [List.cons_append, List.cons_append, changes_cons_cons, changes_cons_cons, ← List.cons_append, ih,
            List.getLast?_cons_cons]
          omega

/-- What has been seen to change stays so. -/
theorem changes_le_of_prefix (h : l <+: m) : changes l ≤ changes m := by
  obtain ⟨rest, rfl⟩ := h
  induction rest generalizing l with
  | nil => simp
  | cons a rest ih =>
      calc changes l ≤ changes (l ++ [a]) := by rw [changes_concat]; exact Nat.le_add_right ..
        _ ≤ changes (l ++ [a] ++ rest) := ih
        _ = changes (l ++ a :: rest) := by rw [List.append_assoc, List.singleton_append]

end Aes67Daemon
