import Mathlib.Data.List.Basic
import Mathlib.Logic.Function.Basic

/-!
# Assignments in a straight line

A memory gives every cell a value.  An assignment writes a constant or the value of
another cell to its target; a list of assignments is carried out in order.  What a
cell holds afterwards was decided by the last assignment to it, at the moment of
that assignment.

## Main definitions

* `Assign`, `Assign.exec` — one assignment.
* `Assign.execAll` — a list of assignments.
* `Assign.execAll_last` — the last assignment decides.
-/
namespace Aes67Daemon

universe u v

/-- What an assignment writes: a constant, or the value of a cell. -/
inductive Operand (κ : Type u) (α : Type v)
  | const (a : α)
  | cell (k : κ)
  deriving DecidableEq

/-- An assignment of an operand to a cell. -/
structure Assign (κ : Type u) (α : Type v) where
  target : κ
  operand : Operand κ α
  deriving DecidableEq

namespace Operand
variable {κ : Type u} {α : Type v}

/-- The value of an operand in a memory. -/
def eval (m : κ → α) : Operand κ α → α
  | const a => a
  | cell k => m k

@[simp] theorem eval_const (m : κ → α) (a : α) : (const a : Operand κ α).eval m = a := rfl
@[simp] theorem eval_cell (m : κ → α) (k : κ) : (cell k : Operand κ α).eval m = m k := rfl

end Operand

namespace Assign
variable {κ : Type u} {α : Type v} [DecidableEq κ]

/-- The memory after an assignment. -/
def exec (m : κ → α) (a : Assign κ α) : κ → α := Function.update m a.target (a.operand.eval m)

/-- The memory after a list of assignments. -/
def execAll (m : κ → α) (as : List (Assign κ α)) : κ → α := as.foldl exec m

variable {m : κ → α} {a : Assign κ α} {as bs : List (Assign κ α)} {k : κ}

@[simp] theorem execAll_nil : execAll m [] = m := rfl
@[simp] theorem execAll_cons : execAll m (a :: as) = execAll (a.exec m) as := rfl

theorem execAll_append : execAll m (as ++ bs) = execAll (execAll m as) bs := List.foldl_append

@[simp] theorem exec_target : a.exec m a.target = a.operand.eval m := Function.update_self ..

theorem exec_of_ne (h : k ≠ a.target) : a.exec m k = m k := Function.update_of_ne h ..

/-- A cell that is not assigned to keeps its value. -/
theorem execAll_of_ne (h : ∀ a ∈ as, a.target ≠ k) : execAll m as k = m k := by
  induction as generalizing m with
  | nil => rfl
  | cons a as ih =>
      have hrest : ∀ b ∈ as, b.target ≠ k := fun b hb => h b (List.mem_cons_of_mem _ hb)
      have hne : k ≠ a.target := (h a List.mem_cons_self).symm
      rw [execAll_cons, ih hrest, exec_of_ne hne]

/-- **The last assignment decides**: a cell holds what the last assignment to it
wrote. -/
theorem execAll_last (h : ∀ b ∈ bs, b.target ≠ a.target) :
    execAll m (as ++ a :: bs) a.target = a.operand.eval (execAll m as) := by
  rw [execAll_append, execAll_cons, execAll_of_ne h, exec_target]

end Assign

/-- The last element of a list with a property. -/
theorem exists_last {α : Type u} {p : α → Prop} {as : List α} (h : ∃ a ∈ as, p a) :
    ∃ before a after, as = before ++ a :: after ∧ p a ∧ ∀ b ∈ after, ¬ p b := by
  induction as with
  | nil => simp at h
  | cons a as ih =>
      by_cases hlater : ∃ b ∈ as, p b
      · obtain ⟨before, b, after, rfl, hb, hafter⟩ := ih hlater
        exact ⟨a :: before, b, after, rfl, hb, hafter⟩
      · have ha : p a := by
          obtain ⟨b, hb, hp⟩ := h
          rcases List.mem_cons.mp hb with rfl | hb
          · exact hp
          · exact absurd ⟨b, hb, hp⟩ hlater
        exact ⟨[], a, as, rfl, ha, fun b hb hp => hlater ⟨b, hb, hp⟩⟩

end Aes67Daemon
