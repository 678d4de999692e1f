import Mathlib.Data.List.Nodup
import Mathlib.Logic.Function.Basic

/-!
# Differences of tables

Who has a copy of a table can be kept up to date with the entries that are new or have
another value.  The copy is a function from keys to values; overwriting it with the
difference gives the new table, as long as no key has gone.

## Main definitions

* `Diff.diff old new` — the entries of `new` that `old` does not have.
* `Diff.overwrite f es` — the function `f` after the entries have been written into it.
* `Diff.overwrite_diff` — the difference leads from the old table to the new one.
-/
namespace Aes67Daemon.Diff

universe u v
variable {κ : Type u} {α : Type v} [DecidableEq κ]

/-- The value of each key. -/
def values (t : List (κ × α)) (k : κ) : Option α := t.lookup k

/-- The function after the entries have been written into it. -/
def overwrite (f : κ → Option α) (es : List (κ × α)) : κ → Option α :=
  es.foldl (fun f e => Function.update f e.1 (some e.2)) f

/-- The entries that are new or have another value. -/
def diff [DecidableEq α] (old new : List (κ × α)) : List (κ × α) :=
  new.filter fun e => values old e.1 ≠ some e.2

variable {f : κ → Option α} {t old new es es' : List (κ × α)} {k : κ} {a : α}

@[simp] theorem values_cons {e : κ × α} : values (e :: t) k = if k = e.1 then some e.2 else values t k := by
  obtain ⟨k', a'⟩ := e
  by_cases heq : k = k'
  · simp [values, heq]
  · simp [values, List.lookup_cons, beq_false_of_ne heq, heq]

/-- A key that is listed once has the value beside it. -/
theorem values_eq_some (hnodup : (t.map Prod.fst).Nodup) : values t k = some a ↔ (k, a) ∈ t := by
  induction t with
  | nil => simp [values]
  | cons e t ih =>
      obtain ⟨k', a'⟩ := e
      rw [List.map_cons, List.nodup_cons] at hnodup
      rw [values_cons, List.mem_cons, Prod.mk.injEq]
      by_cases heq : k = k'
      · subst heq
        have hmem : (k, a) ∉ t := fun h => hnodup.1 (List.mem_map.mpr ⟨(k, a), h, rfl⟩)
        simp [hmem, eq_comm]
      · simp [heq, ih hnodup.2]

@[simp] theorem overwrite_nil (f : κ → Option α) : overwrite f [] = f := rfl

theorem overwrite_append : overwrite f (es ++ es') = overwrite (overwrite f es) es' := List.foldl_append

/-- What is written where no key is written twice. -/
theorem overwrite_apply (hnodup : (es.map Prod.fst).Nodup) : overwrite f es k = (values es k).or (f k) := by
  induction es generalizing f with
  | nil => rfl
  | cons e es ih =>
      rw [List.map_cons, List.nodup_cons] at hnodup
      have hih := ih (f := Function.update f e.1 (some e.2)) hnodup.2
      rw [show overwrite f (e :: es) = overwrite (Function.update f e.1 (some e.2)) es from rfl, hih]
      by_cases heq : k = e.1
      · have hnone : values es k = none := by
          refine Option.eq_none_iff_forall_ne_some.mpr fun a ha => hnodup.1 ?_
          exact heq ▸ List.mem_map_of_mem ((values_eq_some hnodup.2).mp ha)
        rw [hnone, values_cons, if_pos heq, heq, Function.update_self]
        rfl
      · rw [values_cons, if_neg heq, Function.update_of_ne heq]

variable [DecidableEq α]

theorem mem_diff {e : κ × α} : e ∈ diff old new ↔ e ∈ new ∧ values old e.1 ≠ some e.2 := by
  rw [diff, List.mem_filter, decide_eq_true_eq]

/-- **The difference leads to the new table** when every old key is still there. -/
theorem overwrite_diff (hnodup : (new.map Prod.fst).Nodup)
    (hkeys : ∀ k, (values old k).isSome → (values new k).isSome) :
    overwrite (values old) (diff old new) = values new := by
  have hdiff : ((diff old new).map Prod.fst).Nodup := hnodup.sublist (List.filter_sublist.map _)
  funext k
  rw [overwrite_apply hdiff]
  cases hnew : values new k with
  | none =>
      have hold : values old k = none := by
        have hkey := hkeys k
        rw [hnew] at hkey
        simpa using hkey
      have hnone : values (diff old new) k = none := by
        refine Option.eq_none_iff_forall_ne_some.mpr fun a ha => ?_
        have hmem := (mem_diff.mp ((values_eq_some hdiff).mp ha)).1
        rw [(values_eq_some hnodup).mpr hmem] at hnew
        cases hnew
      rw [hnone, hold, Option.or_none]
  | some a =>
      have hmem := (values_eq_some hnodup).mp hnew
      by_cases hold : values old k = some a
      · have hnone : values (diff old new) k = none := by
          refine Option.eq_none_iff_forall_ne_some.mpr fun b hb => ?_
          obtain ⟨hb, hne⟩ := mem_diff.mp ((values_eq_some hdiff).mp hb)
          have hsame := hnew.symm.trans ((values_eq_some hnodup).mpr hb)
          exact hne (hold.trans hsame)
        rw [hnone, hold, Option.none_or]
      · rw [(values_eq_some hdiff).mpr (mem_diff.mpr ⟨hmem, hold⟩), Option.some_or]

@[simp] theorem diff_nil : diff old ([] : List (κ × α)) = [] := rfl

end Aes67Daemon.Diff
