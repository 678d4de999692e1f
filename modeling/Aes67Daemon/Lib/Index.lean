import Mathlib.Logic.Function.Basic

/-!
# Indices of partial namings

A table gives some of its slots a name, `naming : ι → Option ν`.  An index of
the table leads back from a name to its slot, `idx : ν → Option ι`.  The two are
kept separately and must stay inverse to each other while slots get names and
lose them.  What a slot is called may be any resource that only one slot can
hold: a registered handle is one as well.

## Main definitions

* `Indexes idx naming` — the index leads from each name to the slot that has it.
* `Indexes.forget`, `Indexes.record` — a slot loses its name; a slot gets one.
-/
namespace Aes67Daemon

universe u v
variable {ι : Type u} {ν : Type v}

/-- The index and the naming are inverse to each other. -/
def Indexes (idx : ν → Option ι) (naming : ι → Option ν) : Prop :=
  ∀ n i, idx n = some i ↔ naming i = some n

namespace Indexes
variable {idx : ν → Option ι} {naming : ι → Option ν}

theorem none : Indexes (fun _ : ν => (Option.none : Option ι)) (fun _ => Option.none) :=
  fun _ _ => by simp

/-- No two slots have one name. -/
theorem unique (h : Indexes idx naming) {n : ν} {i j : ι} (hi : naming i = some n)
    (hj : naming j = some n) : i = j :=
  Option.some.inj (((h n i).mpr hi).symm.trans ((h n j).mpr hj))

theorem idx_eq_none (h : Indexes idx naming) {n : ν} :
    idx n = Option.none ↔ ∀ i, naming i ≠ some n := by
  simp only [Option.eq_none_iff_forall_ne_some, ne_eq, h n]

variable [DecidableEq ι] [DecidableEq ν]

/-- A slot loses its name. -/
theorem forget (h : Indexes idx naming) {n : ν} {i : ι} (hi : naming i = some n) :
    Indexes (Function.update idx n Option.none) (Function.update naming i Option.none) := by
  intro m j
  by_cases hj : j = i
  · subst hj
    have hne : m ≠ n → idx m ≠ some j := fun hm hs =>
      hm (Option.some.inj (((h m j).mp hs).symm.trans hi))
    by_cases hm : m = n <;> simp [hm, hne]
  · by_cases hm : m = n
    · subst hm
      have hne : naming j ≠ some m := fun hs => hj (h.unique hs hi)
      simp [hj, hne]
    · simp [hm, hj, h m j]

/-- A slot without a name gets one that no slot has. -/
theorem record (h : Indexes idx naming) {n : ν} {i : ι} (hn : idx n = Option.none)
    (hi : naming i = Option.none) :
    Indexes (Function.update idx n (some i)) (Function.update naming i (some n)) := by
  intro m j
  by_cases hm : m = n
  · subst hm
    by_cases hj : j = i
    · simp [hj]
    · have hne : naming j ≠ some m := h.idx_eq_none.mp hn j
      simp [hj, hne, Ne.symm hj]
  · by_cases hj : j = i
    · subst hj
      have hne : idx m ≠ some j := fun hs => by simp [(h m j).mp hs] at hi
      simp [hm, hne, Ne.symm hm]
    · simp [hm, hj, h m j]

end Indexes
end Aes67Daemon
