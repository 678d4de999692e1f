import Mathlib.Data.List.Basic

/-!
# Admission by name

Applicants come one after the other, each with a name.  One that is not fit or whose name is
taken is turned away; one that is admitted may take its name.  All of them are admitted exactly
when they are fit and none has a name that an earlier one takes.

## Main definitions

* `Admission` — who is fit, who takes a name, and which.
* `Admission.admitted` — those who are admitted, in order.
* `Admission.map_admitted_eq_iff` — when a list comes out as it was.
-/
namespace Aes67Daemon

/-- The rules of an admission. -/
structure Admission (α ν : Type) where
  fit : α → Bool
  takes : α → Bool
  name : α → ν

namespace Admission
variable {α ν : Type}

/-- The names that are taken after an admission. -/
def taking (A : Admission α ν) (a : α) (taken : List ν) : List ν := if A.takes a then A.name a :: taken else taken

/-- Those who are admitted, when some names are taken. -/
def admitted [DecidableEq ν] (A : Admission α ν) : List ν → List α → List α
  | _, [] => []
  | taken, a :: as =>
    if A.fit a ∧ A.name a ∉ taken then a :: A.admitted (A.taking a taken) as else A.admitted taken as

/-- The rules for those who come under a function. -/
def comap {β : Type} (A : Admission β ν) (f : α → β) : Admission α ν where
  fit a := A.fit (f a)
  takes a := A.takes (f a)
  name a := A.name (f a)

variable {A : Admission α ν} {taken : List ν} {as : List α}

theorem mem_taking {a : α} {n : ν} : n ∈ A.taking a taken ↔ n ∈ taken ∨ A.takes a = true ∧ n = A.name a := by
  rw [taking]
  split
  · rename_i htakes
    rw [List.mem_cons, or_comm, and_iff_right htakes]
  · rename_i htakes
    exact (or_iff_left fun h => htakes h.1).symm

variable [DecidableEq ν]

theorem admitted_sublist (taken : List ν) (as : List α) : (A.admitted taken as).Sublist as := by
  induction as generalizing taken with
  | nil => exact .slnil
  | cons a as ih =>
      rw [admitted]
      split
      · exact (ih _).cons_cons a
      · exact (ih taken).cons a

theorem admitted_map {β : Type} (A : Admission β ν) (f : α → β) (taken : List ν) (as : List α) :
    A.admitted taken (as.map f) = ((A.comap f).admitted taken as).map f := by
  induction as generalizing taken with
  | nil => rfl
  | cons a as ih =>
      have hcond : (A.comap f).fit a = true ∧ (A.comap f).name a ∉ taken ↔ A.fit (f a) = true ∧ A.name (f a) ∉ taken := .rfl
      rw [List.map_cons, admitted, admitted, if_congr hcond rfl rfl]
      split
      · rw [List.map_cons, ih]
        rfl
      · exact ih taken

/-- **All are admitted** exactly when they are fit, no name is taken, and none takes the name of
a later one. -/
theorem admitted_eq_self_iff : A.admitted taken as = as ↔
    (∀ a ∈ as, A.fit a = true ∧ A.name a ∉ taken) ∧
      as.Pairwise fun a b => A.takes a = true → A.name a ≠ A.name b := by
  induction as generalizing taken with
  | nil => simp [admitted]
  | cons a as ih =>
      rw [admitted, List.forall_mem_cons, List.pairwise_cons]
      split
      · rename_i ha
        have hlater : (∀ b ∈ as, A.fit b = true ∧ A.name b ∉ A.taking a taken) ↔
            (∀ b ∈ as, A.fit b = true ∧ A.name b ∉ taken) ∧ ∀ b ∈ as, A.takes a = true → A.name a ≠ A.name b := by
          rw [← forall₂_and]
          refine forall₂_congr fun b hb => ?_
          rw [mem_taking, not_or, not_and, ← and_assoc]
          exact and_congr_right' (forall_congr' fun _ => ne_comm)
        rw [List.cons_inj_right, ih, hlater, and_iff_right ha, and_assoc]
      · rename_i ha
        refine iff_of_false (fun heq => ?_) fun h => ha h.1.1
        have hlength := (admitted_sublist (A := A) taken as).length_le
        rw [heq, List.length_cons] at hlength
        omega

/-- **A list comes out as it was** exactly when all are admitted and each comes out as it was. -/
theorem map_admitted_eq_iff {f : α → α} : (A.admitted [] as).map f = as ↔
    (∀ a ∈ as, A.fit a = true ∧ f a = a) ∧ as.Pairwise fun a b => A.takes a = true → A.name a ≠ A.name b := by
  have hall : (A.admitted [] as).map f = as ↔ A.admitted [] as = as ∧ ∀ a ∈ as, f a = a := by
    constructor
    · intro h
      have hlength : (A.admitted [] as).length = as.length := by
        rw [← List.length_map f, h]
      have heq := (admitted_sublist [] as).eq_of_length hlength
      refine ⟨heq, fun a ha => ?_⟩
      rw [heq] at h
      exact List.map_inj_left.mp (h.trans (List.map_id as).symm) a ha
    · rintro ⟨heq, hf⟩
      rw [heq]
      exact (List.map_congr_left hf).trans (List.map_id as)
  rw [hall, admitted_eq_self_iff, and_right_comm, ← forall₂_and]
  refine and_congr_left' (forall₂_congr fun a _ => and_congr_left' (and_iff_left List.not_mem_nil))

end Admission
end Aes67Daemon
