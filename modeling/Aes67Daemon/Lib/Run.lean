import Mathlib.Logic.Basic
import Mathlib.Order.Basic

/-!
# Runs of a partial step function

A component that serves one request at a time is a function
`step : σ → ι → Option σ`; `none` is a step that has no defined outcome.  A run
feeds it a list of requests.  Safety properties of runs come from one step:
`run_invariant` and `run_keeps` carry an invariant along a run whose steps all
satisfy a condition that may look at the state the step starts from, and
`run_decides` and `always_iff` say when a property holds after a run, or at every
point of it.

## Main definitions

* `run step s is` — the state after the requests `is`, if every step is defined.
* `Along step P s is` — every step of that run starts from a state in which it
  satisfies `P`.
-/
namespace Aes67Daemon

universe u v
variable {σ : Type u} {ι : Type v}

/-- Serve the requests in order, starting from `s`. -/
def run (step : σ → ι → Option σ) : σ → List ι → Option σ
  | s, [] => some s
  | s, i :: is => (step s i).bind fun s' => run step s' is

/-- Every step of the run, in the state it is taken from, satisfies `P`. -/
def Along (step : σ → ι → Option σ) (P : σ → ι → Prop) : σ → List ι → Prop
  | _, [] => True
  | s, i :: is => P s i ∧ ∀ s', step s i = some s' → Along step P s' is

variable {step : σ → ι → Option σ}

@[simp] theorem run_nil (s : σ) : run step s [] = some s := rfl

theorem run_cons (s : σ) (i : ι) (is : List ι) :
    run step s (i :: is) = (step s i).bind fun s' => run step s' is := rfl

theorem run_append (s : σ) (is js : List ι) :
    run step s (is ++ js) = (run step s is).bind fun s' => run step s' js := by
  induction is generalizing s with
  | nil => rfl
  | cons i is ih =>
      rw [List.cons_append, run_cons, run_cons, Option.bind_assoc]
      exact congrArg _ (funext fun s' => ih s')

theorem along_cons {P : σ → ι → Prop} {s : σ} {i : ι} {is : List ι} :
    Along step P s (i :: is) ↔
      P s i ∧ ∀ s', step s i = some s' → Along step P s' is := .rfl

instance decidableAlong {P : σ → ι → Prop} [∀ s i, Decidable (P s i)] :
    ∀ (s : σ) (is : List ι), Decidable (Along step P s is)
  | _, [] => isTrue trivial
  | s, i :: is =>
      have : DecidablePred fun s' => Along step P s' is := fun s' => decidableAlong s' is
      inferInstanceAs (Decidable (P s i ∧ ∀ s' ∈ step s i, Along step P s' is))

theorem Along.imp {P Q : σ → ι → Prop} (h : ∀ s i, P s i → Q s i) {s : σ} {is : List ι}
    (H : Along step P s is) : Along step Q s is := by
  induction is generalizing s with
  | nil => trivial
  | cons i is ih => exact ⟨h s i H.1, fun s' hs => ih (H.2 s' hs)⟩

/-- A condition that follows from another one wherever an invariant holds. -/
theorem Along.imp_of_invariant {J : σ → Prop} {P Q : σ → ι → Prop}
    (hkeep : ∀ s i s', J s → P s i → step s i = some s' → J s')
    (h : ∀ s i, J s → P s i → Q s i) {s : σ} {is : List ι} (h0 : J s)
    (H : Along step P s is) : Along step Q s is := by
  induction is generalizing s with
  | nil => trivial
  | cons i is ih =>
      exact ⟨h s i h0 H.1, fun s' hs => ih (hkeep s i s' h0 H.1 hs) (H.2 s' hs)⟩

/-- Two conditions that are the same wherever an invariant holds. -/
theorem along_iff_of_invariant {J : σ → Prop} {P Q : σ → ι → Prop}
    (hkeep : ∀ s i s', J s → Q s i → step s i = some s' → J s')
    (hiff : ∀ s i, J s → (P s i ↔ Q s i)) {s : σ} {is : List ι} (h0 : J s) :
    Along step P s is ↔ Along step Q s is :=
  ⟨Along.imp_of_invariant (fun s i s' hs hP => hkeep s i s' hs ((hiff s i hs).mp hP)) (fun s i hs => (hiff s i hs).mp) h0,
    Along.imp_of_invariant hkeep (fun s i hs => (hiff s i hs).mpr) h0⟩

/-- The second part of a guarded run is guarded. -/
theorem Along.right {P : σ → ι → Prop} {s s' : σ} {is js : List ι} (H : Along step P s (is ++ js))
    (hrun : run step s is = some s') : Along step P s' js := by
  induction is generalizing s with
  | nil =>
      obtain rfl : s = s' := by simpa using hrun
      exact H
  | cons i is ih =>
      rw [run_cons] at hrun
      obtain ⟨s₁, hs₁, hrun⟩ := Option.bind_eq_some_iff.mp hrun
      exact ih (H.2 s₁ hs₁) hrun

/-- The first part of a guarded run is guarded. -/
theorem Along.left {P : σ → ι → Prop} {s : σ} {is js : List ι} (H : Along step P s (is ++ js)) :
    Along step P s is := by
  induction is generalizing s with
  | nil => trivial
  | cons i is ih => exact ⟨H.1, fun s' hs => ih (H.2 s' hs)⟩

/-- A condition on the requests alone holds along every run. -/
theorem along_of_forall {P : ι → Prop} {s : σ} {is : List ι} (h : ∀ i ∈ is, P i) :
    Along step (fun _ i => P i) s is := by
  induction is generalizing s with
  | nil => trivial
  | cons i is ih =>
      exact ⟨h i List.mem_cons_self, fun _ _ => ih fun j hj => h j (List.mem_cons_of_mem _ hj)⟩

theorem Along.and {P Q : σ → ι → Prop} {s : σ} {is : List ι} (hP : Along step P s is)
    (hQ : Along step Q s is) : Along step (fun s i => P s i ∧ Q s i) s is := by
  induction is generalizing s with
  | nil => trivial
  | cons i is ih => exact ⟨⟨hP.1, hQ.1⟩, fun s' hs => ih (hP.2 s' hs) (hQ.2 s' hs)⟩

/-- **Invariants of guarded runs.**  If a step that satisfies its condition is
defined and keeps the invariant, a run whose steps all satisfy their condition is
defined and ends in a state that has the invariant. -/
theorem run_invariant {J : σ → Prop} {P : σ → ι → Prop}
    (hstep : ∀ s i, J s → P s i → ∃ s', step s i = some s' ∧ J s')
    {s : σ} {is : List ι} (h0 : J s) (H : Along step P s is) :
    ∃ s', run step s is = some s' ∧ J s' := by
  induction is generalizing s with
  | nil => exact ⟨s, rfl, h0⟩
  | cons i is ih =>
      obtain ⟨s₁, hs₁, hinv⟩ := hstep s i h0 H.1
      obtain ⟨s', hrun, hs'⟩ := ih hinv (H.2 s₁ hs₁)
      exact ⟨s', by rw [run_cons, hs₁]; exact hrun, hs'⟩

/-- The same where a step need not be defined: what a guarded run that is defined
keeps. -/
theorem run_keeps {J : σ → Prop} {P : σ → ι → Prop}
    (hstep : ∀ s i s', J s → P s i → step s i = some s' → J s')
    {s s' : σ} {is : List ι} (h0 : J s) (H : Along step P s is)
    (hrun : run step s is = some s') : J s' := by
  induction is generalizing s with
  | nil =>
      obtain rfl : s = s' := by simpa using hrun
      exact h0
  | cons i is ih =>
      rw [run_cons] at hrun
      obtain ⟨s₁, hs₁, hrun⟩ := Option.bind_eq_some_iff.mp hrun
      exact ih (hstep s i s₁ h0 H.1 hs₁) (H.2 s₁ hs₁) hrun

/-- **Properties that every step decides.**  A property that, where an invariant holds, holds
after a step exactly when it held before and the step satisfies its condition holds at the
end of a run exactly when it held at the start and the run is guarded. -/
theorem run_decides_of {J P : σ → Prop} {Q : σ → ι → Prop}
    (hkeep : ∀ s i s', J s → step s i = some s' → J s')
    (hstep : ∀ s i s', J s → step s i = some s' → (P s' ↔ P s ∧ Q s i))
    {s s' : σ} {is : List ι} (h0 : J s) (hrun : run step s is = some s') :
    P s' ↔ P s ∧ Along step Q s is := by
  induction is generalizing s with
  | nil =>
      obtain rfl : s = s' := by simpa using hrun
      exact (and_iff_left trivial).symm
  | cons i is ih =>
      rw [run_cons] at hrun
      obtain ⟨s₁, hs₁, hrun⟩ := Option.bind_eq_some_iff.mp hrun
      have hall : (∀ t, step s i = some t → Along step Q t is) ↔ Along step Q s₁ is :=
        ⟨fun h => h s₁ hs₁, fun h t ht => Option.some.inj (hs₁.symm.trans ht) ▸ h⟩
      rw [ih (hkeep s i s₁ h0 hs₁) hrun, hstep s i s₁ h0 hs₁, along_cons, hall, and_assoc]

/-- The same without an invariant. -/
theorem run_decides {P : σ → Prop} {Q : σ → ι → Prop}
    (hstep : ∀ s i s', step s i = some s' → (P s' ↔ P s ∧ Q s i))
    {s s' : σ} {is : List ι} (hrun : run step s is = some s') :
    P s' ↔ P s ∧ Along step Q s is :=
  run_decides_of (J := fun _ => True) (fun _ _ _ _ _ => trivial) (fun s i s' _ hs => hstep s i s' hs) trivial hrun

/-- **Properties at every point.**  If, from a state that has a property, where an invariant
holds, a step keeps the property exactly when it satisfies its condition, the property holds
at every point of a run exactly when the run is guarded. -/
theorem always_iff_of {I J : σ → Prop} {P : σ → ι → Prop}
    (hkeep : ∀ s i s', I s → J s → step s i = some s' → I s')
    (hstep : ∀ s i s', I s → J s → step s i = some s' → (J s' ↔ P s i))
    (hnone : ∀ s i, J s → step s i = none → P s i) {s : σ} {is : List ι} (hI : I s) (h0 : J s) :
    (∀ n s', run step s (is.take n) = some s' → J s') ↔ Along step P s is := by
  induction is generalizing s with
  | nil =>
      refine ⟨fun _ => trivial, fun _ n s' hrun => ?_⟩
      rw [List.take_nil] at hrun
      obtain rfl : s = s' := by simpa using hrun
      exact h0
  | cons i is ih =>
      constructor
      · intro H
        have hnext : ∀ s₁, step s i = some s₁ → ∀ n s', run step s₁ (is.take n) = some s' → J s' := by
          intro s₁ hs₁ n s' hrun
          refine H (n + 1) s' ?_
          rw [List.take_succ_cons, run_cons, hs₁]
          exact hrun
        have hkept : ∀ s₁, step s i = some s₁ → J s₁ := fun s₁ hs₁ => hnext s₁ hs₁ 0 s₁ rfl
        refine ⟨?_, fun s₁ hs₁ => (ih (hkeep s i s₁ hI h0 hs₁) (hkept s₁ hs₁)).mp (hnext s₁ hs₁)⟩
        cases hs : step s i with
        | none => exact hnone s i h0 hs
        | some s₁ => exact (hstep s i s₁ hI h0 hs).mp (hkept s₁ hs)
      · intro H n s' hrun
        cases n with
        | zero =>
            obtain rfl : s = s' := by simpa using hrun
            exact h0
        | succ n =>
            rw [List.take_succ_cons, run_cons] at hrun
            obtain ⟨s₁, hs₁, hrun⟩ := Option.bind_eq_some_iff.mp hrun
            have hJ := (hstep s i s₁ hI h0 hs₁).mpr H.1
            exact (ih (hkeep s i s₁ hI h0 hs₁) hJ).mpr (H.2 s₁ hs₁) n s' hrun

/-- The same without an invariant. -/
theorem always_iff {J : σ → Prop} {P : σ → ι → Prop}
    (hstep : ∀ s i s', J s → step s i = some s' → (J s' ↔ P s i))
    (hnone : ∀ s i, J s → step s i = none → P s i) {s : σ} {is : List ι} (h0 : J s) :
    (∀ n s', run step s (is.take n) = some s' → J s') ↔ Along step P s is :=
  always_iff_of (I := fun _ => True) (fun _ _ _ _ _ _ => trivial) (fun s i s' _ hJ hs => hstep s i s' hJ hs) hnone
    trivial h0

/-- A run of concrete steps, evaluated, ends in a state without a property. -/
theorem exists_run_not {P : σ → Prop} [DecidablePred P] {s : σ} {is : List ι}
    (h : (run step s is).map (fun s' => decide (P s')) = some false) :
    ∃ s', run step s is = some s' ∧ ¬ P s' := by
  obtain ⟨s', hrun, hno⟩ := Option.map_eq_some_iff.mp h
  exact ⟨s', hrun, of_decide_eq_false hno⟩

end Aes67Daemon
