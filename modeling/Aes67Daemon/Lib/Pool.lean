import Aes67Daemon.Lib.Run
import Mathlib.Data.List.Basic
import Mathlib.Logic.Function.Basic

/-!
# Threads of small steps

Threads share a state.  What a thread still has to do is a list of operations; a
turn of the thread executes the first of them, and what that leaves to be done
takes its place.  The turns of the threads interleave in any order.

## Main definitions

* `Pool` — the shared state, and what every thread has to do.
* `Pool.turn`, `Pool.start` — one step of a thread.
* `Pool.Ahead` — some thread has an operation of a kind to do.
* `Pool.Sole` — at most one thread has one, and only as the next.
* `foldl_once` — one operation for each element of a list.
* `Finishes` — what a thread does when no other thread interferes.
* `Finishes.exists_run` — its turns do that if they follow each other.
-/
namespace Aes67Daemon

universe u v

/-- A state that threads share, and what every thread has to do. -/
structure Pool (σ : Type u) (ο : Type v) where
  shared : σ
  ops : ℕ → List ο

namespace Pool
variable {σ : Type u} {ο : Type v}

/-- The threads after one of them has executed `op` and still has `rest` to do. -/
def turned (exec : ο → σ → List ο × σ) (t : ℕ) (op : ο) (rest : List ο) (c : Pool σ ο) :
    Pool σ ο :=
  { shared := (exec op c.shared).2
    ops := Function.update c.ops t ((exec op c.shared).1 ++ rest) }

/-- A thread executes its next operation. -/
def turn (exec : ο → σ → List ο × σ) (t : ℕ) (c : Pool σ ο) : Option (Pool σ ο) :=
  match c.ops t with
  | [] => none
  | op :: rest => some (c.turned exec t op rest)

/-- The threads after an idle one was given an operation. -/
def started (t : ℕ) (op : ο) (c : Pool σ ο) : Pool σ ο :=
  { c with ops := Function.update c.ops t [op] }

/-- An idle thread is given an operation. -/
def start (t : ℕ) (op : ο) (c : Pool σ ο) : Option (Pool σ ο) :=
  match c.ops t with
  | [] => some (c.started t op)
  | _ :: _ => none

/-- The same where an operation need not have a defined outcome. -/
def turn? (exec : ο → σ → Option (List ο × σ)) (t : ℕ) (c : Pool σ ο) : Option (Pool σ ο) :=
  match c.ops t with
  | [] => none
  | op :: rest => (exec op c.shared).map fun r => c.turned (fun _ _ => r) t op rest

theorem turn?_eq_some {exec : ο → σ → Option (List ο × σ)} {t : ℕ} {c c' : Pool σ ο} :
    c.turn? exec t = some c' ↔ ∃ op rest r, c.ops t = op :: rest ∧ exec op c.shared = some r ∧
      c' = c.turned (fun _ _ => r) t op rest := by
  rw [turn?]
  cases hops : c.ops t with
  | nil => simp
  | cons op rest =>
      simp only [Option.map_eq_some_iff, List.cons.injEq]
      constructor
      · rintro ⟨r, hr, rfl⟩
        exact ⟨op, rest, r, ⟨rfl, rfl⟩, hr, rfl⟩
      · rintro ⟨_, _, r, ⟨rfl, rfl⟩, hr, rfl⟩
        exact ⟨r, hr, rfl⟩

variable {exec : ο → σ → List ο × σ} {t : ℕ} {op : ο} {rest : List ο} {c c' : Pool σ ο}

theorem turn_eq_some : c.turn exec t = some c' ↔
    ∃ op rest, c.ops t = op :: rest ∧ c' = c.turned exec t op rest := by
  rw [turn]
  cases hops : c.ops t with
  | nil => simp
  | cons op rest => simp [eq_comm]

theorem start_eq_some : c.start t op = some c' ↔ c.ops t = [] ∧ c' = c.started t op := by
  rw [start]
  cases hops : c.ops t with
  | nil => simp [eq_comm]
  | cons op' rest => simp

@[simp] theorem shared_turned : (c.turned exec t op rest).shared = (exec op c.shared).2 := rfl

@[simp] theorem shared_started : (c.started t op).shared = c.shared := rfl

theorem ops_turned (t' : ℕ) : (c.turned exec t op rest).ops t' =
    if t' = t then (exec op c.shared).1 ++ rest else c.ops t' :=
  Function.update_apply ..

theorem ops_started (t' : ℕ) : (c.started t op).ops t' = if t' = t then [op] else c.ops t' :=
  Function.update_apply ..

/-! ## What is ahead -/

/-- Some thread has an operation to do that satisfies `p`. -/
def Ahead (p : ο → Prop) (c : Pool σ ο) : Prop := ∃ t, ∃ op ∈ c.ops t, p op

variable {p : ο → Prop}

/-- **What is ahead after a turn** is left by the operation, or was ahead before. -/
theorem ahead_turned (hops : c.ops t = op :: rest) (h : (c.turned exec t op rest).Ahead p) :
    (∃ op' ∈ (exec op c.shared).1, p op') ∨ c.Ahead p := by
  obtain ⟨t', op', hop', hp⟩ := h
  rw [ops_turned] at hop'
  split at hop'
  · rcases List.mem_append.mp hop' with hnext | hrest
    · exact .inl ⟨op', hnext, hp⟩
    · exact .inr ⟨t, op', by rw [hops]; exact List.mem_cons_of_mem _ hrest, hp⟩
  · exact .inr ⟨t', op', hop', hp⟩

/-- After an operation that leaves none of it to be done, what is ahead was ahead before. -/
theorem Ahead.of_turned (H : (c.turned exec t op rest).Ahead p) (hops : c.ops t = op :: rest)
    (hnext : ∀ op' ∈ (exec op c.shared).1, ¬ p op') : c.Ahead p :=
  (ahead_turned hops H).resolve_left fun ⟨op', hop', hp⟩ => hnext op' hop' hp

/-- What an operation leaves to be done is ahead. -/
theorem ahead_of_mem_exec {op' : ο} (hop' : op' ∈ (exec op c.shared).1) (hp : p op') :
    (c.turned exec t op rest).Ahead p :=
  ⟨t, op', by rw [ops_turned, if_pos rfl]; exact List.mem_append_left _ hop', hp⟩

/-- What is ahead stays ahead after a turn, unless it is what the turn does. -/
theorem Ahead.turned (H : c.Ahead p) (hops : c.ops t = op :: rest) (hop : ¬ p op) :
    (c.turned exec t op rest).Ahead p := by
  obtain ⟨t', op', hop', hp⟩ := H
  by_cases ht : t' = t
  · subst ht
    rw [hops] at hop'
    rcases List.mem_cons.mp hop' with rfl | hop'
    · exact absurd hp hop
    · exact ⟨t', op', by rw [ops_turned, if_pos rfl]; exact List.mem_append_right _ hop', hp⟩
  · exact ⟨t', op', by rw [ops_turned, if_neg ht]; exact hop', hp⟩

/-- What is ahead stays ahead when an idle thread is given an operation. -/
theorem Ahead.started (H : c.Ahead p) (hidle : c.ops t = []) : (c.started t op).Ahead p := by
  obtain ⟨t', op', hop', hp⟩ := H
  refine ⟨t', op', ?_, hp⟩
  rw [ops_started, if_neg]
  · exact hop'
  · rintro rfl
    rw [hidle] at hop'
    cases hop'

/-- What is ahead when an idle thread is given something else. -/
theorem ahead_started (hidle : c.ops t = []) (hop : ¬ p op) : (c.started t op).Ahead p ↔ c.Ahead p := by
  refine ⟨?_, fun H => H.started hidle⟩
  rintro ⟨t', op', hop', hp⟩
  rw [ops_started] at hop'
  split at hop'
  · rw [List.mem_singleton.mp hop'] at hp
    exact absurd hp hop
  · exact ⟨t', op', hop', hp⟩

/-! ## At most one at a time -/

/-- At most one thread has an operation to do that satisfies `p`, and only as the next one. -/
def Sole (p : ο → Prop) (c : Pool σ ο) : Prop :=
  ∃ t, (∀ op ∈ (c.ops t).tail, ¬ p op) ∧ ∀ t', t' ≠ t → ∀ op ∈ c.ops t', ¬ p op

theorem Sole.turned (H : c.Sole p) (hops : c.ops t = op :: rest) (hnew : ∀ op' ∈ (exec op c.shared).1, p op' → p op)
    (htail : ∀ op' ∈ (exec op c.shared).1.tail, ¬ p op') : (c.turned exec t op rest).Sole p := by
  obtain ⟨t₀, hhead, hothers⟩ := H
  refine ⟨t₀, fun op' hop' => ?_, fun t' ht' op' hop' => ?_⟩
  · rw [ops_turned] at hop'
    split at hop'
    · rename_i ht
      subst ht
      rw [hops] at hhead
      cases hnext : (exec op c.shared).1 with
      | nil =>
          rw [hnext] at hop'
          exact hhead op' (List.mem_of_mem_tail hop')
      | cons op₁ next =>
          rw [hnext] at hop' htail
          exact (List.mem_append.mp hop').elim (htail op') (hhead op')
    · exact hhead op' hop'
  · rw [ops_turned] at hop'
    split at hop'
    · rename_i ht
      subst ht
      have hall := hothers t' ht'
      rw [hops] at hall
      rcases List.mem_append.mp hop' with hnext | hrest
      · exact fun hp => hall op List.mem_cons_self (hnew op' hnext hp)
      · exact hall op' (List.mem_cons_of_mem _ hrest)
    · exact hothers t' ht' op' hop'

/-- A turn that leaves the first one to be done. -/
theorem sole_turned (H : ¬ c.Ahead p) (hops : c.ops t = op :: rest)
    (htail : ∀ op' ∈ (exec op c.shared).1.tail, ¬ p op') : (c.turned exec t op rest).Sole p := by
  have hnone : ∀ t', ∀ op' ∈ c.ops t', ¬ p op' := fun t' op' hop' hp => H ⟨t', op', hop', hp⟩
  have hrest : ∀ op' ∈ rest, ¬ p op' := fun op' hop' =>
    hnone t op' (by rw [hops]; exact List.mem_cons_of_mem _ hop')
  refine ⟨t, fun op' hop' => ?_, fun t' ht' op' hop' => ?_⟩
  · rw [ops_turned, if_pos rfl] at hop'
    cases hnext : (exec op c.shared).1 with
    | nil =>
        rw [hnext] at hop'
        exact hrest op' (List.mem_of_mem_tail hop')
    | cons op₁ next =>
        rw [hnext] at hop' htail
        exact (List.mem_append.mp hop').elim (htail op') (hrest op')
  · rw [ops_turned, if_neg ht'] at hop'
    exact hnone t' op' hop'

theorem Sole.started (H : c.Sole p) (hop : ¬ p op) : (c.started t op).Sole p := by
  obtain ⟨t₀, hhead, hothers⟩ := H
  refine ⟨t₀, fun op' hop' => ?_, fun t' ht' op' hop' => ?_⟩
  · rw [ops_started] at hop'
    split at hop'
    · cases hop'
    · exact hhead op' hop'
  · rw [ops_started] at hop'
    split at hop'
    · rw [List.mem_singleton.mp hop']
      exact hop
    · exact hothers t' ht' op' hop'

/-- Once it is done there is none. -/
theorem Sole.done (H : c.Sole p) (hops : c.ops t = op :: rest) (hp : p op)
    (hnext : ∀ op' ∈ (exec op c.shared).1, ¬ p op') : ¬ (c.turned exec t op rest).Ahead p := by
  obtain ⟨t₀, hhead, hothers⟩ := H
  have ht : t = t₀ := by
    by_contra hne
    exact hothers t hne op (by rw [hops]; exact List.mem_cons_self) hp
  subst ht
  rw [hops] at hhead
  rintro ⟨t', op', hop', hp'⟩
  rw [ops_turned] at hop'
  split at hop'
  · exact (List.mem_append.mp hop').elim (fun h => hnext op' h hp') (fun h => hhead op' h hp')
  · rename_i hne
    exact hothers t' hne op' hop' hp'

end Pool

/-! ## One operation for each element -/

section
variable {σ : Type u} {α : Type v} {β : Type*} {f : σ → α → σ} {J : σ → Prop} {v : σ → β} {i : α}

theorem foldl_keeps (hJ : ∀ s a, J s → J (f s a)) {s : σ} (h0 : J s) (as : List α) : J (as.foldl f s) := by
  induction as generalizing s with
  | nil => exact h0
  | cons a as ih => exact ih (hJ s a h0)

/-- What every operation leaves alone stays. -/
theorem foldl_view (hJ : ∀ s a, J s → J (f s a)) {as : List α}
    (hstep : ∀ s, ∀ a ∈ as, J s → v (f s a) = v s) {s : σ} (h0 : J s) :
    v (as.foldl f s) = v s := by
  induction as generalizing s with
  | nil => rfl
  | cons a as ih =>
      have hrest := ih (fun s b hb => hstep s b (List.mem_cons_of_mem _ hb)) (hJ s a h0)
      exact hrest.trans (hstep s a List.mem_cons_self h0)

/-- **Each element has its operation once**: what it is about changes as that one operation
changes it. -/
theorem foldl_once (hJ : ∀ s a, J s → J (f s a)) (hstep : ∀ s a, J s → a ≠ i → v (f s a) = v s)
    {g : β → β} (hown : ∀ s, J s → v (f s i) = g (v s)) {s : σ} (h0 : J s) {as : List α}
    (hnodup : as.Nodup) (hi : i ∈ as) : v (as.foldl f s) = g (v s) := by
  induction as generalizing s with
  | nil => cases hi
  | cons a as ih =>
      obtain ⟨ha, hnodup⟩ := List.nodup_cons.mp hnodup
      rcases List.mem_cons.mp hi with rfl | hi
      · refine (foldl_view hJ (fun s b hb hs => hstep s b hs ?_) (hJ s i h0)).trans (hown s h0)
        rintro rfl
        exact ha hb
      · refine (ih (hJ s a h0) hnodup hi).trans (congrArg g (hstep s a h0 ?_))
        rintro rfl
        exact ha hi

end

/-! ## A thread alone -/

/-- A thread that is not interrupted does its operations and ends in `s'`. -/
inductive Finishes {σ : Type u} {ο : Type v} (exec : ο → σ → List ο × σ) : List ο → σ → σ → Prop
  | done (s : σ) : Finishes exec [] s s
  | next {op : ο} {rest : List ο} {s s' : σ}
      (h : Finishes exec ((exec op s).1 ++ rest) (exec op s).2 s') : Finishes exec (op :: rest) s s'

namespace Finishes
variable {σ : Type u} {ο : Type v} {exec : ο → σ → List ο × σ} {s s' : σ} {ops rest : List ο}

theorem append {s₁ : σ} (h : Finishes exec ops s s₁) (h' : Finishes exec rest s₁ s') :
    Finishes exec (ops ++ rest) s s' := by
  induction h with
  | done s => exact h'
  | next _ ih =>
      rw [List.cons_append]
      exact .next (by simpa only [List.append_assoc] using ih h')

/-- An operation that leaves nothing to be done. -/
theorem single {op : ο} (h : exec op s = ([], s')) : Finishes exec [op] s s' :=
  .next (by rw [h]; exact .done s')

/-- One operation for each element of a list. -/
theorem foldl {α : Type v} {f : σ → α → σ} {op : α → ο} (h : ∀ s a, Finishes exec [op a] s (f s a))
    (as : List α) (s : σ) : Finishes exec (as.map op) s (as.foldl f s) := by
  induction as generalizing s with
  | nil => exact .done s
  | cons a as ih => exact (h s a).append (ih (f s a))

/-- **Turns that follow each other** do what the thread does alone.  What it has to do afterwards
and what the other threads have to do is as before. -/
theorem exists_run (H : Finishes exec ops s s') (t : ℕ) :
    ∃ n, ops.length ≤ n ∧ ∀ (c : Pool σ ο) (rest : List ο), c.shared = s → c.ops t = ops ++ rest →
      run (fun c t => c.turn exec t) c (List.replicate n t) =
        some { shared := s', ops := Function.update c.ops t rest } := by
  induction H with
  | done s =>
      refine ⟨0, Nat.le_refl 0, fun c rest hs hops => ?_⟩
      obtain rfl : c.ops t = rest := hops
      subst hs
      rw [List.replicate_zero, run_nil, Function.update_eq_self]
  | @next op rest₀ s s' _ ih =>
      obtain ⟨n, hn, ih⟩ := ih
      refine ⟨n + 1, ?_, fun c rest hs hops => ?_⟩
      · rw [List.length_append] at hn
        rw [List.length_cons]
        omega
      · subst hs
        have hturn : c.turn exec t = some (c.turned exec t op (rest₀ ++ rest)) :=
          Pool.turn_eq_some.mpr ⟨op, rest₀ ++ rest, hops, rfl⟩
        have hops' : (c.turned exec t op (rest₀ ++ rest)).ops t = ((exec op c.shared).1 ++ rest₀) ++ rest := by
          rw [Pool.ops_turned, if_pos rfl, List.append_assoc]
        rw [List.replicate_succ, run_cons, hturn, Option.bind_some, ih _ rest rfl hops', Pool.turned,
          Function.update_idem]

end Finishes
end Aes67Daemon
