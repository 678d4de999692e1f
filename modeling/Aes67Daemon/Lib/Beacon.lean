import Mathlib.Data.List.Chain
import Mathlib.Data.Option.Basic
import Mathlib.Tactic.Ring

/-!
# Beacons

A beacon sends again and again, at least `lo` and at most `hi` apart.  What it sends
may be lost, but not `k` times in a row, and arrives within `delay`.  Then the times at
which a listener hears of it are apart by a bounded amount too.

## Main definitions

* `Beacon.Spaced`, `Beacon.Prompt`, `Beacon.Attentive` — how it sends, and what arrives.
* `Beacon.isChain_heard` — what a listener can rely on.
-/
namespace Aes67Daemon
namespace Beacon

/-- The times at which a listener hears of it. -/
def heard (l : List (ℕ × Option ℕ)) : List ℕ := l.filterMap Prod.snd

/-- It sends at least `lo` and at most `hi` apart. -/
def Spaced (lo hi : ℕ) (l : List (ℕ × Option ℕ)) : Prop :=
  l.IsChain fun x y => x.1 + lo ≤ y.1 ∧ y.1 ≤ x.1 + hi

/-- What arrives takes at most `delay`. -/
def Prompt (delay : ℕ) (l : List (ℕ × Option ℕ)) : Prop :=
  ∀ x ∈ l, ∀ t ∈ x.2, x.1 ≤ t ∧ t ≤ x.1 + delay

/-- Of `k` in a row one arrives. -/
def Attentive (k : ℕ) (l : List (ℕ × Option ℕ)) : Prop :=
  ∀ w, w <:+: l → w.length = k → ∃ x ∈ w, x.2.isSome = true

/-- What is heard one after the other. -/
def Apart (lo hi delay : ℕ) (t t' : ℕ) : Prop := t + lo ≤ t' + delay ∧ t' ≤ t + (hi + delay)

variable {lo hi delay k : ℕ} {l : List (ℕ × Option ℕ)}

/-- After one was heard and some were lost: `m` are those since it was sent at `s`,
and `c` is when the last one was sent. -/
theorem isChain_after {s c t : ℕ} {m : List (ℕ × Option ℕ)} (hc : s ≤ c ∧ c ≤ s + m.length * hi)
    (hfirst : m ≠ [] → s + lo ≤ c) (hm : ∀ x ∈ m, x.2 = none) (hk : m.length < k)
    (ht : s ≤ t ∧ t ≤ s + delay)
    (hspaced : ((c, none) :: l).IsChain fun x y => x.1 + lo ≤ y.1 ∧ y.1 ≤ x.1 + hi)
    (hprompt : Prompt delay l) (hattentive : Attentive k (m ++ l)) :
    (t :: heard l).IsChain (Apart lo (k * hi) delay) := by
  induction l generalizing s c t m with
  | nil => exact .singleton t
  | cons x l ih =>
      obtain ⟨⟨hlo, hhi⟩, hspaced⟩ := List.isChain_cons_cons.mp hspaced
      dsimp only at hlo hhi
      obtain ⟨hx, hprompt⟩ := List.forall_mem_cons.mp hprompt
      have hnext : ((x.1, none) :: l).IsChain fun x y => x.1 + lo ≤ y.1 ∧ y.1 ≤ x.1 + hi := by
        cases l with
        | nil => exact .singleton _
        | cons y l => exact List.isChain_cons_cons.mpr (List.isChain_cons_cons.mp hspaced)
      have hreach : x.1 ≤ s + (m.length + 1) * hi := by
        rw [Nat.add_mul, Nat.one_mul]
        omega
      cases harrive : x.2 with
      | none =>
          have hm' : ∀ y ∈ m ++ [x], y.2 = none := by
            intro y hy
            rcases List.mem_append.mp hy with hy | hy
            · exact hm y hy
            · rw [List.mem_singleton.mp hy, harrive]
          have hattentive' : Attentive k ((m ++ [x]) ++ l) := by
            rw [List.append_assoc]
            exact hattentive
          have hlt : (m ++ [x]).length < k := by
            by_contra hge
            have hlength : (m ++ [x]).length = k := by
              rw [List.length_append, List.length_singleton] at hge ⊢
              omega
            obtain ⟨y, hy, hsome⟩ := hattentive' _ (List.infix_append' [] _ _) hlength
            rw [hm' y hy] at hsome
            cases hsome
          have hheard : heard (x :: l) = heard l := List.filterMap_cons_none harrive
          rw [hheard]
          refine ih ⟨by omega, ?_⟩ (fun _ => by omega) hm' hlt ht hnext hprompt hattentive'
          rw [List.length_append, List.length_singleton]
          exact hreach
      | some t' =>
          have hheard : heard (x :: l) = t' :: heard l := List.filterMap_cons_some harrive
          rw [hheard]
          obtain ⟨hle, hdelay⟩ := hx t' harrive
          have hbound : (m.length + 1) * hi ≤ k * hi := Nat.mul_le_mul_right hi hk
          refine List.isChain_cons_cons.mpr ⟨⟨by omega, by omega⟩, ?_⟩
          refine ih (m := []) ⟨le_refl _, by simp⟩ (fun h => absurd rfl h) nofun ((Nat.zero_le _).trans_lt hk)
            ⟨hle, hdelay⟩ hnext hprompt ?_
          intro w hw
          refine hattentive w (hw.trans ?_)
          exact ((List.suffix_cons x l).trans (List.suffix_append m _)).isInfix

/-- **What a listener hears is apart**, by at least `lo` and at most `k` times `hi`, up to
the time it takes to arrive. -/
theorem isChain_heard (hk : 0 < k) (hspaced : Spaced lo hi l) (hprompt : Prompt delay l)
    (hattentive : Attentive k l) : (heard l).IsChain (Apart lo (k * hi) delay) := by
  induction l with
  | nil => exact .nil
  | cons x l ih =>
      obtain ⟨hx, hprompt⟩ := List.forall_mem_cons.mp hprompt
      have hattentive' : Attentive k l := fun w hw => hattentive w (hw.trans (List.suffix_cons x l).isInfix)
      cases harrive : x.2 with
      | none =>
          have hheard : heard (x :: l) = heard l := List.filterMap_cons_none harrive
          rw [hheard]
          exact ih hspaced.of_cons hprompt hattentive'
      | some t =>
          have hheard : heard (x :: l) = t :: heard l := List.filterMap_cons_some harrive
          have hnext : ((x.1, none) :: l).IsChain fun x y => x.1 + lo ≤ y.1 ∧ y.1 ≤ x.1 + hi := by
            cases l with
            | nil => exact .singleton _
            | cons y l => exact List.isChain_cons_cons.mpr (List.isChain_cons_cons.mp hspaced)
          rw [hheard]
          exact isChain_after (m := []) ⟨le_refl _, by simp⟩ (fun h => absurd rfl h) nofun hk (hx t harrive)
            hnext hprompt hattentive'

end Beacon
end Aes67Daemon
