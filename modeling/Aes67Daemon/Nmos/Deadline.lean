import Aes67Daemon.Nmos.Pending

/-!
# When scheduled activations fire

A scheduled activation has a deadline on the steady clock, in 64 bits.  What the
request asks for is an instant in unbounded integers: a span from now, or a point
of the system clock, which is taken to run with the steady clock.

## Main definitions

* `Is05Activation.Requests` — the instant a scheduled activation asks for.
* `Is05Activation.InTime` — when the deadline is not earlier.
* `System.AcceptsAt`, `System.KeepsWaiting` — the steps before which nothing fires early.
-/
namespace Aes67Daemon

open Text

/-- Decimal digits and nothing else. -/
def Text.Decimal (t : Text) : Prop := t ≠ [] ∧ ∀ c ∈ t, c.isDigit = true

instance (t : Text) : Decidable t.Decimal :=
  decidable_of_iff (t ≠ [] ∧ t.all Char.isDigit = true) (by rw [List.all_eq_true]; rfl)

theorem wrap64_lt (z : ℤ) : wrap64 z < 9223372036854775808 := by
  have h := Int.bmod_lt (x := z) (m := 2 ^ 64) (by decide)
  norm_num at h
  simpa [wrap64] using h

theorem wrap64_eq {z : ℤ} (h0 : -9223372036854775808 ≤ z) (h : z < 9223372036854775808) : wrap64 z = z := by
  refine Int.bmod_eq_of_le ?_ ?_
  · norm_num
    omega
  · norm_num
    omega

/-- A number is no more than its value in 64 bits exactly if it fits. -/
theorem le_wrap64_iff {z : ℤ} (h0 : 0 ≤ z) : z ≤ wrap64 z ↔ z < 9223372036854775808 :=
  ⟨fun hle => lt_of_le_of_lt hle (wrap64_lt z), fun hfits => (wrap64_eq (by omega) hfits).ge⟩

namespace Is05Activation
variable {act : Is05Activation} {e : NmosEnv} {r : ℤ}

/-- The instant on the steady clock that a scheduled activation asks for, when its
`requested_time` is two decimal numbers and a colon. -/
inductive Requests (act : Is05Activation) (e : NmosEnv) : ℤ → Prop
  | relative {secs nanos : Text} (hmode : act.relative = true)
      (htime : act.requestedTime = secs ++ ':' :: nanos) (hsecs : secs.Decimal) (hnanos : nanos.Decimal) :
      Requests act e (e.now + (digitsValue secs * nanosPerSec + digitsValue nanos))
  | absolute {secs nanos : Text} (hmode : act.absolute = true)
      (htime : act.requestedTime = secs ++ ':' :: nanos) (hsecs : secs.Decimal) (hnanos : nanos.Decimal) :
      Requests act e (e.now + ((digitsValue secs * nanosPerSec + digitsValue nanos) - e.systemNow))

/-- An instant the deadline reaches: it fits into 64 bits, and an absolute one is at most a
second away. -/
def InTime (act : Is05Activation) (e : NmosEnv) (r : ℤ) : Prop :=
  if act.relative then r < 9223372036854775808 else r ≤ e.now + nanosPerSec

instance : Decidable (act.InTime e r) := by
  unfold InTime
  infer_instance

/-- An activation has one mode. -/
theorem relative_of_absolute (h : act.absolute = true) : act.relative = false := by
  have hmode : act.mode = "activate_scheduled_absolute".toList := by simpa [absolute] using h
  rw [relative, hmode]
  decide

theorem not_mem_decimal {t : Text} (h : t.Decimal) : ':' ∉ t := by
  intro hmem
  exact absurd (h.2 ':' hmem) (by decide)

/-- The two numbers of a well-formed `requested_time`, if they fit into 64 bits. -/
theorem requestedSpan_decimal {secs nanos : Text} (htime : act.requestedTime = secs ++ ':' :: nanos)
    (hsecs : secs.Decimal) (hnanos : nanos.Decimal) :
    act.requestedSpan =
      if digitsValue secs ≤ 9223372036854775807 ∧ digitsValue nanos ≤ 9223372036854775807
      then some ((digitsValue secs : ℤ), (digitsValue nanos : ℤ)) else none := by
  rw [requestedSpan, htime, breakAt_append (not_mem_decimal hsecs)]
  simp only [stoll_digits hsecs.1 hsecs.2, stoll_digits hnanos.1 hnanos.2]
  by_cases hs : digitsValue secs ≤ 9223372036854775807
  · by_cases hn : digitsValue nanos ≤ 9223372036854775807 <;> simp [hs, hn]
  · simp [hs]

/-- **When the deadline is not early**: exactly if the instant fits into 64 bits and, for an
absolute one, is at most a second away. -/
theorem le_deadline_iff (h : act.Requests e r) (hnow : e.now + nanosPerSec < 9223372036854775808) :
    r ≤ act.deadline e.now ↔ act.InTime e r := by
  have hfallback : wrap64 (e.now + nanosPerSec) = e.now + nanosPerSec :=
    wrap64_eq (by omega) (by omega)
  cases h with
  | @relative secs nanos hmode htime hsecs hnanos =>
      have hne : (act.requestedTime != []) = true := by simp [htime]
      rw [deadline, requestedSpan_decimal htime hsecs hnanos, InTime, if_pos hmode, hmode, hne]
      simp only [Bool.and_self, if_true, hfallback]
      split
      · rename_i s n heq
        obtain ⟨-, hspan⟩ := Option.ite_none_right_eq_some.mp heq
        obtain ⟨rfl, rfl⟩ := Prod.mk.inj (Option.some.inj hspan)
        rw [add_assoc]
        refine le_wrap64_iff ?_
        exact_mod_cast Nat.zero_le _
      · -- a number that does not fit is more than the second of the fallback
        rename_i heq
        have hlarge : ¬ (digitsValue secs ≤ 9223372036854775807 ∧
            digitsValue nanos ≤ 9223372036854775807) := by
          intro hfits
          rw [if_pos hfits] at heq
          cases heq
        rw [nanosPerSec] at hnow ⊢
        refine iff_of_false ?_ ?_ <;> omega
  | @absolute secs nanos hmode htime hsecs hnanos =>
      rw [deadline, InTime, relative_of_absolute hmode]
      simp [hfallback]

/-- A scheduled activation whose deadline is not early. -/
structure Granted (act : Is05Activation) (e : NmosEnv) (r : ℤ) : Prop where
  requests : act.Requests e r
  fits : e.now + nanosPerSec < 9223372036854775808
  inTime : act.InTime e r

theorem Granted.le_deadline (h : act.Granted e r) : r ≤ act.deadline e.now :=
  (le_deadline_iff h.requests h.fits).mpr h.inTime

theorem Requests.scheduled (h : act.Requests e r) : act.scheduled = true := by
  cases h with
  | relative hmode => simp [scheduled, hmode]
  | absolute hmode => simp [scheduled, hmode]

end Is05Activation

/-! ## What leads to an activation -/

namespace Op
variable {h : NmosHost} {e : NmosEnv} {s : NmosManager} {k : Kind} {id : UInt8}

/-- The steps of an activation of a sender or a receiver, up to the promotion. -/
def Activates (k : Kind) (id : UInt8) : Op → Prop
  | .promoteSender id' => k = .source ∧ id = id'
  | .snapshotReceiver id' | .resolveSdp id' _ | .promoteReceiver id' _ _ => k = .sink ∧ id = id'
  | _ => False

theorem activates_apply {k' : Kind} {id' : UInt8} {op' : Op} (hop' : op' ∈ apply k' id')
    (hact : op'.Activates k id) : k = k' ∧ id = id' := by
  cases k' with
  | source =>
      rcases List.mem_pair.mp hop' with rfl | rfl
      · exact hact
      · cases hact
  | sink =>
      rcases List.mem_pair.mp hop' with rfl | rfl
      · exact hact
      · cases hact

theorem activates_due {pa : PendingActivation} {op' : Op} (hop' : op' ∈ Op.due pa)
    (hact : op'.Activates k id) : k = pa.kind ∧ id = pa.daemonId := by
  rcases List.mem_cons.mp hop' with rfl | hop'
  · cases hact
  · exact activates_apply hop' hact

theorem activates_afterPatch {τ : Type} {k' : Kind} {id' : UInt8} {ret : Except Text (Endpoint τ)}
    {op' : Op} (hop' : op' ∈ afterPatch k' id' ret) (hact : op'.Activates k id) :
    ∃ staged, ret = .ok staged ∧ staged.act.immediate = true ∧ k = k' ∧ id = id' := by
  cases ret with
  | error err => cases hop'
  | ok staged =>
      simp only [afterPatch, List.mem_ite_nil_right] at hop'
      exact ⟨staged, rfl, hop'.1, activates_apply hop'.2 hact⟩

/-- **What an activation comes from**: the step before it, an immediate PATCH, or a deadline that
has passed. -/
theorem activates_exec {op op' : Op} (hop' : op' ∈ (op.exec h e s).1) (hact : op'.Activates k id) :
    op.Activates k id ∨ (∃ act, op.patchedAct? s = some (k, id, act) ∧ act.immediate = true) ∨
      op = .takeDue ∧ ∃ d ∈ s.entriesOf k id, d ≤ e.now := by
  have hnone : (∀ op' ∈ (op.exec h e s).1, ¬ op'.Activates k id) → op.Activates k id ∨
      (∃ act, op.patchedAct? s = some (k, id, act) ∧ act.immediate = true) ∨
        op = .takeDue ∧ ∃ d ∈ s.entriesOf k id, d ≤ e.now := fun H => absurd hact (H op' hop')
  cases op with
  | patchSender id' body =>
      obtain ⟨staged, hret, himm, rfl, rfl⟩ := activates_afterPatch hop' hact
      refine .inr (.inl ⟨staged.act, ?_, himm⟩)
      cases body with
      | error err => cases hret
      | ok p =>
          cases hsr : s.senders.find? id with
          | none => simp [hsr] at hret
          | some sr =>
              simp only [hsr, Except.ok.injEq] at hret
              simp [patchedAct?, hsr, hret]
  | patchReceiver id' body =>
      obtain ⟨staged, hret, himm, rfl, rfl⟩ := activates_afterPatch hop' hact
      refine .inr (.inl ⟨staged.act, ?_, himm⟩)
      cases body with
      | error err => cases hret
      | ok p =>
          cases hrr : s.receivers.find? id with
          | none => simp [hrr] at hret
          | some rr =>
              simp only [hrr, Except.ok.injEq] at hret
              simp [patchedAct?, hrr, hret]
  | snapshotReceiver id' =>
      left
      simp only [exec] at hop'
      split at hop'
      · split at hop' <;> rw [List.mem_singleton.mp hop'] at hact <;> exact hact
      · cases hop'
  | resolveSdp id' a =>
      left
      simp only [exec] at hop'
      split at hop'
      · cases hop'
      · split at hop'
        · cases hop'
        · rw [List.mem_singleton.mp hop'] at hact
          exact hact
  | takeDue =>
      refine .inr (.inr ⟨rfl, ?_⟩)
      obtain ⟨pa, hpa, hop'⟩ := List.mem_flatMap.mp hop'
      refine (mem_takeDue e.now).mp (List.mem_flatMap.mpr ⟨pa, hpa, ?_⟩)
      exact mem_due.mpr (activates_due hop' hact)
  | nextEvent =>
      simp only [exec] at hop'
      split at hop'
      · rename_i ev evs _
        rcases ev with ⟨_ | _, _⟩ | ⟨_ | _, _⟩ | _ | _ <;> simp [handle] at hop' <;> subst hop' <;>
          cases hact
      · cases hop'
  | _ =>
      refine hnone ?_
      simp only [exec]
      repeat' split
      all_goals simp [Activates, NmosManager.senderDocs]

end Op

/-! ## Runs -/

namespace System
variable {h : NmosHost} {σ σ' : System} {k : Kind} {id : UInt8} {r : ℤ}

/-- Nothing fires for a sender or a receiver before an instant: no earlier deadline is
pending, and no activation is ahead until then. -/
structure Waits (k : Kind) (id : UInt8) (r : ℤ) (σ : System) : Prop where
  pending : ∀ d ∈ σ.nmos.entriesOf k id, r ≤ d
  ahead : σ.threads.Ahead (Op.Activates k id) → r ≤ σ.clock

/-- The steps that ask for nothing before an instant: a PATCH of the sender or the receiver does
not leave an immediate activation, and a scheduled one is granted for that instant or later. -/
def AsksLater (k : Kind) (id : UInt8) (r : ℤ) (σ : System) (l : Label) : Prop :=
  ∀ t e op rest act, l = .turn t e → σ.threads.ops t = op :: rest →
    op.patchedAct? σ.nmos = some (k, id, act) →
      act.immediate = false ∧ (act.scheduled = true → ∃ r', r ≤ r' ∧ act.Granted e r')

/-- What a turn of a thread leaves to wait for. -/
theorem waits_turned {t : ℕ} {e : NmosEnv} {op : Op} {rest : List Op} (H : σ.Waits k id r)
    (hclock : σ.clock ≤ e.now) (hops : σ.threads.ops t = op :: rest)
    (hpatch : ∀ act, op.patchedAct? σ.nmos = some (k, id, act) →
      act.immediate = false ∧ (act.scheduled = true → ∃ r', r ≤ r' ∧ act.Granted e r')) :
    (σ.turned h t e op rest).Waits k id r := by
  constructor
  · change ∀ d ∈ (op.exec h e σ.nmos).2.entriesOf k id, r ≤ d
    intro d hd
    cases Op.books_exec h e σ.nmos k id op with
    | same hentries => exact H.pending d (hentries ▸ hd)
    | @patch act hop hentries =>
        rw [hentries, Op.booked_begun] at hd
        rcases List.mem_append.mp hd with hold | hnew
        · exact H.pending d hold
        · rw [List.mem_ite_nil_right, List.mem_singleton] at hnew
          obtain ⟨r', hr', hgranted⟩ := (hpatch act hop).2 hnew.1
          rw [hnew.2]
          exact hr'.trans hgranted.le_deadline
    | due hop hentries =>
        rw [hentries] at hd
        exact H.pending d (List.mem_of_mem_filter hd)
    | reset hop hentries => exact H.pending d (hentries ▸ hd)
    | erase hop hentries => exact H.pending d (hentries ▸ hd)
  · change _ → r ≤ e.now
    intro hahead
    have hold : σ.threads.Ahead (Op.Activates k id) → r ≤ e.now := by
      intro hahead
      have := H.ahead hahead
      omega
    rcases Pool.ahead_turned hops hahead with ⟨op', hop', hact⟩ | hahead
    · rcases Op.activates_exec hop' hact with hact | ⟨act, hop, himm⟩ | ⟨rfl, d, hd, hdue⟩
      · exact hold ⟨t, op, by rw [hops]; exact List.mem_cons_self, hact⟩
      · rw [(hpatch act hop).1] at himm
        cases himm
      · exact (H.pending d hd).trans hdue
    · exact hold hahead

/-- **One step keeps an activation waiting.** -/
theorem waits_step {l : Label} (H : σ.Waits k id r) (hl : σ.AsksLater k id r l)
    (hs : σ.step h l = some σ') : σ'.Waits k id r := by
  rcases step_cases hs with ⟨ev, sm, -, -, rfl⟩ | ⟨found, -, rfl⟩ | ⟨t, op, -, hstart, -, hidle, rfl⟩ |
    ⟨t, e, op, rest, rfl, hclock, hops, rfl⟩
  · exact ⟨H.pending, H.ahead⟩
  · exact ⟨H.pending, H.ahead⟩
  · refine ⟨H.pending, fun hahead => H.ahead ((Pool.ahead_started hidle ?_).mp hahead)⟩
    intro hact
    cases op <;> first | cases hstart | cases hact
  · exact waits_turned H hclock hops fun act hop => hl t e op rest act rfl hops hop

/-- **Scheduled activations do not fire early**: after a PATCH whose activation is granted, on a
sender or a receiver for which nothing earlier is pending and no activation is under way, no
step of an activation is taken before the instant it asks for, in every run that asks for
nothing earlier. -/
theorem scheduled_not_early (h : NmosHost) (σ : System) (t : ℕ) (e : NmosEnv) (op : Op)
    (rest : List Op) (k : Kind) (id : UInt8) (act : Is05Activation) (r : ℤ)
    (hclock : σ.clock ≤ e.now) (hops : σ.threads.ops t = op :: rest)
    (hpatch : op.patchedAct? σ.nmos = some (k, id, act)) (hgranted : act.Granted e r)
    (hpending : ∀ d ∈ σ.nmos.entriesOf k id, r ≤ d) (hidle : ¬ σ.threads.Ahead (Op.Activates k id))
    (labels : List Label) (hlater : Along (step h) (AsksLater k id r) (σ.turned h t e op rest) labels)
    (σ' : System) (hrun : run (step h) (σ.turned h t e op rest) labels = some σ') (t' : ℕ)
    (e' : NmosEnv) (op' : Op) (rest' : List Op) (hclock' : σ'.clock ≤ e'.now)
    (hops' : σ'.threads.ops t' = op' :: rest') (hact : op'.Activates k id) : r ≤ e'.now := by
  have H : σ.Waits k id r := ⟨hpending, fun hahead => absurd hahead hidle⟩
  have H1 : (σ.turned h t e op rest).Waits k id r := by
    refine waits_turned H hclock hops fun act' hop => ?_
    have hsame : act = act' := by
      rw [hpatch] at hop
      exact congrArg (·.2.2) (Option.some.inj hop)
    subst hsame
    refine ⟨?_, fun _ => ⟨r, le_refl r, hgranted⟩⟩
    refine Bool.eq_false_iff.mpr fun himm => ?_
    have hno := Op.scheduled_of_immediate himm
    rw [hgranted.requests.scheduled] at hno
    cases hno
  have H2 : σ'.Waits k id r := run_keeps (fun _ _ _ H hl hs => waits_step H hl hs) H1 hlater hrun
  have := H2.ahead ⟨t', op', by rw [hops']; exact List.mem_cons_self, hact⟩
  omega

/-- A PATCH of the first sender that leaves an activation. -/
def asking (mode time : Text) : Op :=
  .patchSender 1 (.ok { mode := some mode, requestedTime := some time })

/-- The worker takes what is due and comes to the promotion. -/
def firing (e : NmosEnv) : List Label := [.start 0 .takeDue, .turn 0 e, .turn 0 e]

instance decidableActivates : DecidablePred (Op.Activates k id) := fun op => by
  cases op <;> unfold Op.Activates <;> infer_instance

/-- An idle thread receives the request. -/
def received (op : Op) (σ : System) : System := { σ with threads := σ.threads.started 1 op }

/-- The step is no PATCH. -/
def noPatch (σ : System) : Label → Bool
  | .turn t _ => (σ.threads.ops t).head?.all fun op => (op.patchedAct? σ.nmos).isNone
  | _ => true

theorem asksLater_of_noPatch {l : Label} (h : σ.noPatch l = true) : σ.AsksLater k id r l := by
  rintro t e op rest act rfl hops hpatch
  simp [noPatch, hops, hpatch] at h

/-- A PATCH of the first sender, and the run up to its promotion. -/
theorem exists_fired (mode time : Text) (e : NmosEnv) (act : Is05Activation)
    (hrun : (sampleRun {} soleSource.1 soleSource.2).map (fun σ => decide (
      ((σ.threads.ops 0).isEmpty ∧ (σ.threads.ops 1).isEmpty ∧ σ.nmos.serving ∧ σ.clock = 0 ∧
        (asking mode time).patchedAct? σ.nmos = some (.source, 1, act) ∧ σ.nmos.entriesOf .source 1 = []) ∧
      Along (step {}) (fun σ l => σ.noPatch l = true)
        ((σ.received (asking mode time)).turned {} 1 {} (asking mode time) []) (firing e) ∧
      (run (step {}) ((σ.received (asking mode time)).turned {} 1 {} (asking mode time) []) (firing e)).map
        (fun σ' => decide (σ'.clock ≤ e.now ∧
          (σ'.threads.ops 0).head?.any fun op => op.Activates .source 1)) = some true)) = some true) :
    ∃ σ σ' op' rest', System.Reachable {} σ ∧ σ.clock = 0 ∧ σ.threads.ops 1 = [asking mode time] ∧
      (asking mode time).patchedAct? σ.nmos = some (.source, 1, act) ∧ σ.nmos.entriesOf .source 1 = [] ∧
      ¬ σ.threads.Ahead (Op.Activates .source 1) ∧
      (∀ r, Along (step {}) (AsksLater .source 1 r) (σ.turned {} 1 {} (asking mode time) []) (firing e)) ∧
      run (step {}) (σ.turned {} 1 {} (asking mode time) []) (firing e) = some σ' ∧
      σ'.clock ≤ e.now ∧ σ'.threads.ops 0 = op' :: rest' ∧ op'.Activates .source 1 := by
  obtain ⟨σ, hσ, hdone⟩ := Option.map_eq_some_iff.mp hrun
  obtain ⟨⟨h0, h1, hserving, hclock, hpatch, hentries⟩, hnone, hfired⟩ := of_decide_eq_true hdone
  obtain ⟨σ', hrun', hdone'⟩ := Option.map_eq_some_iff.mp hfired
  obtain ⟨hclock', hhead⟩ := of_decide_eq_true hdone'
  obtain ⟨hreach, hquiet⟩ := quiet_sampleRun (n := 2) (by decide) (by
    intro l hl
    rw [List.eq_of_mem_replicate hl]
    decide) hσ
  have hidle := hquiet.idle h0 h1
  have hstart : run (step {}) σ [.start 1 (asking mode time)] = some (σ.received (asking mode time)) := by
    simp [run, step, hserving, Op.startsOn, asking, received, Pool.start, hidle]
  cases hops : σ'.threads.ops 0 with
  | nil => simp [hops] at hhead
  | cons op' rest' =>
      refine ⟨σ.received (asking mode time), σ', op', rest', hreach.run hstart, hclock, ?_, hpatch, hentries,
        ?_, fun r => hnone.imp fun _ _ => asksLater_of_noPatch, hrun', hclock', hops,
        by simpa [hops] using hhead⟩
      · exact (Pool.ops_started 1).trans (if_pos rfl)
      · intro hahead
        obtain ⟨t, op, hop, -⟩ := (Pool.ahead_started (hidle 1) (by simp [asking, Op.Activates])).mp hahead
        rw [hidle t] at hop
        cases hop

/-- An activation in a second, which is carried out after two. -/
theorem scheduled_not_early_second : ∃ (σ : System) (op : Op) (rest : List Op) (e : NmosEnv),
    σ.threads.ops 0 = op :: rest ∧ op.Activates .source 1 ∧ (1000000000 : ℤ) ≤ e.now := by
  obtain ⟨σ, σ', op', rest', -, hclock, hops, hpatch, hentries, hidle, hlater, hrun, hclock', hops', hact⟩ :=
    exists_fired "activate_scheduled_relative".toList "1:0".toList { now := 2 * nanosPerSec }
      { mode := "activate_scheduled_relative".toList, requestedTime := "1:0".toList } (by decide +kernel)
  refine ⟨σ', op', rest', { now := 2 * nanosPerSec }, hops', hact, ?_⟩
  refine scheduled_not_early {} σ 1 {} (asking _ _) [] .source 1 _ 1000000000 hclock.le hops hpatch
    ⟨?_, by decide, by decide⟩ (by rw [hentries]; simp) hidle (firing { now := 2 * nanosPerSec })
    (hlater _) σ' hrun 0 _ op' rest' hclock' hops' hact
  exact @Is05Activation.Requests.relative _ _ "1".toList "0".toList rfl rfl (by decide) (by decide)

/-- A request for an hour from now is carried out after a second, and one for three centuries
from now at once. -/
theorem scheduled_early :
    (∃ σ σ' act r op' rest', System.Reachable {} σ ∧
      σ.threads.ops 1 = [asking "activate_scheduled_absolute".toList "3600:0".toList] ∧
      (asking "activate_scheduled_absolute".toList "3600:0".toList).patchedAct? σ.nmos = some (.source, 1, act) ∧
      act.Requests {} r ∧ run (step {}) (σ.turned {} 1 {} (asking "activate_scheduled_absolute".toList
        "3600:0".toList) []) (firing { now := 1000000000 }) = some σ' ∧
      σ'.clock ≤ 1000000000 ∧ σ'.threads.ops 0 = op' :: rest' ∧ op'.Activates .source 1 ∧ (1000000000 : ℤ) < r) ∧
    ∃ σ σ' act r op' rest', System.Reachable {} σ ∧
      σ.threads.ops 1 = [asking "activate_scheduled_relative".toList "9300000000:0".toList] ∧
      (asking "activate_scheduled_relative".toList "9300000000:0".toList).patchedAct? σ.nmos =
        some (.source, 1, act) ∧
      act.Requests {} r ∧ run (step {}) (σ.turned {} 1 {} (asking "activate_scheduled_relative".toList
        "9300000000:0".toList) []) (firing {}) = some σ' ∧
      σ'.clock ≤ 0 ∧ σ'.threads.ops 0 = op' :: rest' ∧ op'.Activates .source 1 ∧ (0 : ℤ) < r := by
  constructor
  · obtain ⟨σ, σ', op', rest', hreach, -, hops, hpatch, -, -, -, hrun, hclock', hops', hact⟩ :=
      exists_fired "activate_scheduled_absolute".toList "3600:0".toList { now := 1000000000 }
        { mode := "activate_scheduled_absolute".toList, requestedTime := "3600:0".toList } (by decide +kernel)
    refine ⟨σ, σ', _, _, op', rest', hreach, hops, hpatch,
      @Is05Activation.Requests.absolute _ _ "3600".toList "0".toList rfl rfl (by decide) (by decide), hrun,
      hclock', hops', hact, by decide⟩
  · obtain ⟨σ, σ', op', rest', hreach, -, hops, hpatch, -, -, -, hrun, hclock', hops', hact⟩ :=
      exists_fired "activate_scheduled_relative".toList "9300000000:0".toList {}
        { mode := "activate_scheduled_relative".toList, requestedTime := "9300000000:0".toList }
        (by decide +kernel)
    refine ⟨σ, σ', _, _, op', rest', hreach, hops, hpatch,
      @Is05Activation.Requests.relative _ _ "9300000000".toList "0".toList rfl rfl (by decide) (by decide),
      hrun, hclock', hops', hact, by decide⟩

end System
end Aes67Daemon
