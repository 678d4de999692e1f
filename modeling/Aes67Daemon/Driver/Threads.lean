import Aes67Daemon.Driver.Handler
import Aes67Daemon.Lib.Run
import Mathlib.Logic.Function.Basic

/-!
# Driver commands of several threads

The lock of `send_command` covers the request and its answer, and it is released
before the call reads `retcode_`, copies `recv_data_` and reads `retcode_` again.
Another thread that sends a command in between changes both members, and the call
returns what that command left.  A call that nobody interrupts returns the answer
to its own command.

The driver answers every request once, in order and in time, so that the answer to
a command is the datagram its `send_command` reads.

## Main definitions

* `Pending` — a command and the driver's answer to it.
* `Phase` — how far a thread is in its call.
* `Threads` — the shared members, the threads, and the calls that have returned.
* `ThreadStep.Alone` — a command is only sent while no other call is under way.
* `Threads.commands_apart` — every call then returns its own answer.
-/
namespace Aes67Daemon

/-- A command that a thread has sent, with the driver's answer. -/
structure Pending where
  command : Command
  errCode : ℤ
  data : List UInt8
  deriving DecidableEq

namespace Pending

/-- The answer as a datagram. -/
def answer (p : Pending) : List NetlinkMsg :=
  [{ id := p.command.id, errCode := p.errCode, data := p.data }]

/-- The error code of the command. -/
def code (maxPayload : ℕ) (p : Pending) : Option CommandError :=
  if maxPayload < p.command.data.length then some .sendInvalidSize
  else if p.errCode = 0 then none
  else some (getDriverError p.errCode)

/-- The bytes the driver sent for the call. -/
def bytes (p : Pending) : List UInt8 := p.data.take p.command.resultSize

/-- A call returned the code of its own command, and on success the driver's data. -/
def Own (maxPayload : ℕ) (p : Pending) (report : Report) : Prop :=
  report.retcode = p.code maxPayload ∧ (report.retcode = none → report.data = p.bytes)

instance (maxPayload : ℕ) (p : Pending) (report : Report) : Decidable (p.Own maxPayload report) :=
  inferInstanceAs (Decidable (_ ∧ (_ → _)))

end Pending

/-- How far a thread is in its call. -/
inductive Phase
  | idle
  /-- `send_command` has returned to a call with a result. -/
  | sent (p : Pending)
  /-- `retcode_` was success. -/
  | copying (p : Pending)
  /-- Only the `return retcode_` is left; the copied bytes. -/
  | returning (p : Pending) (data : List UInt8)
  deriving DecidableEq

/-- The `DriverManager` and the threads that call it. -/
structure Threads where
  results : Results := {}
  phase : ℕ → Phase := fun _ => .idle
  /-- The calls that have returned, newest first. -/
  returned : List (Pending × Report) := []

/-- One step of a thread. -/
inductive ThreadStep
  /-- A call executes `send_command` under the lock. -/
  | send (t : ℕ) (p : Pending)
  /-- The call reads `retcode_`. -/
  | readRetcode (t : ℕ)
  /-- The call copies `recv_data_`. -/
  | copyData (t : ℕ)

namespace Threads

/-- The members after a command. -/
def answered (maxPayload : ℕ) (r : Results) (p : Pending) : Results :=
  r.sendCommand maxPayload p.command (some p.answer)

/-- One step.  A call without a result only returns `retcode_`; a call with a
result reads it, copies the bytes if it is success, and returns it. -/
def occur (maxPayload : ℕ) (s : Threads) : ThreadStep → Option Threads
  | .send t p =>
      match s.phase t with
      | .idle =>
          let next := if p.command.resultSize = 0 then .returning p [] else .sent p
          some { s with results := answered maxPayload s.results p,
                        phase := Function.update s.phase t next }
      | _ => none
  | .readRetcode t =>
      match s.phase t with
      | .sent p =>
          let next := if s.results.retcode = none then .copying p else .returning p []
          some { s with phase := Function.update s.phase t next }
      | .returning p data =>
          some { s with phase := Function.update s.phase t .idle,
                        returned := (p, { retcode := s.results.retcode, data }) :: s.returned }
      | _ => none
  | .copyData t =>
      match s.phase t with
      | .copying p =>
          let next := .returning p (s.results.read p.command.resultSize)
          some { s with phase := Function.update s.phase t next }
      | _ => none

end Threads

/-- No other call is between its `send_command` and its last look at `retcode_`, and
a success has the bytes the call copies. -/
def ThreadStep.Alone (maxPayload : ℕ) (s : Threads) : ThreadStep → Prop
  | .send t p => (∀ t', t' ≠ t → s.phase t' = .idle) ∧
      (p.code maxPayload = none → p.command.resultSize ≤ p.data.length)
  | _ => True

namespace Phase

/-- The command of a call that is under way. -/
def pending : Phase → Option Pending
  | .idle => none
  | .sent p | .copying p | .returning p _ => some p

theorem pending_eq_none {phase : Phase} : phase.pending = none ↔ phase = .idle := by
  cases phase <;> simp [pending]

/-- What a call that nobody interrupts has seen so far. -/
def Seen (maxPayload : ℕ) : Phase → Prop
  | .idle | .sent _ => True
  | .copying p => p.code maxPayload = none
  | .returning p data => p.code maxPayload = none → data = p.bytes

theorem seen_update {maxPayload : ℕ} {phase : ℕ → Phase} {t : ℕ} {next : Phase}
    (h : ∀ t', (phase t').Seen maxPayload) (hnext : next.Seen maxPayload) (t' : ℕ) :
    (Function.update phase t next t').Seen maxPayload := by
  by_cases ht : t' = t
  · subst ht
    rwa [Function.update_self]
  · rw [Function.update_of_ne ht]
    exact h t'

end Phase

namespace Threads
variable {maxPayload : ℕ} {s s' : Threads} {e : ThreadStep}

/-- While a call is under way the members hold the answer to its command, and no
other call is under way. -/
structure Exclusive (maxPayload : ℕ) (s : Threads) : Prop where
  single : ∀ t t', s.phase t ≠ .idle → s.phase t' ≠ .idle → t = t'
  seen : ∀ t, (s.phase t).Seen maxPayload
  retcode : ∀ t p, (s.phase t).pending = some p → s.results.retcode = p.code maxPayload
  data : ∀ t p, (s.phase t).pending = some p → p.code maxPayload = none →
    s.results.read p.command.resultSize = p.bytes
  returned : ∀ c ∈ s.returned, c.1.Own maxPayload c.2

/-- The members after a command hold its answer. -/
theorem answered_spec {r : Results} {p : Pending}
    (hbytes : p.code maxPayload = none → p.command.resultSize ≤ p.data.length) :
    (answered maxPayload r p).retcode = p.code maxPayload ∧
      (p.code maxPayload = none →
        (answered maxPayload r p).read p.command.resultSize = p.bytes) := by
  rw [answered, Results.sendCommand.eq_def, Pending.code] at *
  by_cases hsize : maxPayload < p.command.data.length
  · simp [hsize]
  · by_cases herr : p.errCode = 0
    · simp only [hsize, herr, if_true, if_false, forall_const] at hbytes ⊢
      simp only [Pending.answer, List.foldl_cons, List.foldl_nil, Results.receiveMsg, herr,
        if_true, ne_eq, not_true_eq_false, if_false, Results.retcode_onCommandDone, true_and]
      exact Results.read_onCommandDone r hbytes
    · simp [hsize, herr, Pending.answer, Results.receiveMsg]

/-- What a step does. -/
theorem occur_cases (h : s.occur maxPayload e = some s') :
    (∃ t p next, e = .send t p ∧ next.pending = some p ∧ next.Seen maxPayload ∧
      s' = { s with results := answered maxPayload s.results p,
                    phase := Function.update s.phase t next }) ∨
    (∃ t next, next.pending = (s.phase t).pending ∧
      (s.Exclusive maxPayload → next.Seen maxPayload) ∧
      s' = { s with phase := Function.update s.phase t next }) ∨
    (∃ t p data, s.phase t = .returning p data ∧
      s' = { s with phase := Function.update s.phase t .idle,
                    returned := (p, { retcode := s.results.retcode, data }) :: s.returned }) := by
  cases e with
  | send t p =>
      rw [occur] at h
      split at h
      next =>
        refine .inl ⟨t, p, _, rfl, ?_, ?_, (Option.some.inj h).symm⟩
        · split <;> rfl
        · split
          next hzero =>
            intro _
            rw [Pending.bytes, hzero, List.take_zero]
          next => trivial
      next => cases h
  | readRetcode t =>
      rw [occur] at h
      split at h
      next p hsent =>
        refine .inr (.inl ⟨t, _, ?_, fun H => ?_, (Option.some.inj h).symm⟩)
        · rw [hsent]
          split <;> rfl
        · have hret := H.retcode t p (by rw [hsent]; rfl)
          split
          next hnone => exact hret.symm.trans hnone
          next hsome => exact fun hnone => absurd (hret.trans hnone) hsome
      next p data hreturning =>
        exact .inr (.inr ⟨t, p, data, hreturning, (Option.some.inj h).symm⟩)
      next => cases h
  | copyData t =>
      rw [occur] at h
      split at h
      next p hcopying =>
        refine .inr (.inl ⟨t, .returning p _, by rw [hcopying]; rfl, fun H hnone => ?_,
          (Option.some.inj h).symm⟩)
        exact H.data t p (by rw [hcopying]; rfl) hnone
      next => cases h

/-- A command that is sent while all other threads are idle. -/
theorem exclusive_send {t : ℕ} {p : Pending} {next : Phase} (H : s.Exclusive maxPayload)
    (hothers : ∀ t', t' ≠ t → s.phase t' = .idle)
    (hbytes : p.code maxPayload = none → p.command.resultSize ≤ p.data.length)
    (hpending : next.pending = some p) (hseen : next.Seen maxPayload) :
    Exclusive maxPayload { s with results := answered maxPayload s.results p,
                                  phase := Function.update s.phase t next } := by
  obtain ⟨hret, hread⟩ := answered_spec (r := s.results) hbytes
  have honly : ∀ t' q, (Function.update s.phase t next t').pending = some q → t' = t ∧ q = p := by
    intro t' q hq
    by_cases ht : t' = t
    · subst ht
      rw [Function.update_self, hpending] at hq
      exact ⟨rfl, (Option.some.inj hq).symm⟩
    · rw [Function.update_of_ne ht, hothers t' ht] at hq
      cases hq
  have hactive : ∀ t', Function.update s.phase t next t' ≠ .idle → t' = t := by
    intro t' hne
    obtain ⟨q, hq⟩ := Option.ne_none_iff_exists'.mp (mt Phase.pending_eq_none.mp hne)
    exact (honly t' q hq).1
  refine ⟨fun t₁ t₂ h₁ h₂ => (hactive t₁ h₁).trans (hactive t₂ h₂).symm,
    Phase.seen_update H.seen hseen, fun t' q hq => ?_, fun t' q hq => ?_, H.returned⟩
  · obtain ⟨-, rfl⟩ := honly t' q hq
    exact hret
  · obtain ⟨-, rfl⟩ := honly t' q hq
    exact hread

/-- A call that goes on. -/
theorem exclusive_advance {t : ℕ} {next : Phase} (H : s.Exclusive maxPayload)
    (hpending : next.pending = (s.phase t).pending) (hseen : next.Seen maxPayload) :
    Exclusive maxPayload { s with phase := Function.update s.phase t next } := by
  have hsame : ∀ t', (Function.update s.phase t next t').pending = (s.phase t').pending := by
    intro t'
    by_cases ht : t' = t
    · subst ht
      rw [Function.update_self, hpending]
    · rw [Function.update_of_ne ht]
  have hactive : ∀ t', Function.update s.phase t next t' ≠ .idle → s.phase t' ≠ .idle := by
    intro t' hne hidle
    refine hne (Phase.pending_eq_none.mp ?_)
    rw [hsame, Phase.pending_eq_none.mpr hidle]
  exact ⟨fun t₁ t₂ h₁ h₂ => H.single t₁ t₂ (hactive t₁ h₁) (hactive t₂ h₂),
    Phase.seen_update H.seen hseen, fun t' q hq => H.retcode t' q ((hsame t').symm.trans hq),
    fun t' q hq => H.data t' q ((hsame t').symm.trans hq), H.returned⟩

/-- A call that returns. -/
theorem exclusive_return {t : ℕ} {p : Pending} {data : List UInt8} (H : s.Exclusive maxPayload)
    (hreturning : s.phase t = .returning p data) :
    Exclusive maxPayload { s with phase := Function.update s.phase t .idle,
                                  returned := (p, ⟨s.results.retcode, data⟩) :: s.returned } := by
  have hsame : ∀ t', Function.update s.phase t .idle t' ≠ .idle →
      Function.update s.phase t .idle t' = s.phase t' := by
    intro t' hne
    by_cases ht : t' = t
    · subst ht
      exact absurd (Function.update_self ..) hne
    · exact Function.update_of_ne ht ..
  have hbusy : ∀ t' q, (Function.update s.phase t .idle t').pending = some q →
      (s.phase t').pending = some q := by
    intro t' q hq
    rw [← hsame t' fun hidle => by rw [hidle] at hq; cases hq]
    exact hq
  refine ⟨fun t₁ t₂ h₁ h₂ => ?_, Phase.seen_update H.seen trivial,
    fun t' q hq => H.retcode t' q (hbusy t' q hq), fun t' q hq => H.data t' q (hbusy t' q hq),
    List.forall_mem_cons.mpr ⟨?_, H.returned⟩⟩
  · exact H.single t₁ t₂ (hsame t₁ h₁ ▸ h₁) (hsame t₂ h₂ ▸ h₂)
  · have hret := H.retcode t p (by rw [hreturning]; rfl)
    have hdata := H.seen t
    rw [hreturning] at hdata
    exact ⟨hret, fun hnone => hdata (hret.symm.trans hnone)⟩

/-- **One step**: commands that are sent alone keep calls apart. -/
theorem exclusive_occur (H : s.Exclusive maxPayload) (halone : e.Alone maxPayload s)
    (h : s.occur maxPayload e = some s') : s'.Exclusive maxPayload := by
  rcases occur_cases h with ⟨t, p, next, rfl, hpending, hseen, rfl⟩ |
    ⟨t, next, hpending, hseen, rfl⟩ | ⟨t, p, data, hreturning, rfl⟩
  · exact exclusive_send H halone.1 halone.2 hpending hseen
  · exact exclusive_advance H hpending (hseen H)
  · exact exclusive_return H hreturning

theorem exclusive_start : Exclusive maxPayload {} :=
  ⟨fun _ _ h => absurd rfl h, fun _ => trivial, nofun, nofun, nofun⟩

/-- **Commands of several threads**: in every run in which commands are only sent
while no other call is under way, every call that has returned has returned the code
of its own command, and on success the data the driver sent for it. -/
theorem commands_apart (maxPayload : ℕ) {es : List ThreadStep}
    (halone : Along (occur maxPayload) (fun s e => e.Alone maxPayload s) {} es)
    (hrun : run (occur maxPayload) {} es = some s) :
    ∀ c ∈ s.returned, c.1.Own maxPayload c.2 :=
  (run_keeps (fun _ _ _ => exclusive_occur) exclusive_start halone hrun).returned

/-- One thread adds a stream, and another one reads the sample rate after it. -/
theorem commands_apart_two : ∃ s, run (occur 1024) {}
    [.send 0 ⟨DriverManager.addRtpStream (.replicate 4 0), 0, [7, 0, 0, 0, 0, 0, 0, 0]⟩,
      .readRetcode 0, .copyData 0, .readRetcode 0,
      .send 1 ⟨DriverManager.getSampleRate, -401, []⟩, .readRetcode 1, .readRetcode 1] = some s ∧
    s.returned.map Prod.snd = [{ retcode := some .commandFailed },
      { retcode := none, data := [7, 0, 0, 0, 0, 0, 0, 0] }] ∧
    ∀ c ∈ s.returned, c.1.Own 1024 c.2 := by
  have hrun : (run (occur 1024) {}
      [.send 0 ⟨DriverManager.addRtpStream (.replicate 4 0), 0, [7, 0, 0, 0, 0, 0, 0, 0]⟩,
        .readRetcode 0, .copyData 0, .readRetcode 0,
        .send 1 ⟨DriverManager.getSampleRate, -401, []⟩, .readRetcode 1, .readRetcode 1]).map
        (fun s => s.returned.map Prod.snd) = some [{ retcode := some .commandFailed },
          { retcode := none, data := [7, 0, 0, 0, 0, 0, 0, 0] }] := by decide +kernel
  obtain ⟨s, hs, hreports⟩ := Option.map_eq_some_iff.mp hrun
  refine ⟨s, hs, hreports, commands_apart 1024 ?_ hs⟩
  refine ⟨⟨fun _ _ => rfl, fun _ => by decide⟩, fun s₁ h₁ => ⟨trivial, fun s₂ h₂ => ⟨trivial,
    fun s₃ h₃ => ⟨trivial, fun s₄ h₄ => ⟨⟨fun t' _ => ?_, fun hcode => by cases hcode⟩,
      fun _ _ => ⟨trivial, fun _ _ => ⟨trivial, fun _ _ => trivial⟩⟩⟩⟩⟩⟩⟩
  obtain rfl := Option.some.inj h₁
  obtain rfl := Option.some.inj h₂
  obtain rfl := Option.some.inj h₃
  obtain rfl := Option.some.inj h₄
  by_cases ht : t' = 0
  · subst ht
    rfl
  · simp [Function.update_of_ne ht]

/-- Two threads add a stream each.  The second command is answered before the first
call copies its handle, and both calls return the handle of the second stream. -/
theorem commands_mixed : ∃ s, run (occur 1024) {}
    [.send 0 ⟨DriverManager.addRtpStream (.replicate 4 0), 0, [7, 0, 0, 0, 0, 0, 0, 0]⟩,
      .send 1 ⟨DriverManager.addRtpStream (.replicate 4 1), 0, [8, 0, 0, 0, 0, 0, 0, 0]⟩,
      .readRetcode 0, .copyData 0, .readRetcode 0,
      .readRetcode 1, .copyData 1, .readRetcode 1] = some s ∧
    ¬ ∀ c ∈ s.returned, c.1.Own 1024 c.2 := by
  have hrun : (run (occur 1024) {}
      [.send 0 ⟨DriverManager.addRtpStream (.replicate 4 0), 0, [7, 0, 0, 0, 0, 0, 0, 0]⟩,
        .send 1 ⟨DriverManager.addRtpStream (.replicate 4 1), 0, [8, 0, 0, 0, 0, 0, 0, 0]⟩,
        .readRetcode 0, .copyData 0, .readRetcode 0,
        .readRetcode 1, .copyData 1, .readRetcode 1]).map
        (fun s => decide (∀ c ∈ s.returned, c.1.Own 1024 c.2)) = some false := by decide +kernel
  obtain ⟨s, hs, hno⟩ := Option.map_eq_some_iff.mp hrun
  exact ⟨s, hs, of_decide_eq_false hno⟩

end Threads
end Aes67Daemon
