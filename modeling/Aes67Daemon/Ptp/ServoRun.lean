import Aes67Daemon.Ptp.Discipline

/-!
# The servo over a run

Whether a sample steps the clock, and from what the integrator starts, the servo keeps in
a flag and a number that it resets at a step and when the lock is lost.  What it should do
with a sample is said here by its past alone: the samples since the lock was acquired, and
those since the last step as well.  `Tracks` is what the two states have in common.

## Main definitions

* `PtpUpdate`, `Served` — a call of `on_ptp_update`, and the calls it makes in turn.
* `Served.Right` — what a call has to do after those before it.
* `ServoRun.right_iff` — the runs in which every call is right.
-/
namespace Aes67Daemon

/-- A value of 64 bits with a sign. -/
def InInt64 (z : ℤ) : Prop := -9223372036854775808 ≤ z ∧ z < 9223372036854775808

/-- A time of `CLOCK_REALTIME`: the kernel keeps the nanoseconds normal, and the seconds so
that the time has 64 bits in nanoseconds. -/
structure SystemTime where
  time : Timespec
  normal : 0 ≤ time.tvNsec ∧ time.tvNsec < 1000000000
  sec_le : |time.tvSec| ≤ 9223372036

/-- A call of `on_ptp_update`, and the time it reads. -/
structure PtpUpdate where
  now : SystemTime
  offsetNs : Int64
  locked : Bool

/-- The values of 64 bits of `ClockDiscipline::step`. -/
def stepValues (now : Timespec) (offsetNs : ℤ) : List ℤ :=
  [-offsetNs, (-offsetNs).tdiv 1000000000, (-offsetNs).tmod 1000000000,
    now.tvSec + (-offsetNs).tdiv 1000000000, now.tvNsec + (-offsetNs).tmod 1000000000,
    (ClockDiscipline.stepped now offsetNs).tvSec, (ClockDiscipline.stepped now offsetNs).tvNsec]

/-- A call that has been served, and what it has handed to the kernel. -/
structure Served where
  update : PtpUpdate
  calls : RealtimeClock

namespace Served

/-- The call has corrected the frequency. -/
def applied (r : Served) : Bool := r.update.locked && r.calls.settime.isNone

/-- The calls since the lock was acquired; the past has the last call first. -/
def sinceLock (past : List Served) : List Served := past.takeWhile fun r => r.update.locked

/-- The calls since the last step or acquisition of the lock. -/
def sinceStep (past : List Served) : List Served := past.takeWhile applied

@[simp] theorem sinceLock_cons (r : Served) (past : List Served) :
    sinceLock (r :: past) = if r.update.locked then r :: sinceLock past else [] :=
  List.takeWhile_cons

@[simp] theorem sinceStep_cons (r : Served) (past : List Served) :
    sinceStep (r :: past) = if r.applied then r :: sinceStep past else [] :=
  List.takeWhile_cons

/-- Between `-m` and `m`. -/
def clampAbs (m x : ℚ) : ℚ := max (-m) (min m x)

/-- The integrator after a call: it starts from zero, and the first call is the last of the
list. -/
def integral (cfg : ClockDisciplineConfig) (since : List Served) : ℚ :=
  since.foldr (fun r i => clampAbs cfg.maxFreqPpb (i + cfg.ki * -r.update.offsetNs.toInt)) 0

/-- What a call has to do after those in `past`. -/
structure Right (cfg : ClockDisciplineConfig) (past : List Served) (r : Served) : Prop where
  /-- Only a call that is locked does anything. -/
  unlocked : r.update.locked = false → r.calls.settime = none ∧ r.calls.freqPpb = none
  /-- The clock is stepped only where every offset since the lock was acquired is too large ... -/
  large : r.calls.settime.isSome → ∀ v ∈ sinceLock (r :: past), cfg.stepThresholdNs < |(v.update.offsetNs.toInt : ℚ)|
  /-- ... by the offset ... -/
  exact : ∀ t ∈ r.calls.settime, t.total = r.update.now.time.total - r.update.offsetNs.toInt
  /-- ... to a normal time ... -/
  normal : ∀ t ∈ r.calls.settime, 0 ≤ t.tvNsec ∧ t.tvNsec < 1000000000
  /-- ... and without an overflow. -/
  fits : r.calls.settime.isSome → ∀ z ∈ stepValues r.update.now.time r.update.offsetNs.toInt, InInt64 z
  /-- Every other call that is locked corrects the frequency. -/
  corrects : r.applied = true → r.calls.freqPpb = some (clampAbs cfg.maxFreqPpb
    (cfg.kp * -r.update.offsetNs.toInt + integral cfg (sinceStep (r :: past))))

/-- Every call of a history is right after those before it. -/
def AllRight (cfg : ClockDisciplineConfig) : List Served → Prop
  | [] => True
  | r :: past => r.Right cfg past ∧ AllRight cfg past

end Served

/-- The driver, and the calls it has served, the last first. -/
structure ServoRun where
  driver : ClockTaiDriver := {}
  history : List Served := []

namespace ServoRun

/-- Serve a call; what it hands to the kernel does not depend on what was handed before. -/
def step (cfg : ClockDisciplineConfig) (s : ServoRun) (u : PtpUpdate) : Option ServoRun :=
  let (driver, calls, _) := s.driver.onPtpUpdate cfg {} u.now.time u.offsetNs.toInt u.locked
  some ⟨driver, ⟨u, calls⟩ :: s.history⟩

/-- A call that steps the clock has an offset that can be negated. -/
def Negates (cfg : ClockDisciplineConfig) (s : ServoRun) (u : PtpUpdate) : Prop :=
  u.locked = true → s.driver.servo.Steps cfg u.offsetNs.toInt → u.offsetNs ≠ Int64.minValue

/-- What the driver keeps of its history. -/
structure Tracks (cfg : ClockDisciplineConfig) (s : ServoRun) : Prop where
  wasLocked : s.driver.wasLocked = s.history.head?.any fun r => r.update.locked
  first : s.driver.servo.first = (Served.sinceStep s.history).isEmpty
  integral : s.driver.servo.integral = Served.integral cfg (Served.sinceStep s.history)
  large : s.driver.servo.first = true →
    ∀ v ∈ Served.sinceLock s.history, cfg.stepThresholdNs < |(v.update.offsetNs.toInt : ℚ)|

/-! ## One call -/

variable {cfg : ClockDisciplineConfig} {s s' : ServoRun} {u : PtpUpdate}

theorem step_unlocked (h : u.locked = false) : s.step cfg u =
    some ⟨⟨if s.driver.wasLocked then {} else s.driver.servo, false⟩, ⟨u, {}⟩ :: s.history⟩ := by
  simp [step, ClockTaiDriver.onPtpUpdate, h]

theorem step_stepped (h : u.locked = true) (hsteps : s.driver.servo.Steps cfg u.offsetNs.toInt) :
    s.step cfg u = some ⟨⟨{}, true⟩,
      ⟨u, { settime := some (ClockDiscipline.stepped u.now.time u.offsetNs.toInt) }⟩ :: s.history⟩ := by
  simp [step, ClockTaiDriver.onPtpUpdate, ClockDiscipline.feed, h, hsteps]

theorem step_corrected (h : u.locked = true) (hsteps : ¬ s.driver.servo.Steps cfg u.offsetNs.toInt) :
    s.step cfg u = some ⟨⟨⟨s.driver.servo.nextIntegral cfg u.offsetNs.toInt, false⟩, true⟩,
      ⟨u, ({} : RealtimeClock).applyFreq (s.driver.servo.correction cfg u.offsetNs.toInt)⟩ :: s.history⟩ := by
  simp [step, ClockTaiDriver.onPtpUpdate, ClockDiscipline.feed, h, hsteps]

theorem clampTo_eq {m : ℚ} (hm : 0 ≤ m) (x : ℚ) : clampTo x (-m) m = Served.clampAbs m x := by
  unfold clampTo Served.clampAbs
  split
  · rename_i hlo
    rw [min_eq_right (by linarith), max_eq_left hlo.le]
  · rename_i hlo
    split
    · rename_i hhi
      rw [min_eq_left hhi.le, max_eq_right (by linarith)]
    · rename_i hhi
      rw [min_eq_right (le_of_not_gt hhi), max_eq_right (le_of_not_gt hlo)]

/-- The integrator after a correction is that of the calls since the last step, this one
included. -/
theorem Tracks.nextIntegral (T : s.Tracks cfg) (hcfg : 0 ≤ cfg.maxFreqPpb) (calls : RealtimeClock)
    (happlied : Served.applied ⟨u, calls⟩ = true) : s.driver.servo.nextIntegral cfg u.offsetNs.toInt =
      Served.integral cfg (Served.sinceStep (⟨u, calls⟩ :: s.history)) := by
  rw [Served.sinceStep_cons, if_pos happlied, ClockDiscipline.nextIntegral, clampTo_eq hcfg, T.integral,
    mul_comm]
  rfl

/-- Without a lock the servo starts again. -/
theorem Tracks.fresh (T : s.Tracks cfg) (hwas : s.driver.wasLocked = false) :
    s.driver.servo.first = true ∧ s.driver.servo.integral = 0 := by
  have hempty : Served.sinceStep s.history = [] := by
    have hhead := hwas.symm.trans T.wasLocked
    cases hpast : s.history with
    | nil => rfl
    | cons r past =>
        rw [hpast] at hhead
        have hunlocked : r.update.locked = false := hhead.symm
        simp [Served.applied, hunlocked]
  rw [T.first, T.integral, hempty]
  exact ⟨rfl, rfl⟩

/-- **A call keeps what the driver has of its history.** -/
theorem Tracks.step (T : s.Tracks cfg) (hcfg : 0 ≤ cfg.maxFreqPpb) (hs : s.step cfg u = some s') : s'.Tracks cfg := by
  cases hlocked : u.locked with
  | false =>
      rw [step_unlocked hlocked] at hs
      obtain rfl := Option.some.inj hs
      have hnone : Served.applied ⟨u, {}⟩ = false := by simp [Served.applied, hlocked]
      obtain ⟨hfirst, hintegral⟩ :
          (if s.driver.wasLocked then {} else s.driver.servo : ClockDiscipline).first = true ∧
            (if s.driver.wasLocked then {} else s.driver.servo : ClockDiscipline).integral = 0 := by
        cases hwas : s.driver.wasLocked with
        | true => exact ⟨rfl, rfl⟩
        | false => exact T.fresh hwas
      refine ⟨?_, ?_, ?_, ?_⟩
      · simp [hlocked]
      · simp [hnone, hfirst]
      · simp [hnone, hintegral, Served.integral]
      · simp [hlocked]
  | true =>
      by_cases hsteps : s.driver.servo.Steps cfg u.offsetNs.toInt
      · rw [step_stepped hlocked hsteps] at hs
        obtain rfl := Option.some.inj hs
        refine ⟨?_, ?_, ?_, ?_⟩
        · simp [hlocked]
        · simp [Served.applied]
        · simp [Served.applied, Served.integral]
        · intro _ v hv
          rw [Served.sinceLock_cons, if_pos hlocked, List.mem_cons] at hv
          obtain rfl | hv := hv
          · exact hsteps.2
          · exact T.large hsteps.1 v hv
      · rw [step_corrected hlocked hsteps] at hs
        obtain rfl := Option.some.inj hs
        have happlied : Served.applied ⟨u, ({} : RealtimeClock).applyFreq
            (s.driver.servo.correction cfg u.offsetNs.toInt)⟩ = true := by
          simp [Served.applied, hlocked, RealtimeClock.applyFreq]
        refine ⟨?_, ?_, ?_, ?_⟩
        · simp [hlocked]
        · simp [happlied]
        · exact T.nextIntegral hcfg _ happlied
        · intro hfirst
          cases hfirst

/-- An offset can be negated exactly when nothing in the step overflows. -/
theorem fits_stepValues_iff (now : SystemTime) (offsetNs : Int64) :
    (∀ z ∈ stepValues now.time offsetNs.toInt, InInt64 z) ↔ offsetNs ≠ Int64.minValue := by
  have hle := offsetNs.le_toInt
  have hlt := offsetNs.toInt_lt
  rw [Ne, ← Int64.toInt_inj]
  generalize offsetNs.toInt = offset at hle hlt ⊢
  constructor
  · intro h hmin
    have hneg := h (-offset) List.mem_cons_self
    rw [hmin] at hneg
    exact absurd hneg (by unfold InInt64; decide)
  · intro hmin
    have hne : offset ≠ -9223372036854775808 := hmin
    have hsec := abs_le.mp now.sec_le
    obtain ⟨hnsec, hnsec'⟩ := now.normal
    obtain ⟨htotal, hnormal⟩ := ClockDiscipline.stepped_total now.time offset
    obtain ⟨hnext, hnext'⟩ := hnormal hnsec hnsec'
    have hsplit := Int.tmod_add_tdiv_mul (-offset) 1000000000
    have hmod := Int.tmod_lt_of_pos (-offset) (show (0 : ℤ) < 1000000000 by decide)
    have hmod' := Int.lt_tmod_of_pos (-offset) (show (0 : ℤ) < 1000000000 by decide)
    unfold Timespec.total at htotal
    simp only [stepValues, List.forall_mem_cons, List.not_mem_nil, false_imp_iff, implies_true, and_true, InInt64]
    omega

/-- A call without a lock does nothing. -/
theorem right_unlocked (past : List Served) (h : u.locked = false) : Served.Right cfg past ⟨u, {}⟩ := by
  refine ⟨fun _ => ⟨rfl, rfl⟩, fun hset => ?_, fun t ht => ?_, fun t ht => ?_, fun hset => ?_, fun happlied => ?_⟩
  · cases hset
  · cases ht
  · cases ht
  · cases hset
  · simp [Served.applied, h] at happlied

/-- A step is right exactly when the offset can be negated. -/
theorem Tracks.right_stepped (T : s.Tracks cfg) (h : u.locked = true)
    (hsteps : s.driver.servo.Steps cfg u.offsetNs.toInt) :
    Served.Right cfg s.history ⟨u, { settime := some (ClockDiscipline.stepped u.now.time u.offsetNs.toInt) }⟩ ↔
      u.offsetNs ≠ Int64.minValue := by
  obtain ⟨htotal, hnormal⟩ := ClockDiscipline.stepped_total u.now.time u.offsetNs.toInt
  rw [← fits_stepValues_iff u.now]
  constructor
  · intro R
    exact R.fits rfl
  · intro hfits
    refine ⟨fun hno => ?_, fun _ v hv => ?_, fun t ht => ?_, fun t ht => ?_, fun _ => hfits, fun happlied => ?_⟩
    · cases h.symm.trans hno
    · rw [Served.sinceLock_cons, if_pos h, List.mem_cons] at hv
      obtain rfl | hv := hv
      · exact hsteps.2
      · exact T.large hsteps.1 v hv
    · obtain rfl := Option.some.inj ht
      exact htotal
    · obtain rfl := Option.some.inj ht
      exact hnormal u.now.normal.1 u.now.normal.2
    · simp [Served.applied] at happlied

/-- A correction is always right. -/
theorem Tracks.right_corrected (T : s.Tracks cfg) (hcfg : 0 ≤ cfg.maxFreqPpb) (h : u.locked = true) :
    Served.Right cfg s.history
      ⟨u, ({} : RealtimeClock).applyFreq (s.driver.servo.correction cfg u.offsetNs.toInt)⟩ := by
  refine ⟨fun hno => ?_, fun hset => ?_, fun t ht => ?_, fun t ht => ?_, fun hset => ?_, fun happlied => ?_⟩
  · cases h.symm.trans hno
  · cases hset
  · cases ht
  · cases ht
  · cases hset
  · rw [← T.nextIntegral hcfg _ happlied, ← clampTo_eq hcfg]
    rfl

/-- **A call is right exactly when an offset that it steps by can be negated.** -/
theorem Tracks.allRight_iff (T : s.Tracks cfg) (hcfg : 0 ≤ cfg.maxFreqPpb) (hs : s.step cfg u = some s') :
    Served.AllRight cfg s'.history ↔ Served.AllRight cfg s.history ∧ s.Negates cfg u := by
  cases hlocked : u.locked with
  | false =>
      rw [step_unlocked hlocked] at hs
      obtain rfl := Option.some.inj hs
      have hneg : s.Negates cfg u := fun hyes => by cases hlocked.symm.trans hyes
      exact ⟨fun h => ⟨h.2, hneg⟩, fun h => ⟨right_unlocked _ hlocked, h.1⟩⟩
  | true =>
      by_cases hsteps : s.driver.servo.Steps cfg u.offsetNs.toInt
      · rw [step_stepped hlocked hsteps] at hs
        obtain rfl := Option.some.inj hs
        have hneg : s.Negates cfg u ↔ u.offsetNs ≠ Int64.minValue := by simp [Negates, hlocked, hsteps]
        rw [hneg, ← T.right_stepped hlocked hsteps]
        exact and_comm
      · rw [step_corrected hlocked hsteps] at hs
        obtain rfl := Option.some.inj hs
        have hneg : s.Negates cfg u := fun _ h => absurd h hsteps
        exact ⟨fun h => ⟨h.2, hneg⟩, fun h => ⟨T.right_corrected hcfg hlocked, h.1⟩⟩

/-! ## A run -/

/-- Every call is served. -/
theorem exists_run (cfg : ClockDisciplineConfig) (s : ServoRun) (us : List PtpUpdate) :
    ∃ s', run (step cfg) s us = some s' := by
  have hany : Along (step cfg) (fun _ _ => True) s us := along_of_forall (P := fun _ => True) fun _ _ => trivial
  obtain ⟨s', hrun, -⟩ := run_invariant (J := fun _ => True) (fun s u _ _ => ⟨_, rfl, trivial⟩) trivial hany
  exact ⟨s', hrun⟩

/-- **In a run of any calls every one of them is right exactly when none steps the clock by the
least offset of 64 bits**: the clock is stepped only before the first correction under a lock,
to the time without the offset, and every other call corrects the frequency by the PI servo that
starts there. -/
theorem right_iff (cfg : ClockDisciplineConfig) (hcfg : 0 ≤ cfg.maxFreqPpb) (us : List PtpUpdate) :
    ∃ s, run (step cfg) {} us = some s ∧
      (Served.AllRight cfg s.history ↔ Along (step cfg) (Negates cfg) {} us) := by
  obtain ⟨s, hrun⟩ := exists_run cfg {} us
  have hstart : ({} : ServoRun).Tracks cfg := ⟨rfl, rfl, rfl, fun _ v hv => absurd hv List.not_mem_nil⟩
  refine ⟨s, hrun, ?_⟩
  rw [run_decides_of (J := Tracks cfg) (P := fun s => Served.AllRight cfg s.history)
    (fun _ _ _ T hs => T.step hcfg hs) (fun _ _ _ T hs => T.allRight_iff hcfg hs) hstart hrun]
  exact and_iff_right trivial

/-- The epoch. -/
def epoch : SystemTime := ⟨⟨0, 0⟩, by decide, by decide⟩

theorem right_iff_default : ∃ s, run (step {}) {} [⟨epoch, 2000, true⟩, ⟨epoch, 10, true⟩] = some s ∧
    (Served.AllRight {} s.history ↔
      Along (step {}) (Negates {}) {} [⟨epoch, 2000, true⟩, ⟨epoch, 10, true⟩]) :=
  right_iff {} (by decide +kernel) _

/-- The least offset, at the first call under a lock. -/
theorem least_offset_not_right : ∃ s, run (step {}) {} [⟨epoch, Int64.minValue, true⟩] = some s ∧
    ¬ Served.AllRight {} s.history := by
  have hsteps : ({} : ClockDiscipline).Steps {} Int64.minValue.toInt := by decide +kernel
  refine ⟨_, congrArg (Option.bind · some) (step_stepped rfl hsteps), ?_⟩
  intro h
  have hneg := h.1.fits rfl _ List.mem_cons_self
  exact absurd hneg.2 (by decide)

end ServoRun
end Aes67Daemon
