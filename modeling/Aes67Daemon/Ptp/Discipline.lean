import Aes67Daemon.Lib.Run
import Mathlib.Data.Rat.Floor

/-!
# The frequency correction

At every poll the clock manager offers the PTP offset to its drivers: the first of them
disciplines `CLOCK_REALTIME` by a PI servo and returns the correction it has applied, and
what the others are told and what is published is the last correction that was not zero,
or zero without a lock.  The doubles of the source are rational numbers here.

## Main definitions

* `ClockDiscipline.feed` — the servo.
* `ClockManager.tick` — the main loop.
* `ClockManager.inForce_iff` — the runs in which every correction that is published is the
  one the kernel has.
-/
namespace Aes67Daemon

/-! ## The servo -/

/-- `std::clamp`. -/
def clampTo (x lo hi : ℚ) : ℚ := if x < lo then lo else if hi < x then hi else x

/-- A cast to an integer type. -/
def towardZero (x : ℚ) : ℤ := if 0 ≤ x then ⌊x⌋ else -⌊-x⌋

structure Timespec where
  tvSec : ℤ
  tvNsec : ℤ

/-- `CLOCK_REALTIME`, and what has been handed to the kernel for it. -/
structure RealtimeClock where
  /-- The frequency of the last `clock_adjtime`, in ppb ... -/
  freqPpb : Option ℚ := none
  /-- ... and as `tx.freq` has it. -/
  txFreq : Option ℤ := none
  /-- The time of the last `clock_settime`. -/
  settime : Option Timespec := none

/-- `ClockDiscipline::apply_freq`; the unit of `ADJ_FREQUENCY` is ppm times `2 ^ 16`. -/
def RealtimeClock.applyFreq (k : RealtimeClock) (freqPpb : ℚ) : RealtimeClock :=
  { k with freqPpb := some freqPpb, txFreq := some (towardZero (freqPpb * 65536 / 1000)) }

/-- The correction that the kernel has, in whole ppb. -/
def RealtimeClock.inForce (k : RealtimeClock) : ℤ := (k.freqPpb.map towardZero).getD 0

structure ClockDisciplineConfig where
  kp : ℚ := 7 / 10
  ki : ℚ := 3 / 10 / 30
  maxFreqPpb : ℚ := 500
  stepThresholdNs : ℚ := 1000

/-- The servo. -/
structure ClockDiscipline where
  integral : ℚ := 0
  first : Bool := true

namespace ClockDiscipline

/-- The time `offsetNs` before `now`; the quotient and the remainder have the sign of the
correction. -/
def stepped (now : Timespec) (offsetNs : ℤ) : Timespec :=
  let sec := now.tvSec + (-offsetNs).tdiv 1000000000
  let nsec := now.tvNsec + (-offsetNs).tmod 1000000000
  if 1000000000 ≤ nsec then ⟨sec + 1, nsec - 1000000000⟩
  else if nsec < 0 then ⟨sec - 1, nsec + 1000000000⟩
  else ⟨sec, nsec⟩

variable (cfg : ClockDisciplineConfig) (servo : ClockDiscipline) (offsetNs : ℤ)

/-- The first offset is too large for the servo. -/
def Steps : Prop := servo.first = true ∧ cfg.stepThresholdNs < |(offsetNs : ℚ)|

instance : Decidable (servo.Steps cfg offsetNs) := inferInstanceAs (Decidable (_ ∧ _))

/-- `integral_` after an offset. -/
def nextIntegral : ℚ := clampTo (servo.integral + -offsetNs * cfg.ki) (-cfg.maxFreqPpb) cfg.maxFreqPpb

/-- The correction for an offset: a clock that is behind has to speed up. -/
def correction : ℚ :=
  clampTo (cfg.kp * -offsetNs + servo.nextIntegral cfg offsetNs) (-cfg.maxFreqPpb) cfg.maxFreqPpb

/-- `ClockDiscipline::feed` at a time `now`. -/
def feed (k : RealtimeClock) (now : Timespec) : ClockDiscipline × RealtimeClock × ℚ :=
  if servo.Steps cfg offsetNs then ({}, { k with settime := some (stepped now offsetNs) }, 0)
  else
    (⟨servo.nextIntegral cfg offsetNs, false⟩, k.applyFreq (servo.correction cfg offsetNs),
      servo.correction cfg offsetNs)

end ClockDiscipline

/-! ## The main loop -/

structure ClockTaiDriver where
  servo : ClockDiscipline := {}
  wasLocked : Bool := false

/-- `ClockTaiDriver::on_ptp_update`. -/
def ClockTaiDriver.onPtpUpdate (cfg : ClockDisciplineConfig) (d : ClockTaiDriver) (k : RealtimeClock) (now : Timespec)
    (offsetNs : ℤ) (locked : Bool) : ClockTaiDriver × RealtimeClock × ℤ :=
  if locked then
    let (servo, k, freq) := d.servo.feed cfg offsetNs k now
    (⟨servo, true⟩, k, towardZero freq)
  else (⟨if d.wasLocked then {} else d.servo, false⟩, k, 0)

/-- What the manager reads of the PTP status. -/
structure PtpStatus where
  lockState : ℤ
  ptpOffsetNs : ℤ

/-- `PTPLS_LOCKED`. -/
def PtpStatus.locked (status : PtpStatus) : Bool := status.lockState = 2

/-- What the main loop finds when it polls. -/
structure ClockPoll where
  /-- The status, if the kernel module answers. -/
  status : Option PtpStatus
  now : Timespec

/-- What a driver returns is kept if it is not zero. -/
def keepNonzero (appliedFreqPpb r : ℤ) : ℤ := if r ≠ 0 then r else appliedFreqPpb

/-- The rest of the drivers: what each of them is handed, and what is kept at last. -/
def laterDrivers : ℕ → ℤ → List ℤ × ℤ
  | 0, applied => ([], applied)
  | n + 1, applied =>
    let later := laterDrivers n (keepNonzero applied 0)
    (applied :: later.1, later.2)

/-- What a tick publishes as `freq_ppb`, and what it has handed to the later drivers. -/
structure PublishedFreq where
  freqPpb : ℤ
  handed : List ℤ

structure ClockManager where
  tai : ClockTaiDriver := {}
  clock : RealtimeClock := {}
  appliedFreqPpb : ℤ := 0
  /-- The last `shm_publish`. -/
  published : Option PublishedFreq := none

namespace ClockManager

/-- One pass of the main loop. -/
def tick (cfg : ClockDisciplineConfig) (others : ℕ) (m : ClockManager) (poll : ClockPoll) : ClockManager :=
  match poll.status with
  | none => m
  | some status =>
    let applied := if status.locked then m.appliedFreqPpb else 0
    let (tai, clock, r) := m.tai.onPtpUpdate cfg m.clock poll.now status.ptpOffsetNs status.locked
    let (handed, applied) := laterDrivers others (keepNonzero applied r)
    ⟨tai, clock, applied, some ⟨applied, handed⟩⟩

def step (cfg : ClockDisciplineConfig) (others : ℕ) (m : ClockManager) (poll : ClockPoll) : Option ClockManager :=
  some (m.tick cfg others poll)

/-- What is published and what the later drivers are told is the correction that the kernel
has. -/
def InForce (m : ClockManager) : Prop :=
  ∀ p ∈ m.published, p.freqPpb = m.clock.inForce ∧ ∀ freq ∈ p.handed, freq = p.freqPpb

/-- Without a lock, and where a new correction is below 1 ppb, the kernel's correction is below
1 ppb as well. -/
def KeepsInForce (cfg : ClockDisciplineConfig) (m : ClockManager) (poll : ClockPoll) : Prop :=
  ∀ status ∈ poll.status,
    (status.locked = false ∨
        ¬ m.tai.servo.Steps cfg status.ptpOffsetNs ∧ |m.tai.servo.correction cfg status.ptpOffsetNs| < 1) →
      ∀ freq ∈ m.clock.freqPpb, |freq| < 1

end ClockManager

/-! ## The correction that is kept -/

theorem towardZero_eq_zero_iff {x : ℚ} : towardZero x = 0 ↔ |x| < 1 := by
  unfold towardZero
  split
  · rename_i hnonneg
    rw [abs_of_nonneg hnonneg, Int.floor_eq_zero_iff, Set.mem_Ico, and_iff_right hnonneg]
  · rename_i hneg
    have hpos : 0 ≤ -x := neg_nonneg.mpr (le_of_not_ge hneg)
    rw [abs_of_neg (lt_of_not_ge hneg), neg_eq_zero, Int.floor_eq_zero_iff, Set.mem_Ico, and_iff_right hpos]

theorem RealtimeClock.inForce_eq_zero_iff {k : RealtimeClock} : k.inForce = 0 ↔ ∀ freq ∈ k.freqPpb, |freq| < 1 := by
  unfold inForce
  cases k.freqPpb with
  | none => exact iff_of_true rfl fun freq h => absurd h (Option.not_mem_none freq)
  | some freq => simp [towardZero_eq_zero_iff]

theorem keepNonzero_zero (applied : ℤ) : keepNonzero applied 0 = applied := if_neg fun h => h rfl

theorem keepNonzero_eq_iff {applied r : ℤ} : keepNonzero applied r = r ↔ (r = 0 → applied = 0) := by
  unfold keepNonzero
  split <;> omega

/-- The later drivers are all handed the same, and it is kept. -/
theorem laterDrivers_eq (others : ℕ) (applied : ℤ) :
    laterDrivers others applied = (List.replicate others applied, applied) := by
  induction others with
  | zero => rfl
  | succ n ih => rw [laterDrivers, keepNonzero_zero, ih, List.replicate_succ]

theorem clampTo_mem {x lo hi : ℚ} (h : lo ≤ hi) : lo ≤ clampTo x lo hi ∧ clampTo x lo hi ≤ hi := by
  unfold clampTo
  split
  · exact ⟨le_refl lo, h⟩
  · split
    · exact ⟨h, le_refl hi⟩
    · exact ⟨le_of_not_gt ‹_›, le_of_not_gt ‹_›⟩

/-- A correction fits every integer type that it is cast to. -/
theorem ClockDiscipline.abs_correction_le {cfg : ClockDisciplineConfig} (h : 0 ≤ cfg.maxFreqPpb) (servo : ClockDiscipline)
    (offsetNs : ℤ) : |servo.correction cfg offsetNs| ≤ cfg.maxFreqPpb :=
  abs_le.mpr (clampTo_mem (by linarith))

def Timespec.total (t : Timespec) : ℤ := t.tvSec * 1000000000 + t.tvNsec

/-- A step takes the offset off the time, and the time stays normal. -/
theorem ClockDiscipline.stepped_total (now : Timespec) (offsetNs : ℤ) :
    (stepped now offsetNs).total = now.total - offsetNs ∧
      (0 ≤ now.tvNsec → now.tvNsec < 1000000000 →
        0 ≤ (stepped now offsetNs).tvNsec ∧ (stepped now offsetNs).tvNsec < 1000000000) := by
  have hsplit := Int.tmod_add_tdiv_mul (-offsetNs) 1000000000
  have hlt := Int.tmod_lt_of_pos (-offsetNs) (show (0 : ℤ) < 1000000000 by decide)
  have hgt := Int.lt_tmod_of_pos (-offsetNs) (show (0 : ℤ) < 1000000000 by decide)
  unfold stepped Timespec.total
  dsimp only
  split
  · dsimp only
    omega
  · split <;> dsimp only <;> omega

namespace ClockManager
variable {cfg : ClockDisciplineConfig} {others : ℕ} {m m' : ClockManager} {poll : ClockPoll}

/-- What has been published and handed over is what the main loop has kept. -/
structure Grounded (m : ClockManager) : Prop where
  start : m.published = none → m.appliedFreqPpb = 0 ∧ m.clock.freqPpb = none
  last : ∀ p ∈ m.published, p.freqPpb = m.appliedFreqPpb ∧ ∀ freq ∈ p.handed, freq = p.freqPpb

theorem grounded_tick (G : m.Grounded) : (m.tick cfg others poll).Grounded := by
  unfold tick
  split
  · exact G
  · dsimp only
    rw [laterDrivers_eq]
    refine ⟨fun hnone => (by cases hnone), fun p hp => ?_⟩
    obtain rfl := Option.some.inj hp
    exact ⟨rfl, fun freq hfreq => List.eq_of_mem_replicate hfreq⟩

theorem inForce_iff_applied (G : m.Grounded) : m.InForce ↔ m.appliedFreqPpb = m.clock.inForce := by
  cases hlast : m.published with
  | none =>
      obtain ⟨hzero, hnone⟩ := G.start hlast
      refine iff_of_true (fun p hp => ?_) ?_
      · cases hlast.symm.trans hp
      · rw [hzero, RealtimeClock.inForce, hnone]
        rfl
  | some p =>
      obtain ⟨hfreq, hhanded⟩ := G.last p hlast
      rw [← hfreq]
      constructor
      · intro H
        exact (H p hlast).1
      · intro heq p' hp'
        obtain rfl := Option.some.inj (hlast.symm.trans hp')
        exact ⟨heq, hhanded⟩

section tick
variable {status : PtpStatus} (hpoll : poll.status = some status)
include hpoll

theorem tick_unlocked (h : status.locked = false) :
    (m.tick cfg others poll).appliedFreqPpb = 0 ∧ (m.tick cfg others poll).clock = m.clock := by
  simp [tick, hpoll, h, ClockTaiDriver.onPtpUpdate, laterDrivers_eq, keepNonzero_zero]

/-- A step of the clock leaves the correction as it is. -/
theorem tick_stepped (h : status.locked = true) (hsteps : m.tai.servo.Steps cfg status.ptpOffsetNs) :
    (m.tick cfg others poll).appliedFreqPpb = m.appliedFreqPpb ∧
      (m.tick cfg others poll).clock.freqPpb = m.clock.freqPpb := by
  simp [tick, hpoll, h, ClockTaiDriver.onPtpUpdate, ClockDiscipline.feed, hsteps, laterDrivers_eq, towardZero,
    keepNonzero_zero]

theorem tick_corrected (h : status.locked = true) (hsteps : ¬ m.tai.servo.Steps cfg status.ptpOffsetNs) :
    (m.tick cfg others poll).appliedFreqPpb =
        keepNonzero m.appliedFreqPpb (towardZero (m.tai.servo.correction cfg status.ptpOffsetNs)) ∧
      (m.tick cfg others poll).clock.freqPpb = some (m.tai.servo.correction cfg status.ptpOffsetNs) := by
  simp [tick, hpoll, h, ClockTaiDriver.onPtpUpdate, ClockDiscipline.feed, hsteps, laterDrivers_eq,
    RealtimeClock.applyFreq]

end tick

theorem applied_tick (happlied : m.appliedFreqPpb = m.clock.inForce) :
    (m.tick cfg others poll).appliedFreqPpb = (m.tick cfg others poll).clock.inForce ↔ m.KeepsInForce cfg poll := by
  unfold KeepsInForce
  cases hpoll : poll.status with
  | none =>
      refine iff_of_true ?_ fun status h => absurd h (Option.not_mem_none status)
      rw [tick, hpoll]
      exact happlied
  | some status =>
      simp only [Option.mem_some_iff, forall_eq']
      rw [← RealtimeClock.inForce_eq_zero_iff, ← towardZero_eq_zero_iff]
      cases hlocked : status.locked with
      | false =>
          obtain ⟨hzero, hclock⟩ : (m.tick cfg others poll).appliedFreqPpb = 0 ∧ _ := tick_unlocked hpoll hlocked
          rw [hzero, hclock, forall_prop_of_true (.inl rfl)]
          exact eq_comm
      | true =>
          by_cases hsteps : m.tai.servo.Steps cfg status.ptpOffsetNs
          · obtain ⟨hsame, hclock⟩ : (m.tick cfg others poll).appliedFreqPpb = _ ∧ _ := tick_stepped hpoll hlocked hsteps
            refine iff_of_true ?_ fun h => ?_
            · rw [hsame, RealtimeClock.inForce, hclock]
              exact happlied
            · rcases h with h | h
              · cases h
              · exact absurd hsteps h.1
          · obtain ⟨hkept, hclock⟩ : (m.tick cfg others poll).appliedFreqPpb = _ ∧ _ := tick_corrected hpoll hlocked hsteps
            rw [hkept, RealtimeClock.inForce, hclock, Option.map_some, Option.getD_some, keepNonzero_eq_iff, happlied]
            simp [hsteps]

/-- **Every correction that is published is the one that the kernel has exactly when, at each
poll without a lock or with a new correction below 1 ppb, the kernel's correction is below 1 ppb
already.** -/
theorem inForce_iff (cfg : ClockDisciplineConfig) (others : ℕ) (polls : List ClockPoll) :
    (∀ n m, run (step cfg others) {} (polls.take n) = some m → m.InForce) ↔
      Along (step cfg others) (KeepsInForce cfg) {} polls := by
  have hstart : ({} : ClockManager).InForce := fun p hp => by cases hp
  refine always_iff_of (I := Grounded) (fun m poll m' G _ hs => ?_) (fun m poll m' G H hs => ?_) (fun m poll _ hs => ?_)
    ⟨fun _ => ⟨rfl, rfl⟩, fun p hp => by cases hp⟩ hstart
  · obtain rfl := Option.some.inj hs
    exact grounded_tick G
  · obtain rfl := Option.some.inj hs
    rw [inForce_iff_applied (grounded_tick G)]
    exact applied_tick ((inForce_iff_applied G).mp H)
  · cases hs

/-- With a correction of -71 ppb, one that is nearer to zero than 1 ppb and the loss of the lock
are both published as something else. -/
theorem zero_not_applicable :
    (∃ m, run (step {} 1) {} [⟨some ⟨2, 100⟩, ⟨0, 0⟩⟩, ⟨some ⟨2, -1⟩, ⟨0, 0⟩⟩] = some m ∧
      m.published.map PublishedFreq.freqPpb = some (-71) ∧ m.clock.inForce = 0) ∧
    ∃ m, run (step {} 1) {} [⟨some ⟨2, 100⟩, ⟨0, 0⟩⟩, ⟨some ⟨0, 100⟩, ⟨1, 0⟩⟩] = some m ∧
      m.published.map PublishedFreq.freqPpb = some 0 ∧ m.clock.inForce = -71 :=
  ⟨⟨_, rfl, by decide +kernel, by decide +kernel⟩, ⟨_, rfl, by decide +kernel, by decide +kernel⟩⟩

end ClockManager
end Aes67Daemon
