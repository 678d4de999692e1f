import Aes67Daemon.Lib.Run
import Mathlib.Data.UInt
import Mathlib.Logic.Function.Basic

/-!
# Snapshots of the clock's shared memory

The clock manager publishes its state in a segment of shared memory.  A generation counter
in the segment is odd while `shm_publish` writes, and a reader that finds it even and
unchanged around its copy takes the copy.  The counter is itself one of the words that
`shm_create` clears: after a restart it counts from zero again, so that it can come back to
the value that a reader has seen before.

## Main definitions

* `PtpClockShm` — the words of the segment.
* `ShmState.step` — the writes of the manager, which can die and start again, and the reads
  of `read_ptp_clock_shm`, one at a time.
* `PtpClockShm.Whole` — all fields are from one call of `shm_publish`, or zero.
* `ShmState.snapshot_whole` — a copy that a reader takes is whole, in every run in which no
  counter that was cleared during an attempt has come back.
-/
namespace Aes67Daemon

/-! ## The segment -/

/-- The words of the segment, in address order. -/
abbrev PtpClockShm := ℕ → UInt32

/-- `PTP_CLOCK_SHM_MAGIC`. -/
def ptpClockShmMagic : UInt32 := 0x50544343

/-- `PTP_CLOCK_SHM_VERSION`. -/
def ptpClockShmVersion : UInt32 := 1

/-- What one call of `shm_publish` writes; it reads the two clocks on the way. -/
structure PtpRecord where
  lockState : UInt8
  gmid : UInt64
  offsetNs : Int64
  freqPpb : Int64
  taiNs : Int64
  monotonicNs : UInt64
  networkJitter : Int32
  clockJitter : Int32

namespace PtpRecord

/-- One of the two words of a field of 64 bits. -/
def half (x : UInt64) : Bool → UInt32
  | false => x.toUInt32
  | true => (x >>> 32).toUInt32

/-- The words of the record, where the segment has them. -/
def word (r : PtpRecord) : ℕ → UInt32
  | 3 => r.lockState.toUInt32
  | 4 => half r.gmid false
  | 5 => half r.gmid true
  | 6 => half r.offsetNs.toUInt64 false
  | 7 => half r.offsetNs.toUInt64 true
  | 8 => half r.freqPpb.toUInt64 false
  | 9 => half r.freqPpb.toUInt64 true
  | 10 => half r.taiNs.toUInt64 false
  | 11 => half r.taiNs.toUInt64 true
  | 12 => half r.monotonicNs false
  | 13 => half r.monotonicNs true
  | 14 => r.networkJitter.toUInt32
  | 15 => r.clockJitter.toUInt32
  | _ => 0

end PtpRecord

namespace PtpClockShm

/-- `sizeof(PtpClockShm)`, in words. -/
def size : ℕ := 18

def magic (shm : PtpClockShm) : UInt32 := shm 0

def version (shm : PtpClockShm) : UInt32 := shm 1

def updateCount (shm : PtpClockShm) : UInt32 := shm 2

/-- The words of the fields, in the order in which `shm_publish` writes them: the jitters
come before the time stamps. -/
def publishOrder : List (List ℕ) := [[3], [4, 5], [6, 7], [8, 9], [14], [15], [10, 11], [12, 13]]

/-- The words that `shm_publish` writes between its two increments. -/
def payload : List ℕ := publishOrder.flatten

/-- `__atomic_add_fetch(&shm->update_count, 1, __ATOMIC_RELEASE)`. -/
def addFetch (shm : PtpClockShm) : PtpClockShm := Function.update shm 2 (shm.updateCount + 1)

/-- A field is written. -/
def write (shm : PtpClockShm) (words : List ℕ) (r : PtpRecord) : PtpClockShm :=
  fun j => if j ∈ words then r.word j else shm j

/-- The counter is odd. -/
def MidUpdate (shm : PtpClockShm) : Prop := shm.updateCount &&& 1 ≠ 0

instance (shm : PtpClockShm) : Decidable shm.MidUpdate := inferInstanceAs (Decidable (_ ≠ _))

/-- All fields are from one call of `shm_publish`, or zero as after `shm_create`. -/
def Whole (published : List PtpRecord) (shm : PtpClockShm) : Prop :=
  (∃ r ∈ published, ∀ j ∈ payload, shm j = r.word j) ∨ ∀ j ∈ payload, shm j = 0

instance (published : List PtpRecord) (shm : PtpClockShm) : Decidable (Whole published shm) :=
  inferInstanceAs (Decidable ((∃ r ∈ published, ∀ j ∈ payload, _ = _) ∨ ∀ j ∈ payload, _ = _))

end PtpClockShm

/-! ## The manager and a reader -/

/-- Where the clock manager is. -/
inductive ShmWriter
  | dead
  /-- `shm_create` has made this many of its writes. -/
  | creating (writes : ℕ)
  | idle
  /-- `shm_publish` has been called. -/
  | called (r : PtpRecord)
  /-- `shm_publish` has these fields to write, and then to increment the counter again. -/
  | publishing (r : PtpRecord) (fields : List (List ℕ))

/-- A call of `shm_publish` has not written yet. -/
def ShmWriter.isCalled : ShmWriter → Bool
  | called _ => true
  | _ => false

/-- Where `read_ptp_clock_shm` is. -/
inductive ShmReader
  | away
  | starting (attempt : ℕ)
  /-- `std::memcpy` has copied this many words. -/
  | copying (attempt : ℕ) (before : UInt32) (words : ℕ)
  | returned (result : Bool)

/-- The counter that the attempt began with, and the words that have been copied. -/
def ShmReader.copied : ShmReader → Option (UInt32 × ℕ)
  | copying _ before words => some (before, words)
  | _ => none

/-- The segment, the manager and a reader. -/
structure ShmState where
  shm : PtpClockShm := fun _ => 0
  writer : ShmWriter := .dead
  reader : ShmReader := .away
  out : PtpClockShm := fun _ => 0
  /-- The records that `shm_publish` has been called with. -/
  published : List PtpRecord := []
  /-- The counter has been cleared in the course of the attempt, other than after a copy
  that was complete and still unchanged. -/
  cleared : Bool := false
  /-- The calls of `shm_publish` that have started to write in the course of the attempt. -/
  begun : ℕ := 0

/-- One step of the manager or the reader. -/
inductive ShmEvent
  /-- The manager starts, and calls `shm_create`. -/
  | create
  | publish (r : PtpRecord)
  /-- The manager makes its next write. -/
  | write
  | die
  /-- The reader calls `read_ptp_clock_shm`. -/
  | call
  /-- The reader makes its next access. -/
  | read

namespace ShmState

/-- The next attempt, of five. -/
def next (attempt : ℕ) : ShmReader := if attempt + 1 < 5 then .starting (attempt + 1) else .returned false

/-- The copy is complete, and the counter is what it was. -/
def settled (s : ShmState) : Bool :=
  match s.reader with
  | .copying _ before words => decide (words = PtpClockShm.size ∧ s.shm.updateCount = before)
  | _ => true

/-- The next write of `shm_create`: `memset`, then the magic and the version. -/
def createWrite (s : ShmState) (writes : ℕ) : ShmState :=
  if writes < PtpClockShm.size then
    { s with
      shm := Function.update s.shm writes 0
      writer := .creating (writes + 1)
      cleared := s.cleared || (decide (writes = 2) && !s.settled) }
  else if writes = PtpClockShm.size then
    { s with shm := Function.update s.shm 0 ptpClockShmMagic, writer := .creating (writes + 1) }
  else { s with shm := Function.update s.shm 1 ptpClockShmVersion, writer := .idle }

/-- The next write of the manager. -/
def writerStep (s : ShmState) : Option ShmState :=
  match s.writer with
  | .dead | .idle => none
  | .creating writes => some (s.createWrite writes)
  | .called r =>
    some { s with shm := s.shm.addFetch, writer := .publishing r PtpClockShm.publishOrder, begun := s.begun + 1 }
  | .publishing r (field :: fields) => some { s with shm := s.shm.write field r, writer := .publishing r fields }
  | .publishing _ [] => some { s with shm := s.shm.addFetch, writer := .idle }

/-- The next access of the reader. -/
def readerStep (s : ShmState) : Option ShmState :=
  match s.reader with
  | .away | .returned _ => none
  | .starting attempt =>
    if s.shm.MidUpdate then some { s with reader := next attempt }
    else some { s with reader := .copying attempt s.shm.updateCount 0, cleared := false, begun := 0 }
  | .copying attempt before words =>
    if words < PtpClockShm.size then
      some
        { s with
          out := Function.update s.out words (s.shm words)
          reader := .copying attempt before (words + 1) }
    else if s.shm.updateCount = before then
      some
        { s with
          reader := .returned (decide (s.out.magic = ptpClockShmMagic ∧ s.out.version = ptpClockShmVersion)) }
    else some { s with reader := next attempt }

def step (s : ShmState) : ShmEvent → Option ShmState
  | .create =>
    match s.writer with
    | .dead => some { s with writer := .creating 0 }
    | _ => none
  | .publish r =>
    match s.writer with
    | .idle => some { s with writer := .called r, published := r :: s.published }
    | _ => none
  | .write => s.writerStep
  | .die => some { s with writer := .dead }
  | .call =>
    match s.reader with
    | .away | .returned _ => some { s with reader := .starting 0 }
    | _ => none
  | .read => s.readerStep

/-- Fewer than `2 ^ 31` records are published during one attempt. -/
def Few (s : ShmState) : ShmEvent → Prop
  | .write => s.writer.isCalled = true → s.reader.copied.isSome = true → s.begun + 1 < 2 ^ 31
  | _ => True

instance decidableFew (s : ShmState) : ∀ e, Decidable (s.Few e)
  | .write => inferInstanceAs (Decidable (_ = true → _ = true → _ < 2 ^ 31))
  | .create | .publish _ | .die | .call | .read => isTrue trivial

/-- A counter that has been cleared has not come back when the reader looks again. -/
def Detects (s : ShmState) : ShmEvent → Prop
  | .read => ∀ p ∈ s.reader.copied, p.2 = PtpClockShm.size → s.cleared = true → s.shm.updateCount ≠ p.1
  | _ => True

instance decidableDetects (s : ShmState) : ∀ e, Decidable (s.Detects e)
  | .read => inferInstanceAs (Decidable (∀ p ∈ s.reader.copied, p.2 = _ → s.cleared = true → _ ≠ p.1))
  | .create | .publish _ | .write | .die | .call => isTrue trivial

end ShmState

/-! ## What a write leaves as it is -/

namespace PtpClockShm
variable {shm shm' : PtpClockShm} {published published' : List PtpRecord}

theorem midUpdate_iff : shm.MidUpdate ↔ shm.updateCount.toNat % 2 = 1 := by
  have hbit : (shm.updateCount &&& 1).toNat = shm.updateCount.toNat % 2 := by
    rw [UInt32.toNat_and]
    exact Nat.and_one_is_mod _
  rw [MidUpdate, ne_eq, ← UInt32.toNat_inj, hbit]
  change ¬ _ = 0 ↔ _
  omega

theorem toNat_addFetch : shm.addFetch.updateCount.toNat = (shm.updateCount.toNat + 1) % 2 ^ 32 := by
  change (shm.updateCount + 1).toNat = _
  rw [UInt32.toNat_add]
  rfl

theorem addFetch_of_ne {j : ℕ} (h : j ≠ 2) : shm.addFetch j = shm j := Function.update_of_ne h _ _

/-- The increments make the counter odd and even in turn. -/
theorem midUpdate_addFetch : shm.addFetch.MidUpdate ↔ ¬ shm.MidUpdate := by
  rw [midUpdate_iff, midUpdate_iff, toNat_addFetch]
  omega

theorem payload_bounds {j : ℕ} (h : j ∈ payload) : 2 < j ∧ j < size :=
  of_decide_eq_true (List.all_eq_true.mp (show payload.all (fun j => decide (2 < j ∧ j < size)) = true by decide) j h)

theorem mem_payload {field : List ℕ} {j : ℕ} (hfield : field ∈ publishOrder) (hj : j ∈ field) : j ∈ payload :=
  List.mem_flatten_of_mem hfield hj

/-- The fields are not among the words before them. -/
theorem write_header {field : List ℕ} (r : PtpRecord) (hfield : field ∈ publishOrder) {j : ℕ} (hj : j ≤ 2) :
    shm.write field r j = shm j :=
  if_neg fun hmem => absurd (payload_bounds (mem_payload hfield hmem)).1 (Nat.not_lt.mpr hj)

theorem Whole.congr (h : Whole published shm) (hsame : ∀ j ∈ payload, shm' j = shm j) : Whole published shm' := by
  rcases h with ⟨r, hr, hwords⟩ | hzero
  · exact .inl ⟨r, hr, fun j hj => (hsame j hj).trans (hwords j hj)⟩
  · exact .inr fun j hj => (hsame j hj).trans (hzero j hj)

theorem Whole.mono (h : Whole published shm) (hsub : published ⊆ published') : Whole published' shm := by
  rcases h with ⟨r, hr, hwords⟩ | hzero
  · exact .inl ⟨r, hsub hr, hwords⟩
  · exact .inr hzero

end PtpClockShm

/-! ## The manager -/

open PtpClockShm

/-- What the manager's place says of the segment. -/
def ShmWriter.Holds (published : List PtpRecord) (shm : PtpClockShm) : ShmWriter → Prop
  | dead => True
  | creating writes =>
    (0 < writes → writes ≤ size → shm.magic = 0) ∧ (2 < writes → shm.updateCount = 0) ∧
      ∀ j, 2 < j → j < writes → j < size → shm j = 0
  | idle => ¬ shm.MidUpdate ∧ Whole published shm
  | called r => r ∈ published ∧ ¬ shm.MidUpdate ∧ Whole published shm
  | publishing r fields =>
    r ∈ published ∧ shm.MidUpdate ∧
      ∃ done, done ++ fields = publishOrder ∧ ∀ field ∈ done, ∀ j ∈ field, shm j = r.word j

namespace ShmState

/-- A segment with the magic and an even counter is whole. -/
structure Sound (s : ShmState) : Prop where
  whole : s.shm.magic = ptpClockShmMagic → ¬ s.shm.MidUpdate → Whole s.published s.shm
  writer : s.writer.Holds s.published s.shm

variable {s s' : ShmState} {e : ShmEvent}

theorem not_midUpdate_of_zero {shm : PtpClockShm} (h : shm.updateCount = 0) : ¬ shm.MidUpdate := by
  rw [MidUpdate, h]
  decide

theorem update_zero {shm : PtpClockShm} {i j : ℕ} (h : j ≠ i → shm j = 0) : Function.update shm i 0 j = 0 := by
  rcases eq_or_ne j i with rfl | hne
  · exact Function.update_self _ _ _
  · rw [Function.update_of_ne hne]
    exact h hne

theorem sound_create {writes : ℕ} (hwriter : (ShmWriter.creating writes).Holds s.published s.shm) :
    (s.createWrite writes).Sound := by
  obtain ⟨hmagic, hcount, hzero⟩ := hwriter
  unfold createWrite
  split
  · rename_i hlt
    have hmagic' : Function.update s.shm writes 0 0 = 0 :=
      update_zero fun hne => hmagic (Nat.pos_of_ne_zero hne.symm) (Nat.le_of_lt hlt)
    refine ⟨fun heq => ?_, fun _ _ => hmagic', fun h2 => ?_, fun j hj hlt' hsize => ?_⟩
    · exact absurd (hmagic'.symm.trans heq) (by decide)
    · exact update_zero fun hne => hcount (by omega)
    · exact update_zero fun hne => hzero j hj (by omega) hsize
  · rename_i hge
    have hzero' : ∀ j ∈ payload, s.shm j = 0 := by
      intro j hj
      have hbounds := payload_bounds hj
      exact hzero j hbounds.1 (by omega) hbounds.2
    have hwhole : ∀ i v, i < 2 → Whole s.published (Function.update s.shm i v) := by
      intro i v hi
      refine .inr fun j hj => ?_
      rw [Function.update_of_ne (by have := payload_bounds hj; omega)]
      exact hzero' j hj
    have hcount' : s.shm 2 = 0 := hcount (by rw [size] at hge; omega)
    split
    · rename_i heq
      refine ⟨fun _ _ => hwhole 0 _ (by decide), fun _ hle => ?_, fun _ => hcount', fun j hj hlt' hsize => ?_⟩
      · omega
      · exact (Function.update_of_ne (by omega) _ _).trans (hzero j hj (by omega) hsize)
    · exact ⟨fun _ _ => hwhole 1 _ (by decide), not_midUpdate_of_zero hcount', hwhole 1 _ (by decide)⟩

/-- A field that is written keeps the ones before it. -/
theorem written_append {shm : PtpClockShm} {r : PtpRecord} {done : List (List ℕ)} {field : List ℕ}
    (hdone : ∀ f ∈ done, ∀ j ∈ f, shm j = r.word j) :
    ∀ f ∈ done ++ [field], ∀ j ∈ f, shm.write field r j = r.word j := by
  intro f hf j hj
  by_cases hmem : j ∈ field
  · exact if_pos hmem
  · rcases List.mem_append.mp hf with hf | hf
    · exact (if_neg hmem).trans (hdone f hf j hj)
    · exact absurd (List.mem_singleton.mp hf ▸ hj) hmem

theorem sound_writer (H : s.Sound) (hs : s.writerStep = some s') : s'.Sound := by
  have hwriter := H.writer
  unfold writerStep at hs
  split at hs
  · cases hs
  · cases hs
  · rename_i writes hw
    obtain rfl := Option.some.inj hs
    rw [hw] at hwriter
    exact sound_create hwriter
  · rename_i r hw
    obtain rfl := Option.some.inj hs
    rw [hw] at hwriter
    obtain ⟨hr, heven, -⟩ := hwriter
    have hodd := midUpdate_addFetch.mpr heven
    exact ⟨fun _ hnot => absurd hodd hnot, hr, hodd, [], rfl, fun f hf => absurd hf List.not_mem_nil⟩
  · rename_i r field fields hw
    obtain rfl := Option.some.inj hs
    rw [hw] at hwriter
    obtain ⟨hr, hodd, done, hsplit, hdone⟩ := hwriter
    have hfield : field ∈ publishOrder := hsplit ▸ List.mem_append_right done List.mem_cons_self
    have hodd' : (s.shm.write field r).MidUpdate := by
      rw [MidUpdate, updateCount, write_header r hfield (Nat.le_refl 2)]
      exact hodd
    refine ⟨fun _ hnot => absurd hodd' hnot, hr, hodd', done ++ [field], ?_, written_append hdone⟩
    rw [List.append_assoc]
    exact hsplit
  · rename_i r hw
    obtain rfl := Option.some.inj hs
    rw [hw] at hwriter
    obtain ⟨hr, hodd, done, hsplit, hdone⟩ := hwriter
    rw [List.append_nil] at hsplit
    have hwhole : Whole s.published s.shm.addFetch := by
      refine .inl ⟨r, hr, fun j hj => ?_⟩
      obtain ⟨field, hfield, hj'⟩ := List.mem_flatten.mp hj
      rw [addFetch_of_ne (Nat.ne_of_gt (payload_bounds hj).1)]
      exact hdone field (hsplit ▸ hfield) j hj'
    exact ⟨fun _ _ => hwhole, fun heven => midUpdate_addFetch.mp heven hodd, hwhole⟩

/-- The reader writes nothing. -/
theorem readerStep_same (hs : s.readerStep = some s') :
    s'.shm = s.shm ∧ s'.writer = s.writer ∧ s'.published = s.published := by
  unfold readerStep at hs
  split at hs
  · cases hs
  · cases hs
  · split at hs <;> obtain rfl := Option.some.inj hs <;> exact ⟨rfl, rfl, rfl⟩
  · split at hs
    · obtain rfl := Option.some.inj hs
      exact ⟨rfl, rfl, rfl⟩
    · split at hs <;> obtain rfl := Option.some.inj hs <;> exact ⟨rfl, rfl, rfl⟩

theorem sound_step (H : s.Sound) (hs : s.step e = some s') : s'.Sound := by
  cases e with
  | create =>
      simp only [step] at hs
      split at hs
      · obtain rfl := Option.some.inj hs
        exact ⟨H.whole, fun h0 => absurd h0 (Nat.lt_irrefl 0), fun h2 => absurd h2 (Nat.not_lt_zero 2),
          fun j _ h0 => absurd h0 (Nat.not_lt_zero j)⟩
      · cases hs
  | publish r =>
      simp only [step] at hs
      split at hs
      · rename_i hw
        obtain rfl := Option.some.inj hs
        have hwriter := H.writer
        rw [hw] at hwriter
        have hwhole := hwriter.2.mono (List.subset_cons_self r s.published)
        exact ⟨fun _ _ => hwhole, List.mem_cons_self, hwriter.1, hwhole⟩
      · cases hs
  | write => exact sound_writer H hs
  | die =>
      obtain rfl := Option.some.inj hs
      exact ⟨H.whole, trivial⟩
  | call =>
      simp only [step] at hs
      split at hs
      · obtain rfl := Option.some.inj hs
        exact ⟨H.whole, H.writer⟩
      · obtain rfl := Option.some.inj hs
        exact ⟨H.whole, H.writer⟩
      · cases hs
  | read =>
      obtain ⟨hshm, hwriter, hpublished⟩ := readerStep_same hs
      constructor
      · rw [hshm, hpublished]
        exact H.whole
      · rw [hshm, hwriter, hpublished]
        exact H.writer

/-! ## The reader -/

/-- What a reader that has copied some words has of the segment, if the counter has not been
cleared and has been incremented `m` times since the attempt began. -/
structure Tracks (s : ShmState) (before : UInt32) (words m : ℕ) : Prop where
  count : s.shm.updateCount.toNat = (before.toNat + m) % 2 ^ 32
  bound : m ≤ 2 * s.begun
  publishing : ∀ r fields, s.writer = .publishing r fields → m + 1 ≤ 2 * s.begun
  /-- With the counter unchanged, the copy agrees with the segment, which is whole. -/
  same : m = 0 → 0 < words → s.out.magic = ptpClockShmMagic →
    Whole s.published s.shm ∧ (∀ j ∈ payload, j < words → s.out j = s.shm j) ∧
      ∀ writes, s.writer = .creating writes → 2 < writes → size < writes

/-- The same about a reader in general. -/
structure Watches (s : ShmState) (before : UInt32) (words : ℕ) : Prop where
  length : words ≤ size
  even : before.toNat % 2 = 0
  few : s.begun < 2 ^ 31
  copy : s.cleared = false →
    (∃ m, s.Tracks before words m) ∨ words = size ∧ (s.out.magic = ptpClockShmMagic → Whole s.published s.out)

/-- What the reader's place says of the copy. -/
def Reads (s : ShmState) : Prop :=
  match s.reader with
  | .copying _ before words => s.Watches before words
  | .returned result => result = true → Whole s.published s.out
  | _ => True

variable {before : UInt32} {words m attempt : ℕ}

theorem Tracks.eq_zero (T : s.Tracks before words m) (hfew : s.begun < 2 ^ 31) (hsame : s.shm.updateCount = before) :
    m = 0 := by
  have hcount := T.count
  have hbound := T.bound
  have hlt := before.toNat_lt
  rw [hsame] at hcount
  omega

theorem Tracks.ne_zero (T : s.Tracks before words m) (heven : before.toNat % 2 = 0) (hodd : s.shm.MidUpdate) :
    m ≠ 0 := by
  have hcount := T.count
  rw [midUpdate_iff] at hodd
  omega

/-- An increment is noticed. -/
theorem Tracks.addFetch (T : s.Tracks before words m) (hshm : s'.shm = s.shm.addFetch)
    (hbound : m + 1 ≤ 2 * s'.begun) (hpublishing : ∀ r fields, s'.writer = .publishing r fields → m + 2 ≤ 2 * s'.begun) :
    s'.Tracks before words (m + 1) where
  count := by
    rw [hshm, toNat_addFetch, T.count]
    omega
  bound := hbound
  publishing := hpublishing
  same := fun h0 => absurd h0 (Nat.succ_ne_zero m)

/-- A copy that agrees with the segment is whole. -/
theorem Tracks.whole (T : s.Tracks before size m) (hfew : s.begun < 2 ^ 31) (hsame : s.shm.updateCount = before)
    (hmagic : s.out.magic = ptpClockShmMagic) : Whole s.published s.out := by
  obtain ⟨hwhole, hagree, -⟩ := T.same (T.eq_zero hfew hsame) (by decide) hmagic
  exact hwhole.congr fun j hj => hagree j hj (payload_bounds hj).2

/-- A step that changes no field and no counter, of a manager that is then not in the middle
of its writes. -/
theorem Tracks.keep (T : s.Tracks before words m) (hshm : ∀ j, 2 ≤ j → s'.shm j = s.shm j)
    (hghost : s'.begun = s.begun ∧ s'.out = s.out) (hpublished : s.published ⊆ s'.published)
    (hpublishing : ∀ r fields, s'.writer ≠ .publishing r fields)
    (hcreating : ∀ writes, s'.writer = .creating writes → 2 < writes → size < writes) : s'.Tracks before words m where
  count := by
    rw [← T.count]
    exact congrArg UInt32.toNat (hshm 2 (Nat.le_refl 2))
  bound := hghost.1 ▸ T.bound
  publishing := fun r fields h => absurd h (hpublishing r fields)
  same := by
    intro h0 hpos hmagic
    rw [hghost.2] at hmagic ⊢
    obtain ⟨hwhole, hagree, -⟩ := T.same h0 hpos hmagic
    have hsame : ∀ j ∈ payload, s'.shm j = s.shm j := fun j hj => hshm j (Nat.le_of_lt (payload_bounds hj).1)
    exact
      ⟨(hwhole.congr hsame).mono hpublished, fun j hj hlt => (hagree j hj hlt).trans (hsame j hj).symm, hcreating⟩

theorem tracks_create {writes : ℕ} (T : s.Tracks before words m) (hw : s.writer = .creating writes) (hne : writes ≠ 2) :
    (s.createWrite writes).Tracks before words m := by
  by_cases hmiddle : 2 < writes ∧ writes ≤ size
  · -- The magic was zero when the reader copied it, so nothing is said of the copy.
    have hlapsed : m = 0 → 0 < words → s.out.magic ≠ ptpClockShmMagic := fun h0 hpos hmagic =>
      absurd ((T.same h0 hpos hmagic).2.2 writes hw hmiddle.1) (Nat.not_lt.mpr hmiddle.2)
    have hcount : ∀ i v, i ≠ 2 → Function.update s.shm i v 2 = s.shm 2 := fun i v h => Function.update_of_ne h.symm _ _
    unfold createWrite
    split
    · refine ⟨?_, T.bound, fun _ _ h => ?_, fun h0 hpos hmagic => absurd hmagic (hlapsed h0 hpos)⟩
      · rw [← T.count]
        exact congrArg UInt32.toNat (hcount writes 0 hne)
      · cases h
    · rw [if_pos (by omega)]
      refine ⟨?_, T.bound, fun _ _ h => ?_, fun h0 hpos hmagic => absurd hmagic (hlapsed h0 hpos)⟩
      · rw [← T.count]
        exact congrArg UInt32.toNat (hcount 0 ptpClockShmMagic (by decide))
      · cases h
  · have hsame : ∀ {i v}, i < 2 → ∀ j, 2 ≤ j → Function.update s.shm i v j = s.shm j := fun hi j hj =>
      Function.update_of_ne (by omega) _ _
    unfold createWrite
    split
    · rename_i hlt
      refine T.keep (hsame (by omega)) ⟨rfl, rfl⟩ (List.Subset.refl _) (fun _ _ h => ?_) fun writes' h h2 => ?_
      · cases h
      · obtain rfl := ShmWriter.creating.inj h
        omega
    · rename_i hge
      have hsize : 2 < size := by decide
      rw [if_neg (by omega)]
      refine T.keep (hsame (by decide)) ⟨rfl, rfl⟩ (List.Subset.refl _) (fun _ _ h => ?_) fun writes' h h2 => ?_
      · cases h
      · cases h

theorem createWrite_same (s : ShmState) (writes : ℕ) :
    (s.createWrite writes).begun = s.begun ∧ (s.createWrite writes).out = s.out ∧
      (s.createWrite writes).published = s.published := by
  unfold createWrite
  split
  · exact ⟨rfl, rfl, rfl⟩
  · split <;> exact ⟨rfl, rfl, rfl⟩

theorem createWrite_cleared (s : ShmState) (writes : ℕ) :
    (s.createWrite writes).cleared = (s.cleared || (decide (writes = 2) && !s.settled)) := by
  unfold createWrite
  split
  · rfl
  · rename_i hge
    have hne : decide (writes = 2) = false := decide_eq_false fun h => hge (h ▸ by decide)
    rw [hne, Bool.false_and, Bool.or_false]
    split <;> rfl

/-- The counter is cleared: either the reader has what it needs, or it is a clearing that
counts. -/
theorem watches_create {writes : ℕ} (W : s.Watches before words) (hreader : s.reader = .copying attempt before words)
    (hw : s.writer = .creating writes) : (s.createWrite writes).Watches before words := by
  obtain ⟨hbegun, hout, hpublished⟩ := createWrite_same s writes
  refine ⟨W.length, W.even, hbegun ▸ W.few, fun hcleared => ?_⟩
  rw [createWrite_cleared] at hcleared
  obtain ⟨hbefore, hnow⟩ := Bool.or_eq_false_iff.mp hcleared
  rw [hout, hpublished]
  rcases W.copy hbefore with ⟨m, T⟩ | hright
  · by_cases h2 : writes = 2
    · have hsettled : s.settled = true := by simpa [h2] using hnow
      rw [settled, hreader] at hsettled
      obtain ⟨rfl, hsame⟩ := of_decide_eq_true hsettled
      exact .inr ⟨rfl, T.whole W.few hsame⟩
    · exact .inl ⟨m, tracks_create T hw h2⟩
  · exact .inr hright

/-- A write of the manager. -/
theorem watches_writer (H : s.Sound) (W : s.Watches before words) (hreader : s.reader = .copying attempt before words)
    (hfew : s.Few .write) (hs : s.writerStep = some s') : s'.Watches before words := by
  have hwriter := H.writer
  unfold writerStep at hs
  split at hs
  · cases hs
  · cases hs
  · rename_i writes hw
    obtain rfl := Option.some.inj hs
    exact watches_create W hreader hw
  · rename_i r hw
    obtain rfl := Option.some.inj hs
    rw [Few, hw, hreader] at hfew
    refine ⟨W.length, W.even, hfew rfl rfl, fun hcleared => ?_⟩
    rcases W.copy hcleared with ⟨m, T⟩ | hright
    · have hbound := T.bound
      refine .inl ⟨m + 1, T.addFetch rfl ?_ fun _ _ _ => ?_⟩
      · change m + 1 ≤ 2 * (s.begun + 1)
        omega
      · change m + 2 ≤ 2 * (s.begun + 1)
        omega
    · exact .inr hright
  · rename_i r field fields hw
    obtain rfl := Option.some.inj hs
    rw [hw] at hwriter
    obtain ⟨-, hodd, done, hsplit, -⟩ := hwriter
    have hfield : field ∈ publishOrder := hsplit ▸ List.mem_append_right done List.mem_cons_self
    refine ⟨W.length, W.even, W.few, fun hcleared => ?_⟩
    rcases W.copy hcleared with ⟨m, T⟩ | hright
    · refine .inl ⟨m, ?_, T.bound, fun _ _ _ => T.publishing r _ hw, fun h0 => absurd h0 (T.ne_zero W.even hodd)⟩
      rw [← T.count]
      exact congrArg UInt32.toNat (write_header r hfield (Nat.le_refl 2))
    · exact .inr hright
  · rename_i r hw
    obtain rfl := Option.some.inj hs
    refine ⟨W.length, W.even, W.few, fun hcleared => ?_⟩
    rcases W.copy hcleared with ⟨m, T⟩ | hright
    · refine .inl ⟨m + 1, T.addFetch rfl (T.publishing r _ hw) fun _ _ h => ?_⟩
      cases h
    · exact .inr hright

/-- A word is copied. -/
theorem tracks_copy (H : s.Sound) (T : s.Tracks before words m) (heven : before.toNat % 2 = 0) (hlt : words < size) :
    { s with
      out := Function.update s.out words (s.shm words)
      reader := .copying attempt before (words + 1) : ShmState }.Tracks before (words + 1) m := by
  refine ⟨T.count, T.bound, T.publishing, fun h0 _ hmagic => ?_⟩
  rcases Nat.eq_zero_or_pos words with rfl | hpos
  · have hmagic' : s.shm.magic = ptpClockShmMagic := hmagic
    have hcount : ¬ s.shm.MidUpdate := fun hodd => T.ne_zero heven hodd h0
    refine ⟨H.whole hmagic' hcount, fun j hj hlt' => ?_, fun writes hw h2 => ?_⟩
    · exact absurd hlt' (by have := payload_bounds hj; omega)
    · have hwriter := H.writer
      rw [show s.writer = .creating writes from hw] at hwriter
      by_contra hle
      exact absurd ((hwriter.1 (by omega) (by omega)).symm.trans hmagic') (by decide)
  · have hmagic' : s.out.magic = ptpClockShmMagic := by
      rw [← hmagic]
      exact (Function.update_of_ne (Nat.ne_of_lt hpos) _ _).symm
    obtain ⟨hwhole, hagree, hcreating⟩ := T.same h0 hpos hmagic'
    refine ⟨hwhole, fun j hj hlt' => ?_, hcreating⟩
    rcases eq_or_ne j words with rfl | hne
    · exact Function.update_self _ _ _
    · exact (Function.update_of_ne hne _ _).trans (hagree j hj (by omega))

/-- The manager begins something, or dies. -/
theorem Reads.keep (R : s.Reads) {writer : ShmWriter} {published : List PtpRecord} (hsub : s.published ⊆ published)
    (hpublishing : ∀ r fields, writer ≠ .publishing r fields)
    (hcreating : ∀ writes, writer = .creating writes → 2 < writes → size < writes) :
    { s with writer := writer, published := published : ShmState }.Reads := by
  unfold Reads at R ⊢
  cases hreader : s.reader with
  | away => trivial
  | starting attempt => trivial
  | copying attempt before words =>
      rw [hreader] at R
      refine ⟨R.length, R.even, R.few, fun hcleared => ?_⟩
      rcases R.copy hcleared with ⟨m, T⟩ | hright
      · exact .inl ⟨m, T.keep (fun _ _ => rfl) ⟨rfl, rfl⟩ hsub hpublishing hcreating⟩
      · exact .inr ⟨hright.1, fun hmagic => (hright.2 hmagic).mono hsub⟩
  | returned result =>
      rw [hreader] at R
      exact fun hresult => (R hresult).mono hsub

theorem writerStep_same (hs : s.writerStep = some s') :
    s'.reader = s.reader ∧ s'.out = s.out ∧ s'.published = s.published := by
  unfold writerStep createWrite at hs
  split at hs
  · cases hs
  · cases hs
  · split at hs
    · obtain rfl := Option.some.inj hs
      exact ⟨rfl, rfl, rfl⟩
    · split at hs <;> obtain rfl := Option.some.inj hs <;> exact ⟨rfl, rfl, rfl⟩
  all_goals
    obtain rfl := Option.some.inj hs
    exact ⟨rfl, rfl, rfl⟩

theorem reads_writer (H : s.Sound) (R : s.Reads) (hfew : s.Few .write) (hs : s.writerStep = some s') : s'.Reads := by
  obtain ⟨hreader, hout, hpublished⟩ := writerStep_same hs
  unfold Reads at R ⊢
  rw [hreader]
  cases hplace : s.reader with
  | away => trivial
  | starting attempt => trivial
  | copying attempt before words =>
      rw [hplace] at R
      exact watches_writer H R hplace hfew hs
  | returned result =>
      rw [hplace] at R
      rw [hout, hpublished]
      exact R

theorem reads_next (hs : s.reader = next attempt) : s.Reads := by
  unfold next at hs
  unfold Reads
  split at hs <;> rw [hs]
  · trivial
  · exact fun hresult => absurd hresult Bool.false_ne_true

/-- An access of the reader. -/
theorem reads_reader (H : s.Sound) (R : s.Reads) (hdetects : s.Detects .read) (hs : s.readerStep = some s') :
    s'.Reads := by
  unfold readerStep at hs
  split at hs
  · cases hs
  · cases hs
  · split at hs
    · obtain rfl := Option.some.inj hs
      exact reads_next rfl
    · rename_i heven
      obtain rfl := Option.some.inj hs
      have heven' : s.shm.updateCount.toNat % 2 = 0 := by
        rw [midUpdate_iff] at heven
        omega
      refine ⟨Nat.zero_le _, heven', Nat.two_pow_pos 31, fun _ => .inl ⟨0, ?_, Nat.zero_le _, fun r fields hw => ?_, fun _ h => ?_⟩⟩
      · exact (Nat.mod_eq_of_lt s.shm.updateCount.toNat_lt).symm
      · have hwriter := H.writer
        rw [show s.writer = .publishing r fields from hw] at hwriter
        exact absurd hwriter.2.1 heven
      · exact absurd h (Nat.lt_irrefl 0)
  · rename_i attempt before words hreader
    unfold Reads at R
    rw [hreader] at R
    split at hs
    · rename_i hlt
      obtain rfl := Option.some.inj hs
      refine ⟨hlt, R.even, R.few, fun hcleared => ?_⟩
      rcases R.copy hcleared with ⟨m, T⟩ | hright
      · exact .inl ⟨m, tracks_copy H T R.even hlt⟩
      · exact absurd hright.1 (Nat.ne_of_lt hlt)
    · rename_i hge
      have hsize : words = size := Nat.le_antisymm R.length (Nat.not_lt.mp hge)
      split at hs
      · rename_i hsame
        obtain rfl := Option.some.inj hs
        intro hresult
        obtain ⟨hmagic, -⟩ := of_decide_eq_true hresult
        have hcleared : s.cleared = false := by
          rw [Detects, hreader] at hdetects
          by_contra h
          exact hdetects (before, words) rfl hsize (eq_true_of_ne_false h) hsame
        subst hsize
        rcases R.copy hcleared with ⟨m, T⟩ | hright
        · exact T.whole R.few hsame hmagic
        · exact hright.2 hmagic
      · obtain rfl := Option.some.inj hs
        exact reads_next rfl

theorem reads_step (H : s.Sound) (R : s.Reads) (hfew : s.Few e) (hdetects : s.Detects e) (hs : s.step e = some s') :
    s'.Reads := by
  cases e with
  | create =>
      simp only [step] at hs
      split at hs
      · obtain rfl := Option.some.inj hs
        refine R.keep (List.Subset.refl _) (fun _ _ h => by cases h) fun writes h h2 => ?_
        obtain rfl := ShmWriter.creating.inj h
        exact absurd h2 (Nat.not_lt_zero 2)
      · cases hs
  | publish r =>
      simp only [step] at hs
      split at hs
      · obtain rfl := Option.some.inj hs
        exact R.keep (List.subset_cons_self _ _) (fun _ _ h => by cases h) fun _ h => by cases h
      · cases hs
  | write => exact reads_writer H R hfew hs
  | die =>
      obtain rfl := Option.some.inj hs
      exact R.keep (List.Subset.refl _) (fun _ _ h => by cases h) fun _ h => by cases h
  | call =>
      simp only [step] at hs
      split at hs
      · obtain rfl := Option.some.inj hs
        trivial
      · obtain rfl := Option.some.inj hs
        trivial
      · cases hs
  | read => exact reads_reader H R hdetects hs

/-- **A copy that the reader takes is whole in every run in which no counter that was cleared
during an attempt has come back.** -/
theorem snapshot_whole {events : List ShmEvent} (hfew : Along step Few {} events)
    (hdetects : Along step Detects {} events) (hrun : run step {} events = some s) (hreturned : s.reader = .returned true) :
    Whole s.published s.out := by
  have hstart : ({} : ShmState).Sound ∧ ({} : ShmState).Reads :=
    ⟨⟨fun _ _ => .inr fun _ _ => rfl, trivial⟩, trivial⟩
  obtain ⟨-, R⟩ := run_keeps (J := fun s : ShmState => s.Sound ∧ s.Reads)
    (fun s e s' h hP hs => ⟨sound_step h.1 hs, reads_step h.1 h.2 hP.1 hP.2 hs⟩) hstart (hfew.and hdetects) hrun
  unfold Reads at R
  rw [hreturned] at R
  exact R rfl

/-- A start of the manager, with all the writes of `shm_create`. -/
def createEvents : List ShmEvent := .create :: List.replicate 20 .write

/-- A call of `shm_publish`, with all its writes. -/
def publishEvents (r : PtpRecord) : List ShmEvent := .publish r :: List.replicate 10 .write

/-- The manager restarts in the middle of a copy and publishes another record. -/
def restartEvents (before after : PtpRecord) : List ShmEvent :=
  createEvents ++ publishEvents before ++ .call :: List.replicate 8 .read ++ .die :: createEvents ++ publishEvents after

/-- A second record later, the restart is noticed, and the next attempt takes a copy. -/
theorem restart_noticed :
    ∃ s, run step {} (restartEvents ⟨2, 1, 1, 1, 1, 1, 1, 1⟩ ⟨2, 3, 3, 3, 3, 3, 3, 3⟩ ++
        publishEvents ⟨2, 4, 4, 4, 4, 4, 4, 4⟩ ++ List.replicate 32 .read) = some s ∧ Whole s.published s.out :=
  ⟨_, rfl,
    snapshot_whole
      (show Along step Few {} (restartEvents ⟨2, 1, 1, 1, 1, 1, 1, 1⟩ ⟨2, 3, 3, 3, 3, 3, 3, 3⟩ ++
        publishEvents ⟨2, 4, 4, 4, 4, 4, 4, 4⟩ ++ List.replicate 32 .read) by decide +kernel) (by decide +kernel) rfl rfl⟩

/-- A counter that has come back is not noticed: the copy begins with one record and ends with
the other. -/
theorem snapshot_torn :
    ∃ s, run step {} (restartEvents ⟨2, 1, 1, 1, 1, 1, 1, 1⟩ ⟨2, 3, 3, 3, 3, 3, 3, 3⟩ ++ List.replicate 12 .read) =
        some s ∧
      s.reader = .returned true ∧ ¬ Whole s.published s.out :=
  ⟨_, rfl, rfl, by decide⟩

end ShmState
end Aes67Daemon
