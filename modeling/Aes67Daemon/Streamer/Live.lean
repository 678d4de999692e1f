import Aes67Daemon.Lib.Run
import Aes67Daemon.Lib.SlotRing
import Mathlib.Data.List.Chain

/-!
# Live streaming

The recorder writes one period after the other to a ring of files, and a live client follows
it from file to file.  The client waits while its file is the one that is recorded; the
recorder, though, writes a file first and turns to the next one afterwards, and the client
looks first and reads afterwards.  A client that reads a file in between goes on to one that
has not been written for a lap.

## Main definitions

* `LiveState.step` — the recorder and one client.
* `Follows` — what the period after another one has to be.
* `LiveState.ordered_iff` — the periods follow each other exactly when the recorder is always
  a period ahead of the one that the client has sent last.
-/
namespace Aes67Daemon

/-- `StreamerLiveInfo`, and whether the client has found that its file is not recorded. -/
structure StreamerLiveInfo where
  fileId : ℕ
  unwriteble : ℕ := 0
  checked : Bool := false

/-- A client that has not come yet, that is served, or whose stream has been stopped. -/
inductive LiveClient
  | away
  | served (info : StreamerLiveInfo)
  | stopped

/-- A period that has been sent, and the one that was recorded then. -/
structure SentPeriod where
  period : ℕ
  counter : ℕ

/-- The recorder, as far as one sink goes, and one client. -/
structure LiveState where
  /-- `file_id_`. -/
  fileId : ℕ := 0
  /-- `file_counter_`: the period that is recorded. -/
  fileCounter : ℕ := 0
  /-- The file has been written, and `file_id_` has not been advanced yet. -/
  rewritten : Bool := false
  /-- The periods in `output_streams_`. -/
  outputStreams : ℕ → Option ℕ := fun _ => none
  client : LiveClient := .away
  /-- What has been sent, the latest first. -/
  sent : List SentPeriod := []

inductive LiveEvent
  /-- `close_files` writes the file. -/
  | closeFile
  /-- `file_id_` and `file_counter_` are advanced. -/
  | advance
  /-- `live_stream_init`. -/
  | init
  /-- `live_stream_wait` compares the client's file with `file_id_`. -/
  | check
  /-- The client is writable, and the file is sent. -/
  | send
  /-- The client is not writable. -/
  | skip
  deriving DecidableEq

/-- The period after another one is later, in the next file, and the very next one if the
recorder has not lapped the client. -/
structure Follows (n : ℕ) (p q : SentPeriod) : Prop where
  later : p.period < q.period
  next : q.period % n = (p.period + 1) % n
  adjacent : q.counter ≤ p.period + (n - 1) → q.period = p.period + 1

namespace LiveState

/-- The number of periods that have been written. -/
def written (s : LiveState) : ℕ := s.fileCounter + if s.rewritten then 1 else 0

/-- What a client that has checked its file finds there. -/
def reading (s : LiveState) : Option (StreamerLiveInfo × ℕ) :=
  match s.client with
  | .served info => if info.checked then (s.outputStreams info.fileId).map (info, ·) else none
  | _ => none

/-- A step of the recorder with `n` files, or of the client, which comes when all of them have
been written. -/
def step (n : ℕ) (s : LiveState) : LiveEvent → Option LiveState
  | .closeFile =>
    if s.rewritten then none
    else some { s with outputStreams := Function.update s.outputStreams s.fileId (some s.fileCounter), rewritten := true }
  | .advance =>
    if s.rewritten then
      some { s with fileId := (s.fileId + 1) % n, fileCounter := s.fileCounter + 1, rewritten := false }
    else none
  | .init =>
    match s.client with
    | .away => if n ≤ s.written then some { s with client := .served { fileId := (s.fileId + 1) % n } } else none
    | _ => none
  | .check =>
    match s.client with
    | .served info =>
      if info.checked then none
      else some { s with client := .served { info with checked := info.fileId ≠ s.fileId } }
    | _ => none
  | .send =>
    s.reading.map fun r =>
      { s with
        client := .served { fileId := (r.1.fileId + 1) % n }
        sent := ⟨r.2, s.fileCounter⟩ :: s.sent }
  | .skip =>
    match s.client with
    | .served info =>
      if info.checked then
        if info.unwriteble + 1 ≥ n / 2 then some { s with client := .stopped }
        else some { s with client := .served { info with unwriteble := info.unwriteble + 1, checked := false } }
      else none
    | _ => none

/-- The periods that have been sent follow each other. -/
def Ordered (n : ℕ) (s : LiveState) : Prop := s.sent.IsChain fun q p => Follows n p q

/-- When the client reads, a period has been written after the one that it has sent last. -/
def Ahead (s : LiveState) : LiveEvent → Prop
  | .send => s.reading.isSome = true → ∀ p ∈ s.sent.head?, p.period + 1 < s.written
  | _ => True

instance decidableAhead (s : LiveState) : ∀ e, Decidable (s.Ahead e)
  | .send => inferInstanceAs (Decidable (_ = true → ∀ p ∈ s.sent.head?, _ < _))
  | .closeFile | .advance | .init | .check | .skip => isTrue trivial

/-- What the recorder and the client keep. -/
structure Sound (n : ℕ) (s : LiveState) : Prop where
  fileId : s.fileId = s.fileCounter % n
  files : Latest n s.written s.outputStreams
  client : ∀ info, s.client = .served info →
    n ≤ s.written ∧ info.fileId < n ∧ ∀ p ∈ s.sent.head?, (p.period + 1) % n = info.fileId
  sent : ∀ p ∈ s.sent.head?, p.period < s.written
  away : s.client = .away → s.sent = []

variable {n : ℕ} {s s' : LiveState} {e : LiveEvent}

theorem reading_eq_some {r : StreamerLiveInfo × ℕ} (h : s.reading = some r) :
    s.client = .served r.1 ∧ r.1.checked = true ∧ s.outputStreams r.1.fileId = some r.2 := by
  unfold reading at h
  split at h
  · rename_i info hclient
    split at h
    · rename_i hchecked
      obtain ⟨period, hperiod, rfl⟩ := Option.map_eq_some_iff.mp h
      exact ⟨hclient, hchecked, hperiod⟩
    · cases h
  · cases h

/-- A client that has checked its file finds a period there. -/
theorem reading_isSome (G : s.Sound n) {info : StreamerLiveInfo} (hclient : s.client = .served info)
    (hchecked : info.checked = true) : s.reading.isSome = true := by
  obtain ⟨hwritten, hlt, -⟩ := G.client info hclient
  simpa only [reading, hclient, hchecked, if_true, Option.isSome_map] using G.files.filled info.fileId hlt (by omega)

theorem sound_closeFile (hn : 0 < n) (G : s.Sound n) (hs : s.step n .closeFile = some s') : s'.Sound n := by
  simp only [step] at hs
  split at hs
  · cases hs
  · rename_i hfresh
    obtain rfl := Option.some.inj hs
    have hbefore : s.written = s.fileCounter := by
      rw [written, if_neg hfresh]
      exact Nat.add_zero _
    refine ⟨G.fileId, ?_, fun info hclient => ?_, fun p hp => ?_, G.away⟩
    · have hfiles := G.files.write hn
      rw [hbefore] at hfiles
      change Latest n (s.fileCounter + 1) (Function.update s.outputStreams s.fileId _)
      rw [G.fileId]
      exact hfiles
    · obtain ⟨hwritten, hrest⟩ := G.client info hclient
      rw [hbefore] at hwritten
      exact ⟨Nat.le_succ_of_le hwritten, hrest⟩
    · have hlt := G.sent p hp
      rw [hbefore] at hlt
      exact Nat.lt_succ_of_lt hlt

theorem sound_advance (G : s.Sound n) (hs : s.step n .advance = some s') : s'.Sound n := by
  simp only [step] at hs
  split at hs
  · rename_i hwritten
    obtain rfl := Option.some.inj hs
    have hsame : s.written = s.fileCounter + 1 := by rw [written, if_pos hwritten]
    refine ⟨?_, ?_, fun info hclient => ?_, fun p hp => ?_, G.away⟩
    · change (s.fileId + 1) % n = (s.fileCounter + 1) % n
      rw [G.fileId, Nat.mod_add_mod]
    · exact hsame ▸ G.files
    · exact hsame ▸ G.client info hclient
    · exact hsame ▸ G.sent p hp
  · cases hs

/-- A step of a client that sends nothing. -/
theorem Sound.serve (G : s.Sound n) {client : LiveClient}
    (hclient : ∀ info, client = .served info →
      n ≤ s.written ∧ info.fileId < n ∧ ∀ p ∈ s.sent.head?, (p.period + 1) % n = info.fileId)
    (hcome : client ≠ .away) : { s with client := client : LiveState }.Sound n :=
  ⟨G.fileId, G.files, hclient, G.sent, fun haway => absurd haway hcome⟩

theorem sound_step (hn : 0 < n) (G : s.Sound n) (hs : s.step n e = some s') : s'.Sound n := by
  cases e with
  | closeFile => exact sound_closeFile hn G hs
  | advance => exact sound_advance G hs
  | init =>
      simp only [step] at hs
      split at hs
      · rename_i haway
        split at hs
        · rename_i hwritten
          obtain rfl := Option.some.inj hs
          refine G.serve (fun info hclient => ?_) LiveClient.noConfusion
          obtain rfl := LiveClient.served.inj hclient
          refine ⟨hwritten, Nat.mod_lt _ hn, fun p hp => ?_⟩
          rw [G.away haway] at hp
          cases hp
        · cases hs
      · cases hs
  | check =>
      simp only [step] at hs
      split at hs
      · rename_i info hclient
        split at hs
        · cases hs
        · obtain rfl := Option.some.inj hs
          refine G.serve (fun info' hclient' => ?_) LiveClient.noConfusion
          obtain rfl := LiveClient.served.inj hclient'
          exact G.client info hclient
      · cases hs
  | send =>
      obtain ⟨r, hr, rfl⟩ := Option.map_eq_some_iff.mp hs
      obtain ⟨hclient, -, hperiod⟩ := reading_eq_some hr
      obtain ⟨hwritten, -⟩ := G.client r.1 hclient
      obtain ⟨hslot, hlt, -⟩ := G.files.slot _ _ hperiod
      refine ⟨G.fileId, G.files, fun info hclient' => ?_, fun p hp => ?_, fun haway => by cases haway⟩
      · obtain rfl := LiveClient.served.inj hclient'
        refine ⟨hwritten, Nat.mod_lt _ hn, fun p hp => ?_⟩
        obtain rfl := Option.some.inj hp
        rw [← hslot, Nat.mod_add_mod]
      · obtain rfl := Option.some.inj hp
        exact hlt
  | skip =>
      simp only [step] at hs
      split at hs
      · rename_i info hclient
        split at hs
        · split at hs
          · obtain rfl := Option.some.inj hs
            exact G.serve (fun info' hclient' => by cases hclient') LiveClient.noConfusion
          · obtain rfl := Option.some.inj hs
            refine G.serve (fun info' hclient' => ?_) LiveClient.noConfusion
            obtain rfl := LiveClient.served.inj hclient'
            exact G.client info hclient
        · cases hs
      · cases hs

/-- The next period follows the last one exactly when a period has been written since. -/
theorem follows_iff (G : s.Sound n) {r : StreamerLiveInfo × ℕ} (hr : s.reading = some r) {p : SentPeriod}
    (hp : p ∈ s.sent.head?) : Follows n p ⟨r.2, s.fileCounter⟩ ↔ p.period + 1 < s.written := by
  obtain ⟨hclient, -, hperiod⟩ := reading_eq_some hr
  obtain ⟨-, hn, hlast⟩ := G.client r.1 hclient
  have hnext := hlast p hp
  obtain ⟨hslot, hlt, hle⟩ := G.files.slot _ _ hperiod
  have hwritten : s.written ≤ s.fileCounter + 1 := by
    unfold written
    split <;> omega
  rw [← G.files.lt_next (G.sent p hp) hnext hperiod]
  constructor
  · intro F
    exact F.later
  · intro hlater
    refine ⟨hlater, hslot.trans hnext.symm, fun hcounter => ?_⟩
    have hcounter' : s.fileCounter ≤ p.period + (n - 1) := hcounter
    have hsame : r.2 = p.period + 1 := eq_of_mod_eq (hslot.trans hnext.symm) (by omega) (by omega)
    exact hsame

theorem sent_same (he : e ≠ .send) (hs : s.step n e = some s') : s'.sent = s.sent := by
  cases e with
  | send => exact absurd rfl he
  | closeFile | advance =>
      simp only [step] at hs
      split at hs <;> cases hs
      rfl
  | init | check =>
      simp only [step] at hs
      split at hs
      · split at hs <;> cases hs
        rfl
      · cases hs
  | skip =>
      simp only [step] at hs
      split at hs
      · split at hs
        · split at hs <;> cases hs <;> rfl
        · cases hs
      · cases hs

theorem ordered_step (G : s.Sound n) (H : s.Ordered n) (hs : s.step n e = some s') : s'.Ordered n ↔ s.Ahead e := by
  cases e with
  | send =>
      obtain ⟨r, hr, rfl⟩ := Option.map_eq_some_iff.mp hs
      unfold Ordered at H ⊢
      rw [List.isChain_cons, and_iff_left H, Ahead, forall_prop_of_true (Option.isSome_of_mem hr)]
      exact forall₂_congr fun p hp => follows_iff G hr hp
  | _ =>
      refine iff_of_true ?_ trivial
      rw [Ordered, sent_same (by decide) hs]
      exact H

theorem sound_start (n : ℕ) : ({} : LiveState).Sound n where
  fileId := (Nat.zero_mod n).symm
  files := Latest.empty n
  client := fun _ h => by cases h
  sent := fun _ h => by cases h
  away := fun _ => rfl

/-- **The periods that a client is sent follow each other exactly when, at each of its reads, a
period has been written after the one that it was sent last.** -/
theorem ordered_iff (hn : 0 < n) (events : List LiveEvent) :
    (∀ k s, run (step n) {} (events.take k) = some s → s.Ordered n) ↔ Along (step n) Ahead {} events := by
  refine always_iff_of (I := Sound n) (fun s e s' G _ hs => sound_step hn G hs)
    (fun s e s' G H hs => ordered_step G H hs) (fun s e _ hs => ?_) (sound_start n) List.isChain_nil
  cases e with
  | send =>
      intro hsome
      rw [step, Option.map_eq_none_iff] at hs
      rw [hs] at hsome
      cases hsome
  | _ => trivial

/-- A client that comes when each of four files has been written, and looks at once. -/
def clientLooks : List LiveEvent :=
  [.closeFile, .advance, .closeFile, .advance, .closeFile, .advance, .closeFile, .advance, .init, .check]

/-- The recorder laps a client that is not writable, and the periods still follow each other. -/
def clientLapped : List LiveEvent :=
  clientLooks ++ [.send, .check, .skip, .closeFile, .advance, .closeFile, .advance, .closeFile, .advance, .check, .send]

theorem lapped_ordered : ∃ s, run (step 4) {} clientLapped = some s ∧ s.Ordered 4 :=
  ⟨_, rfl, (ordered_iff (by decide) clientLapped).mpr (by decide) 21 _ rfl⟩

/-- A client that reads its file when it has just been written, and looks and reads again
before the recorder turns to the next one, goes from period 5 to period 2. -/
theorem back_in_time :
    ∃ s, run (step 4) {} (clientLooks ++ [.closeFile, .advance, .closeFile, .send, .check, .send]) = some s ∧
      s.sent.map SentPeriod.period = [2, 5] :=
  ⟨_, rfl, rfl⟩

end LiveState
end Aes67Daemon
