import Aes67Daemon.Lib.Run
import Aes67Daemon.Lib.SlotRing
import Aes67Daemon.Lib.SortedMap

/-!
# The files of the streamer

The capture loop goes round a ring of files.  For each period it clears the streams of the
sinks there are, appends the samples of each chunk to them, and at the end has one task for
each sink encode the stream and store the file, together with the number of the period,
which the files of all sinks share.  `get_stream` serves a file once enough samples of the
sink have been counted; a sink that comes in the middle of a period has been counted for
periods of which it has no file.

## Main definitions

* `StreamerState.step` — the capture loop, the sinks that come and go, and the calls of
  `get_stream`.
* `StreamAnswer.Right` — the sink's encoding of the last completed period of the file.
* `StreamerState.answers_right` — the answers are right whenever the file is from the closing
  of that period, of a sink that was there all along.
-/
namespace Aes67Daemon

/-- The channels that a sink is made of. -/
abbrev ChannelMap := List ℕ

structure StreamerConfig where
  filesNum : ℕ
  /-- The chunks in `buffer_samples_`. -/
  chunks : ℕ
  channels : ℕ

/-- The samples of some channels in one chunk of a period. -/
structure Chunk where
  map : ChannelMap
  period : ℕ
  index : ℕ
  deriving DecidableEq

/-- An encoded file: the channels that the codec was set up for, and what it has encoded. -/
structure EncodedFile where
  codec : ChannelMap
  stream : List Chunk
  deriving DecidableEq

/-- The first chunks of a period. -/
def periodStream (map : ChannelMap) (period count : ℕ) : List Chunk := (List.range count).map (Chunk.mk map period)

/-- A sink's encoding of a period. -/
def EncodedFile.ofPeriod (cfg : StreamerConfig) (map : ChannelMap) (period : ℕ) : EncodedFile :=
  ⟨map, periodStream map period cfg.chunks⟩

/-- How a file has come about: the channels of the sink whose task has stored it, the period
in which it did, and whether the sink was there since the files of that period were opened and
the codec was its own. -/
structure FileOrigin where
  map : ChannelMap
  period : ℕ
  whole : Bool

/-- What the task of a sink in `close_files` has left to do. -/
inductive CloseTask
  | encode (map : ChannelMap)
  | store (file : EncodedFile) (origin : FileOrigin)

/-- Where the capture loop is; each of its functions goes over the sinks it has found when it
was called. -/
inductive CapturePhase
  | reading
  | saving (sinks : SortedMap UInt8 ChannelMap)
  | closing (tasks : SortedMap UInt8 CloseTask)
  | turned
  | opening (sinks : SortedMap UInt8 ChannelMap)

/-- Where a call of `get_stream` is. -/
inductive CallPlace
  | checked
  | loaded (current : ℕ)
  | locked (current : ℕ) (out : Option EncodedFile) (origin : Option FileOrigin)

/-- The current file that has been read, and the origin of the one that is read under the lock. -/
def CallPlace.read : CallPlace → Option (ℕ × Option FileOrigin)
  | locked current _ origin => some (current, origin)
  | _ => none

structure StreamCall where
  id : UInt8
  map : ChannelMap
  file : ℕ
  place : CallPlace

/-- An answer without error. -/
structure StreamAnswer where
  map : ChannelMap
  file : ℕ
  currentFileId : ℕ
  fileCounter : UInt32
  out : Option EncodedFile
  /-- The periods that are completed at that time. -/
  completed : ℕ
  deriving DecidableEq

structure StreamerState where
  /-- `get_sinks`. -/
  sinks : SortedMap UInt8 ChannelMap := .empty
  fileId : ℕ := 0
  /-- The period that is recorded; `file_counter_` is its low word. -/
  fileCounter : ℕ := 0
  /-- The loop starts with `open_files`. -/
  phase : CapturePhase := .turned
  /-- `buffer_offset_`, in chunks. -/
  bufferOffset : ℕ := 0
  tmpStreams : UInt8 → List Chunk := fun _ => []
  faac : UInt8 → Option ChannelMap := fun _ => none
  /-- `total_sink_samples_`, in chunks. -/
  totalSinkSamples : UInt8 → ℕ := fun _ => 0
  outputStreams : UInt8 → ℕ → Option EncodedFile := fun _ _ => none
  outputIds : ℕ → UInt32 := fun _ => 0
  calls : SortedMap ℕ StreamCall := .empty
  answers : List StreamAnswer := []
  /-- The sinks that the loop has found all along since the files were opened. -/
  present : UInt8 → Option ChannelMap := fun _ => none
  /-- Where the files in `outputStreams` have come from. -/
  origins : UInt8 → ℕ → Option FileOrigin := fun _ _ => none
  /-- The period in which a file has been stored last, for whatever sink. -/
  lastStore : ℕ → Option ℕ := fun _ => none

inductive StreamerEvent
  | addSink (id : UInt8) (map : ChannelMap)
  | removeSink (id : UInt8)
  /-- `on_sink_remove`. -/
  | onSinkRemove (id : UInt8)
  /-- The capture loop goes on when it is done with the sinks it has found. -/
  | next
  | save (id : UInt8)
  | encode (id : UInt8) (ok : Bool)
  | store (id : UInt8)
  | openFile (id : UInt8) (ok : Bool)
  /-- A thread calls `get_stream`, ... -/
  | call (thread : ℕ) (id : UInt8) (map : ChannelMap) (file : ℕ)
  /-- ... reads `file_id_`, ... -/
  | load (thread : ℕ)
  /-- ... takes the lock and reads the file, ... -/
  | readOut (thread : ℕ)
  /-- ... and reads its number and answers. -/
  | answer (thread : ℕ)

/-- The answer has the sink's encoding of the last completed period that belongs to the file,
and the number of that period. -/
def StreamAnswer.Right (cfg : StreamerConfig) (a : StreamAnswer) : Prop :=
  ∃ period, period % cfg.filesNum = a.file % cfg.filesNum ∧ period < a.completed ∧ a.completed ≤ period + cfg.filesNum ∧
    a.fileCounter = UInt32.ofNat period ∧ a.out = some (EncodedFile.ofPeriod cfg a.map period)

namespace StreamerState

/-- The sinks of `present` that are found again. -/
def stillPresent (s : StreamerState) (id : UInt8) : Option ChannelMap :=
  if s.sinks.find? id = s.present id then s.present id else none

/-- The capture loop goes on. -/
def advance (cfg : StreamerConfig) (s : StreamerState) : Option StreamerState :=
  match s.phase with
  | .reading => some { s with phase := .saving s.sinks, present := s.stillPresent }
  | .saving todo =>
    if todo.entries = [] then
      if s.bufferOffset + 1 < cfg.chunks then some { s with phase := .reading, bufferOffset := s.bufferOffset + 1 }
      else
        some
          { s with
            phase := .closing (s.sinks.mapVal fun _ map => .encode map)
            bufferOffset := s.bufferOffset + 1
            present := s.stillPresent }
    else none
  | .closing tasks =>
    if tasks.entries.isEmpty then
      some
        { s with
          phase := .turned
          fileId := (s.fileId + 1) % cfg.filesNum
          fileCounter := s.fileCounter + 1
          bufferOffset := 0
          present := fun _ => none }
    else none
  | .turned => some { s with phase := .opening s.sinks }
  | .opening todo => if todo.entries = [] then some { s with phase := .reading } else none

/-- `save_files` for one sink. -/
def save (s : StreamerState) (id : UInt8) : Option StreamerState :=
  match s.phase with
  | .saving todo =>
    (todo.find? id).map fun map =>
      { s with
        phase := .saving (todo.erase id)
        tmpStreams := Function.update s.tmpStreams id (s.tmpStreams id ++ [⟨map, s.fileCounter, s.bufferOffset⟩])
        totalSinkSamples := Function.update s.totalSinkSamples id (s.totalSinkSamples id + 1) }
  | _ => none

/-- What the task of a sink has left to do when it has encoded the stream, unless there is no
codec or it fails. -/
def encoded (cfg : StreamerConfig) (s : StreamerState) (id : UInt8) (map : ChannelMap) (ok : Bool) : Option CloseTask :=
  match s.faac id with
  | some codec =>
    if ok then
      some (.store ⟨codec, (s.tmpStreams id).take cfg.chunks⟩ ⟨map, s.fileCounter, s.present id = some map ∧ codec = map⟩)
    else none
  | none => none

/-- The first part of the task of a sink in `close_files`. -/
def encode (cfg : StreamerConfig) (s : StreamerState) (id : UInt8) (ok : Bool) : Option StreamerState :=
  match s.phase with
  | .closing tasks =>
    match tasks.find? id with
    | some (.encode map) =>
      match s.encoded cfg id map ok with
      | some task => some { s with phase := .closing (tasks.insert id task) }
      | none => some { s with phase := .closing (tasks.erase id) }
    | _ => none
  | _ => none

/-- A call reads the files of a sink. -/
def isLocked (s : StreamerState) (id : UInt8) : Bool :=
  s.calls.entries.any fun e => e.2.id = id && match e.2.place with | .locked .. => true | _ => false

/-- The second part, under the lock of the sink's files. -/
def store (s : StreamerState) (id : UInt8) : Option StreamerState :=
  match s.phase with
  | .closing tasks =>
    match tasks.find? id with
    | some (.store file origin) =>
      if s.isLocked id then none
      else
        some
          { s with
            phase := .closing (tasks.erase id)
            outputStreams := fun i f => if i = id ∧ f = s.fileId then some file else s.outputStreams i f
            outputIds := Function.update s.outputIds s.fileId (UInt32.ofNat s.fileCounter)
            origins := fun i f => if i = id ∧ f = s.fileId then some origin else s.origins i f
            lastStore := Function.update s.lastStore s.fileId (some s.fileCounter) }
    | _ => none
  | _ => none

/-- `open_files` for one sink; `ok` says whether `setup_codec` leaves the codec open, as it does when the
configuration is refused. -/
def openFile (s : StreamerState) (id : UInt8) (ok : Bool) : Option StreamerState :=
  match s.phase with
  | .opening todo =>
    (todo.find? id).map fun map =>
      { s with
        phase := .opening (todo.erase id)
        tmpStreams := Function.update s.tmpStreams id []
        faac :=
          if (s.faac id).isSome then s.faac else Function.update s.faac id (if ok then some map else none)
        present := Function.update s.present id (some map) }
  | _ => none

/-- `get_stream`, up to its tests; it returns when one of them fails. -/
def call (cfg : StreamerConfig) (s : StreamerState) (thread : ℕ) (c : StreamCall) : Option StreamerState :=
  if s.calls.contains thread then none
  else if c.map.all (· < cfg.channels) ∧ cfg.chunks * (cfg.filesNum - 1) ≤ s.totalSinkSamples c.id then
    some { s with calls := s.calls.insert thread c }
  else some s

/-- A call goes from one place to the next. -/
def proceed (s : StreamerState) (thread : ℕ) (next : StreamCall → Option CallPlace) : Option StreamerState :=
  (s.calls.find? thread).bind fun c =>
    (next c).map fun place => { s with calls := s.calls.insert thread { c with place := place } }

/-- The last part of `get_stream`. -/
def answer (s : StreamerState) (thread : ℕ) : Option StreamerState :=
  match s.calls.find? thread with
  | some ⟨_, map, file, .locked current out _⟩ =>
    some
      { s with
        calls := s.calls.erase thread
        answers := ⟨map, file, current, s.outputIds file, out, s.fileCounter⟩ :: s.answers }
  | _ => none

def step (cfg : StreamerConfig) (s : StreamerState) : StreamerEvent → Option StreamerState
  | .addSink id map => some { s with sinks := s.sinks.insert id map }
  | .removeSink id => some { s with sinks := s.sinks.erase id }
  | .onSinkRemove id =>
    some
      { s with
        faac := Function.update s.faac id none
        totalSinkSamples := Function.update s.totalSinkSamples id 0 }
  | .next => s.advance cfg
  | .save id => s.save id
  | .encode id ok => s.encode cfg id ok
  | .store id => s.store id
  | .openFile id ok => s.openFile id ok
  | .call thread id map file => s.call cfg thread ⟨id, map, file, .checked⟩
  | .load thread => s.proceed thread fun c => match c.place with | .checked => some (.loaded s.fileId) | _ => none
  | .readOut thread =>
    s.proceed thread fun c =>
      match c.place with
      | .loaded current => some (.locked current (s.outputStreams c.id c.file) (s.origins c.id c.file))
      | _ => none
  | .answer thread => s.answer thread

/-- A call that is about to answer has read the file that the sink's own task has stored when the
last period of the file was closed, with the sink there since that period began, and no task has
stored the file since. -/
def FromLastClose (cfg : StreamerConfig) (s : StreamerState) : StreamerEvent → Prop
  | .answer thread => ∀ c ∈ s.calls.find? thread, ∀ r ∈ c.place.read, c.file ≠ r.1 →
    ∃ o ∈ r.2, o.map = c.map ∧ o.whole = true ∧ o.period < s.fileCounter ∧
      s.fileCounter ≤ o.period + cfg.filesNum ∧ s.lastStore c.file ≠ some s.fileCounter
  | _ => True

instance decidableFromLastClose (cfg : StreamerConfig) (s : StreamerState) : ∀ e, Decidable (s.FromLastClose cfg e)
  | .answer thread =>
    inferInstanceAs (Decidable (∀ c ∈ s.calls.find? thread, ∀ r ∈ c.place.read, c.file ≠ r.1 →
      ∃ o ∈ r.2, o.map = c.map ∧ o.whole = true ∧ _ < _ ∧ _ ≤ _ ∧ s.lastStore c.file ≠ some _))
  | .addSink .. | .removeSink _ | .onSinkRemove _ | .next | .save _ | .encode .. | .store _ | .openFile .. | .call ..
  | .load _ | .readOut _ => isTrue trivial

/-! ## What the capture loop keeps -/

/-- The streams of the sinks that have been there all along. -/
def Streams (cfg : StreamerConfig) (s : StreamerState) : Prop :=
  match s.phase with
  | .reading =>
    s.bufferOffset < cfg.chunks ∧
      ∀ id map, s.present id = some map → s.tmpStreams id = periodStream map s.fileCounter s.bufferOffset
  | .saving todo =>
    s.bufferOffset < cfg.chunks ∧
      ∀ id map, s.present id = some map →
        todo.find? id = some map ∧ s.tmpStreams id = periodStream map s.fileCounter s.bufferOffset ∨
          todo.find? id = none ∧ s.tmpStreams id = periodStream map s.fileCounter (s.bufferOffset + 1)
  | .closing tasks =>
    (∀ id map, s.present id = some map → s.tmpStreams id = periodStream map s.fileCounter cfg.chunks) ∧
      ∀ id file o, tasks.find? id = some (.store file o) →
        o.period = s.fileCounter ∧ (o.whole = true → file = .ofPeriod cfg o.map o.period)
  | .turned => s.bufferOffset = 0 ∧ ∀ id, s.present id = none
  | .opening todo =>
    s.bufferOffset = 0 ∧ ∀ id map, s.present id = some map → todo.find? id = none ∧ s.tmpStreams id = []

/-- What is known of a file by its origin. -/
structure Known (cfg : StreamerConfig) (lastStore : ℕ → Option ℕ) (f : ℕ) (out : Option EncodedFile) (o : FileOrigin) :
    Prop where
  file : o.whole = true → out = some (.ofPeriod cfg o.map o.period)
  slot : o.period % cfg.filesNum = f
  last : ∃ p, lastStore f = some p ∧ o.period ≤ p

structure Sound (cfg : StreamerConfig) (s : StreamerState) : Prop where
  fileId : s.fileId = s.fileCounter % cfg.filesNum
  streams : s.Streams cfg
  outputs : ∀ id f o, s.origins id f = some o → Known cfg s.lastStore f (s.outputStreams id f) o
  ids : ∀ f p, s.lastStore f = some p →
    p % cfg.filesNum = f ∧ p ≤ s.fileCounter ∧ s.outputIds f = UInt32.ofNat p
  calls : ∀ thread c current out origin, s.calls.find? thread = some c → c.place = .locked current out origin →
    ∀ o ∈ origin, Known cfg s.lastStore c.file out o

variable {cfg : StreamerConfig} {s s' : StreamerState} {e : StreamerEvent}

/-- What the loop does to the streams leaves the files and the calls as they are. -/
theorem Sound.record (G : s.Sound cfg) {sinks : SortedMap UInt8 ChannelMap} {phase : CapturePhase} {bufferOffset : ℕ}
    {tmpStreams : UInt8 → List Chunk} {faac present : UInt8 → Option ChannelMap} {total : UInt8 → ℕ}
    (h : { s with
      sinks := sinks, phase := phase, bufferOffset := bufferOffset, tmpStreams := tmpStreams, faac := faac
      totalSinkSamples := total, present := present : StreamerState }.Streams cfg) :
    { s with
      sinks := sinks, phase := phase, bufferOffset := bufferOffset, tmpStreams := tmpStreams, faac := faac
      totalSinkSamples := total, present := present : StreamerState }.Sound cfg :=
  ⟨G.fileId, h, G.outputs, G.ids, G.calls⟩

theorem stillPresent_eq_some {id : UInt8} {map : ChannelMap} (h : s.stillPresent id = some map) :
    s.present id = some map ∧ s.sinks.find? id = some map := by
  unfold stillPresent at h
  split at h
  · rename_i heq
    exact ⟨h, heq.trans h⟩
  · cases h

theorem find?_of_entries_nil {α : Type} {m : SortedMap UInt8 α} (h : m.entries = []) (id : UInt8) : m.find? id = none := by
  rw [SortedMap.find?, h]
  rfl

theorem periodStream_succ (map : ChannelMap) (period count : ℕ) :
    periodStream map period (count + 1) = periodStream map period count ++ [⟨map, period, count⟩] := by
  rw [periodStream, List.range_succ, List.map_append]
  rfl

theorem take_periodStream (map : ChannelMap) (period count : ℕ) :
    (periodStream map period count).take count = periodStream map period count :=
  List.take_of_length_le (by simp [periodStream])

theorem sound_advance (hchunks : 0 < cfg.chunks) (G : s.Sound cfg) (hs : s.advance cfg = some s') : s'.Sound cfg := by
  have hstreams := G.streams
  unfold advance at hs
  split at hs
  · rename_i hphase
    obtain rfl := Option.some.inj hs
    simp only [Streams, hphase] at hstreams
    refine G.record ⟨hstreams.1, fun id map h => ?_⟩
    obtain ⟨hpresent, hfound⟩ := stillPresent_eq_some h
    exact .inl ⟨hfound, hstreams.2 id map hpresent⟩
  · rename_i todo hphase
    simp only [Streams, hphase] at hstreams
    split at hs
    · rename_i hdone
      have hsaved : ∀ id map, s.present id = some map →
          s.tmpStreams id = periodStream map s.fileCounter (s.bufferOffset + 1) := by
        intro id map hpresent
        rcases hstreams.2 id map hpresent with ⟨hfound, -⟩ | ⟨-, htmp⟩
        · rw [find?_of_entries_nil hdone] at hfound
          cases hfound
        · exact htmp
      split at hs
      · rename_i hlt
        obtain rfl := Option.some.inj hs
        exact G.record ⟨hlt, hsaved⟩
      · rename_i hge
        obtain rfl := Option.some.inj hs
        have hfull : s.bufferOffset + 1 = cfg.chunks := Nat.le_antisymm hstreams.1 (Nat.not_lt.mp hge)
        refine G.record ⟨fun id map h => ?_, fun id file o htask => ?_⟩
        · rw [← hfull]
          exact hsaved id map (stillPresent_eq_some h).1
        · rw [SortedMap.find?_mapVal] at htask
          obtain ⟨map, -, hmap⟩ := Option.map_eq_some_iff.mp htask
          cases hmap
    · cases hs
  · split at hs
    · obtain rfl := Option.some.inj hs
      refine ⟨?_, ⟨rfl, fun _ => rfl⟩, G.outputs, fun f p hp => ?_, G.calls⟩
      · change (s.fileId + 1) % cfg.filesNum = (s.fileCounter + 1) % cfg.filesNum
        rw [G.fileId, Nat.mod_add_mod]
      · obtain ⟨hslot, hle, hid⟩ := G.ids f p hp
        exact ⟨hslot, Nat.le_succ_of_le hle, hid⟩
    · cases hs
  · rename_i hphase
    obtain rfl := Option.some.inj hs
    simp only [Streams, hphase] at hstreams
    refine G.record ⟨hstreams.1, fun id map h => ?_⟩
    rw [show s.present id = none from hstreams.2 id] at h
    cases h
  · rename_i todo hphase
    simp only [Streams, hphase] at hstreams
    split at hs
    · obtain rfl := Option.some.inj hs
      refine G.record ⟨hstreams.1 ▸ hchunks, fun id map h => ?_⟩
      change s.tmpStreams id = periodStream map s.fileCounter s.bufferOffset
      rw [hstreams.1]
      exact (hstreams.2 id map h).2
    · cases hs

theorem sound_save (G : s.Sound cfg) {id : UInt8} (hs : s.save id = some s') : s'.Sound cfg := by
  have hstreams := G.streams
  unfold save at hs
  split at hs
  · rename_i todo hphase
    obtain ⟨map, hmap, rfl⟩ := Option.map_eq_some_iff.mp hs
    simp only [Streams, hphase] at hstreams
    refine G.record ⟨hstreams.1, fun id' map' h => ?_⟩
    rcases hstreams.2 id' map' h with ⟨hfound, htmp⟩ | ⟨hnone, htmp⟩
    · rcases eq_or_ne id' id with rfl | hne
      · obtain rfl := Option.some.inj (hmap.symm.trans hfound)
        refine .inr ⟨SortedMap.find?_erase_self _ _, ?_⟩
        rw [periodStream_succ, ← htmp]
        exact Function.update_self _ _ _
      · exact .inl ⟨(SortedMap.find?_erase_of_ne _ hne).trans hfound, (Function.update_of_ne hne _ _).trans htmp⟩
    · have hne : id' ≠ id := by
        rintro rfl
        cases hmap.symm.trans hnone
      exact .inr ⟨(SortedMap.find?_erase_of_ne _ hne).trans hnone, (Function.update_of_ne hne _ _).trans htmp⟩
  · cases hs

theorem sound_openFile (G : s.Sound cfg) {id : UInt8} {ok : Bool} (hs : s.openFile id ok = some s') : s'.Sound cfg := by
  have hstreams := G.streams
  unfold openFile at hs
  split at hs
  · rename_i todo hphase
    obtain ⟨map, hmap, rfl⟩ := Option.map_eq_some_iff.mp hs
    simp only [Streams, hphase] at hstreams
    refine G.record ⟨hstreams.1, fun id' map' h => ?_⟩
    rcases eq_or_ne id' id with rfl | hne
    · exact ⟨SortedMap.find?_erase_self _ _, Function.update_self _ _ _⟩
    · obtain ⟨hnone, htmp⟩ := hstreams.2 id' map' ((Function.update_of_ne hne _ _).symm.trans h)
      exact ⟨(SortedMap.find?_erase_of_ne _ hne).trans hnone, (Function.update_of_ne hne _ _).trans htmp⟩
  · cases hs

/-- What a task stores is the encoding of its period if the sink was there all along. -/
theorem encoded_whole {id : UInt8} {map : ChannelMap} {ok : Bool} {file : EncodedFile} {o : FileOrigin}
    (htmp : ∀ map, s.present id = some map → s.tmpStreams id = periodStream map s.fileCounter cfg.chunks)
    (h : s.encoded cfg id map ok = some (.store file o)) :
    o.period = s.fileCounter ∧ (o.whole = true → file = .ofPeriod cfg o.map o.period) := by
  unfold encoded at h
  split at h
  · split at h
    · cases h
      refine ⟨rfl, fun hwhole => ?_⟩
      obtain ⟨hpresent, rfl⟩ := of_decide_eq_true hwhole
      rw [EncodedFile.ofPeriod, htmp _ hpresent, take_periodStream]
    · cases h
  · cases h

theorem sound_encode (G : s.Sound cfg) {id : UInt8} {ok : Bool} (hs : s.encode cfg id ok = some s') : s'.Sound cfg := by
  have hstreams := G.streams
  unfold encode at hs
  split at hs
  · rename_i tasks hphase
    simp only [Streams, hphase] at hstreams
    split at hs
    · rename_i map htask
      split at hs
      · rename_i task hencoded
        obtain rfl := Option.some.inj hs
        refine G.record ⟨hstreams.1, fun id' file o h => ?_⟩
        rcases eq_or_ne id' id with rfl | hne
        · obtain rfl := Option.some.inj ((SortedMap.find?_insert_self _ _ _).symm.trans h)
          exact encoded_whole (hstreams.1 id') hencoded
        · exact hstreams.2 id' file o ((SortedMap.find?_insert_of_ne _ _ hne).symm.trans h)
      · obtain rfl := Option.some.inj hs
        refine G.record ⟨hstreams.1, fun id' file o h => ?_⟩
        rcases eq_or_ne id' id with rfl | hne
        · cases (SortedMap.find?_erase_self _ _).symm.trans h
        · exact hstreams.2 id' file o ((SortedMap.find?_erase_of_ne _ hne).symm.trans h)
    · cases hs
  · cases hs

/-- A file that is known stays so when a file is stored. -/
theorem Known.store {lastStore : ℕ → Option ℕ} {f fileId k : ℕ} {out : Option EncodedFile} {o : FileOrigin}
    (K : Known cfg lastStore f out o) (hbound : ∀ p, lastStore f = some p → p ≤ k) :
    Known cfg (Function.update lastStore fileId (some k)) f out o := by
  refine ⟨K.file, K.slot, ?_⟩
  obtain ⟨p, hp, hle⟩ := K.last
  rcases eq_or_ne f fileId with rfl | hne
  · exact ⟨k, Function.update_self _ _ _, hle.trans (hbound p hp)⟩
  · exact ⟨p, (Function.update_of_ne hne _ _).trans hp, hle⟩

theorem sound_store (G : s.Sound cfg) {id : UInt8} (hs : s.store id = some s') : s'.Sound cfg := by
  have hstreams := G.streams
  unfold store at hs
  split at hs
  · rename_i tasks hphase
    simp only [Streams, hphase] at hstreams
    split at hs
    · rename_i file origin htask
      split at hs
      · cases hs
      · obtain rfl := Option.some.inj hs
        obtain ⟨hperiod, hfile⟩ := hstreams.2 id file origin htask
        have hkeep : ∀ {f out o}, Known cfg s.lastStore f out o →
            Known cfg (Function.update s.lastStore s.fileId (some s.fileCounter)) f out o := fun K =>
          K.store fun p hp => (G.ids _ p hp).2.1
        refine ⟨G.fileId, ⟨hstreams.1, fun id' file' o h => ?_⟩, fun i f o ho => ?_, fun f p hp => ?_,
          fun thread c current out o hc hplace o' ho' => hkeep (G.calls thread c current out o hc hplace o' ho')⟩
        · rcases eq_or_ne id' id with rfl | hne
          · cases (SortedMap.find?_erase_self _ _).symm.trans h
          · exact hstreams.2 id' file' o ((SortedMap.find?_erase_of_ne _ hne).symm.trans h)
        · dsimp only at ho ⊢
          by_cases hnew : i = id ∧ f = s.fileId
          · rw [if_pos hnew] at ho ⊢
            obtain rfl := Option.some.inj ho
            obtain ⟨rfl, rfl⟩ := hnew
            refine ⟨fun hwhole => congrArg some (hfile hwhole), ?_, s.fileCounter, Function.update_self _ _ _, ?_⟩
            · rw [hperiod]
              exact G.fileId.symm
            · exact Nat.le_of_eq hperiod
          · rw [if_neg hnew] at ho ⊢
            exact hkeep (G.outputs i f o ho)
        · dsimp only at hp ⊢
          rcases eq_or_ne f s.fileId with rfl | hne
          · rw [Function.update_self] at hp
            obtain rfl := Option.some.inj hp
            exact ⟨G.fileId.symm, Nat.le_refl _, Function.update_self _ _ _⟩
          · rw [Function.update_of_ne hne] at hp
            obtain ⟨hslot, hle, hid⟩ := G.ids f p hp
            exact ⟨hslot, hle, (Function.update_of_ne hne _ _).trans hid⟩
    · cases hs
  · cases hs

/-- An answer about a file from the last closing is right. -/
theorem right_of_known (G : s.Sound cfg) {f : ℕ} {out : Option EncodedFile} {o : FileOrigin} (K : Known cfg s.lastStore f out o)
    (hwhole : o.whole = true) (hlt : o.period < s.fileCounter) (hle : s.fileCounter ≤ o.period + cfg.filesNum)
    (hfresh : s.lastStore f ≠ some s.fileCounter) {map : ChannelMap} (hmap : o.map = map) (current : ℕ) :
    StreamAnswer.Right cfg ⟨map, f, current, s.outputIds f, out, s.fileCounter⟩ := by
  obtain ⟨p, hp, hle'⟩ := K.last
  obtain ⟨hslot, hbound, hid⟩ := G.ids f p hp
  have hne : p ≠ s.fileCounter := fun heq => hfresh (heq ▸ hp)
  have hsame : p = o.period := eq_of_mod_eq (hslot.trans K.slot.symm) (by omega) (by omega)
  refine ⟨o.period, ?_, hlt, hle, ?_, ?_⟩
  · rw [← K.slot]
    exact (Nat.mod_mod _ _).symm
  · rw [← hsame]
    exact hid
  · rw [← hmap]
    exact K.file hwhole

/-- A call changes its place; one that has come to read a file has read a known one. -/
theorem Sound.replace (G : s.Sound cfg) {calls : SortedMap ℕ StreamCall} {answers : List StreamAnswer}
    (h : ∀ thread c current out origin, calls.find? thread = some c → c.place = .locked current out origin →
      s.calls.find? thread = some c ∨ out = s.outputStreams c.id c.file ∧ origin = s.origins c.id c.file) :
    { s with calls := calls, answers := answers : StreamerState }.Sound cfg := by
  refine ⟨G.fileId, G.streams, G.outputs, G.ids, fun thread c current out origin hc hplace o ho => ?_⟩
  rcases h thread c current out origin hc hplace with hold | ⟨rfl, rfl⟩
  · exact G.calls thread c current out origin hold hplace o ho
  · exact G.outputs c.id c.file o ho

theorem sound_call (G : s.Sound cfg) {thread : ℕ} {c : StreamCall} (hfresh : c.place = .checked)
    (hs : s.call cfg thread c = some s') : s'.Sound cfg := by
  unfold call at hs
  split at hs
  · cases hs
  · split at hs
    · obtain rfl := Option.some.inj hs
      refine G.replace fun thread' c' current out origin hc hplace => ?_
      rw [SortedMap.find?_insert] at hc
      split at hc
      · obtain rfl := Option.some.inj hc
        cases hfresh.symm.trans hplace
      · exact .inl hc
    · obtain rfl := Option.some.inj hs
      exact G

theorem sound_proceed (G : s.Sound cfg) {thread : ℕ} {next : StreamCall → Option CallPlace}
    (hnext : ∀ c current out origin, next c = some (.locked current out origin) →
      out = s.outputStreams c.id c.file ∧ origin = s.origins c.id c.file)
    (hs : s.proceed thread next = some s') : s'.Sound cfg := by
  obtain ⟨c, -, hs⟩ := Option.bind_eq_some_iff.mp hs
  obtain ⟨place, hplace, rfl⟩ := Option.map_eq_some_iff.mp hs
  refine G.replace fun thread' c' current out origin hc' hlocked => ?_
  rw [SortedMap.find?_insert] at hc'
  split at hc'
  · obtain rfl := Option.some.inj hc'
    rw [show place = .locked current out origin from hlocked] at hplace
    exact .inr (hnext c current out origin hplace)
  · exact .inl hc'

theorem sound_answer (G : s.Sound cfg) {thread : ℕ} (hs : s.answer thread = some s') : s'.Sound cfg := by
  unfold answer at hs
  split at hs
  · obtain rfl := Option.some.inj hs
    refine G.replace fun thread' c current out origin hc _ => ?_
    rw [SortedMap.find?_erase] at hc
    split at hc
    · cases hc
    · exact .inl hc
  · cases hs

theorem sound_step (hchunks : 0 < cfg.chunks) (G : s.Sound cfg) (hs : s.step cfg e = some s') : s'.Sound cfg := by
  cases e with
  | addSink id map =>
      obtain rfl := Option.some.inj hs
      exact G.record G.streams
  | removeSink id =>
      obtain rfl := Option.some.inj hs
      exact G.record G.streams
  | onSinkRemove id =>
      obtain rfl := Option.some.inj hs
      exact G.record G.streams
  | next => exact sound_advance hchunks G hs
  | save id => exact sound_save G hs
  | encode id ok => exact sound_encode G hs
  | store id => exact sound_store G hs
  | openFile id ok => exact sound_openFile G hs
  | call thread id map file => exact sound_call G rfl hs
  | load thread =>
      refine sound_proceed G (fun c current out origin h => ?_) hs
      split at h <;> cases h
  | readOut thread =>
      refine sound_proceed G (fun c current out origin h => ?_) hs
      split at h <;> cases h
      exact ⟨rfl, rfl⟩
  | answer thread => exact sound_answer G hs

theorem answers_same (he : ∀ thread, e ≠ .answer thread) (hs : s.step cfg e = some s') : s'.answers = s.answers := by
  cases e with
  | addSink id map | removeSink id | onSinkRemove id =>
      cases hs
      rfl
  | next =>
      simp only [step, advance] at hs
      repeat' split at hs
      all_goals cases hs
      all_goals rfl
  | save id | openFile id ok =>
      simp only [step, save, openFile] at hs
      split at hs
      · obtain ⟨map, -, rfl⟩ := Option.map_eq_some_iff.mp hs
        rfl
      · cases hs
  | encode id ok | store id =>
      simp only [step, encode, store] at hs
      repeat' split at hs
      all_goals cases hs
      all_goals rfl
  | call thread id map file =>
      simp only [step, call] at hs
      repeat' split at hs
      all_goals cases hs
      all_goals rfl
  | load thread | readOut thread =>
      obtain ⟨c, -, hs⟩ := Option.bind_eq_some_iff.mp hs
      obtain ⟨place, -, rfl⟩ := Option.map_eq_some_iff.mp hs
      rfl
  | answer thread => exact absurd rfl (he thread)

theorem answers_step (G : s.Sound cfg) (H : ∀ a ∈ s.answers, a.file ≠ a.currentFileId → a.Right cfg)
    (hcond : s.FromLastClose cfg e) (hs : s.step cfg e = some s') :
    ∀ a ∈ s'.answers, a.file ≠ a.currentFileId → a.Right cfg := by
  cases e with
  | answer thread =>
      simp only [step, answer] at hs
      split at hs
      · rename_i id map file current out origin hc
        obtain rfl := Option.some.inj hs
        intro a ha hne
        rcases List.mem_cons.mp ha with rfl | ha
        · obtain ⟨o, ho, hmap, hwhole, hlt, hle, hfresh⟩ := hcond _ hc _ rfl hne
          exact right_of_known G (G.calls thread _ current out origin hc rfl o ho) hwhole hlt hle hfresh hmap current
        · exact H a ha hne
      · cases hs
  | _ =>
      rw [answers_same (fun _ h => by cases h) hs]
      exact H

theorem sound_start : ({} : StreamerState).Sound cfg where
  fileId := (Nat.zero_mod _).symm
  streams := ⟨rfl, fun _ => rfl⟩
  outputs := fun _ _ _ h => by cases h
  ids := fun _ _ h => by cases h
  calls := fun _ _ _ _ _ h => by cases h

/-- **Every answer about a file other than the current one is right in every run in which the
calls answer with files from the last closing.** -/
theorem answers_right (hchunks : 0 < cfg.chunks) {events : List StreamerEvent}
    (H : Along (step cfg) (FromLastClose cfg) {} events) (hrun : run (step cfg) {} events = some s) :
    ∀ a ∈ s.answers, a.file ≠ a.currentFileId → a.Right cfg := by
  refine (run_keeps (J := fun s : StreamerState =>
    s.Sound cfg ∧ ∀ a ∈ s.answers, a.file ≠ a.currentFileId → a.Right cfg) (fun s e s' h hcond hs => ?_)
    ⟨sound_start, fun a ha => absurd ha List.not_mem_nil⟩ H hrun).2
  exact ⟨sound_step hchunks h.1 hs, answers_step h.1 h.2 hcond hs⟩

/-- Some chunks, in which the loop finds these sinks. -/
def chunkEvents (ids : List UInt8) (count : ℕ) : List StreamerEvent :=
  (List.replicate count (.next :: ids.map .save ++ [.next])).flatten

/-- The end of a period, in which each task that has encoded its stream stores it. -/
def closeEvents (ids stores : List UInt8) : List StreamerEvent :=
  ids.map (.encode · true) ++ stores.map .store ++ [.next, .next] ++ ids.map (.openFile · true) ++ [.next]

def getStreamEvents (file : ℕ) : List StreamerEvent := [.call 0 0 [0] file, .load 0, .readOut 0, .answer 0]

/-- A sink that is there from the start, and four periods. -/
def steadyEvents : List StreamerEvent :=
  [.addSink 0 [0], .next, .openFile 0 true, .next] ++
    (List.replicate 4 (chunkEvents [0] 7 ++ closeEvents [0] [0])).flatten ++ getStreamEvents 2

theorem steady_right :
    ∃ s, run (step ⟨4, 7, 8⟩) {} steadyEvents = some s ∧
      ∀ a ∈ s.answers, a.file ≠ a.currentFileId → a.Right ⟨4, 7, 8⟩ := by
  have hdefined : (run (step ⟨4, 7, 8⟩) {} steadyEvents).isSome = true := by decide +kernel
  obtain ⟨s, hrun⟩ := Option.isSome_iff_exists.mp hdefined
  exact ⟨s, hrun, answers_right (by decide) (by decide +kernel) hrun⟩

/-- A sink that comes after three chunks of seven. -/
def lateEvents : List StreamerEvent :=
  [.next, .next] ++ chunkEvents [] 3 ++ .addSink 0 [0] :: chunkEvents [0] 4 ++ closeEvents [0] [] ++
    (List.replicate 2 (chunkEvents [0] 7 ++ closeEvents [0] [0])).flatten ++ chunkEvents [0] 3 ++ getStreamEvents 0

/-- It has no file of that period, but three periods later enough of its samples have been
counted. -/
theorem late_sink :
    ∃ s, run (step ⟨4, 7, 8⟩) {} lateEvents = some s ∧
      ∃ a ∈ s.answers, a.file ≠ a.currentFileId ∧ ¬ a.Right ⟨4, 7, 8⟩ := by
  have hanswers : (run (step ⟨4, 7, 8⟩) {} lateEvents).map answers = some [⟨[0], 0, 3, 0, none, 3⟩] := by decide +kernel
  obtain ⟨s, hrun, hs⟩ := Option.map_eq_some_iff.mp hanswers
  refine ⟨s, hrun, _, hs ▸ List.mem_cons_self, by decide, ?_⟩
  rintro ⟨_, -, -, -, -, hout⟩
  cases hout

end StreamerState
end Aes67Daemon
