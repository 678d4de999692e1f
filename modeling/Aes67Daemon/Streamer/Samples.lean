import Aes67Daemon.Lib.Bytes
import Aes67Daemon.Lib.Run
import Aes67Daemon.Session.Streams

/-!
# The samples of the streamer

Each chunk that is captured goes into the buffer behind the last one, and `save_files` copies
from there the samples of every sink, frame by frame and in the order of its map.  The place
of a sample it computes from the channel without asking whether the channel is captured;
`get_info` does ask.

## Main definitions

* `CaptureFormat` — the sizes that `start_capture` computes.
* `CaptureState.captureChunk` — a chunk, from the device to the streams of the sinks.
* `CaptureState.Recorded` — a file whose streams have the samples of the sinks.
* `CaptureState.recorded_iff` — that is every file all of whose sinks map captured channels to a
  buffer that holds a chunk.
-/
namespace Aes67Daemon

/-- `chunk_samples_`. -/
def chunkSamples : ℕ := 6144

/-- What the streamer is set up for. -/
structure CaptureFormat where
  rate : UInt32
  fileDuration : UInt16
  channels : ℕ
  channels_pos : 0 < channels

namespace CaptureFormat

/-- `bytes_per_frame_`; the physical width of `S16_LE` is 16. -/
def bytesPerFrame (fmt : CaptureFormat) : ℕ := 16 * fmt.channels / 8

/-- The bytes of a sample. -/
def sampleSize (fmt : CaptureFormat) : ℕ := fmt.bytesPerFrame / fmt.channels

/-- `buffer_samples_`; the product has 32 bits. -/
def bufferSamples (fmt : CaptureFormat) : ℕ :=
  (fmt.rate * fmt.fileDuration.toUInt32).toNat / chunkSamples * chunkSamples

/-- The chunks of a file: the buffer is full when there is no room for another. -/
def fileChunks (fmt : CaptureFormat) : ℕ := max 1 (fmt.bufferSamples / chunkSamples)

theorem bytesPerFrame_eq (fmt : CaptureFormat) : fmt.bytesPerFrame = fmt.channels * 2 := by
  unfold bytesPerFrame
  omega

@[simp] theorem sampleSize_eq (fmt : CaptureFormat) : fmt.sampleSize = 2 := by
  rw [sampleSize, bytesPerFrame_eq]
  exact Nat.mul_div_cancel_left 2 fmt.channels_pos

theorem chunkSamples_dvd (fmt : CaptureFormat) : chunkSamples ∣ fmt.bufferSamples := Nat.dvd_mul_left ..

/-! ## The samples of a chunk -/

/-- The sample of a channel in a frame of a chunk; a channel that is not captured has none. -/
def sampleOf (fmt : CaptureFormat) (data : List UInt8) (frame ch : ℕ) : List UInt8 :=
  slice (slice data (frame * fmt.bytesPerFrame) fmt.bytesPerFrame) (ch * fmt.sampleSize) fmt.sampleSize

/-- The samples of a map, frame by frame. -/
def samplesOf (fmt : CaptureFormat) (map : List UInt8) (data : List UInt8) : List UInt8 :=
  (List.range chunkSamples).flatMap fun frame => map.flatMap fun ch => fmt.sampleOf data frame ch.toNat

end CaptureFormat

/-- The capture of a chunk: the sinks that `save_files` finds, and what `pcm_read` has read. -/
structure CapturedChunk (fmt : CaptureFormat) where
  session : SessionManager
  data : List UInt8
  length_data : data.length = chunkSamples * fmt.bytesPerFrame

/-- What the capture thread writes to. -/
structure CaptureState (fmt : CaptureFormat) where
  buffer : List UInt8
  bufferOffset : ℕ
  tmpStreams : UInt8 → List UInt8
  totalSinkSamples : UInt8 → ℕ
  length_buffer : buffer.length = fmt.bufferSamples * fmt.bytesPerFrame

namespace CaptureState
variable {fmt : CaptureFormat}

/-- Where the samples of a map are in the buffer. -/
def positions (s : CaptureState fmt) (map : List UInt8) : List ℕ :=
  (List.range chunkSamples).flatMap fun offset =>
    map.map fun ch => (s.bufferOffset + offset) * fmt.bytesPerFrame + ch.toNat * fmt.sampleSize

/-- A chunk of samples goes to the stream of a sink. -/
def append (s : CaptureState fmt) (id : UInt8) (samples : List UInt8) : CaptureState fmt :=
  { s with
    totalSinkSamples := Function.update s.totalSinkSamples id (s.totalSinkSamples id + chunkSamples)
    tmpStreams := Function.update s.tmpStreams id (s.tmpStreams id ++ samples) }

theorem tmpStreams_append_self (s : CaptureState fmt) (id : UInt8) (samples : List UInt8) :
    (s.append id samples).tmpStreams id = s.tmpStreams id ++ samples :=
  Function.update_self ..

theorem tmpStreams_append_of_ne (s : CaptureState fmt) {id id' : UInt8} (h : id' ≠ id) (samples : List UInt8) :
    (s.append id samples).tmpStreams id' = s.tmpStreams id' :=
  Function.update_of_ne h ..

/-- The body of `save_files` for a sink; `none` is a read outside the buffer. -/
def saveSink (s : CaptureState fmt) (sink : StreamSink) : Option (CaptureState fmt) :=
  (readAll s.buffer fmt.sampleSize (s.positions sink.map)).map (s.append sink.id)

/-- `save_files`. -/
def saveFiles (s : CaptureState fmt) (sinks : List StreamSink) : Option (CaptureState fmt) := sinks.foldlM saveSink s

theorem le_length_overwrite (buffer : List UInt8) (offset : ℕ) (src : List UInt8) :
    buffer.length ≤ (overwrite buffer offset src).length := by
  simp only [overwrite, List.length_append, List.length_take, List.length_drop]
  omega

/-- `pcm_read` into the buffer; what goes past its end is not in it. -/
def read (s : CaptureState fmt) (data : List UInt8) : CaptureState fmt :=
  { s with
    buffer := (overwrite s.buffer (s.bufferOffset * fmt.bytesPerFrame) data).take s.buffer.length
    length_buffer := (List.length_take_of_le (le_length_overwrite ..)).trans s.length_buffer }

/-- A pass of the capture loop, but for the end of the file. -/
def captureChunk (s : CaptureState fmt) (c : CapturedChunk fmt) : Option (CaptureState fmt) :=
  ((s.read c.data).saveFiles c.session.getSinks).map fun s => { s with bufferOffset := s.bufferOffset + chunkSamples }

/-- The start of a file: `open_files`, with the buffer empty. -/
def openFiles (s : CaptureState fmt) (sinks : List StreamSink) : CaptureState fmt :=
  { s with
    bufferOffset := 0
    tmpStreams := fun id => if ∃ sink ∈ sinks, sink.id = id then [] else s.tmpStreams id }

/-- A chunk has been saved: nothing was read outside the buffer, and the stream of every sink is
longer by its samples. -/
def Saves (s : CaptureState fmt) (c : CapturedChunk fmt) : Prop :=
  ∃ s', s.captureChunk c = some s' ∧ ∀ sink ∈ c.session.getSinks,
    s'.tmpStreams sink.id = s.tmpStreams sink.id ++ fmt.samplesOf sink.map c.data

/-- A sink with this id and map. -/
def HasSink (session : SessionManager) (id : UInt8) (map : List UInt8) : Prop :=
  ∃ sink ∈ session.getSinks, sink.id = id ∧ sink.map = map

/-- A file is recorded: every chunk is saved, and at the end the stream of a sink that was there
all along has its samples of the whole file. -/
structure Recorded (s : CaptureState fmt) (opened : SessionManager) (chunks : List (CapturedChunk fmt)) : Prop where
  saves : Along captureChunk Saves (s.openFiles opened.getSinks) chunks
  whole : ∀ s', run captureChunk (s.openFiles opened.getSinks) chunks = some s' → ∀ id map,
    HasSink opened id map → (∀ c ∈ chunks, HasSink c.session id map) →
      s'.tmpStreams id = chunks.flatMap (fun c => fmt.samplesOf map c.data) ∧
      (s'.tmpStreams id).length = fmt.bufferSamples * map.length * fmt.sampleSize

/-- The check of `get_info`: every channel is captured; and the buffer has room for a chunk. -/
def Captures (fmt : CaptureFormat) (sink : StreamSink) : Prop :=
  ∀ ch ∈ sink.map, ch.toNat < fmt.channels ∧ chunkSamples ≤ fmt.bufferSamples

/-! ## The samples of a sink -/

/-- Pieces of one length. -/
theorem length_flatMap_const {α : Type} {xs : List α} {f : α → List UInt8} {n : ℕ} (h : ∀ x ∈ xs, (f x).length = n) :
    (xs.flatMap f).length = xs.length * n := by
  induction xs with
  | nil => exact (Nat.zero_mul n).symm
  | cons x xs ih =>
      obtain ⟨hx, hxs⟩ := List.forall_mem_cons.mp h
      rw [List.flatMap_cons, List.length_append, hx, ih hxs, List.length_cons, Nat.succ_mul, Nat.add_comm]

section sizes
variable {data : List UInt8} (hdata : data.length = chunkSamples * fmt.bytesPerFrame)
include hdata

/-- A frame of a chunk ends before the chunk does. -/
theorem frame_end_le {frame : ℕ} (hframe : frame < chunkSamples) :
    frame * fmt.bytesPerFrame + fmt.bytesPerFrame ≤ data.length := by
  rw [hdata, ← Nat.succ_mul]
  exact Nat.mul_le_mul_right _ hframe

theorem length_sampleOf {frame : ℕ} (hframe : frame < chunkSamples) (ch : ℕ) :
    (fmt.sampleOf data frame ch).length = if ch < fmt.channels then 2 else 0 := by
  have hend := frame_end_le hdata hframe
  rw [CaptureFormat.sampleOf, length_slice, length_slice, fmt.sampleSize_eq]
  rw [fmt.bytesPerFrame_eq] at hend ⊢
  split <;> omega

theorem length_samplesOf (map : List UInt8) : (fmt.samplesOf map data).length =
    chunkSamples * (2 * map.countP fun ch => ch.toNat < fmt.channels) := by
  have hframe : ∀ frame ∈ List.range chunkSamples,
      (map.flatMap fun ch => fmt.sampleOf data frame ch.toNat).length =
        2 * map.countP fun ch => ch.toNat < fmt.channels := by
    intro frame hframe
    induction map with
    | nil => rfl
    | cons ch map ih =>
        rw [List.flatMap_cons, List.length_append, ih, length_sampleOf hdata (List.mem_range.mp hframe),
          List.countP_cons]
        by_cases hch : ch.toNat < fmt.channels
        · rw [if_pos hch, if_pos (decide_eq_true hch)]
          omega
        · rw [if_neg hch, if_neg (by simpa using hch)]
          omega
  rw [CaptureFormat.samplesOf, length_flatMap_const hframe, List.length_range]

end sizes

theorem length_readAll {buffer : List UInt8} {len : ℕ} {positions : List ℕ} {bytes : List UInt8}
    (h : readAll buffer len positions = some bytes) : bytes.length = positions.length * len := by
  obtain ⟨hpos, rfl⟩ := readAll_eq_some_iff.mp h
  refine length_flatMap_const fun pos hmem => ?_
  have hle := hpos pos hmem
  rw [length_slice]
  omega

theorem length_positions (s : CaptureState fmt) (map : List UInt8) :
    (s.positions map).length = chunkSamples * map.length := by
  rw [positions, List.length_flatMap]
  simp

/-- The place of a sample in the buffer is where the chunk has it. -/
theorem slice_read {s : CaptureState fmt} {data : List UInt8} (hdata : data.length = chunkSamples * fmt.bytesPerFrame)
    (hfit : s.bufferOffset + chunkSamples ≤ fmt.bufferSamples) {frame ch : ℕ} (hframe : frame < chunkSamples)
    (hch : ch < fmt.channels) :
    (s.bufferOffset + frame) * fmt.bytesPerFrame + ch * fmt.sampleSize + fmt.sampleSize ≤ (s.read data).buffer.length ∧
      slice (s.read data).buffer ((s.bufferOffset + frame) * fmt.bytesPerFrame + ch * fmt.sampleSize) fmt.sampleSize =
        fmt.sampleOf data frame ch := by
  have hframe_end := frame_end_le hdata hframe
  have hsample : ch * fmt.sampleSize + fmt.sampleSize ≤ fmt.bytesPerFrame := by
    rw [fmt.sampleSize_eq, fmt.bytesPerFrame_eq]
    omega
  have hroom : s.bufferOffset * fmt.bytesPerFrame + data.length ≤ s.buffer.length := by
    rw [hdata, s.length_buffer, ← Nat.add_mul]
    exact Nat.mul_le_mul_right _ hfit
  have hbuffer : (s.read data).buffer = overwrite s.buffer (s.bufferOffset * fmt.bytesPerFrame) data :=
    List.take_of_length_le (length_overwrite hroom).le
  rw [hbuffer, length_overwrite hroom, Nat.add_mul, Nat.add_assoc _ _ (ch * fmt.sampleSize)]
  refine ⟨by omega, ?_⟩
  rw [slice_overwrite (by omega) (by omega), CaptureFormat.sampleOf, slice_slice _ _ _ hsample]

/-- **Where every channel is captured the samples are those of the chunk.** -/
theorem readAll_positions {s : CaptureState fmt} {c : CapturedChunk fmt} {sink : StreamSink}
    (hcaptures : Captures fmt sink)
    (hfit : chunkSamples ≤ fmt.bufferSamples → s.bufferOffset + chunkSamples ≤ fmt.bufferSamples) :
    readAll (s.read c.data).buffer fmt.sampleSize ((s.read c.data).positions sink.map) =
      some (fmt.samplesOf sink.map c.data) := by
  have hsample : ∀ frame ∈ List.range chunkSamples, ∀ ch ∈ sink.map, _ := fun frame hframe ch hch =>
    slice_read c.length_data (hfit (hcaptures ch hch).2) (List.mem_range.mp hframe) (hcaptures ch hch).1
  rw [readAll_eq_some_iff]
  constructor
  · intro pos hpos
    obtain ⟨frame, hframe, hpos⟩ := List.mem_flatMap.mp hpos
    obtain ⟨ch, hch, rfl⟩ := List.mem_map.mp hpos
    exact (hsample frame hframe ch hch).1
  · rw [CaptureFormat.samplesOf, positions, List.flatMap_assoc]
    refine List.flatMap_congr fun frame hframe => ?_
    rw [List.flatMap_map]
    exact (List.flatMap_congr fun ch hch => (hsample frame hframe ch hch).2).symm

/-- Where the samples are those of the chunk every channel is captured. -/
theorem captures_of_length {s : CaptureState fmt} {c : CapturedChunk fmt} {sink : StreamSink} {samples : List UInt8}
    (hread : readAll (s.read c.data).buffer fmt.sampleSize ((s.read c.data).positions sink.map) = some samples)
    (hlength : samples.length = (fmt.samplesOf sink.map c.data).length) : Captures fmt sink := by
  have hall : sink.map.countP (fun ch => ch.toNat < fmt.channels) = sink.map.length := by
    rw [length_readAll hread, length_positions, length_samplesOf c.length_data, fmt.sampleSize_eq,
      chunkSamples] at hlength
    omega
  intro ch hch
  refine ⟨of_decide_eq_true (List.countP_eq_length.mp hall ch hch), ?_⟩
  have hpos := (readAll_eq_some_iff.mp hread).1 ((s.bufferOffset + 0) * fmt.bytesPerFrame + ch.toNat * fmt.sampleSize)
    (List.mem_flatMap.mpr ⟨0, List.mem_range.mpr (by decide), List.mem_map.mpr ⟨ch, hch, rfl⟩⟩)
  have hpositive : fmt.bufferSamples ≠ 0 := by
    intro hzero
    rw [(s.read c.data).length_buffer, hzero, fmt.sampleSize_eq] at hpos
    omega
  exact Nat.le_of_dvd (Nat.pos_of_ne_zero hpositive) fmt.chunkSamples_dvd

/-! ## The sinks in turn -/

/-- What `save_files` does: it reads nothing outside the buffer, and the streams of the sinks
are longer by what it has read. -/
theorem saveFiles_spec {sinks : List StreamSink} (hnodup : (sinks.map StreamSink.id).Nodup) {s s' : CaptureState fmt}
    (h : s.saveFiles sinks = some s') :
    s'.buffer = s.buffer ∧ s'.bufferOffset = s.bufferOffset ∧
      (∀ id ∉ sinks.map StreamSink.id, s'.tmpStreams id = s.tmpStreams id) ∧
      ∀ sink ∈ sinks, ∃ samples, readAll s.buffer fmt.sampleSize (s.positions sink.map) = some samples ∧
        s'.tmpStreams sink.id = s.tmpStreams sink.id ++ samples := by
  induction sinks generalizing s with
  | nil =>
      obtain rfl := Option.some.inj h
      exact ⟨rfl, rfl, fun _ _ => rfl, fun sink hsink => absurd hsink List.not_mem_nil⟩
  | cons sink sinks ih =>
      rw [saveFiles, List.foldlM_cons] at h
      obtain ⟨s₁, hfirst, hrest⟩ := Option.bind_eq_some_iff.mp h
      obtain ⟨samples, hread, rfl⟩ := Option.map_eq_some_iff.mp hfirst
      obtain ⟨hnew, hnodup⟩ := List.nodup_cons.mp hnodup
      obtain ⟨hbuffer, hoffset, hothers, hsinks⟩ := ih hnodup hrest
      refine ⟨hbuffer, hoffset, fun id hid => ?_, ?_⟩
      · obtain ⟨hne, hid⟩ := not_or.mp (List.mem_cons.not.mp hid)
        rw [hothers id hid, tmpStreams_append_of_ne _ hne]
      · rw [List.forall_mem_cons]
        refine ⟨⟨samples, hread, ?_⟩, fun later hlater => ?_⟩
        · rw [hothers _ hnew, tmpStreams_append_self]
        · obtain ⟨samples', hread', hstream⟩ := hsinks later hlater
          have hne : later.id ≠ sink.id := fun heq => hnew (heq ▸ List.mem_map_of_mem hlater)
          refine ⟨samples', hread', ?_⟩
          rw [hstream, tmpStreams_append_of_ne _ hne]

/-- `save_files` comes to an end where no read is outside the buffer. -/
theorem exists_saveFiles {sinks : List StreamSink} {s : CaptureState fmt}
    (h : ∀ sink ∈ sinks, ∃ samples, readAll s.buffer fmt.sampleSize (s.positions sink.map) = some samples) :
    ∃ s', s.saveFiles sinks = some s' := by
  induction sinks generalizing s with
  | nil => exact ⟨s, rfl⟩
  | cons sink sinks ih =>
      obtain ⟨⟨samples, hread⟩, hrest⟩ := List.forall_mem_cons.mp h
      obtain ⟨s', hs'⟩ := ih (s := s.append sink.id samples) hrest
      refine ⟨s', ?_⟩
      rw [saveFiles, List.foldlM_cons, saveSink, hread]
      exact hs'

variable {s s' : CaptureState fmt} {c : CapturedChunk fmt}

/-- **A chunk is saved exactly when all channels are captured.** -/
theorem saves_iff (hfit : chunkSamples ≤ fmt.bufferSamples → s.bufferOffset + chunkSamples ≤ fmt.bufferSamples) :
    s.Saves c ↔ ∀ sink ∈ c.session.getSinks, Captures fmt sink := by
  constructor
  · rintro ⟨s', hs', hstreams⟩ sink hsink
    obtain ⟨s₁, hsaved, rfl⟩ := Option.map_eq_some_iff.mp hs'
    obtain ⟨-, -, -, hsinks⟩ := saveFiles_spec c.session.nodup_getSinks hsaved
    obtain ⟨samples, hread, hstream⟩ := hsinks sink hsink
    exact captures_of_length hread (congrArg List.length (List.append_cancel_left (hstream.symm.trans (hstreams sink hsink))))
  · intro hcaptures
    have hread := fun sink hsink => readAll_positions (c := c) (hcaptures sink hsink) hfit
    obtain ⟨s₁, hsaved⟩ := exists_saveFiles fun sink hsink => ⟨_, hread sink hsink⟩
    obtain ⟨-, -, -, hsinks⟩ := saveFiles_spec c.session.nodup_getSinks hsaved
    refine ⟨_, Option.map_eq_some_iff.mpr ⟨s₁, hsaved, rfl⟩, fun sink hsink => ?_⟩
    obtain ⟨samples, hsamples, hstream⟩ := hsinks sink hsink
    obtain rfl := Option.some.inj ((hread sink hsink).symm.trans hsamples)
    exact hstream

theorem bufferOffset_captureChunk (h : s.captureChunk c = some s') : s'.bufferOffset = s.bufferOffset + chunkSamples := by
  obtain ⟨s₁, hsaved, rfl⟩ := Option.map_eq_some_iff.mp h
  obtain ⟨-, hoffset, -⟩ := saveFiles_spec c.session.nodup_getSinks hsaved
  exact congrArg (· + chunkSamples) hoffset

/-! ## A file -/

/-- **Every chunk is saved exactly when all channels are captured.** -/
theorem along_saves_iff {chunks : List (CapturedChunk fmt)}
    (hfit : chunkSamples ≤ fmt.bufferSamples → s.bufferOffset + chunks.length * chunkSamples ≤ fmt.bufferSamples) :
    Along captureChunk Saves s chunks ↔ ∀ c ∈ chunks, ∀ sink ∈ c.session.getSinks, Captures fmt sink := by
  induction chunks generalizing s with
  | nil => exact ⟨fun _ c hc => absurd hc List.not_mem_nil, fun _ => trivial⟩
  | cons c chunks ih =>
      rw [List.length_cons, Nat.succ_mul] at hfit
      have hfirst : chunkSamples ≤ fmt.bufferSamples → s.bufferOffset + chunkSamples ≤ fmt.bufferSamples := by
        intro hle
        have hroom := hfit hle
        omega
      rw [along_cons, List.forall_mem_cons, saves_iff hfirst]
      refine and_congr_right fun hcaptures => ?_
      obtain ⟨s', hs', -⟩ := (saves_iff hfirst).mpr hcaptures
      rw [← ih (s := s') fun hle => ?_]
      · exact ⟨fun h => h s' hs', fun h s₁ hs₁ => Option.some.inj (hs'.symm.trans hs₁) ▸ h⟩
      · rw [bufferOffset_captureChunk hs']
        have hroom := hfit hle
        omega

/-- The stream of a sink that is there for every chunk. -/
theorem tmpStreams_run {chunks : List (CapturedChunk fmt)} {id : UInt8} {map : List UInt8}
    (hsaves : Along captureChunk Saves s chunks) (hthere : ∀ c ∈ chunks, HasSink c.session id map)
    (hrun : run captureChunk s chunks = some s') :
    s'.tmpStreams id = s.tmpStreams id ++ chunks.flatMap fun c => fmt.samplesOf map c.data := by
  induction chunks generalizing s with
  | nil =>
      obtain rfl : s = s' := by simpa using hrun
      exact (List.append_nil _).symm
  | cons c chunks ih =>
      obtain ⟨⟨sink, hsink, rfl, rfl⟩, hthere⟩ := List.forall_mem_cons.mp hthere
      obtain ⟨⟨s₁, hs₁, hstreams⟩, hlater⟩ := hsaves
      rw [run_cons, hs₁] at hrun
      rw [ih (hlater s₁ hs₁) hthere hrun, hstreams sink hsink, List.flatMap_cons, List.append_assoc]

/-- The samples of a whole file. -/
theorem length_whole {chunks : List (CapturedChunk fmt)} {sink : StreamSink}
    (hchunks : chunks.length = fmt.fileChunks) (hcaptures : Captures fmt sink) :
    (chunks.flatMap fun c => fmt.samplesOf sink.map c.data).length =
      fmt.bufferSamples * sink.map.length * fmt.sampleSize := by
  have hall : sink.map.countP (fun ch => ch.toNat < fmt.channels) = sink.map.length :=
    List.countP_eq_length.mpr fun ch hch => decide_eq_true (hcaptures ch hch).1
  rw [length_flatMap_const fun c _ => length_samplesOf c.length_data sink.map, hall, hchunks, fmt.sampleSize_eq]
  rcases hmap : sink.map with - | ⟨ch, map⟩
  · simp
  · have hroom := (hcaptures ch (hmap ▸ List.mem_cons_self)).2
    have hpos : 1 ≤ fmt.bufferSamples / chunkSamples := (Nat.one_le_div_iff (by decide)).mpr hroom
    rw [CaptureFormat.fileChunks, max_eq_right hpos, ← Nat.mul_assoc, Nat.div_mul_cancel fmt.chunkSamples_dvd,
      Nat.mul_comm 2, Nat.mul_assoc]

/-- **A file is recorded exactly when every sink that `save_files` finds maps only channels that
are captured, and the buffer has room for a chunk if there is any.** -/
theorem recorded_iff (s : CaptureState fmt) (opened : SessionManager) (chunks : List (CapturedChunk fmt))
    (hchunks : chunks.length = fmt.fileChunks) :
    s.Recorded opened chunks ↔ ∀ c ∈ chunks, ∀ sink ∈ c.session.getSinks, Captures fmt sink := by
  have hfit : chunkSamples ≤ fmt.bufferSamples →
      (s.openFiles opened.getSinks).bufferOffset + chunks.length * chunkSamples ≤ fmt.bufferSamples := by
    intro hroom
    have hpos : 1 ≤ fmt.bufferSamples / chunkSamples := (Nat.one_le_div_iff (by decide)).mpr hroom
    rw [hchunks, CaptureFormat.fileChunks, max_eq_right hpos, Nat.div_mul_cancel fmt.chunkSamples_dvd]
    exact (Nat.zero_add _).le
  constructor
  · intro R
    exact (along_saves_iff hfit).mp R.saves
  · intro hcaptures
    have hsaves := (along_saves_iff hfit).mpr hcaptures
    refine ⟨hsaves, fun s' hrun id map hopened hthere => ?_⟩
    have hstream := tmpStreams_run hsaves hthere hrun
    obtain ⟨sink, hsink, rfl, -⟩ := hopened
    have hempty : (s.openFiles opened.getSinks).tmpStreams sink.id = [] := if_pos ⟨sink, hsink, rfl⟩
    rw [hempty, List.nil_append] at hstream
    refine ⟨hstream, ?_⟩
    obtain ⟨c, hc⟩ : ∃ c, c ∈ chunks := by
      refine List.exists_mem_of_length_pos ?_
      rw [hchunks]
      exact Nat.le_max_left ..
    obtain ⟨sink', hsink', -, rfl⟩ := hthere c hc
    rw [hstream, length_whole hchunks (hcaptures c hc sink' hsink')]

/-- Eight channels of 48 kHz, and files of a second. -/
def defaultFormat : CaptureFormat := ⟨48000, 1, 8, by decide⟩

/-- The state before the first file. -/
def blank : CaptureState defaultFormat :=
  ⟨List.replicate (defaultFormat.bufferSamples * defaultFormat.bytesPerFrame) 0, 0, fun _ => [], fun _ => 0,
    List.length_replicate⟩

/-- A session with a sink of one channel. -/
def oneSink (ch : UInt32) : SessionManager :=
  { sinks := .insert .empty 0 { stream := ⟨{ byNbOfChannels := 1, aui32Routing := [ch] }, {}⟩ } }

/-- A file of silence. -/
def silence (session : SessionManager) : List (CapturedChunk defaultFormat) :=
  List.replicate 7 ⟨session, List.replicate (chunkSamples * defaultFormat.bytesPerFrame) 0, List.length_replicate⟩

theorem recorded_iff_default : blank.Recorded (oneSink 7) (silence (oneSink 7)) ↔
    ∀ c ∈ silence (oneSink 7), ∀ sink ∈ c.session.getSinks, Captures defaultFormat sink :=
  recorded_iff blank (oneSink 7) (silence (oneSink 7)) (by decide)

/-- A sink of the ninth channel where eight are captured. -/
theorem ninth_channel_not_recorded : ¬ blank.Recorded (oneSink 8) (silence (oneSink 8)) := by
  intro R
  have hcaptures := (along_saves_iff fun _ => by decide).mp R.saves
  have hch := hcaptures _ List.mem_cons_self _ List.mem_cons_self 8 (by decide)
  exact absurd hch.1 (by decide)

end CaptureState
end Aes67Daemon
