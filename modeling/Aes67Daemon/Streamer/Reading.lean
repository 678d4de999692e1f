import Aes67Daemon.Streamer.Samples

/-!
# The reads of the capture loop

`pcm_read` puts a chunk together from as many frames as the device has each time, and goes on
after an overrun or a suspend.  It gives up when the device fails, and when a chunk is still
short and the capture has been stopped.  The samples of a chunk that is complete are saved; a
file that has no room for another chunk is closed, and the next one opened.

## Main definitions

* `ReadCall` — a call of `snd_pcm_readi`, and what the thread finds after it.
* `CaptureThread.step` — the capture thread, from one call to the next.
* `CaptureThread.streams_whole` — however the frames come, the files of a sink have its
  samples of all whole chunks, in order, and a closed file is full.
-/
namespace Aes67Daemon

/-- The bytes of all channels at one time. -/
abbrev PcmFrame (fmt : CaptureFormat) := { bytes : List UInt8 // bytes.length = fmt.bytesPerFrame }

namespace PcmFrame
variable {fmt : CaptureFormat}

/-- Frames as they lie in the buffer. -/
def bytes (frames : List (PcmFrame fmt)) : List UInt8 := (frames.map Subtype.val).flatten

/-- The samples of a map, frame by frame. -/
def samples (map : List UInt8) (frames : List (PcmFrame fmt)) : List UInt8 :=
  frames.flatMap fun frame => map.flatMap fun ch => slice frame.1 (ch.toNat * fmt.sampleSize) fmt.sampleSize

theorem length_bytes (frames : List (PcmFrame fmt)) : (bytes frames).length = frames.length * fmt.bytesPerFrame := by
  induction frames with
  | nil => exact (Nat.zero_mul _).symm
  | cons frame frames ih =>
      rw [bytes, List.map_cons, List.flatten_cons, List.length_append, ← bytes, ih, frame.2, List.length_cons]
      ring

theorem bytes_append (frames later : List (PcmFrame fmt)) : bytes (frames ++ later) = bytes frames ++ bytes later := by
  simp [bytes]

theorem samples_append (map : List UInt8) (frames later : List (PcmFrame fmt)) :
    samples map (frames ++ later) = samples map frames ++ samples map later :=
  List.flatMap_append

/-- The samples of a chunk are those of its frames. -/
theorem samplesOf_bytes (map : List UInt8) {frames : List (PcmFrame fmt)} (h : frames.length = chunkSamples) :
    fmt.samplesOf map (bytes frames) = samples map frames := by
  have hsamples : samples map frames = (frames.map Subtype.val).flatMap fun frame =>
      map.flatMap fun ch => slice frame (ch.toNat * fmt.sampleSize) fmt.sampleSize := by
    rw [samples, List.flatMap_map]
  have hlength : ∀ piece ∈ frames.map Subtype.val, piece.length = fmt.bytesPerFrame := by
    intro piece hpiece
    obtain ⟨frame, -, rfl⟩ := List.mem_map.mp hpiece
    exact frame.2
  have hpieces := map_slice_flatten hlength
  rw [List.length_map, h] at hpieces
  rw [hsamples, ← hpieces, List.flatMap_map]
  rfl

theorem length_samples {map : List UInt8} (hmap : ∀ ch ∈ map, ch.toNat < fmt.channels) (frames : List (PcmFrame fmt)) :
    (samples map frames).length = frames.length * map.length * fmt.sampleSize := by
  have hframe : ∀ frame ∈ frames,
      (map.flatMap fun ch => slice frame.1 (ch.toNat * fmt.sampleSize) fmt.sampleSize).length =
        map.length * fmt.sampleSize := by
    intro frame _
    refine CaptureState.length_flatMap_const fun ch hch => ?_
    have hchannel := hmap ch hch
    rw [length_slice, frame.2, fmt.bytesPerFrame_eq, fmt.sampleSize_eq]
    omega
  rw [samples, CaptureState.length_flatMap_const hframe, Nat.mul_assoc]

end PcmFrame

/-- What `snd_pcm_readi` returns. -/
inductive Readi (fmt : CaptureFormat)
  | frames (read : List (PcmFrame fmt))
  /-- `-EAGAIN`. -/
  | again
  /-- `-EPIPE`, and whether `pcm_xrun` has recovered. -/
  | overrun (recovered : Bool)
  /-- `-ESTRPIPE`, and whether `pcm_suspend` has recovered. -/
  | suspended (recovered : Bool)
  | failed

/-- The frames that are read. -/
def Readi.read {fmt : CaptureFormat} : Readi fmt → List (PcmFrame fmt)
  | frames read => read
  | _ => []

/-- A call of `snd_pcm_readi`, and what the thread finds after it. -/
structure ReadCall (fmt : CaptureFormat) where
  returned : Readi fmt
  /-- `running_`. -/
  running : Bool
  /-- Where `save_files` takes the sinks from. -/
  saving : SessionManager
  /-- Where `open_files` takes them from. -/
  opening : SessionManager

/-- What the capture thread has before it between two calls. -/
structure CaptureThread (fmt : CaptureFormat) extends CaptureState fmt where
  /-- The frames that `pcm_read` waits for. -/
  count : ℕ
  /-- Where it puts them. -/
  data : ℕ
  /-- Whether the loop goes on. -/
  looping : Bool
  /-- The streams that `close_files` has found, of every file. -/
  closed : List (UInt8 → List UInt8)

namespace CaptureThread
variable {fmt : CaptureFormat}

/-- The next pass of the loop calls `pcm_read`. -/
def reading (s : CaptureState fmt) (looping : Bool) (closed : List (UInt8 → List UInt8)) : CaptureThread fmt :=
  { s with count := chunkSamples, data := s.bufferOffset * fmt.bytesPerFrame, looping := looping, closed := closed }

/-- The state that `start_capture` leaves the thread. -/
def start (s : CaptureState fmt) (opened : SessionManager) : CaptureThread fmt :=
  reading { s.openFiles opened.getSinks with totalSinkSamples := fun _ => 0 } true []

/-- Frames go into the buffer. -/
def put (t : CaptureThread fmt) (read : List (PcmFrame fmt)) : CaptureThread fmt :=
  { t with
    buffer := (overwrite t.buffer t.data (PcmFrame.bytes read)).take t.buffer.length
    length_buffer := (List.length_take_of_le (CaptureState.le_length_overwrite ..)).trans t.length_buffer }

/-- `count` and `data` after some frames. -/
def advance (t : CaptureThread fmt) (n : ℕ) : CaptureThread fmt :=
  { t with count := t.count - n, data := t.data + n * fmt.bytesPerFrame }

/-- The end of a pass: whether the buffer is full. -/
def turn (t : CaptureThread fmt) (s : CaptureState fmt) (c : ReadCall fmt) : CaptureThread fmt :=
  if s.bufferOffset + chunkSamples > fmt.bufferSamples then
    reading (s.openFiles c.opening.getSinks) c.running (t.closed ++ [s.tmpStreams])
  else reading s c.running t.closed

/-- A pass from where `pcm_read` returns. -/
def saveChunk (t : CaptureThread fmt) (c : ReadCall fmt) : Option (CaptureThread fmt) :=
  (t.toCaptureState.saveFiles c.saving.getSinks).map fun s =>
    t.turn { s with bufferOffset := s.bufferOffset + chunkSamples } c

/-- The thread, from one call of `snd_pcm_readi` to the next.  `none` is a read outside the
buffer, more frames than were asked for, or a call after the end of the loop. -/
def step (t : CaptureThread fmt) (c : ReadCall fmt) : Option (CaptureThread fmt) :=
  if t.looping then
    match c.returned with
    | .frames read =>
        if read.length > t.count then none
        else if read.length < t.count && !c.running then some { t.put read with looping := false }
        else
          let t := (t.put read).advance read.length
          if t.count = 0 then t.saveChunk c else some t
    | .again => some { t with looping := c.running }
    | .overrun recovered => some { t with looping := recovered }
    | .suspended recovered => some { t with looping := recovered }
    | .failed => some { t with looping := false }
  else none

/-- The thread calls `snd_pcm_readi`, which returns at most what it is asked for. -/
def Possible (t : CaptureThread fmt) (c : ReadCall fmt) : Prop :=
  t.looping = true ∧ c.returned.read.length ≤ t.count

/-- The frames of a chunk that are in the buffer. -/
structure Reading (t : CaptureThread fmt) (pending : List (PcmFrame fmt)) : Prop where
  count : pending.length + t.count = chunkSamples
  data : t.data = (t.bufferOffset + pending.length) * fmt.bytesPerFrame
  buffer : slice t.buffer (t.bufferOffset * fmt.bytesPerFrame) (pending.length * fmt.bytesPerFrame) =
    PcmFrame.bytes pending
  fits : t.bufferOffset + chunkSamples ≤ fmt.bufferSamples
  whole : chunkSamples ∣ t.bufferOffset

/-- The files of a sink have its samples of these frames. -/
structure Kept (t : CaptureThread fmt) (id : UInt8) (map : List UInt8) (frames : List (PcmFrame fmt)) : Prop where
  streams : (t.closed.map (· id)).flatten ++ t.tmpStreams id = PcmFrame.samples map frames
  full : ∀ file ∈ t.closed, (file id).length = fmt.bufferSamples * map.length * fmt.sampleSize
  length : (t.tmpStreams id).length = t.bufferOffset * map.length * fmt.sampleSize
  count : t.closed.length * fmt.bufferSamples + t.bufferOffset = frames.length
  room : t.bufferOffset + chunkSamples ≤ fmt.bufferSamples

/-- The frames that were read are those in the files of a sink, and less than a chunk of them. -/
def Follows (t : CaptureThread fmt) (id : UInt8) (map : List UInt8) (heard : List (PcmFrame fmt)) : Prop :=
  ∃ whole pending, heard = whole ++ pending ∧ chunkSamples ∣ whole.length ∧ pending.length < chunkSamples ∧
    t.Kept id map whole ∧ (t.looping = true → t.Reading pending)

instance (t : CaptureThread fmt) (c : ReadCall fmt) : Decidable (t.Possible c) := inferInstanceAs (Decidable (_ ∧ _))

variable {t : CaptureThread fmt} {s : CaptureState fmt} {c : ReadCall fmt} {pending read whole : List (PcmFrame fmt)}

/-! ## A chunk -/

theorem reading_reading {looping : Bool} {closed : List (UInt8 → List UInt8)}
    (hfits : s.bufferOffset + chunkSamples ≤ fmt.bufferSamples) (hwhole : chunkSamples ∣ s.bufferOffset) :
    (reading s looping closed).Reading [] := by
  refine ⟨?_, ?_, ?_, hfits, hwhole⟩
  · simp [reading]
  · simp [reading]
  · simp [slice, PcmFrame.bytes]

/-- Frames that are asked for go behind those of the chunk. -/
theorem Reading.put (H : t.Reading pending) (hread : read.length ≤ t.count) :
    ((t.put read).advance read.length).Reading (pending ++ read) := by
  have hcount := H.count
  have hfits := H.fits
  have hroom : t.data + (PcmFrame.bytes read).length ≤ t.buffer.length := by
    rw [H.data, PcmFrame.length_bytes, t.length_buffer, ← Nat.add_mul]
    apply Nat.mul_le_mul_right
    omega
  have hbuffer : (t.put read).buffer = overwrite t.buffer t.data (PcmFrame.bytes read) :=
    List.take_of_length_le (length_overwrite hroom).le
  refine ⟨?_, ?_, ?_, hfits, H.whole⟩
  · simp only [advance, CaptureThread.put, List.length_append]
    omega
  · simp only [advance, CaptureThread.put, List.length_append, H.data]
    ring
  · simp only [advance, hbuffer, List.length_append, Nat.add_mul pending.length, PcmFrame.bytes_append]
    rw [H.data, Nat.add_mul] at hroom ⊢
    rw [← H.buffer, ← PcmFrame.length_bytes read]
    exact slice_overwrite_append hroom

/-- The samples of a chunk that is complete go to the streams of the sinks. -/
theorem Reading.saves (H : t.Reading pending) (hcount : t.count = 0)
    (hcaptures : ∀ sink ∈ c.saving.getSinks, CaptureState.Captures fmt sink) :
    ∃ s, t.toCaptureState.saveFiles c.saving.getSinks = some s ∧ s.bufferOffset = t.bufferOffset ∧
      ∀ sink ∈ c.saving.getSinks, s.tmpStreams sink.id = t.tmpStreams sink.id ++ PcmFrame.samples sink.map pending := by
  have hlength : pending.length = chunkSamples := by
    have hchunk := H.count
    omega
  have hbytes : (PcmFrame.bytes pending).length = chunkSamples * fmt.bytesPerFrame := by
    rw [PcmFrame.length_bytes, hlength]
  have hroom : t.bufferOffset * fmt.bytesPerFrame + pending.length * fmt.bytesPerFrame ≤ t.buffer.length := by
    rw [t.length_buffer, ← Nat.add_mul, hlength]
    exact Nat.mul_le_mul_right _ H.fits
  -- `pcm_read` has already put the chunk where it belongs
  have hread : t.toCaptureState.read (PcmFrame.bytes pending) = t.toCaptureState := by
    simp only [CaptureState.read, ← H.buffer, overwrite_slice hroom, List.take_length]
  obtain ⟨s', hs', hstreams⟩ : t.toCaptureState.Saves ⟨c.saving, PcmFrame.bytes pending, hbytes⟩ :=
    (CaptureState.saves_iff fun _ => H.fits).mpr hcaptures
  simp only [CaptureState.captureChunk, hread] at hs'
  obtain ⟨s, hsaved, rfl⟩ := Option.map_eq_some_iff.mp hs'
  refine ⟨s, hsaved, (CaptureState.saveFiles_spec c.saving.nodup_getSinks hsaved).2.1, ?_⟩
  intro sink hsink
  rw [← PcmFrame.samplesOf_bytes sink.map hlength]
  exact hstreams sink hsink

theorem Reading.turn (H : t.Reading pending) (hroom : chunkSamples ≤ fmt.bufferSamples)
    (hoffset : s.bufferOffset = t.bufferOffset + chunkSamples) : (t.turn s c).Reading [] := by
  rw [CaptureThread.turn]
  split
  · refine reading_reading ?_ (dvd_zero _)
    simpa [CaptureState.openFiles] using hroom
  · rename_i hmore
    refine reading_reading (not_lt.mp hmore) ?_
    rw [hoffset]
    exact Nat.dvd_add H.whole (dvd_refl _)

/-- The files of a sink after a chunk has been saved. -/
theorem Kept.turn {id : UInt8} {map : List UInt8} (K : t.Kept id map whole) (H : t.Reading pending)
    (hoffset : s.bufferOffset = t.bufferOffset + chunkSamples)
    (hstream : s.tmpStreams id = t.tmpStreams id ++ PcmFrame.samples map pending)
    (hpending : pending.length = chunkSamples)
    (hlength : (PcmFrame.samples map pending).length = chunkSamples * map.length * fmt.sampleSize)
    (hopening : CaptureState.HasSink c.opening id map) : (t.turn s c).Kept id map (whole ++ pending) := by
  have hlong : (s.tmpStreams id).length = s.bufferOffset * map.length * fmt.sampleSize := by
    rw [hstream, List.length_append, K.length, hlength, hoffset]
    ring
  have hall : (t.closed.map (· id)).flatten ++ s.tmpStreams id = PcmFrame.samples map (whole ++ pending) := by
    rw [hstream, ← List.append_assoc, K.streams, PcmFrame.samples_append]
  have hcount : t.closed.length * fmt.bufferSamples + s.bufferOffset = (whole ++ pending).length := by
    rw [List.length_append, hpending, hoffset, ← K.count, Nat.add_assoc]
  rw [CaptureThread.turn]
  split
  · rename_i hfull
    obtain ⟨sink, hsink, rfl, -⟩ := hopening
    have hnone : (s.openFiles c.opening.getSinks).tmpStreams sink.id = [] := if_pos ⟨sink, hsink, rfl⟩
    have hend : s.bufferOffset = fmt.bufferSamples := by
      obtain ⟨k, hk⟩ := H.whole
      obtain ⟨n, hn⟩ := fmt.chunkSamples_dvd
      have hfits := H.fits
      simp only [chunkSamples] at *
      omega
    have hempty : (s.openFiles c.opening.getSinks).bufferOffset = 0 := rfl
    refine ⟨?_, ?_, ?_, ?_, ?_⟩
    · simpa [reading, hnone] using hall
    · intro file hfile
      obtain hfile | rfl : file ∈ t.closed ∨ file = s.tmpStreams := by simpa [reading] using hfile
      · exact K.full file hfile
      · rw [hlong, hend]
    · simp [reading, hnone, hempty]
    · rw [← hcount, hend]
      simp only [reading, hempty, List.length_append, List.length_singleton]
      ring
    · simpa [reading, hempty] using Nat.le_of_add_left_le H.fits
  · rename_i hmore
    exact ⟨hall, K.full, hlong, hcount, not_lt.mp hmore⟩

/-! ## The thread -/

section follows
variable {id : UInt8} {map : List UInt8} {heard : List (PcmFrame fmt)}

/-- Without frames nothing changes, but perhaps that the loop ends. -/
theorem Follows.goOn (H : t.Follows id map heard) (hloop : t.looping = true) (looping : Bool) :
    ({ t with looping := looping } : CaptureThread fmt).Follows id map heard := by
  obtain ⟨whole, pending, hheard, hwhole, hpending, K, hreading⟩ := H
  have R := hreading hloop
  exact ⟨whole, pending, hheard, hwhole, hpending, ⟨K.streams, K.full, K.length, K.count, K.room⟩,
    fun _ => ⟨R.count, R.data, R.buffer, R.fits, R.whole⟩⟩

/-- **Every frame that is read goes to the files of a sink, once and in its place.** -/
theorem Follows.step (H : t.Follows id map heard) (hroom : chunkSamples ≤ fmt.bufferSamples) (hpossible : t.Possible c)
    (hcaptures : ∀ sink ∈ c.saving.getSinks, CaptureState.Captures fmt sink)
    (hsaving : CaptureState.HasSink c.saving id map) (hopening : CaptureState.HasSink c.opening id map) :
    ∃ t', t.step c = some t' ∧ t'.Follows id map (heard ++ c.returned.read) := by
  obtain ⟨hloop, hread⟩ := hpossible
  rw [CaptureThread.step, if_pos hloop]
  cases hreturned : c.returned with
  | again => exact ⟨_, rfl, by simpa [Readi.read] using H.goOn hloop c.running⟩
  | overrun recovered => exact ⟨_, rfl, by simpa [Readi.read] using H.goOn hloop recovered⟩
  | suspended recovered => exact ⟨_, rfl, by simpa [Readi.read] using H.goOn hloop recovered⟩
  | failed => exact ⟨_, rfl, by simpa [Readi.read] using H.goOn hloop false⟩
  | frames read =>
      have hread : read.length ≤ t.count := by simpa [hreturned, Readi.read] using hread
      obtain ⟨whole, pending, rfl, hwhole, hpending, K, hreading⟩ := H
      have R := hreading hloop
      have hcount := R.count
      have R' := R.put hread
      have hcount' := R'.count
      rw [List.length_append] at hcount'
      simp only [Readi.read, gt_iff_lt, if_neg (not_lt.mpr hread)]
      by_cases hshort : (read.length < t.count && !c.running) = true
      · rw [if_pos hshort]
        refine ⟨_, rfl, whole, pending ++ read, List.append_assoc .., hwhole, ?_, ⟨K.streams, K.full, K.length, K.count, K.room⟩, by simp⟩
        have hless : read.length < t.count := by simp_all
        rw [List.length_append]
        omega
      rw [if_neg hshort]
      by_cases hzero : ((t.put read).advance read.length).count = 0
      · -- the chunk is complete
        rw [if_pos hzero]
        obtain ⟨s, hs, hoffset, hstreams⟩ := R'.saves hzero hcaptures
        obtain ⟨sink, hsink, rfl, rfl⟩ := hsaving
        have hlength : (pending ++ read).length = chunkSamples := by
          rw [List.length_append]
          omega
        have hmap : ∀ ch ∈ sink.map, ch.toNat < fmt.channels := fun ch hch => (hcaptures sink hsink ch hch).1
        refine ⟨_, by rw [saveChunk, hs]; rfl, whole ++ (pending ++ read), [], ?_, ?_, Nat.succ_pos _, ?_, fun _ => ?_⟩
        · rw [List.append_nil, List.append_assoc]
        · rw [List.length_append, hlength]
          exact Nat.dvd_add hwhole (dvd_refl _)
        · refine Kept.turn ⟨K.streams, K.full, K.length, K.count, K.room⟩ R' (congrArg (· + chunkSamples) hoffset) (hstreams sink hsink) hlength
            ?_ hopening
          rw [PcmFrame.length_samples hmap, hlength]
        · exact R'.turn hroom (congrArg (· + chunkSamples) hoffset)
      · rw [if_neg hzero]
        refine ⟨_, rfl, whole, pending ++ read, List.append_assoc .., hwhole, ?_, ⟨K.streams, K.full, K.length, K.count, K.room⟩,
          fun _ => R'⟩
        rw [List.length_append]
        omega

theorem Follows.run {calls : List (ReadCall fmt)} (H : t.Follows id map heard) (hroom : chunkSamples ≤ fmt.bufferSamples)
    (hpossible : Along CaptureThread.step Possible t calls)
    (hcaptures : ∀ c ∈ calls, ∀ sink ∈ c.saving.getSinks, CaptureState.Captures fmt sink)
    (hthere : ∀ c ∈ calls, CaptureState.HasSink c.saving id map ∧ CaptureState.HasSink c.opening id map) :
    ∃ t', Aes67Daemon.run CaptureThread.step t calls = some t' ∧
      t'.Follows id map (heard ++ calls.flatMap fun c => c.returned.read) := by
  induction calls generalizing t heard with
  | nil => exact ⟨t, rfl, by simpa using H⟩
  | cons c calls ih =>
      rw [List.forall_mem_cons] at hcaptures hthere
      obtain ⟨t₁, hstep, H₁⟩ := H.step hroom hpossible.1 hcaptures.1 hthere.1.1 hthere.1.2
      obtain ⟨t', hrun, H'⟩ := ih H₁ (hpossible.2 t₁ hstep) hcaptures.2 hthere.2
      refine ⟨t', ?_, ?_⟩
      · rw [run_cons, hstep]
        exact hrun
      · rwa [List.flatMap_cons, ← List.append_assoc]

end follows

theorem follows_start (s : CaptureState fmt) {opened : SessionManager} {id : UInt8} {map : List UInt8}
    (hroom : chunkSamples ≤ fmt.bufferSamples) (hopened : CaptureState.HasSink opened id map) :
    (start s opened).Follows id map [] := by
  obtain ⟨sink, hsink, rfl, -⟩ := hopened
  have hnone : (s.openFiles opened.getSinks).tmpStreams sink.id = [] := if_pos ⟨sink, hsink, rfl⟩
  have hempty : (s.openFiles opened.getSinks).bufferOffset = 0 := rfl
  refine ⟨[], [], rfl, dvd_zero _, Nat.succ_pos _, ⟨?_, by simp [start, reading], ?_, ?_, ?_⟩,
    fun _ => reading_reading ?_ (dvd_zero _)⟩
  · simpa [start, reading, PcmFrame.samples] using hnone
  · simp [start, reading, hnone, hempty]
  · simp [start, reading, hempty]
  · simpa [start, reading, hempty] using hroom
  · simpa [CaptureState.openFiles] using hroom

/-- **However the device cuts up the frames, and whatever overruns and suspends come between,
the files of a sink that is there all along have its samples of all whole chunks, each sample
once and in order; a file is closed when it is full, and then the next one is opened.** -/
theorem streams_whole (s : CaptureState fmt) (opened : SessionManager) (calls : List (ReadCall fmt))
    (hroom : chunkSamples ≤ fmt.bufferSamples) (hpossible : Along step Possible (start s opened) calls)
    (hcaptures : ∀ c ∈ calls, ∀ sink ∈ c.saving.getSinks, CaptureState.Captures fmt sink) (id : UInt8)
    (map : List UInt8) (hopened : CaptureState.HasSink opened id map)
    (hthere : ∀ c ∈ calls, CaptureState.HasSink c.saving id map ∧ CaptureState.HasSink c.opening id map) :
    ∃ t heard, run step (start s opened) calls = some t ∧ heard = calls.flatMap (fun c => c.returned.read) ∧
      (t.closed.map (· id)).flatten ++ t.tmpStreams id =
        PcmFrame.samples map (heard.take (heard.length / chunkSamples * chunkSamples)) ∧
      t.closed.length = heard.length / fmt.bufferSamples ∧
      ∀ file ∈ t.closed, (file id).length = fmt.bufferSamples * map.length * fmt.sampleSize := by
  obtain ⟨t, hrun, whole, pending, hheard, ⟨k, hk⟩, hpending, K, -⟩ :=
    (follows_start s hroom hopened).run hroom hpossible hcaptures hthere
  rw [List.nil_append] at hheard
  have hclosed : t.closed.length = (whole ++ pending).length / fmt.bufferSamples := by
    have hcount := K.count
    have hmore := K.room
    refine (Nat.div_eq_of_lt_le ?_ ?_).symm <;> rw [List.length_append]
    · omega
    · rw [Nat.succ_mul]
      omega
  refine ⟨t, whole ++ pending, hrun, hheard.symm, ?_, hclosed, K.full⟩
  have htake : (whole ++ pending).length / chunkSamples * chunkSamples = whole.length := by
    rw [List.length_append, hk]
    simp only [chunkSamples] at *
    omega
  rw [htake, List.take_left' rfl]
  exact K.streams

/-! ## A run -/

/-- The thread goes on, and waits for so many frames. -/
def Asks (n : ℕ) (t : CaptureThread fmt) : Prop := t.looping = true ∧ t.count = n

theorem asks_start (s : CaptureState fmt) (opened : SessionManager) : Asks chunkSamples (start s opened) := ⟨rfl, rfl⟩

section asks
variable {calls : List (ReadCall fmt)} {n : ℕ} (ht : Asks n t) (hrunning : c.running = true)
include ht

include hrunning in
/-- A device that has fewer frames is asked for the others. -/
theorem along_short (hread : c.returned.read.length < n) (hframes : c.returned = .frames c.returned.read)
    (hlater : ∀ t : CaptureThread fmt, Asks (n - c.returned.read.length) t → Along step Possible t calls) :
    Along step Possible t (c :: calls) := by
  obtain ⟨hloop, rfl⟩ := ht
  refine along_cons.mpr ⟨⟨hloop, hread.le⟩, fun t' hstep => hlater t' ?_⟩
  have hmore : ¬ ((t.put c.returned.read).advance c.returned.read.length).count = 0 := by
    show ¬ t.count - c.returned.read.length = 0
    omega
  rw [step, if_pos hloop, hframes] at hstep
  simp only [gt_iff_lt, if_neg (not_lt.mpr hread.le), hrunning, Bool.not_true, Bool.and_false, Bool.false_eq_true,
    if_false, hmore, Option.some.injEq] at hstep
  subst hstep
  exact ⟨hloop, rfl⟩

/-- After an overrun from which the device has recovered it is asked again. -/
theorem along_overrun (hoverrun : c.returned = .overrun true)
    (hlater : ∀ t : CaptureThread fmt, Asks n t → Along step Possible t calls) : Along step Possible t (c :: calls) := by
  obtain ⟨hloop, rfl⟩ := ht
  refine along_cons.mpr ⟨⟨hloop, by simp [hoverrun, Readi.read]⟩, fun t' hstep => hlater t' ?_⟩
  rw [step, if_pos hloop, hoverrun] at hstep
  obtain rfl := Option.some.inj hstep
  exact ⟨rfl, rfl⟩

include hrunning in
/-- After a whole chunk the next one is asked for. -/
theorem along_chunk (hread : c.returned.read.length = n) (hframes : c.returned = .frames c.returned.read)
    (hlater : ∀ t : CaptureThread fmt, Asks chunkSamples t → Along step Possible t calls) :
    Along step Possible t (c :: calls) := by
  obtain ⟨hloop, rfl⟩ := ht
  refine along_cons.mpr ⟨⟨hloop, hread.le⟩, fun t' hstep => hlater t' ?_⟩
  rw [step, if_pos hloop, hframes] at hstep
  have hnone : ((t.put c.returned.read).advance c.returned.read.length).count = 0 := by
    show t.count - c.returned.read.length = 0
    omega
  simp only [gt_iff_lt, hread, lt_irrefl, if_false, decide_false, Bool.false_and, Bool.false_eq_true] at hstep
  rw [hread] at hnone
  rw [if_pos hnone, saveChunk] at hstep
  obtain ⟨s, -, rfl⟩ := Option.map_eq_some_iff.mp hstep
  rw [turn]
  split <;> exact ⟨hrunning, rfl⟩

include hrunning in
/-- And so for any number of chunks. -/
theorem along_chunks (hread : c.returned.read.length = chunkSamples) (hframes : c.returned = .frames c.returned.read)
    (hn : n = chunkSamples) (k : ℕ)
    (hlater : ∀ t : CaptureThread fmt, Asks chunkSamples t → Along step Possible t calls) :
    Along step Possible t (List.replicate k c ++ calls) := by
  subst hn
  induction k generalizing t with
  | zero => exact hlater t ht
  | succ k ih => exact along_chunk ht hrunning hread hframes fun t' ht' => ih ht'

end asks

/-- A frame whose channels have different samples. -/
def tone : PcmFrame CaptureState.defaultFormat := ⟨(List.range 16).map UInt8.ofNat, rfl⟩

/-- A read of some frames while the sink is there. -/
def readTones (n : ℕ) (running : Bool) : ReadCall CaptureState.defaultFormat :=
  ⟨.frames (List.replicate n tone), running, CaptureState.oneSink 7, CaptureState.oneSink 7⟩

theorem length_readTones (n : ℕ) (running : Bool) : (readTones n running).returned.read.length = n :=
  List.length_replicate

/-- A chunk with an overrun in it, seven chunks in one piece each, and some frames more before the capture
is stopped. -/
def cutOff : List (ReadCall CaptureState.defaultFormat) :=
  readTones 144 true :: ⟨.overrun true, true, CaptureState.oneSink 7, CaptureState.oneSink 7⟩ ::
    readTones 6000 true :: (List.replicate 7 (readTones chunkSamples true) ++ [readTones 10 false])

theorem possible_cutOff : Along step Possible (start CaptureState.blank (CaptureState.oneSink 7)) cutOff := by
  refine along_short (asks_start _ _) rfl (by rw [length_readTones]; decide) rfl fun t ht => ?_
  refine along_overrun ht rfl fun t ht => ?_
  refine along_chunk ht rfl (by rw [length_readTones, length_readTones]; rfl) rfl fun t ht => ?_
  refine along_chunks ht rfl (length_readTones ..) rfl rfl 7 fun t ht => ⟨⟨ht.1, ?_⟩, fun _ _ => trivial⟩
  rw [length_readTones, ht.2]
  decide

theorem read_cutOff : cutOff.flatMap (fun c => c.returned.read) = List.replicate (8 * chunkSamples + 10) tone := by
  have hchunks : (List.replicate 7 (readTones chunkSamples true)).flatMap (fun c => c.returned.read) =
      List.replicate (7 * chunkSamples) tone := by
    rw [List.flatMap_replicate]
    exact List.flatten_replicate_replicate
  rw [cutOff, List.flatMap_cons, List.flatMap_cons, List.flatMap_cons, List.flatMap_append, hchunks]
  simp only [readTones, Readi.read, List.nil_append, List.flatMap_cons, List.flatMap_nil, List.append_nil,
    List.replicate_append_replicate]
  rfl

theorem samples_replicate (map : List UInt8) (n : ℕ) : PcmFrame.samples map (List.replicate n tone) =
    (List.replicate n (PcmFrame.samples map [tone])).flatten := by
  simp [PcmFrame.samples, List.flatMap_replicate]

/-- Eight chunks are recorded; the first seven fill a file, which is closed. -/
theorem streams_whole_cutOff : ∃ t, run step (start CaptureState.blank (CaptureState.oneSink 7)) cutOff = some t ∧
    (t.closed.map (· 0)).flatten ++ t.tmpStreams 0 = (List.replicate (8 * chunkSamples) [14, 15]).flatten ∧
    t.closed.length = 1 ∧ ∀ file ∈ t.closed, (file 0).length = 7 * chunkSamples * 2 := by
  have hsink : CaptureState.HasSink (CaptureState.oneSink 7) 0 [7] := ⟨_, List.mem_cons_self, rfl, rfl⟩
  have hcaptures : ∀ sink ∈ (CaptureState.oneSink 7).getSinks, CaptureState.Captures CaptureState.defaultFormat sink := by
    intro sink hsink ch hch
    obtain rfl := List.mem_singleton.mp hsink
    obtain rfl := List.mem_singleton.mp hch
    exact ⟨by decide, by decide⟩
  have hsame : ∀ c ∈ cutOff, c.saving = CaptureState.oneSink 7 ∧ c.opening = CaptureState.oneSink 7 := by
    intro c hc
    simp only [cutOff, List.mem_cons, List.mem_append, List.mem_replicate, List.not_mem_nil, or_false] at hc
    rcases hc with rfl | rfl | rfl | ⟨-, rfl⟩ | rfl <;> exact ⟨rfl, rfl⟩
  obtain ⟨t, _, hrun, rfl, hstreams, hclosed, hfull⟩ := streams_whole CaptureState.blank (CaptureState.oneSink 7)
    cutOff (by decide) possible_cutOff (fun c hc => (hsame c hc).1 ▸ hcaptures) 0 [7] hsink
    fun c hc => (hsame c hc).1.symm ▸ (hsame c hc).2.symm ▸ ⟨hsink, hsink⟩
  rw [read_cutOff, List.length_replicate] at hstreams hclosed
  refine ⟨t, hrun, ?_, hclosed, hfull⟩
  have htake : (8 * chunkSamples + 10) / chunkSamples * chunkSamples = 8 * chunkSamples := by decide
  rw [hstreams, htake, List.take_replicate, samples_replicate]
  rfl

end CaptureThread
end Aes67Daemon
