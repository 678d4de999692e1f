import Aes67Daemon.Streamer.Samples
import Mathlib.Tactic.Linarith

/-!
# The encoding of a file

At the end of a file `close_files` hands the stream of each sink to the encoder, a block of
`codec_in_samples` at a time and what is left at last.  The place in the stream it keeps in 32
bits, and what is left in 16; the output buffer it makes as large as the blocks need, in 32
bits again.

`SinkEncoder.blocks` are the calls of the encoder where nothing of that is lost: a file is a
whole number of blocks, so that the last call is for a block as well.

## Main definitions

* `SinkEncoder.encode` — the loop, with what the encoder returns at each call.
* `SinkEncoder.Encoded`, `SinkEncoder.Encodes` — the loop has consumed the file, and it does with
  every encoder.
* `SinkEncoder.encodes_iff` — the sizes for which it does.
-/
namespace Aes67Daemon

/-- What the task of a sink has to go by; there is no encoder for no channels. -/
structure SinkEncoder (fmt : CaptureFormat) where
  session : SessionManager
  sink : StreamSink
  found : sink ∈ session.getSinks
  channels_pos : 0 < sink.map.length
  codecOutBufferSize : UInt64

/-- A call of `faacEncEncode`: where its input starts, how many samples it has, and what the
encoder returns. -/
structure EncodeCall where
  position : ℕ
  samples : ℕ
  ret : ℤ

structure EncodeState where
  inSamples : ℕ := 0
  outLen : ℕ := 0
  /-- The calls so far, in turn. -/
  calls : List EncodeCall := []

/-- How the loop ends. -/
inductive EncodeResult
  | failed
  | done (s : EncodeState)

namespace SinkEncoder
variable {fmt : CaptureFormat}

/-- `map.size()`. -/
def channels (e : SinkEncoder fmt) : ℕ := e.sink.map.length

/-- `codec_in_samples`: a frame of the codec has 1024 samples of a channel. -/
def codecInSamples (e : SinkEncoder fmt) : ℕ := 1024 * e.channels

/-- The samples of the file. -/
def total (e : SinkEncoder fmt) : ℕ := fmt.bufferSamples * e.channels % 2 ^ 64

/-- `out_size`. -/
def outSize (e : SinkEncoder fmt) : ℕ :=
  e.codecOutBufferSize.toNat * fmt.bufferSamples % 2 ^ 64 * e.channels % 2 ^ 64 / e.codecInSamples % 2 ^ 32

/-- A call of the encoder, and the counters behind it. -/
def call (fmt : CaptureFormat) (s : EncodeState) (samples : ℕ) (ret : ℤ) : EncodeState where
  inSamples := (s.inSamples + samples) % 2 ^ 32
  outLen := ((s.outLen + ret) % 2 ^ 32).toNat
  calls := s.calls ++ [⟨s.inSamples * fmt.sampleSize % 2 ^ 32, samples, ret⟩]

/-- The loop of `close_files`, for an encoder that returns `ret k` at its `k`-th call; `none` is a
loop that goes on. -/
def encode (e : SinkEncoder fmt) (ret : ℕ → ℤ) : ℕ → EncodeState → Option EncodeResult
  | 0, _ => none
  | fuel + 1, s =>
    if e.total ≤ (s.inSamples + e.codecInSamples) % 2 ^ 64 then
      -- the difference is an `uint16_t`
      if ret s.calls.length < 0 then some .failed
      else some (.done (call fmt s ((e.total + 2 ^ 64 - s.inSamples) % 2 ^ 16) (ret s.calls.length)))
    else if ret s.calls.length < 0 then some .failed
    else e.encode ret fuel (call fmt s e.codecInSamples (ret s.calls.length))

/-- What an encoder may return: the bytes that it has written, an `int`. -/
def Returns (e : SinkEncoder fmt) (ret : ℕ → ℤ) : Prop :=
  ∀ k, 0 ≤ ret k ∧ ret k ≤ e.codecOutBufferSize.toNat ∧ ret k < 2 ^ 31

/-- The file is encoded: all samples have been handed to the encoder in blocks, from places in the
stream, and what it has written has its place as well. -/
structure Encoded (e : SinkEncoder fmt) (s : EncodeState) : Prop where
  consumed : (s.calls.map EncodeCall.samples).sum = fmt.bufferSamples * e.channels
  bounded : ∀ c ∈ s.calls, c.samples ≤ e.codecInSamples
  inside : ∀ c ∈ s.calls,
    c.position + c.samples * fmt.sampleSize ≤ fmt.bufferSamples * e.channels * fmt.sampleSize
  written : (s.calls.map EncodeCall.ret).sum ≤ e.outSize

/-- The loop comes to an end, with the file encoded. -/
def Encodes (e : SinkEncoder fmt) : Prop :=
  ∀ ret, e.Returns ret → ∃ fuel s, e.encode ret fuel {} = some (.done s) ∧ e.Encoded s

/-- A block fits the 16 bits, the last place in the stream 32, and the output 32; or there is
nothing to encode and nothing comes out. -/
def Fits (e : SinkEncoder fmt) : Prop :=
  chunkSamples ≤ fmt.bufferSamples ∧ e.channels ≤ 63 ∧
      fmt.bufferSamples * e.channels - e.codecInSamples < 2 ^ 32 ∧
      e.codecOutBufferSize.toNat * (fmt.bufferSamples / 1024) < 2 ^ 32 ∨
    fmt.bufferSamples = 0 ∧ e.codecOutBufferSize = 0

/-! ## The calls -/

/-- The calls from the `k`-th on, with `j` of them before the last. -/
def blocks (e : SinkEncoder fmt) (ret : ℕ → ℤ) : ℕ → ℕ → List EncodeCall
  | k, 0 => [⟨k * e.codecInSamples * fmt.sampleSize % 2 ^ 32, e.codecInSamples % 2 ^ 16, ret k⟩]
  | k, j + 1 => ⟨k * e.codecInSamples * fmt.sampleSize % 2 ^ 32, e.codecInSamples, ret k⟩ :: e.blocks ret (k + 1) j

variable {e : SinkEncoder fmt} {ret : ℕ → ℤ}

theorem channels_le (e : SinkEncoder fmt) : e.channels ≤ 255 := by
  obtain ⟨entry, -, hsink⟩ := List.mem_map.mp e.found
  have hlt := entry.2.stream.leg0.byNbOfChannels.toNat_lt
  rw [channels, ← hsink]
  simp only [SessionManager.getSink_, SessionManager.channelMap, List.length_map, List.length_take]
  omega

theorem sum_samples_blocks (k j : ℕ) : ((e.blocks ret k j).map EncodeCall.samples).sum =
    j * e.codecInSamples + e.codecInSamples % 2 ^ 16 := by
  induction j generalizing k with
  | zero => simp [blocks]
  | succ j ih =>
      rw [blocks, List.map_cons, List.sum_cons, ih, Nat.succ_mul]
      dsimp only
      omega

theorem sum_ret_blocks_le (h : e.Returns ret) (k j : ℕ) :
    ((e.blocks ret k j).map EncodeCall.ret).sum ≤ (j + 1 : ℕ) * e.codecOutBufferSize.toNat := by
  have hret := (h k).2.1
  induction j generalizing k with
  | zero => simpa [blocks] using hret
  | succ j ih =>
      have hrest := ih (k + 1) (h (k + 1)).2.1
      rw [blocks, List.map_cons, List.sum_cons]
      push_cast at hrest ⊢
      linarith

/-- An encoder that returns the same every time. -/
theorem sum_ret_blocks (r : ℤ) (k j : ℕ) :
    ((e.blocks (fun _ => r) k j).map EncodeCall.ret).sum = (j + 1 : ℕ) * r := by
  induction j generalizing k with
  | zero => simp [blocks]
  | succ j ih =>
      rw [blocks, List.map_cons, List.sum_cons, ih]
      push_cast
      ring

/-- The place of a block is not behind the last one. -/
theorem place_le (fmt : CaptureFormat) {block i last samples : ℕ} (hi : i ≤ last) (hle : samples ≤ block) :
    i * block * fmt.sampleSize % 2 ^ 32 + samples * fmt.sampleSize ≤ (last + 1) * block * fmt.sampleSize :=
  calc i * block * fmt.sampleSize % 2 ^ 32 + samples * fmt.sampleSize
      ≤ i * block * fmt.sampleSize + block * fmt.sampleSize :=
        Nat.add_le_add (Nat.mod_le _ _) (Nat.mul_le_mul_right _ hle)
    _ = (i + 1) * block * fmt.sampleSize := by ring
    _ ≤ (last + 1) * block * fmt.sampleSize := by gcongr

/-- No call is for more than a block, nor for anything behind the last one. -/
theorem blocks_inside (k j : ℕ) : ∀ c ∈ e.blocks ret k j, c.samples ≤ e.codecInSamples ∧
    c.position + c.samples * fmt.sampleSize ≤ (k + j + 1) * e.codecInSamples * fmt.sampleSize := by
  induction j generalizing k with
  | zero =>
      intro c hc
      obtain rfl := List.mem_singleton.mp hc
      exact ⟨Nat.mod_le _ _, place_le fmt (Nat.le_add_right k 0) (Nat.mod_le _ _)⟩
  | succ j ih =>
      rw [blocks, List.forall_mem_cons]
      refine ⟨⟨le_rfl, place_le fmt (Nat.le_add_right k (j + 1)) le_rfl⟩, ?_⟩
      have hrest := ih (k + 1)
      rwa [Nat.add_right_comm k 1 j] at hrest

/-! ## The loop -/

/-- A file is a whole number of blocks. -/
theorem total_eq (e : SinkEncoder fmt) : e.total = fmt.bufferSamples / 1024 * e.codecInSamples ∧
    fmt.bufferSamples * e.channels = fmt.bufferSamples / 1024 * e.codecInSamples := by
  have hdvd : 1024 ∣ fmt.bufferSamples := (show 1024 ∣ chunkSamples by decide).trans fmt.chunkSamples_dvd
  have hwhole : fmt.bufferSamples * e.channels = fmt.bufferSamples / 1024 * e.codecInSamples := by
    rw [codecInSamples, ← Nat.mul_assoc, Nat.div_mul_cancel hdvd]
  have hsamples : fmt.bufferSamples < 2 ^ 32 :=
    (Nat.div_mul_le_self _ _).trans_lt (fmt.rate * fmt.fileDuration.toUInt32).toNat_lt
  have hlt : fmt.bufferSamples * e.channels < 2 ^ 64 :=
    calc fmt.bufferSamples * e.channels ≤ 2 ^ 32 * 255 := Nat.mul_le_mul hsamples.le e.channels_le
      _ < 2 ^ 64 := by decide
  exact ⟨(Nat.mod_eq_of_lt hlt).trans hwhole, hwhole⟩

theorem codecInSamples_le (e : SinkEncoder fmt) : 0 < e.codecInSamples ∧ e.codecInSamples ≤ 261120 := by
  have hpos : 0 < e.channels := e.channels_pos
  have hle := e.channels_le
  unfold codecInSamples
  omega

/-- One result at most. -/
theorem encode_unique {fuel fuel' : ℕ} {s : EncodeState} {r r' : EncodeResult} (h : e.encode ret fuel s = some r)
    (h' : e.encode ret fuel' s = some r') : r = r' := by
  induction fuel generalizing fuel' s with
  | zero => cases h
  | succ fuel ih =>
      cases fuel' with
      | zero => cases h'
      | succ fuel' =>
          rw [encode] at h h'
          split at h
          · rename_i hlast
            rw [if_pos hlast] at h'
            exact Option.some.inj (h.symm.trans h')
          · rename_i hlast
            rw [if_neg hlast] at h'
            split at h
            · rename_i hfail
              rw [if_pos hfail] at h'
              exact Option.some.inj (h.symm.trans h')
            · rename_i hfail
              rw [if_neg hfail] at h'
              exact ih h h'

/-- The calls of the encoder where the last place in the stream fits 32 bits. -/
theorem encode_blocks (hret : e.Returns ret) {j : ℕ} {s : EncodeState} {k : ℕ} (hcalls : s.calls.length = k)
    (hplace : s.inSamples = k * e.codecInSamples) (htotal : e.total = (k + j + 1) * e.codecInSamples)
    (hfits : (k + j) * e.codecInSamples < 2 ^ 32) :
    ∃ s', e.encode ret (j + 1) s = some (.done s') ∧ s'.calls = s.calls ++ e.blocks ret k j := by
  obtain ⟨hpos, hsmall⟩ := e.codecInSamples_le
  induction j generalizing s k with
  | zero =>
      rw [Nat.add_zero] at htotal hfits
      rw [Nat.succ_mul] at htotal
      have hlast : e.total ≤ (s.inSamples + e.codecInSamples) % 2 ^ 64 := by
        rw [Nat.mod_eq_of_lt (by omega), hplace, htotal]
      have hrest : (e.total + 2 ^ 64 - s.inSamples) % 2 ^ 16 = e.codecInSamples % 2 ^ 16 := by omega
      rw [encode, if_pos hlast, if_neg (not_lt.mpr (hret _).1), hrest]
      refine ⟨_, rfl, ?_⟩
      rw [call, hcalls, hplace, blocks]
  | succ j ih =>
      have hnext : (k + 1) * e.codecInSamples = k * e.codecInSamples + e.codecInSamples := Nat.succ_mul ..
      have hlater : (k + 1) * e.codecInSamples ≤ (k + (j + 1)) * e.codecInSamples := Nat.mul_le_mul_right _ (by omega)
      rw [Nat.succ_mul] at htotal
      have hmore : ¬ e.total ≤ (s.inSamples + e.codecInSamples) % 2 ^ 64 := by
        rw [Nat.mod_eq_of_lt (by omega)]
        omega
      rw [encode, if_neg hmore, if_neg (not_lt.mpr (hret _).1)]
      have hplace' : (call fmt s e.codecInSamples (ret s.calls.length)).inSamples = (k + 1) * e.codecInSamples := by
        rw [call, hplace, hnext]
        exact Nat.mod_eq_of_lt (by omega)
      have htotal' : e.total = (k + 1 + j + 1) * e.codecInSamples := by
        rw [htotal, Nat.succ_mul, Nat.add_right_comm k 1 j, Nat.add_assoc k j 1]
      obtain ⟨s', hs', hcalls'⟩ := ih (by simp [call, hcalls]) hplace' htotal'
        (by rwa [Nat.add_right_comm k 1 j, Nat.add_assoc k j 1])
      refine ⟨s', hs', ?_⟩
      rw [hcalls', call, hcalls, hplace, blocks, List.append_assoc, List.singleton_append]

/-- Where the last place in the stream does not fit 32 bits the loop does not come to it. -/
theorem encode_eq_none (hret : e.Returns ret) (hbehind : 2 ^ 32 + e.codecInSamples ≤ e.total) (fuel : ℕ)
    {s : EncodeState} (hplace : s.inSamples < 2 ^ 32) : e.encode ret fuel s = none := by
  obtain ⟨-, hsmall⟩ := e.codecInSamples_le
  induction fuel generalizing s with
  | zero => rfl
  | succ fuel ih =>
      have hmore : ¬ e.total ≤ (s.inSamples + e.codecInSamples) % 2 ^ 64 := by
        rw [Nat.mod_eq_of_lt (by omega)]
        omega
      rw [encode, if_neg hmore, if_neg (not_lt.mpr (hret _).1)]
      exact ih (Nat.mod_lt _ (by decide))

/-! ## A file -/

/-- The output buffer has room for what the blocks need, if that fits 32 bits. -/
theorem outSize_eq (hfits : e.codecOutBufferSize.toNat * (fmt.bufferSamples / 1024) < 2 ^ 32) :
    e.outSize = e.codecOutBufferSize.toNat * (fmt.bufferSamples / 1024) := by
  obtain ⟨hpos, hsmall⟩ := e.codecInSamples_le
  obtain ⟨-, hwhole⟩ := e.total_eq
  have hdvd : fmt.bufferSamples / 1024 * 1024 = fmt.bufferSamples :=
    Nat.div_mul_cancel ((show 1024 ∣ chunkSamples by decide).trans fmt.chunkSamples_dvd)
  have hbuffer : e.codecOutBufferSize.toNat * fmt.bufferSamples =
      e.codecOutBufferSize.toNat * (fmt.bufferSamples / 1024) * 1024 := by
    rw [Nat.mul_assoc, hdvd]
  have hall : e.codecOutBufferSize.toNat * fmt.bufferSamples * e.channels =
      e.codecOutBufferSize.toNat * (fmt.bufferSamples / 1024) * e.codecInSamples := by
    rw [Nat.mul_assoc, hwhole, Nat.mul_assoc]
  have hlt : e.codecOutBufferSize.toNat * (fmt.bufferSamples / 1024) * e.codecInSamples ≤ 2 ^ 32 * 261120 :=
    Nat.mul_le_mul hfits.le hsmall
  rw [outSize, Nat.mod_eq_of_lt (show e.codecOutBufferSize.toNat * fmt.bufferSamples < 2 ^ 64 by omega), hall,
    Nat.mod_eq_of_lt (hlt.trans_lt (by decide)), Nat.mul_div_cancel _ hpos, Nat.mod_eq_of_lt hfits]

theorem returns_const {r : ℤ} (hpos : 0 ≤ r) (hle : r ≤ e.codecOutBufferSize.toNat) (hint : r < 2 ^ 31) :
    e.Returns fun _ => r :=
  fun _ => ⟨hpos, hle, hint⟩

/-- With nothing to encode the encoder is called once. -/
theorem encodes_empty (hempty : fmt.bufferSamples = 0) : e.Encodes ↔ e.codecOutBufferSize = 0 := by
  have htotal : e.total = 0 := by rw [total, hempty, Nat.zero_mul, Nat.zero_mod]
  have hsize : e.outSize = 0 := by simp [outSize, hempty]
  have hencode : ∀ ret, e.Returns ret → e.encode ret 1 {} = some (.done (call fmt {} 0 (ret 0))) := by
    intro ret hret
    rw [encode, htotal, if_pos (Nat.zero_le _), if_neg (not_lt.mpr (hret _).1)]
    rfl
  constructor
  · intro H
    by_contra hout
    have hpos : 0 < e.codecOutBufferSize.toNat := Nat.pos_of_ne_zero fun h => hout (UInt64.toNat_inj.mp h)
    have hret : e.Returns fun _ => 1 := returns_const (by decide) (by omega) (by decide)
    obtain ⟨fuel, s, hs, E⟩ := H _ hret
    obtain rfl : s = _ := EncodeResult.done.inj (encode_unique hs (hencode _ hret))
    have hwritten := E.written
    simp [call, hsize] at hwritten
  · intro hout ret hret
    refine ⟨1, _, hencode ret hret, ?_⟩
    have hzero : ret 0 ≤ 0 := by simpa [hout] using (hret 0).2.1
    exact ⟨by simp [call, hempty], by simp [call], by simp [call], by simpa [call, hsize] using hzero⟩

/-- A file with something in it. -/
theorem encodes_nonempty (hroom : chunkSamples ≤ fmt.bufferSamples) : e.Encodes ↔ e.channels ≤ 63 ∧
    fmt.bufferSamples * e.channels - e.codecInSamples < 2 ^ 32 ∧
    e.codecOutBufferSize.toNat * (fmt.bufferSamples / 1024) < 2 ^ 32 := by
  obtain ⟨hblock, -⟩ := e.codecInSamples_le
  obtain ⟨htotal, hwhole⟩ := e.total_eq
  obtain ⟨j, hj⟩ : ∃ j, fmt.bufferSamples / 1024 = j + 1 :=
    Nat.exists_eq_add_of_le' ((Nat.one_le_div_iff (by decide)).mpr ((show 1024 ≤ chunkSamples by decide).trans hroom))
  have hmany : 6 ≤ j + 1 := by
    rw [← hj]
    exact (Nat.le_div_iff_mul_le (by decide)).mpr hroom
  rw [hj, Nat.succ_mul] at htotal hwhole
  rw [hwhole, Nat.add_sub_cancel, hj]
  constructor
  · intro H
    have hplace : j * e.codecInSamples < 2 ^ 32 := by
      by_contra hbehind
      have hret : e.Returns fun _ => 0 := returns_const le_rfl (by omega) (by decide)
      obtain ⟨fuel, s, hs, -⟩ := H _ hret
      rw [encode_eq_none hret (by omega) fuel (by decide)] at hs
      cases hs
    -- an encoder that writes as much as it may
    have hret : e.Returns fun _ => min (e.codecOutBufferSize.toNat : ℤ) (2 ^ 31 - 1) :=
      returns_const (by omega) (by omega) (by omega)
    obtain ⟨fuel, s, hs, E⟩ := H _ hret
    obtain ⟨s', hs', hcalls⟩ := encode_blocks (k := 0) (j := j) hret (s := {}) rfl (Nat.zero_mul _).symm
      (by rw [htotal, Nat.zero_add, Nat.succ_mul]) (by rwa [Nat.zero_add])
    obtain rfl := EncodeResult.done.inj (encode_unique hs hs')
    have hconsumed := E.consumed
    have hwritten := E.written
    rw [hcalls, List.nil_append] at hconsumed hwritten
    rw [sum_samples_blocks, hwhole] at hconsumed
    rw [sum_ret_blocks] at hwritten
    have hsize : e.outSize < 2 ^ 32 := Nat.mod_lt _ (by decide)
    refine ⟨?_, hplace, ?_⟩
    · unfold codecInSamples at hconsumed
      omega
    · rcases le_total (e.codecOutBufferSize.toNat : ℤ) (2 ^ 31 - 1) with hsmall | hlarge
      · rw [min_eq_left hsmall] at hwritten
        rw [Nat.mul_comm]
        have hlt : ((j + 1 : ℕ) : ℤ) * e.codecOutBufferSize.toNat < (2 ^ 32 : ℕ) :=
          hwritten.trans_lt (Int.ofNat_lt.mpr hsize)
        exact_mod_cast hlt
      · rw [min_eq_right hlarge] at hwritten
        have hsix : 6 * (2 ^ 31 - 1) ≤ ((j + 1 : ℕ) : ℤ) * (2 ^ 31 - 1) :=
          mul_le_mul_of_nonneg_right (by exact_mod_cast hmany) (by decide)
        omega
  · rintro ⟨hchannels, hplace, hout⟩ ret hret
    obtain ⟨s', hs', hcalls⟩ := encode_blocks (k := 0) (j := j) hret (s := {}) rfl (Nat.zero_mul _).symm
      (by rw [htotal, Nat.zero_add, Nat.succ_mul]) (by rwa [Nat.zero_add])
    rw [List.nil_append] at hcalls
    have hinside : ∀ c ∈ e.blocks ret 0 j, _ := blocks_inside 0 j
    refine ⟨j + 1, s', hs', ?_, fun c hc => ?_, fun c hc => ?_, ?_⟩
    · have hfits : e.codecInSamples < 2 ^ 16 := by
        unfold codecInSamples
        omega
      rw [hcalls, sum_samples_blocks, Nat.mod_eq_of_lt hfits, hwhole]
    · exact (hinside c (hcalls ▸ hc)).1
    · rw [hwhole, ← Nat.succ_mul]
      have hplace := (hinside c (hcalls ▸ hc)).2
      rwa [Nat.zero_add] at hplace
    · rw [hcalls, outSize_eq (hj ▸ hout), hj, Nat.mul_comm]
      exact_mod_cast sum_ret_blocks_le hret 0 j

/-- **The encoder consumes the whole file exactly when its sizes fit**: a block the 16 bits of the
remainder, the place of the last block and the whole output 32 bits. -/
theorem encodes_iff (e : SinkEncoder fmt) : e.Encodes ↔ e.Fits := by
  unfold Fits
  rcases Nat.eq_zero_or_pos fmt.bufferSamples with hempty | hpos
  · rw [encodes_empty hempty]
    simp [hempty, chunkSamples]
  · have hroom : chunkSamples ≤ fmt.bufferSamples := Nat.le_of_dvd hpos fmt.chunkSamples_dvd
    rw [encodes_nonempty hroom, or_iff_left fun h => hpos.ne' h.1, and_iff_right hroom]

/-- A sink of 64 channels. -/
def wideInfo : StreamInfo :=
  { stream := ⟨{ byNbOfChannels := 64, aui32Routing := List.replicate 64 0 }, {}⟩ }

/-- Its encoder, with the buffer that 64 channels need. -/
def wide : SinkEncoder CaptureState.defaultFormat where
  session := { sinks := .insert .empty 0 wideInfo }
  sink := SessionManager.getSink_ 0 wideInfo
  found := List.mem_cons_self
  channels_pos := by decide
  codecOutBufferSize := 49152

/-- The last block of a file of 64 channels is a call for no samples. -/
theorem wide_not_encodes : ¬ wide.Encodes := by
  intro H
  have hroom : chunkSamples ≤ CaptureState.defaultFormat.bufferSamples := by decide
  have hchannels : wide.channels = 64 := by decide +kernel
  exact absurd ((encodes_nonempty hroom).mp H).1 (by rw [hchannels]; decide)

end SinkEncoder
end Aes67Daemon
