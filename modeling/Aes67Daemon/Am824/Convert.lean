import Aes67Daemon.Am824.ChannelStatus
import Aes67Daemon.Am824.Parity

/-!
# The conversion to AM824

`am824Convert` frames the samples of a file one by one.  The outer loop counts bytes and the inner
loop the channels of a frame, so that the last frame is always a whole one; and a sample of three
bytes is fetched with a load of four.

## Main definitions

* `UserData`, `AM824Input` — the options, and the samples in memory.
* `AM824Input.am824Convert` — the conversion, with every read and every write in its buffer.
* `AM824Input.StaysInBuffers` — it comes to an end, and has written the words that there are.
* `AM824Input.staysInBuffers_iff` — the sizes for which it does.
* `AM824Input.output_am824Convert` — then the output is the words of the framer.
* `AM824Input.evenParity_am824Convert` — the words of the output that keep the rule of parity.
-/
namespace Aes67Daemon

/-- What `am824Convert` uses of `UserData`. -/
structure UserData where
  numChannels : UInt32
  bytesPerSample : UInt32
  bitsPerSample : UInt32
  fs : UInt32
  blockAlign : UInt32
  totalBytes : UInt64
  am824Audio : UInt32
  am824Fs : UInt32
  am824FsMatchWavfile : UInt32
  am824Professional : UInt32

/-- A file that is played: its samples have been read into a buffer of their size.  There is a
channel, and other sizes of samples have been refused. -/
structure AM824Input extends UserData where
  audio : List UInt8
  size_audio : audio.length = totalBytes.toNat
  channels_pos : 0 < numChannels.toNat
  supported : bytesPerSample = 2 ∨ bytesPerSample = 3

namespace UserData

/-- The code for the sampling frequency. -/
def fsCode (d : UserData) : UInt32 :=
  if d.am824FsMatchWavfile ≠ 0 then
    if d.fs = 32000 then AM824SamplingFrequency.fs32000.code.toUInt32
    else if d.fs = 44100 then AM824SamplingFrequency.fs44100.code.toUInt32
    else if d.fs = 48000 then AM824SamplingFrequency.fs48000.code.toUInt32
    else AM824SamplingFrequency.notIndicated.code.toUInt32
  else d.am824Fs

/-- The calls of the setters, in their order. -/
def setters (d : UserData) : List ChannelStatusCall :=
  [if d.am824Audio ≠ 0 then .setAudioMode else .setDataMode, .setSamplingFrequency d.fsCode.toInt32,
    if d.am824Professional ≠ 0 then .setProfessionalMode else .setConsumerMode]

/-- The framer, set up; `none` is a depth that is not supported. -/
def framer (d : UserData) : Option AM824Framer :=
  (AM824Framer.create d.numChannels.toUInt8 (d.bytesPerSample * 8).toUInt8 .littleEndian).map fun f =>
    d.setters.foldl AM824Framer.call f

/-- `outputMemSize`, in the 64 bits of an `unsigned long`. -/
def outputMemSize (d : UserData) : UInt64 := d.totalBytes * 4 / d.bytesPerSample.toUInt64

/-- The options after a conversion. -/
def converted (d : UserData) : UserData :=
  { d with
    totalBytes := d.totalBytes * 4 / d.bytesPerSample.toUInt64
    bytesPerSample := 4
    bitsPerSample := 32
    blockAlign := d.numChannels * 4 }

end UserData

/-- The local variables of `am824Convert`, the pointers as offsets. -/
structure ConvertState where
  framer : AM824Framer
  /-- In bytes. -/
  inputPtr : ℕ := 0
  /-- In words. -/
  outputPtr : ℕ := 0
  bytesConverted : UInt64 := 0
  /-- The output, with whatever is in it. -/
  output : List UInt8

namespace AM824Input

/-- The bytes that are loaded for a sample. -/
def loaded (a : AM824Input) : ℕ := if a.bytesPerSample = 3 then 4 else 2

/-- A sample; `none` is a read or a write outside its buffer. -/
def convertSample (a : AM824Input) (s : ConvertState) : Option ConvertState :=
  (readBytes a.audio s.inputPtr a.loaded).bind fun bytes =>
    let (framer, word) := s.framer.getAM824Sample (AM824Framer.inputSample a.bytesPerSample.toUInt8 bytes)
    (writeBytes s.output (4 * s.outputPtr) word).map fun output =>
      { framer := framer
        inputPtr := s.inputPtr + a.bytesPerSample.toNat
        outputPtr := s.outputPtr + 1
        bytesConverted := s.bytesConverted + a.bytesPerSample.toUInt64
        output := output }

/-- The inner loop, for some channels. -/
def convertSamples (a : AM824Input) : ℕ → ConvertState → Option ConvertState
  | 0, s => some s
  | n + 1, s => (a.convertSample s).bind (a.convertSamples n)

/-- The outer loop; `none` is also a loop that goes on. -/
def convertFrames (a : AM824Input) : ℕ → ConvertState → Option ConvertState
  | 0, _ => none
  | fuel + 1, s =>
    if s.bytesConverted < a.totalBytes then (a.convertSamples a.numChannels.toNat s).bind (a.convertFrames fuel)
    else some s

/-- `am824Convert`, for an output that has been allocated with some contents. -/
def am824Convert (a : AM824Input) (malloc : ℕ → UInt8) (fuel : ℕ) : Option ConvertState :=
  a.framer.bind fun f =>
    a.convertFrames fuel { framer := f, output := (List.range a.outputMemSize.toNat).map malloc }

/-- The conversion comes to an end with every access in its buffer, and the words of the output are
as many as the samples of the input. -/
def StaysInBuffers (a : AM824Input) : Prop :=
  ∀ malloc, ∃ fuel s, a.am824Convert malloc fuel = some s ∧ s.outputPtr = a.totalBytes.toNat / a.bytesPerSample.toNat

/-- There is nothing to convert; or the samples have two bytes, there is a whole number of frames,
and the size of the output does not overflow. -/
def Fits (a : AM824Input) : Prop :=
  a.totalBytes = 0 ∨
    a.bytesPerSample = 2 ∧ 2 * a.numChannels.toNat ∣ a.totalBytes.toNat ∧ a.totalBytes.toNat < 2 ^ 62

variable {a : AM824Input} {f : AM824Framer} {s s' : ConvertState} {k n : ℕ}

/-! ## A sample -/

/-- `bytesPerSample`. -/
def bytes (a : AM824Input) : ℕ := a.bytesPerSample.toNat

theorem bytes_cases (a : AM824Input) : a.bytes = 2 ∧ a.loaded = 2 ∨ a.bytes = 3 ∧ a.loaded = 4 := by
  rcases a.supported with h | h
  · exact .inl ⟨by rw [bytes, h]; rfl, by rw [loaded, h]; rfl⟩
  · exact .inr ⟨by rw [bytes, h]; rfl, by rw [loaded, h]; rfl⟩

/-- The first `k` samples, as they are loaded. -/
def samples (a : AM824Input) (k : ℕ) : List UInt32 :=
  (List.range k).map fun i => AM824Framer.inputSample a.bytesPerSample.toUInt8 (slice a.audio (a.bytes * i) a.loaded)

/-- The counters after `k` samples, and the words of them. -/
structure At (a : AM824Input) (f : AM824Framer) (mem : ℕ) (s : ConvertState) (k : ℕ) : Prop where
  inputPtr : s.inputPtr = a.bytes * k
  outputPtr : s.outputPtr = k
  bytesConverted : s.bytesConverted.toNat = a.bytes * k
  framer : s.framer = AM824Framer.advance^[k] f
  output : s.output.length = mem
  words : s.output.take (4 * k) = (f.output (a.samples k)).flatten

/-- There is room for the `k`-th sample, counted from one: for all that is loaded for it, and for
its word. -/
def Room (a : AM824Input) (mem k : ℕ) : Prop :=
  a.bytes * k + (a.loaded - a.bytes) ≤ a.totalBytes.toNat ∧ 4 * k ≤ mem

theorem Room.mono {mem j : ℕ} (h : a.Room mem k) (hjk : j ≤ k) : a.Room mem j := by
  have hmul := Nat.mul_le_mul_left a.bytes hjk
  unfold Room at h ⊢
  omega

theorem length_outputBytes (endian : AM824Endianess) (word : UInt32) :
    (AM824Framer.outputBytes endian word).length = 4 := by
  cases endian <;> rfl

/-- **A sample is converted exactly when there is room for it.** -/
theorem convertSample_eq_some {mem : ℕ} (H : a.At f mem s k) :
    (∃ s', a.convertSample s = some s') ↔ a.Room mem (k + 1) := by
  have hread : s.inputPtr + a.loaded ≤ a.audio.length ↔
      a.bytes * (k + 1) + (a.loaded - a.bytes) ≤ a.totalBytes.toNat := by
    have hcases := a.bytes_cases
    rw [H.inputPtr, a.size_audio, Nat.mul_add]
    omega
  have hwrite : ∀ word, 4 * s.outputPtr + (AM824Framer.outputBytes s.framer.endian word).length ≤ s.output.length ↔
      4 * (k + 1) ≤ mem := by
    intro word
    rw [length_outputBytes, H.outputPtr, H.output]
    omega
  rw [convertSample, readBytes, Room, ← hread]
  split
  · rename_i hin
    simp only [Option.bind_some, AM824Framer.getAM824Sample, writeBytes, hwrite]
    split
    · rename_i hout
      simp [hin, hout]
    · rename_i hout
      simp [hout]
  · rename_i hin
    simp [hin]

theorem At.convertSample {mem : ℕ} (H : a.At f mem s k) (h : a.convertSample s = some s') : a.At f mem s' (k + 1) := by
  obtain ⟨hroom, -⟩ := (convertSample_eq_some H).mp ⟨s', h⟩
  obtain ⟨bytes, hread, h⟩ := Option.bind_eq_some_iff.mp h
  obtain ⟨output, hwrite, rfl⟩ := Option.map_eq_some_iff.mp h
  rw [readBytes, Option.ite_none_right_eq_some, H.inputPtr] at hread
  obtain rfl := Option.some.inj hread.2
  rw [writeBytes, Option.ite_none_right_eq_some, H.outputPtr, H.framer] at hwrite
  obtain ⟨hfit, hwrite⟩ := hwrite
  obtain rfl := Option.some.inj hwrite
  have hlt := a.totalBytes.toNat_lt
  have hcases := a.bytes_cases
  rw [Nat.mul_succ] at hroom
  refine ⟨?_, ?_, ?_, ?_, ?_, ?_⟩
  · simp only [H.inputPtr, Nat.mul_succ]
    rfl
  · simp only [H.outputPtr]
  · rw [UInt64.toNat_add, H.bytesConverted, Nat.mul_succ, UInt32.toNat_toUInt64]
    exact Nat.mod_eq_of_lt (by unfold AM824Input.bytes at hroom hcases ⊢; omega)
  · rw [Function.iterate_succ_apply']
    exact congrArg AM824Framer.advance H.framer
  · rw [length_overwrite hfit, H.output]
  · have hsamples : a.samples (k + 1) = a.samples k ++
        [AM824Framer.inputSample a.bytesPerSample.toUInt8 (slice a.audio (a.bytes * k) a.loaded)] := by
      simp [samples, List.range_succ]
    have htake := take_overwrite hfit
    have hlen : (a.samples k).length = k := by simp [samples]
    rw [length_outputBytes, H.words] at htake
    rw [Nat.mul_succ, htake, hsamples, AM824Framer.output_concat, hlen, List.flatten_append]
    simp [AM824Framer.getAM824Sample]

/-! ## The loops -/

/-- A frame, or some channels of it. -/
theorem convertSamples_eq_some {mem : ℕ} (H : a.At f mem s k) :
    (∃ s', a.convertSamples n s = some s') ↔ n = 0 ∨ a.Room mem (k + n) := by
  induction n generalizing s k with
  | zero => exact ⟨fun _ => .inl rfl, fun _ => ⟨s, rfl⟩⟩
  | succ n ih =>
      have hstep := convertSample_eq_some H
      rw [convertSamples]
      constructor
      · rintro ⟨s', h⟩
        obtain ⟨s₁, hs₁, h⟩ := Option.bind_eq_some_iff.mp h
        rcases (ih (H.convertSample hs₁)).mp ⟨s', h⟩ with rfl | hroom
        · exact .inr (hstep.mp ⟨s₁, hs₁⟩)
        · rw [show k + 1 + n = k + (n + 1) by omega] at hroom
          exact .inr hroom
      · rintro (h0 | hroom)
        · cases h0
        obtain ⟨s₁, hs₁⟩ := hstep.mpr (hroom.mono (by omega))
        rw [show k + (n + 1) = k + 1 + n by omega] at hroom
        obtain ⟨s', hs'⟩ := (ih (H.convertSample hs₁)).mpr (.inr hroom)
        exact ⟨s', by rw [hs₁, Option.bind_some, hs']⟩

theorem At.convertSamples {mem : ℕ} (H : a.At f mem s k) (h : a.convertSamples n s = some s') : a.At f mem s' (k + n) := by
  induction n generalizing s k with
  | zero =>
      obtain rfl := Option.some.inj h
      exact H
  | succ n ih =>
      obtain ⟨s₁, hs₁, h⟩ := Option.bind_eq_some_iff.mp h
      have hend := ih (H.convertSample hs₁) h
      rwa [show k + 1 + n = k + (n + 1) by omega] at hend

/-- The loop comes to an end behind some whole frames, and there was room for all of them. -/
theorem At.convertFrames {mem fuel : ℕ} (H : a.At f mem s k) (h : a.convertFrames fuel s = some s') :
    ∃ m, a.At f mem s' (k + a.numChannels.toNat * m) ∧ a.totalBytes.toNat ≤ a.bytes * (k + a.numChannels.toNat * m) ∧
      (m = 0 ∨ a.Room mem (k + a.numChannels.toNat * m)) := by
  induction fuel generalizing s k with
  | zero => cases h
  | succ fuel ih =>
      rw [AM824Input.convertFrames] at h
      split at h
      · obtain ⟨s₁, hs₁, h⟩ := Option.bind_eq_some_iff.mp h
        have hroom := (convertSamples_eq_some H).mp ⟨s₁, hs₁⟩
        obtain ⟨m, hat, hend, hlater⟩ := ih (H.convertSamples hs₁) h
        have hplace : k + a.numChannels.toNat + a.numChannels.toNat * m = k + a.numChannels.toNat * (m + 1) := by ring
        rw [hplace] at hat hend hlater
        refine ⟨m + 1, hat, hend, .inr ?_⟩
        rcases hlater with rfl | hlater
        · rw [Nat.mul_one]
          exact hroom.resolve_left a.channels_pos.ne'
        · exact hlater
      · rename_i hdone
        obtain rfl := Option.some.inj h
        refine ⟨0, H, ?_, .inl rfl⟩
        rw [Nat.mul_zero, Nat.add_zero, ← H.bytesConverted]
        exact UInt64.not_lt.mp hdone

/-- With room for some more frames, and no more bytes than theirs, the loop comes to an end. -/
theorem exists_convertFrames {mem m : ℕ} (H : a.At f mem s k) (hroom : m = 0 ∨ a.Room mem (k + a.numChannels.toNat * m))
    (hend : a.totalBytes.toNat = a.bytes * (k + a.numChannels.toNat * m)) :
    ∃ s', a.convertFrames (m + 1) s = some s' ∧ a.At f mem s' (k + a.numChannels.toNat * m) := by
  induction m generalizing s k with
  | zero =>
      have hdone : ¬ s.bytesConverted < a.totalBytes := by
        rw [UInt64.lt_iff_toNat_lt, H.bytesConverted, hend]
        simp
      exact ⟨s, by rw [convertFrames, if_neg hdone], H⟩
  | succ m ih =>
      have hroom := hroom.resolve_left (Nat.succ_ne_zero m)
      have hplace : k + a.numChannels.toNat * (m + 1) = k + a.numChannels.toNat + a.numChannels.toNat * m := by ring
      have hmore : s.bytesConverted < a.totalBytes := by
        have hpos : 0 < a.bytes * a.numChannels.toNat := Nat.mul_pos (by have := a.bytes_cases; omega) a.channels_pos
        rw [UInt64.lt_iff_toNat_lt, H.bytesConverted, hend, hplace, Nat.add_assoc, Nat.mul_add, Nat.mul_add]
        omega
      rw [hplace] at hroom hend ⊢
      obtain ⟨s₁, hs₁⟩ : ∃ s₁, a.convertSamples a.numChannels.toNat s = some s₁ :=
        (convertSamples_eq_some H).mpr (.inr (hroom.mono (Nat.le_add_right _ _)))
      obtain ⟨s', hs', hat⟩ := ih (H.convertSamples hs₁) (.inr hroom) hend
      exact ⟨s', by rw [convertFrames, if_pos hmore, hs₁, Option.bind_some, hs'], hat⟩

/-! ## The conversion -/

theorem exists_framer (a : AM824Input) : ∃ f, a.framer = some f := by
  have hdepth : (AM824Framer.depthBits (a.bytesPerSample * 8).toUInt8).isSome := by
    rcases a.supported with h | h <;> rw [h] <;> decide
  obtain ⟨bits, hbits⟩ := Option.isSome_iff_exists.mp hdepth
  exact ⟨_, by rw [UserData.framer, AM824Framer.create, hbits]; rfl⟩

theorem toNat_outputMemSize (a : AM824Input) :
    a.outputMemSize.toNat = a.totalBytes.toNat * 4 % 2 ^ 64 / a.bytes := by
  rw [UserData.outputMemSize, UInt64.toNat_div, UInt64.toNat_mul, UInt32.toNat_toUInt64]
  rfl

/-- The start of the loop. -/
theorem at_start (a : AM824Input) (malloc : ℕ → UInt8) (f : AM824Framer) :
    a.At f a.outputMemSize.toNat { framer := f, output := (List.range a.outputMemSize.toNat).map malloc } 0 :=
  ⟨rfl, rfl, rfl, rfl, by simp, rfl⟩

theorem fits_of_am824Convert {malloc : ℕ → UInt8} {fuel : ℕ} (h : a.am824Convert malloc fuel = some s) : a.Fits := by
  have hsize := a.toNat_outputMemSize
  obtain ⟨f, -, h⟩ := Option.bind_eq_some_iff.mp h
  obtain ⟨m, -, hend, hroom⟩ := (a.at_start malloc f).convertFrames h
  rw [Nat.zero_add] at hend hroom
  rcases hroom with rfl | ⟨hin, hout⟩
  · refine .inl (UInt64.toNat_inj.mp ?_)
    simpa using hend
  rw [hsize] at hout
  rcases a.bytes_cases with ⟨hbytes, hloaded⟩ | ⟨hbytes, hloaded⟩
  · rw [hbytes] at hend hin hout
    rw [hloaded] at hin
    refine .inr ⟨UInt32.toNat_inj.mp hbytes, ⟨m, ?_⟩, ?_⟩
    · rw [Nat.mul_assoc]
      omega
    · omega
  · -- Behind the last sample a fourth byte is loaded.
    rw [hbytes] at hend hin
    rw [hloaded] at hin
    omega

theorem exists_am824Convert (h : a.Fits) (malloc : ℕ → UInt8) : ∃ fuel s, a.am824Convert malloc fuel = some s ∧
    s.outputPtr = a.totalBytes.toNat / a.bytesPerSample.toNat := by
  have hsize := a.toNat_outputMemSize
  have hcases := a.bytes_cases
  obtain ⟨f, hf⟩ := a.exists_framer
  obtain ⟨m, htotal, hroom⟩ : ∃ m, a.totalBytes.toNat = a.bytes * (0 + a.numChannels.toNat * m) ∧
      (m = 0 ∨ a.Room a.outputMemSize.toNat (0 + a.numChannels.toNat * m)) := by
    rcases h with hzero | ⟨htwo, ⟨m, hm⟩, hlt⟩
    · exact ⟨0, by rw [hzero]; simp, .inl rfl⟩
    · have hbytes : a.bytes = 2 := by rw [bytes, htwo]; rfl
      have hloaded : a.loaded = 2 := by omega
      rw [Nat.mul_assoc] at hm
      refine ⟨m, by rw [hbytes, hm, Nat.zero_add], .inr ⟨?_, ?_⟩⟩
      · rw [hbytes, hloaded, Nat.zero_add]
        exact hm.ge
      · rw [hsize, hbytes, Nat.zero_add]
        omega
  obtain ⟨s, hs, hat⟩ := exists_convertFrames (a.at_start malloc f) hroom htotal
  refine ⟨m + 1, s, by rw [am824Convert, hf, Option.bind_some, hs], ?_⟩
  have hpos : 0 < a.bytes := by omega
  rw [hat.outputPtr, htotal]
  exact (Nat.mul_div_cancel_left _ hpos).symm

/-- **The conversion stays in its buffers** exactly for whole frames of two-byte samples. -/
theorem staysInBuffers_iff (a : AM824Input) : a.StaysInBuffers ↔ a.Fits := by
  constructor
  · intro h
    obtain ⟨fuel, s, hs, -⟩ := h fun _ => 0
    exact fits_of_am824Convert hs
  · exact fun h malloc => exists_am824Convert h malloc

/-- **What is converted are the samples**: the output is the words of the framer for them. -/
theorem output_am824Convert {malloc : ℕ → UInt8} {fuel : ℕ} (h : a.am824Convert malloc fuel = some s)
    (hf : a.framer = some f) :
    s.output = (f.output (a.samples (a.totalBytes.toNat / a.bytes))).flatten := by
  rw [am824Convert, hf, Option.bind_some] at h
  obtain ⟨m, hat, hend, hroom⟩ := (a.at_start malloc f).convertFrames h
  have hpos : 0 < a.bytes := by
    have hcases := a.bytes_cases
    omega
  have htotal : a.totalBytes.toNat = a.bytes * (0 + a.numChannels.toNat * m) := by
    rcases hroom with rfl | ⟨hin, -⟩
    · exact hend.antisymm (by simp)
    · exact hend.antisymm ((Nat.le_add_right _ _).trans hin)
  have hmem : s.output.length ≤ 4 * (0 + a.numChannels.toNat * m) := by
    rw [hat.output, toNat_outputMemSize, htotal]
    generalize 0 + a.numChannels.toNat * m = k
    calc a.bytes * k * 4 % 2 ^ 64 / a.bytes ≤ a.bytes * k * 4 / a.bytes := Nat.div_le_div_right (Nat.mod_le ..)
      _ = 4 * k := by rw [Nat.mul_assoc, Nat.mul_div_cancel_left _ hpos, Nat.mul_comm]
  rw [htotal, Nat.mul_div_cancel_left _ hpos, ← hat.words, List.take_of_length_le hmem]

theorem length_of_mem_output {word : List UInt8} {xs : List UInt32} (hword : word ∈ f.output xs) : word.length = 4 := by
  induction xs generalizing f with
  | nil => cases hword
  | cons x xs ih =>
      rcases List.mem_cons.mp hword with rfl | hword
      · exact length_outputBytes _ _
      · exact ih hword

/-- The framer is one that was created, with its channel status set. -/
theorem exists_create (hf : a.framer = some f) : ∃ g cs,
    AM824Framer.create a.numChannels.toUInt8 (a.bytesPerSample * 8).toUInt8 .littleEndian = some g ∧
      f = g.withChannelStatus cs := by
  obtain ⟨g, hg, rfl⟩ := Option.map_eq_some_iff.mp hf
  obtain ⟨cs, hcs⟩ := AM824Framer.exists_calls a.setters g
  exact ⟨g, cs, hg, hcs⟩

/-- The samples are of the bit depth of a framer for them. -/
theorem takes_samples {g : AM824Framer} {endian : AM824Endianess}
    (hg : AM824Framer.create a.numChannels.toUInt8 (a.bytesPerSample * 8).toUInt8 endian = some g) (k : ℕ) :
    ∀ x ∈ a.samples k, g.Takes x := by
  intro x hx
  obtain ⟨i, -, rfl⟩ := List.mem_map.mp hx
  obtain ⟨bits, -, rfl⟩ := Option.map_eq_some_iff.mp hg
  refine AM824Framer.takes_inputSample ?_ ?_ _
  · rcases a.supported with h | h <;> simp [h]
  · rcases a.supported with h | h <;> simp [h, AM824Framer.setCRC, AM824Framer.withChannelStatus]

/-- **The words of the output that keep the rule of parity**, by their place: first in a frame and in
the first frame of a block, or neither. -/
theorem evenParity_am824Convert {malloc : ℕ → UInt8} {fuel : ℕ} (h : a.am824Convert malloc fuel = some s)
    (hn : a.numChannels.toNat < 256) (hk : k < a.totalBytes.toNat / a.bytes) :
    AM824Framer.EvenParity (ByteOrder.little.load (slice s.output (4 * k) 4)) ↔
      (192 ∣ k / a.numChannels.toNat ↔ a.numChannels.toNat ∣ k) := by
  obtain ⟨f, hf⟩ := a.exists_framer
  obtain ⟨g, cs, hg, rfl⟩ := exists_create hf
  have hnum : a.numChannels.toUInt8.toNat = a.numChannels.toNat := by
    rw [UInt32.toNat_toUInt8]
    exact Nat.mod_eq_of_lt hn
  obtain ⟨word, hword, hiff⟩ := AM824Framer.evenParity_output_iff (hnum ▸ a.channels_pos) hg cs
    (a.samples (a.totalBytes.toNat / a.bytes)) (takes_samples hg _) k (by simpa [samples] using hk)
  obtain ⟨hlt, rfl⟩ := List.getElem?_eq_some_iff.mp hword
  rw [output_am824Convert h hf, slice_flatten (fun _ hword => length_of_mem_output hword) hlt]
  rwa [hnum] at hiff

/-- Two channels of 24 bits, and one frame. -/
def oneFrame : AM824Input where
  numChannels := 2
  bytesPerSample := 3
  bitsPerSample := 24
  fs := 48000
  blockAlign := 6
  totalBytes := 6
  am824Audio := 1
  am824Fs := 0
  am824FsMatchWavfile := 1
  am824Professional := 1
  audio := [1, 2, 3, 4, 5, 6]
  size_audio := rfl
  channels_pos := by decide
  supported := .inr rfl

/-- The second sample of it is loaded with a byte that is not there. -/
theorem oneFrame_not_in_buffers : ¬ ∀ a : AM824Input, a.StaysInBuffers := by
  intro h
  obtain ⟨fuel, s, hs, -⟩ := h oneFrame fun _ => 0
  have hfits := fits_of_am824Convert hs
  unfold Fits at hfits
  exact absurd hfits (by decide)

end AM824Input
end Aes67Daemon
