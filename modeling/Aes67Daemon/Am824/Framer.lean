import Aes67Daemon.Lib.Bytes
import Mathlib.Data.Nat.Bitwise
import Mathlib.Tactic.NormNum

/-!
# The AM824 framer

The framer of `am824_framer.h` puts each sample into a word of 32 bits, with flags for
the start of a block of 192 frames and of a frame, the bit of the channel status that
belongs to the frame, and a parity bit.  Where it is in the block it keeps in three
counters: the byte of the channel status, a mask that selects a bit of it, and the
channel.

The place after `k` samples is not defined by running the framer: `AM824Framer.At`
computes it from `k` alone, and a sample takes it from one number to the next.

## Main definitions

* `AM824Framer`, `AM824Framer.create` — the framer, and the setters of its channel status.
* `AM824Framer.getAM824Sample`, `AM824Framer.output` — one sample, and a sequence of them.
* `AM824Framer.At` — the place after some samples.
* `AM824Framer.Framed` — the word for a sample.
* `AM824Framer.output_framed` — every word of a sequence is the one for its sample.
-/
namespace Aes67Daemon

/-- `AM824Endianess`. -/
inductive AM824Endianess
  | bigEndian
  | littleEndian
  deriving DecidableEq

/-- The byte order of the output. -/
def AM824Endianess.order : AM824Endianess → ByteOrder
  | bigEndian => .big
  | littleEndian => .little

/-- `AM824SamplingFrequency`; other codes are refused. -/
inductive AM824SamplingFrequency
  | notIndicated
  | fs44100
  | fs48000
  | fs32000
  deriving DecidableEq

def AM824SamplingFrequency.code : AM824SamplingFrequency → UInt8
  | notIndicated => 0
  | fs44100 => 1
  | fs48000 => 2
  | fs32000 => 3

/-- `CHANNEL_STATUS_BYTES`. -/
abbrev channelStatusBytes : ℕ := 24

/-- The framer.  The byte of the channel status is one of those there are. -/
structure AM824Framer where
  channelStatusIndex : UInt8
  channelStatusMask : UInt8
  channelStatus : Vector UInt8 channelStatusBytes
  subFrameCounter : UInt8
  numChannels : UInt8
  bitDepth : UInt8
  endian : AM824Endianess
  index_lt : channelStatusIndex.toNat < channelStatusBytes

namespace AM824Framer

/-! ## The channel status -/

/-- An entry of `crcTable`: the reflected polynomial, eight times. -/
def crcEntry (dividend : UInt8) : UInt8 :=
  (List.range 8).foldl (fun (remainder : UInt8) _ =>
    if remainder &&& (1 : UInt8) = 1 then (remainder >>> 1) ^^^ 0xb8 else remainder >>> 1) dividend

/-- The check byte of the other bytes. -/
def crc (cs : Vector UInt8 channelStatusBytes) : UInt8 :=
  (cs.toList.take 23).foldl (fun remainder byte => crcEntry (byte ^^^ remainder)) 0xff

/-- The framer with other contents of the channel status. -/
def withChannelStatus (cs : Vector UInt8 channelStatusBytes) (f : AM824Framer) : AM824Framer :=
  { f with channelStatus := cs }

/-- `setCRC`. -/
def setCRC (f : AM824Framer) : AM824Framer :=
  f.withChannelStatus (f.channelStatus.set 23 (crc f.channelStatus))

/-- Change the first byte and set the check byte. -/
def setFirst (change : UInt8 → UInt8) (f : AM824Framer) : AM824Framer :=
  (f.withChannelStatus (f.channelStatus.set 0 (change f.channelStatus[0]))).setCRC

def setSamplingFrequency (fs : AM824SamplingFrequency) : AM824Framer → AM824Framer :=
  setFirst fun b => (b &&& (0x3f : UInt8)) ||| fs.code <<< 6

def setProfessionalMode : AM824Framer → AM824Framer := setFirst fun b => b ||| 1

def setConsumerMode : AM824Framer → AM824Framer := setFirst fun b => b &&& 0xfe

def setAudioMode : AM824Framer → AM824Framer := setFirst fun b => b &&& 0xfd

def setDataMode : AM824Framer → AM824Framer := setFirst fun b => b ||| 2

/-- What the third byte says of the bit depth; other depths are not supported. -/
def depthBits (bitDepth : UInt8) : Option UInt8 :=
  if bitDepth = 16 then some ((1 : UInt8) <<< 3)
  else if bitDepth = 20 then some ((4 : UInt8) ||| (1 : UInt8) <<< 3)
  else if bitDepth = 24 then some ((4 : UInt8) ||| (5 : UInt8) <<< 3)
  else none

/-- The constructor, professional, no audio and 48 kHz; `none` is
`AM824_ERR_UNSUPPORTED_BITDEPTH`. -/
def create (numChannels bitDepth : UInt8) (endian : AM824Endianess) : Option AM824Framer :=
  (depthBits bitDepth).map fun bits =>
    setCRC
      { channelStatusIndex := 0
        channelStatusMask := 1
        channelStatus := ((Vector.replicate channelStatusBytes (0 : UInt8)).set 0
          ((1 : UInt8) ||| (1 : UInt8) <<< 1 ||| (2 : UInt8) <<< 6)).set 2 bits
        subFrameCounter := 0
        numChannels := numChannels
        bitDepth := bitDepth
        endian := endian
        index_lt := by decide }

/-! ## A sample -/

/-- `getParity`: every round clears the lowest bit that is set. -/
def getParity (n : UInt32) (parity : Bool := false) : Bool :=
  if h : n = 0 then parity else getParity (n &&& (n - 1)) (!parity)
  termination_by n.toNat
  decreasing_by
    have hpos : 0 < n.toNat := Nat.pos_of_ne_zero fun h0 => h (UInt32.toNat_inj.mp h0)
    have hsub : (n - 1).toNat = n.toNat - 1 := UInt32.toNat_sub_of_le n 1 (UInt32.le_iff_toNat_le.mpr hpos)
    have hle : (n &&& (n - 1)).toNat ≤ n.toNat - 1 := by
      rw [UInt32.toNat_and, hsub]
      exact Nat.and_le_right
    omega

/-- A bit of a word. -/
def flag (b : Bool) (i : UInt32) : UInt32 := if b then 1 <<< i else 0

/-- `channelStatusBit`. -/
def channelStatusBit (f : AM824Framer) : Bool :=
  f.channelStatus.get ⟨f.channelStatusIndex.toNat, f.index_lt⟩ &&& f.channelStatusMask ≠ 0

/-- The word but for its parity; the user bit and the validity bit are clear. -/
def unprotected (f : AM824Framer) (inputSample : UInt32) : UInt32 :=
  (if f.bitDepth = 16 then inputSample <<< 8 else inputSample) |||
    flag (f.channelStatusIndex = 0 ∧ f.channelStatusMask = 1) 29 ||| flag (f.subFrameCounter = 0) 28 |||
    flag f.channelStatusBit 26 ||| flag false 25 ||| flag false 24

/-- The word. -/
def outputSample (f : AM824Framer) (inputSample : UInt32) : UInt32 :=
  f.unprotected inputSample ||| flag (getParity (f.unprotected inputSample)) 27

/-- The wraparound checks. -/
def advance (f : AM824Framer) : AM824Framer :=
  if f.subFrameCounter + 1 = f.numChannels then
    if f.channelStatusMask = 0x80 then
      if h : (f.channelStatusIndex + 1).toNat < channelStatusBytes then
        { f with subFrameCounter := 0, channelStatusMask := 1, channelStatusIndex := f.channelStatusIndex + 1,
                 index_lt := h }
      else { f with subFrameCounter := 0, channelStatusMask := 1, channelStatusIndex := 0, index_lt := by decide }
    else { f with subFrameCounter := 0, channelStatusMask := f.channelStatusMask <<< 1 }
  else { f with subFrameCounter := f.subFrameCounter + 1 }

/-- The bytes of a word in the order of the output. -/
def outputBytes (endian : AM824Endianess) (word : UInt32) : List UInt8 :=
  let b3 := ((word &&& 0xff000000) >>> 24).toUInt8
  let b2 := ((word &&& 0x00ff0000) >>> 16).toUInt8
  let b1 := ((word &&& 0x0000ff00) >>> 8).toUInt8
  let b0 := ((word &&& 0x000000ff) >>> 0).toUInt8
  match endian with
  | .bigEndian => [b3, b2, b1, b0]
  | .littleEndian => [b0, b1, b2, b3]

/-- `getAM824Sample`: the framer and the bytes of the word. -/
def getAM824Sample (f : AM824Framer) (inputSample : UInt32) : AM824Framer × List UInt8 :=
  (f.advance, outputBytes f.endian (f.outputSample inputSample))

/-- The words of a sequence of samples. -/
def output : AM824Framer → List UInt32 → List (List UInt8)
  | _, [] => []
  | f, x :: xs => (f.getAM824Sample x).2 :: (f.getAM824Sample x).1.output xs

theorem output_concat (f : AM824Framer) (xs : List UInt32) (x : UInt32) :
    f.output (xs ++ [x]) = f.output xs ++ [((advance^[xs.length] f).getAM824Sample x).2] := by
  induction xs generalizing f with
  | nil => rfl
  | cons y xs ih => exact congrArg (List.cons (f.getAM824Sample y).2) (ih f.advance)

/-! ## Words -/

/-- A byte of a word. -/
theorem toNat_byte (word mask i : UInt32) (hi : i.toNat < 32) (hmask : mask.toNat = 255 <<< i.toNat) :
    ((word &&& mask) >>> i).toUInt8.toNat = word.toNat / 2 ^ i.toNat % 256 := by
  rw [UInt32.toNat_toUInt8, UInt32.toNat_shiftRight, UInt32.toNat_and, hmask, Nat.mod_eq_of_lt hi,
    Nat.shiftRight_and_distrib, Nat.shiftLeft_shiftRight, Nat.shiftRight_eq_div_pow,
    show (255 : ℕ) = 2 ^ 8 - 1 from rfl, Nat.and_two_pow_sub_one_eq_mod]
  exact Nat.mod_mod _ _

/-- **In either byte order the word is read back.** -/
theorem load_outputBytes (endian : AM824Endianess) (word : UInt32) :
    endian.order.load (outputBytes endian word) = word.toNat := by
  have hword := word.toNat_lt
  have hvalue : Bytes.value (outputBytes .littleEndian word) = word.toNat := by
    have h3 := toNat_byte word 0xff000000 24 (by decide) rfl
    have h2 := toNat_byte word 0x00ff0000 16 (by decide) rfl
    have h1 := toNat_byte word 0x0000ff00 8 (by decide) rfl
    have h0 := toNat_byte word 0x000000ff 0 (by decide) rfl
    rw [outputBytes, Bytes.value, Bytes.value, Bytes.value, Bytes.value, Bytes.value, h0, h1, h2, h3]
    simp only [UInt32.reduceToNat]
    omega
  cases endian with
  | littleEndian => exact hvalue
  | bigEndian => exact hvalue

/-! ## Bits -/

theorem testBit_flag (b : Bool) {i : UInt32} (hi : i.toNat < 32) (j : ℕ) :
    (flag b i).toNat.testBit j = (b && decide (j = i.toNat)) := by
  cases b with
  | false => simp [flag]
  | true =>
      have hlt : 2 ^ i.toNat < 2 ^ 32 := Nat.pow_lt_pow_right (by decide) hi
      have hvalue : (flag true i).toNat = 2 ^ i.toNat := by
        rw [flag, if_pos rfl, UInt32.toNat_shiftLeft, Nat.mod_eq_of_lt hi, Nat.shiftLeft_eq]
        simpa using Nat.mod_eq_of_lt hlt
      rw [hvalue, Nat.testBit_two_pow, Bool.true_and, decide_eq_decide]
      exact eq_comm

/-- A sample of the bit depth. -/
def Takes (f : AM824Framer) (x : UInt32) : Prop := x.toNat < if f.bitDepth = 16 then 2 ^ 16 else 2 ^ 24

instance (f : AM824Framer) (x : UInt32) : Decidable (f.Takes x) := inferInstanceAs (Decidable (_ < _))

/-- The sample in the low 24 bits of its word. -/
def payload (f : AM824Framer) (x : UInt32) : ℕ := if f.bitDepth = 16 then x.toNat * 2 ^ 8 else x.toNat

variable {f : AM824Framer} {x : UInt32}

theorem payload_lt (hx : f.Takes x) : f.payload x < 2 ^ 24 := by
  unfold Takes at hx
  unfold payload
  split at hx
  · rename_i hdepth
    rw [if_pos hdepth]
    omega
  · rename_i hdepth
    rwa [if_neg hdepth]

theorem toNat_shifted (hx : f.Takes x) :
    (if f.bitDepth = 16 then x <<< 8 else x : UInt32).toNat = f.payload x := by
  have hlt := payload_lt hx
  unfold payload at hlt ⊢
  split
  · rename_i hdepth
    rw [if_pos hdepth] at hlt
    rw [UInt32.toNat_shiftLeft, Nat.shiftLeft_eq]
    exact Nat.mod_eq_of_lt (by simpa using (by omega : x.toNat * 2 ^ 8 < 2 ^ 32))
  · rfl

/-- The bits of a word but for its parity, one by one. -/
theorem testBit_unprotected (f : AM824Framer) (x : UInt32) (j : ℕ) :
    (f.unprotected x).toNat.testBit j = ((if f.bitDepth = 16 then x <<< 8 else x : UInt32).toNat.testBit j ||
      decide (f.channelStatusIndex = 0 ∧ f.channelStatusMask = 1) && decide (j = 29) ||
      decide (f.subFrameCounter = 0) && decide (j = 28) || f.channelStatusBit && decide (j = 26)) := by
  rw [unprotected]
  simp only [UInt32.toNat_or, Nat.testBit_or, testBit_flag _ (by decide : (29 : UInt32).toNat < 32),
    testBit_flag _ (by decide : (28 : UInt32).toNat < 32), testBit_flag _ (by decide : (26 : UInt32).toNat < 32),
    testBit_flag _ (by decide : (25 : UInt32).toNat < 32), testBit_flag _ (by decide : (24 : UInt32).toNat < 32),
    Bool.false_and, Bool.or_false]
  rfl

/-- The bits of a word, one by one. -/
theorem testBit_outputSample (hx : f.Takes x) (j : ℕ) :
    (f.outputSample x).toNat.testBit j = ((f.payload x).testBit j ||
      decide (f.channelStatusIndex = 0 ∧ f.channelStatusMask = 1) && decide (j = 29) ||
      decide (f.subFrameCounter = 0) && decide (j = 28) || f.channelStatusBit && decide (j = 26) ||
      getParity (f.unprotected x) && decide (j = 27)) := by
  rw [outputSample, UInt32.toNat_or, Nat.testBit_or, testBit_flag _ (by decide), testBit_unprotected,
    toNat_shifted hx]
  rfl

/-! ## The place in the block -/

/-- The place of the framer after `k` samples. -/
structure At (f : AM824Framer) (k : ℕ) : Prop where
  counter : f.subFrameCounter.toNat = k % f.numChannels.toNat
  mask : f.channelStatusMask.toNat = 2 ^ (k / f.numChannels.toNat % 8)
  index : f.channelStatusIndex.toNat = k / f.numChannels.toNat % 192 / 8

@[simp] theorem advance_numChannels (f : AM824Framer) : f.advance.numChannels = f.numChannels := by
  unfold advance
  split_ifs <;> rfl

@[simp] theorem advance_bitDepth (f : AM824Framer) : f.advance.bitDepth = f.bitDepth := by
  unfold advance
  split_ifs <;> rfl

@[simp] theorem advance_endian (f : AM824Framer) : f.advance.endian = f.endian := by
  unfold advance
  split_ifs <;> rfl

@[simp] theorem advance_channelStatus (f : AM824Framer) : f.advance.channelStatus = f.channelStatus := by
  unfold advance
  split_ifs <;> rfl

/-- The next sample is in the next frame. -/
theorem next_frame {n k : ℕ} (hn : 0 < n) (hlast : k % n + 1 = n) : (k + 1) / n = k / n + 1 ∧ (k + 1) % n = 0 := by
  rw [Nat.div_mod_unique hn]
  refine ⟨?_, hn⟩
  have hk := Nat.div_add_mod k n
  rw [Nat.mul_add]
  omega

/-- The next sample is in the same frame. -/
theorem same_frame {n k : ℕ} (hn : 0 < n) (hlast : k % n + 1 ≠ n) :
    (k + 1) / n = k / n ∧ (k + 1) % n = k % n + 1 := by
  have hr := Nat.mod_lt k hn
  rw [Nat.div_mod_unique hn]
  have hk := Nat.div_add_mod k n
  exact ⟨by omega, by omega⟩

/-- The channel after this one. -/
theorem toNat_succ_counter {n c : UInt8} (hc : c.toNat < n.toNat) : (c + 1).toNat = c.toNat + 1 := by
  have hn := n.toNat_lt
  rw [UInt8.toNat_add]
  exact Nat.mod_eq_of_lt (by simpa using (by omega : c.toNat + 1 < 256))

/-- The mask selects the last bit of a byte. -/
theorem mask_last {m : UInt8} {p : ℕ} (hm : m.toNat = 2 ^ p) : m = 0x80 ↔ p = 7 := by
  rw [← UInt8.toNat_inj, hm]
  exact Nat.pow_right_inj (by decide : 2 ≤ 2) (n := 7)

/-- The mask selects the next bit. -/
theorem toNat_mask_succ {m : UInt8} {p : ℕ} (hm : m.toNat = 2 ^ p) (hp : p < 7) :
    (m <<< (1 : UInt8)).toNat = 2 ^ (p + 1) := by
  have hlt : 2 ^ (p + 1) < 2 ^ 8 := Nat.pow_lt_pow_right (by decide) (by omega)
  rw [UInt8.toNat_shiftLeft, hm, Nat.shiftLeft_eq, show UInt8.toNat 1 % 8 = 1 from rfl, ← Nat.pow_add]
  exact Nat.mod_eq_of_lt hlt

/-- **A sample takes the framer to the next place.** -/
theorem At.advance {k : ℕ} (h : f.At k) (hn : 0 < f.numChannels.toNat) : f.advance.At (k + 1) := by
  have hc : f.subFrameCounter.toNat < f.numChannels.toNat := by
    rw [h.counter]
    exact Nat.mod_lt _ hn
  have hsucc := toNat_succ_counter hc
  have hlast : f.subFrameCounter + 1 = f.numChannels ↔ k % f.numChannels.toNat + 1 = f.numChannels.toNat := by
    rw [← UInt8.toNat_inj, hsucc, h.counter]
  by_cases hframe : k % f.numChannels.toNat + 1 = f.numChannels.toNat
  · obtain ⟨hdiv, hmod⟩ := next_frame hn hframe
    rw [AM824Framer.advance, if_pos (hlast.mpr hframe)]
    by_cases hbyte : k / f.numChannels.toNat % 8 = 7
    · have hindex : (f.channelStatusIndex + 1).toNat = k / f.numChannels.toNat % 192 / 8 + 1 := by
        rw [toNat_succ_counter (n := 24) f.index_lt, h.index]
      rw [if_pos ((mask_last h.mask).mpr hbyte)]
      split_ifs with hblock
      · refine ⟨hmod.symm, ?_, ?_⟩
        · simp only [hdiv, show (k / f.numChannels.toNat + 1) % 8 = 0 by omega]
          rfl
        · simp only [hdiv, hindex]
          rw [hindex, channelStatusBytes] at hblock
          omega
      · refine ⟨hmod.symm, ?_, ?_⟩
        · simp only [hdiv, show (k / f.numChannels.toNat + 1) % 8 = 0 by omega]
          rfl
        · rw [hindex, channelStatusBytes] at hblock
          simp only [hdiv, show (k / f.numChannels.toNat + 1) % 192 / 8 = 0 by omega]
          rfl
    · rw [if_neg ((mask_last h.mask).not.mpr hbyte)]
      refine ⟨hmod.symm, ?_, ?_⟩
      · simp only [hdiv, toNat_mask_succ h.mask (by omega),
          show (k / f.numChannels.toNat + 1) % 8 = k / f.numChannels.toNat % 8 + 1 by omega]
      · simp only [hdiv, h.index]
        omega
  · obtain ⟨hdiv, hmod⟩ := same_frame hn hframe
    rw [AM824Framer.advance, if_neg (hlast.not.mpr hframe)]
    exact ⟨by simp only [hsucc, hmod, h.counter], by simp only [hdiv, h.mask], by simp only [hdiv, h.index]⟩

/-! ## The words of a sequence -/

/-- The `k`-th word for the sample `x`: the bits of the place, and the sample. -/
structure Framed (f : AM824Framer) (k : ℕ) (x : UInt32) (word : ℕ) : Prop where
  blockStart : word.testBit 29 = decide (192 ∣ k / f.numChannels.toNat)
  frameStart : word.testBit 28 = decide (f.numChannels.toNat ∣ k)
  status : ∃ h : k / f.numChannels.toNat % 192 / 8 < channelStatusBytes,
    word.testBit 26 = (f.channelStatus[k / f.numChannels.toNat % 192 / 8]).toNat.testBit
      (k / f.numChannels.toNat % 192 % 8)
  clear : ∀ i ∈ [24, 25, 30, 31], word.testBit i = false
  sample : word % 2 ^ 24 = f.payload x

/-- The start of a block, at its place. -/
theorem At.block_iff {k : ℕ} (h : f.At k) :
    (f.channelStatusIndex = 0 ∧ f.channelStatusMask = 1) ↔ 192 ∣ k / f.numChannels.toNat := by
  have hmask : f.channelStatusMask = 1 ↔ k / f.numChannels.toNat % 8 = 0 := by
    rw [← UInt8.toNat_inj, h.mask]
    simp
  rw [hmask, ← UInt8.toNat_inj, h.index, UInt8.toNat_zero]
  omega

/-- The start of a frame, at its place. -/
theorem At.frame_iff {k : ℕ} (h : f.At k) : f.subFrameCounter = 0 ↔ f.numChannels.toNat ∣ k := by
  rw [← UInt8.toNat_inj, h.counter, UInt8.toNat_zero]
  exact (Nat.dvd_iff_mod_eq_zero ..).symm

/-- What a mask selects of a byte. -/
theorem and_mask_ne_zero {b m : UInt8} {p : ℕ} (hm : m.toNat = 2 ^ p) : b &&& m ≠ 0 ↔ b.toNat.testBit p := by
  rw [Ne, ← UInt8.toNat_inj, UInt8.toNat_and, hm, Nat.and_two_pow, UInt8.toNat_zero]
  cases b.toNat.testBit p with
  | false => simp
  | true => simp

/-- The bit of the channel status, at its place. -/
theorem At.channelStatusBit {k : ℕ} (h : f.At k) (hk : k / f.numChannels.toNat % 192 / 8 < channelStatusBytes) :
    f.channelStatusBit = (f.channelStatus[k / f.numChannels.toNat % 192 / 8]).toNat.testBit
      (k / f.numChannels.toNat % 192 % 8) := by
  have hbit : k / f.numChannels.toNat % 192 % 8 = k / f.numChannels.toNat % 8 := by omega
  rw [AM824Framer.channelStatusBit, Bool.eq_iff_iff, decide_eq_true_iff, and_mask_ne_zero h.mask, hbit]
  simp only [h.index]
  rfl

/-- A number of 24 bits has no bit above them. -/
theorem testBit_payload (hx : f.Takes x) {j : ℕ} (hj : 24 ≤ j) : (f.payload x).testBit j = false :=
  Nat.testBit_lt_two_pow ((payload_lt hx).trans_le (Nat.pow_le_pow_right (by decide) hj))

/-- **The word at a place.** -/
theorem At.framed {k : ℕ} (h : f.At k) (hx : f.Takes x) : f.Framed k x (f.outputSample x).toNat := by
  have hbit := testBit_outputSample hx
  have hindex : k / f.numChannels.toNat % 192 / 8 < channelStatusBytes := by
    rw [← h.index]
    exact f.index_lt
  refine ⟨?_, ?_, ⟨hindex, ?_⟩, ?_, ?_⟩
  · rw [hbit, testBit_payload hx (by decide)]
    simp [h.block_iff]
  · rw [hbit, testBit_payload hx (by decide)]
    simp [h.frame_iff]
  · rw [hbit, testBit_payload hx (by decide), h.channelStatusBit hindex]
    simp
  · intro i hi
    simp only [List.mem_cons, List.not_mem_nil, or_false] at hi
    rw [hbit, testBit_payload hx (by omega)]
    obtain rfl | rfl | rfl | rfl := hi <;> simp
  · refine Nat.eq_of_testBit_eq fun j => ?_
    rw [Nat.testBit_mod_two_pow, hbit]
    by_cases hj : j < 24
    · simp [hj, show j ≠ 29 by omega, show j ≠ 28 by omega, show j ≠ 26 by omega, show j ≠ 27 by omega]
    · simp [hj, testBit_payload hx (Nat.le_of_not_lt hj)]

theorem At.create {n depth : UInt8} {endian : AM824Endianess} {g : AM824Framer}
    (h : AM824Framer.create n depth endian = some g) (cs : Vector UInt8 channelStatusBytes) :
    (g.withChannelStatus cs).At 0 ∧ g.numChannels = n ∧ g.bitDepth = depth ∧ g.endian = endian := by
  obtain ⟨bits, -, rfl⟩ := Option.map_eq_some_iff.mp h
  refine ⟨⟨?_, ?_, ?_⟩, rfl, rfl, rfl⟩
  · exact (Nat.zero_mod _).symm
  · simp [withChannelStatus, setCRC]
  · simp [withChannelStatus, setCRC]

/-- What a word says needs only the parts of the framer that a sample does not change. -/
theorem Framed.of_advance {k : ℕ} {word : ℕ} (h : f.advance.Framed k x word) : f.Framed k x word := by
  obtain ⟨h1, h2, ⟨h3, h4⟩, h5, h6⟩ := h
  simp only [advance_numChannels, advance_channelStatus] at h1 h2 h3 h4
  exact ⟨h1, h2, ⟨h3, h4⟩, h5, by rw [h6, payload, payload, advance_bitDepth]⟩

/-- The words from a place on. -/
theorem At.getElem_output {f : AM824Framer} {start : ℕ} (h : f.At start) (hn : 0 < f.numChannels.toNat)
    {xs : List UInt32} (hxs : ∀ x ∈ xs, f.Takes x) {k : ℕ} (hk : k < xs.length) :
    ∃ bytes, (f.output xs)[k]? = some bytes ∧ f.Framed (start + k) xs[k] (f.endian.order.load bytes) := by
  induction xs generalizing f start k with
  | nil => exact absurd hk (Nat.not_lt_zero _)
  | cons x xs ih =>
      obtain ⟨hx, htail⟩ := List.forall_mem_cons.mp hxs
      cases k with
      | zero =>
          refine ⟨_, rfl, ?_⟩
          rw [getAM824Sample, load_outputBytes]
          exact h.framed hx
      | succ k =>
          have htail' : ∀ y ∈ xs, f.advance.Takes y := by
            simpa only [Takes, advance_bitDepth] using htail
          obtain ⟨bytes, hbytes, hframed⟩ := ih (h.advance hn) (by rwa [advance_numChannels]) htail'
            (Nat.lt_of_succ_lt_succ hk)
          rw [advance_endian, show start + 1 + k = start + (k + 1) by omega] at hframed
          exact ⟨bytes, hbytes, hframed.of_advance⟩

/-- **Every word of a sequence is the one for its sample**: a framer that is created, with
whatever channel status, has the bits of the block, of the frame and of the channel status
where they belong, for any number of channels and in either byte order. -/
theorem output_framed {n depth : UInt8} {endian : AM824Endianess} {g : AM824Framer} (hn : 1 ≤ n.toNat)
    (hcreate : create n depth endian = some g) (cs : Vector UInt8 channelStatusBytes) (xs : List UInt32)
    (hxs : ∀ x ∈ xs, g.Takes x) (k : ℕ) (hk : k < xs.length) :
    ∃ bytes, ((g.withChannelStatus cs).output xs)[k]? = some bytes ∧
      (g.withChannelStatus cs).Framed k xs[k] (endian.order.load bytes) := by
  obtain ⟨hat, hnum, -, hendian⟩ := At.create hcreate cs
  obtain ⟨bytes, hbytes, hframed⟩ := hat.getElem_output (hnum ▸ hn) hxs hk
  rw [Nat.zero_add, show (g.withChannelStatus cs).endian = endian from hendian] at hframed
  exact ⟨bytes, hbytes, hframed⟩

/-- Two channels of 24 bits. -/
def stereo : AM824Framer := (create 2 24 .bigEndian).get rfl

theorem output_framed_stereo : ∃ bytes,
    ((stereo.withChannelStatus (Vector.replicate channelStatusBytes 0xff)).output [0x123456, 0xffffff])[1]? =
      some bytes ∧
    (stereo.withChannelStatus (Vector.replicate channelStatusBytes 0xff)).Framed 1 0xffffff
      (ByteOrder.big.load bytes) :=
  output_framed (n := 2) (by decide) (Option.some_get rfl).symm _ [0x123456, 0xffffff]
    (List.forall_iff_forall_mem.mp (by decide)) 1 (by decide)

/-! ## The samples of the converter -/

/-- The sample that `am824Convert` reads, in the byte order of the machine. -/
def inputSample (bytesPerSample : UInt8) (bytes : List UInt8) : UInt32 :=
  if bytesPerSample = 3 then (ByteOrder.little.load (bytes.take 4)).toUInt32 &&& (0xffffff : UInt32)
  else (ByteOrder.little.load (bytes.take 2)).toUInt32

/-- **What the converter gives to its framer is a sample of the bit depth.** -/
theorem takes_inputSample {bytesPerSample : UInt8}
    (hbytes : bytesPerSample = 2 ∨ bytesPerSample = 3) (hdepth : f.bitDepth = bytesPerSample * 8)
    (bytes : List UInt8) : f.Takes (inputSample bytesPerSample bytes) := by
  unfold Takes inputSample
  obtain rfl | rfl := hbytes
  · rw [hdepth, if_neg (by decide), if_pos (by decide), Nat.toUInt32, UInt32.toNat_ofNat']
    have hlt := Bytes.value_lt (bytes.take 2)
    have hlen : 256 ^ (bytes.take 2).length ≤ 256 ^ 2 :=
      Nat.pow_le_pow_right (by decide) ((List.length_take_le ..))
    exact ((Nat.mod_le _ _).trans_lt hlt).trans_le hlen
  · rw [hdepth, if_pos rfl, if_neg (by decide), UInt32.toNat_and]
    exact Nat.lt_of_le_of_lt Nat.and_le_right (by decide)

end AM824Framer
end Aes67Daemon
