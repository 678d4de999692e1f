import Aes67Daemon.Am824.Framer
import Aes67Daemon.Lib.CrcRemainder

/-!
# The check byte of the channel status

The last byte of the channel status is a CRC of the others, least significant bit first.
`AM824Framer` looks each byte up in a table that `crcTableInit` fills, and every setter that
changes the first byte computes the check byte anew.

## Main definitions

* `AM824Framer.crcTable`, `AM824Framer.tableStep` — the table, and a byte by it.
* `ChannelStatusCall`, `AM824Framer.call` — the calls of the setters, those refused among them.
* `AM824Framer.bitwiseCrc` — the check byte, bit by bit.
* `AM824Framer.checkByte_eq` — after any calls the check byte is right.
* `AM824Framer.poly_bitwiseCrc` — it is a remainder.
-/
namespace Aes67Daemon

/-- `AM824ErrorCode`, for `setSamplingFrequency`. -/
inductive AM824ErrorCode
  | ok
  | badSamplingFrequency
  deriving DecidableEq

/-- A call of one of the setters. -/
inductive ChannelStatusCall
  | setSamplingFrequency (fsCode : Int32)
  | setProfessionalMode
  | setConsumerMode
  | setAudioMode
  | setDataMode
  deriving DecidableEq

namespace AM824Framer

open Polynomial

variable {f : AM824Framer}

/-- `crcTable`, as `crcTableInit` fills it. -/
def crcTable : Vector UInt8 256 := Vector.ofFn fun dividend => crcEntry (UInt8.ofNat dividend)

/-- A round of the loop of `setCRC`. -/
def tableStep (remainder byte : UInt8) : UInt8 := crcTable.get ⟨(byte ^^^ remainder).toNat, UInt8.toNat_lt _⟩

/-- `setSamplingFrequency`, with whatever code it is given, promoted to `int`. -/
def setSamplingFrequencyCode (fsCode : Int32) (f : AM824Framer) : AM824Framer × AM824ErrorCode :=
  if AM824SamplingFrequency.fs32000.code.toUInt32.toInt32 < fsCode then (f, .badSamplingFrequency)
  else (f.setFirst fun b => (b &&& (0x3f : UInt8)) ||| (fsCode <<< 6).toUInt32.toUInt8, .ok)

/-- The framer after a call. -/
def call (f : AM824Framer) : ChannelStatusCall → AM824Framer
  | .setSamplingFrequency fsCode => (f.setSamplingFrequencyCode fsCode).1
  | .setProfessionalMode => f.setProfessionalMode
  | .setConsumerMode => f.setConsumerMode
  | .setAudioMode => f.setAudioMode
  | .setDataMode => f.setDataMode

theorem setSamplingFrequencyCode_code (fs : AM824SamplingFrequency) (f : AM824Framer) :
    f.setSamplingFrequencyCode fs.code.toUInt32.toInt32 = (f.setSamplingFrequency fs, .ok) := by
  cases fs <;> rfl

/-- A call changes only the contents of the channel status. -/
theorem exists_call (c : ChannelStatusCall) (f : AM824Framer) : ∃ cs, f.call c = f.withChannelStatus cs := by
  cases c with
  | setSamplingFrequency fsCode =>
      rw [call, setSamplingFrequencyCode]
      split
      · exact ⟨f.channelStatus, rfl⟩
      · exact ⟨_, rfl⟩
  | setProfessionalMode | setConsumerMode | setAudioMode | setDataMode => exact ⟨_, rfl⟩

theorem exists_calls (calls : List ChannelStatusCall) (f : AM824Framer) :
    ∃ cs, calls.foldl call f = f.withChannelStatus cs := by
  induction calls generalizing f with
  | nil => exact ⟨f.channelStatus, rfl⟩
  | cons c calls ih =>
      obtain ⟨cs, hcs⟩ := exists_call c f
      obtain ⟨cs', hcs'⟩ := ih (f.withChannelStatus cs)
      exact ⟨cs', by rw [List.foldl_cons, hcs, hcs']; rfl⟩

/-! ## A byte -/

/-- x⁸ + x⁴ + x³ + x² + 1, without the leading term. -/
def generator : BitVec 8 := 0x1d

/-- The check byte of the other bytes, bit by bit. -/
def bitwiseCrc (cs : Vector UInt8 channelStatusBytes) : BitVec 8 :=
  Crc.registerLow generator 0xff ((cs.toList.take 23).flatMap Crc.lsbFirst)

theorem tableStep_eq (remainder byte : UInt8) : tableStep remainder byte = crcEntry (byte ^^^ remainder) := by
  have hlt := (byte ^^^ remainder).toNat_lt
  have hget : tableStep remainder byte = crcTable[(byte ^^^ remainder).toNat] := rfl
  rw [hget, crcTable, Vector.getElem_ofFn, UInt8.ofNat_toNat]

/-- A round of the loop of `crcTableInit`. -/
theorem toBitVec_round (remainder : UInt8) :
    (if remainder &&& (1 : UInt8) = 1 then (remainder >>> 1) ^^^ 0xb8 else remainder >>> 1 : UInt8).toBitVec =
      Crc.shiftLow generator remainder.toBitVec := by
  have hbit : remainder &&& (1 : UInt8) = 1 ↔ remainder.toBitVec.getLsbD 0 = true := by
    rw [← UInt8.toBitVec_inj, UInt8.toBitVec_and, show (1 : UInt8).toBitVec = 1#8 from rfl,
      BitVec.and_one_eq_setWidth_ofBool_getLsbD]
    cases remainder.toBitVec.getLsbD 0 <;> decide
  rw [Crc.shiftLow, apply_ite UInt8.toBitVec]
  simp only [hbit]
  rfl

theorem toBitVec_crcEntry (dividend : UInt8) :
    (crcEntry dividend).toBitVec = (Crc.shiftLow generator)^[8] dividend.toBitVec := by
  rw [crcEntry, List.foldl_const, List.length_range]
  exact (Function.Semiconj.iterate_right toBitVec_round 8).eq dividend

/-- **A byte by the table is eight bits.** -/
theorem toBitVec_tableStep (remainder byte : UInt8) :
    (tableStep remainder byte).toBitVec = Crc.registerLow generator remainder.toBitVec (Crc.lsbFirst byte) := by
  rw [tableStep_eq, toBitVec_crcEntry, Crc.registerLow_eq _ _ (Crc.length_lsbFirst byte).le, Crc.length_lsbFirst,
    Crc.reverse_top_lsbFirst, UInt8.toBitVec_xor, BitVec.xor_comm]

/-! ## The block -/

theorem toBitVec_foldl_crcEntry (bytes : List UInt8) (remainder : UInt8) :
    (bytes.foldl (fun remainder byte => crcEntry (byte ^^^ remainder)) remainder).toBitVec =
      Crc.registerLow generator remainder.toBitVec (bytes.flatMap Crc.lsbFirst) := by
  have hstep : ∀ remainder byte : UInt8, (Crc.lsbFirst byte).foldl (Crc.feedLow generator) remainder.toBitVec =
      (crcEntry (byte ^^^ remainder)).toBitVec := by
    intro remainder byte
    rw [← tableStep_eq, toBitVec_tableStep, Crc.registerLow]
  rw [Crc.registerLow, List.foldl_flatMap]
  exact (List.foldl_hom UInt8.toBitVec hstep).symm

theorem toBitVec_crc (cs : Vector UInt8 channelStatusBytes) : (crc cs).toBitVec = bitwiseCrc cs :=
  toBitVec_foldl_crcEntry _ _

/-- The check byte does not depend on itself. -/
theorem bitwiseCrc_set (cs : Vector UInt8 channelStatusBytes) (b : UInt8) :
    bitwiseCrc (cs.set 23 b) = bitwiseCrc cs := by
  rw [bitwiseCrc, bitwiseCrc, Vector.toList_set, List.take_set_of_le (le_refl 23)]

theorem lt_channelStatusBytes : 23 < channelStatusBytes := by decide

/-- The check byte is right. -/
def Checked (f : AM824Framer) : Prop :=
  (getElem f.channelStatus 23 lt_channelStatusBytes).toBitVec = bitwiseCrc f.channelStatus

theorem checked_setCRC (f : AM824Framer) : f.setCRC.Checked := by
  rw [Checked, setCRC, withChannelStatus, bitwiseCrc_set, Vector.getElem_set_self, toBitVec_crc]

theorem checked_setFirst (change : UInt8 → UInt8) (f : AM824Framer) : (f.setFirst change).Checked :=
  checked_setCRC _

theorem checked_create {n depth : UInt8} {endian : AM824Endianess} (h : create n depth endian = some f) :
    f.Checked := by
  obtain ⟨bits, -, rfl⟩ := Option.map_eq_some_iff.mp h
  exact checked_setCRC _

/-- **A call leaves the check byte right**, whether it is accepted or not. -/
theorem Checked.call (h : f.Checked) (c : ChannelStatusCall) : (f.call c).Checked := by
  cases c with
  | setSamplingFrequency fsCode =>
      rw [AM824Framer.call, setSamplingFrequencyCode]
      split
      · exact h
      · exact checked_setFirst _ f
  | setProfessionalMode => exact checked_setFirst _ f
  | setConsumerMode => exact checked_setFirst _ f
  | setAudioMode => exact checked_setFirst _ f
  | setDataMode => exact checked_setFirst _ f

theorem Checked.calls (h : f.Checked) (calls : List ChannelStatusCall) :
    (calls.foldl AM824Framer.call f).Checked := by
  induction calls generalizing f with
  | nil => exact h
  | cons c calls ih => exact ih (h.call c)

/-- **The check byte is the CRC of the other bytes** after any calls of the setters, and a byte by
the table is eight bits of it. -/
theorem checkByte_eq {n depth : UInt8} {endian : AM824Endianess} (hcreate : create n depth endian = some f)
    (calls : List ChannelStatusCall) :
    (calls.foldl call f).channelStatus[23].toBitVec =
        Crc.registerLow generator 0xff (((calls.foldl call f).channelStatus.toList.take 23).flatMap Crc.lsbFirst) ∧
      ∀ remainder byte : UInt8,
        (tableStep remainder byte).toBitVec = Crc.registerLow generator remainder.toBitVec (Crc.lsbFirst byte) :=
  ⟨(checked_create hcreate).calls calls, toBitVec_tableStep⟩

theorem checkByte_eq_stereo :
    (([.setConsumerMode, .setSamplingFrequency 7].foldl call stereo).channelStatus[23].toBitVec =
        Crc.registerLow generator 0xff
          ((([.setConsumerMode, .setSamplingFrequency 7].foldl call stereo).channelStatus.toList.take 23).flatMap
            Crc.lsbFirst)) ∧
      ∀ remainder byte : UInt8,
        (tableStep remainder byte).toBitVec = Crc.registerLow generator remainder.toBitVec (Crc.lsbFirst byte) :=
  checkByte_eq (Option.some_get rfl).symm [.setConsumerMode, .setSamplingFrequency 7]

/-! ## Remainders -/

theorem divisor_generator : Crc.divisor generator = X ^ 8 + X ^ 4 + X ^ 3 + X ^ 2 + 1 := by
  have hpoly : Crc.poly generator = 1 + X ^ 2 + X ^ 3 + X ^ 4 := by
    simp [Crc.poly, generator, Finset.sum_range_succ, Crc.bit, ← X_pow_eq_monomial]
  rw [Crc.divisor, hpoly]
  ring

/-- **The check byte is the remainder of a division by x⁸ + x⁴ + x³ + x² + 1**, with the lowest bit
for the highest degree. -/
theorem poly_bitwiseCrc (cs : Vector UInt8 channelStatusBytes) : Crc.poly (bitwiseCrc cs).reverse =
    (Crc.poly (0xff : BitVec 8) * X ^ 184 + Crc.message ((cs.toList.take 23).flatMap Crc.lsbFirst) * X ^ 8) %ₘ
      (X ^ 8 + X ^ 4 + X ^ 3 + X ^ 2 + 1) := by
  have hlen : ((cs.toList.take 23).flatMap Crc.lsbFirst).length = 184 := by
    simp [List.length_flatMap, channelStatusBytes]
  have hinit : (0xff : BitVec 8).reverse = 0xff := by decide
  rw [bitwiseCrc, Crc.reverse_registerLow, Crc.poly_register, divisor_generator, hlen, hinit]

/-- The examples of AES3. -/
example : bitwiseCrc (((((Vector.replicate 24 (0 : UInt8)).set 0 0x3d).set 1 2).set 4 2)) = 0x9b ∧
    bitwiseCrc ((Vector.replicate 24 (0 : UInt8)).set 0 1) = 0x32 := by decide +kernel

end AM824Framer
end Aes67Daemon
