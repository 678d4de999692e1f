import Aes67Daemon.Lib.CrcRemainder
import Aes67Daemon.Session.Announce

/-!
# The CRC of a description

`crc16` tells descriptions apart: a source that changes is announced under another hash, and a
remote one has another id.  The loop takes in a byte with three shifts and no test; that is eight
bits of CRC-16/CCITT-FALSE, most significant first.

## Main definitions

* `crc16Step` — the body of the loop.
* `toBitVec_crc16Step` — it takes in eight bits.
* `crc16_eq` — `crc16` is the CRC, and notices a byte that changes.
* `poly_crc16` — the CRC is a remainder.
-/
namespace Aes67Daemon

open Polynomial

/-- The byte that a character of a text stands for. -/
def Text.byte (c : Char) : UInt8 := UInt8.ofNat c.toNat

/-- x¹⁶ + x¹² + x⁵ + 1, without the leading term. -/
def crc16Generator : BitVec 16 := 0x1021

/-- What the loop makes of the byte that falls out. -/
def crc16Spread (x : UInt8) : UInt16 :=
  let x := x ^^^ (x >>> (4 : UInt8))
  (x.toUInt16 <<< (12 : UInt16)) ^^^ (x.toUInt16 <<< (5 : UInt16)) ^^^ x.toUInt16

/-- The body of the loop of `crc16`. -/
def crc16Step (crc : UInt16) (b : UInt8) : UInt16 :=
  (crc <<< (8 : UInt16)) ^^^ crc16Spread ((crc >>> (8 : UInt16)).toUInt8 ^^^ b)

theorem crc16_eq_foldl (t : Text) : crc16 t = (t.map Text.byte).foldl crc16Step 0xffff := by
  have hstep : ∀ (crc : UInt16) (c : Char),
      (let x := (crc >>> (8 : UInt16)).toUInt8 ^^^ UInt8.ofNat c.toNat
        let x := x ^^^ (x >>> (4 : UInt8))
        (crc <<< (8 : UInt16)) ^^^ (x.toUInt16 <<< (12 : UInt16)) ^^^ (x.toUInt16 <<< (5 : UInt16)) ^^^
          x.toUInt16) = crc16Step crc (Text.byte c) := by
    intro crc c
    rw [crc16Step, crc16Spread, Text.byte, UInt16.xor_assoc, UInt16.xor_assoc, UInt16.xor_assoc]
  rw [crc16, List.foldl_map]
  simp only [hstep]

/-! ## A byte -/

/-- The shifts of the loop do for every byte what eight shifts of the register do. -/
theorem toBitVec_crc16Spread (x : UInt8) :
    (crc16Spread x).toBitVec = (Crc.shift crc16Generator)^[8] (x.toBitVec.setWidth 16 <<< 8) := by
  have hall : (List.range 256).all (fun n => decide ((crc16Spread (UInt8.ofNat n)).toBitVec =
      (Crc.shift crc16Generator)^[8] ((UInt8.ofNat n).toBitVec.setWidth 16 <<< 8))) = true := by decide +kernel
  have hx := List.all_eq_true.mp hall x.toNat (List.mem_range.mpr x.toNat_lt)
  rw [UInt8.ofNat_toNat] at hx
  exact of_decide_eq_true hx

theorem top_msbFirst (b : UInt8) : (Crc.top (Crc.msbFirst b) : BitVec 16) = b.toBitVec.setWidth 16 <<< 8 := by
  refine BitVec.eq_of_getMsbD_eq fun i hi => ?_
  rw [Crc.getMsbD_top, BitVec.getMsbD_shiftLeft, BitVec.getMsbD_setWidth]
  by_cases hlow : i < 8
  · simp [hi, hlow, Crc.msbFirst]
  · rw [BitVec.getMsbD_of_ge _ _ (by omega), List.getElem?_eq_none (by simp; omega)]
    simp

/-- The register with a byte put in, cut into the byte that falls out and the one that stays. -/
theorem xor_top_msbFirst (crc : UInt16) (b : UInt8) : crc.toBitVec ^^^ Crc.top (Crc.msbFirst b) =
    (((crc >>> (8 : UInt16)).toUInt8 ^^^ b).toBitVec.setWidth 16 <<< 8) ^^^ ((crc.toBitVec <<< 8) >>> 8) := by
  have hhigh : (crc >>> (8 : UInt16)).toUInt8.toBitVec = (crc.toBitVec >>> 8).setWidth 8 := rfl
  rw [top_msbFirst, UInt8.toBitVec_xor, hhigh]
  refine BitVec.eq_of_getLsbD_eq fun i hi => ?_
  simp only [BitVec.getLsbD_xor, BitVec.getLsbD_shiftLeft, BitVec.getLsbD_setWidth, BitVec.getLsbD_ushiftRight]
  by_cases hlow : i < 8
  · simp [hlow, hi, show 8 + i < 16 by omega]
  · simp [hlow, hi, show 8 + (i - 8) = i by omega, show ¬ 8 + i < 16 by omega, show i - 8 < 8 by omega,
      show i - 8 < 16 by omega]

/-- **A round takes in eight bits.** -/
theorem toBitVec_crc16Step (crc : UInt16) (b : UInt8) :
    (crc16Step crc b).toBitVec = Crc.register crc16Generator crc.toBitVec (Crc.msbFirst b) := by
  have hclear : ∀ i < 8, ((crc.toBitVec <<< 8) >>> 8).getMsbD i = false := by
    intro i hi
    simp [BitVec.getMsbD_ushiftRight, hi]
  have hback : ((crc.toBitVec <<< 8) >>> 8) <<< 8 = crc.toBitVec <<< 8 := by
    refine BitVec.eq_of_getLsbD_eq fun i hi => ?_
    simp only [BitVec.getLsbD_shiftLeft, BitVec.getLsbD_ushiftRight]
    by_cases hlow : i < 8
    · simp [hlow]
    · simp [hlow, hi, show 8 + (i - 8) = i by omega]
  rw [Crc.register_eq _ _ (by simp), Crc.length_msbFirst, xor_top_msbFirst, Crc.iterate_shift_xor,
    Crc.iterate_shift_of_clear _ hclear, hback, ← toBitVec_crc16Spread, crc16Step, UInt16.toBitVec_xor, BitVec.xor_comm]
  rfl

/-! ## A text -/

theorem toBitVec_foldl_crc16Step (bytes : List UInt8) (crc : UInt16) :
    (bytes.foldl crc16Step crc).toBitVec = Crc.register crc16Generator crc.toBitVec (bytes.flatMap Crc.msbFirst) := by
  rw [Crc.register, List.foldl_flatMap]
  exact (List.foldl_hom UInt16.toBitVec fun crc b => (toBitVec_crc16Step crc b).symm).symm

/-- The bits of a text, most significant first. -/
def Text.bits (t : Text) : List Bool := t.flatMap fun c => Crc.msbFirst (Text.byte c)

theorem toBitVec_crc16 (t : Text) : (crc16 t).toBitVec = Crc.register crc16Generator 0xffff t.bits := by
  rw [crc16_eq_foldl, toBitVec_foldl_crc16Step, List.flatMap_map]
  rfl

theorem crc16_ne_of_byte (pre post : Text) {c c' : Char} (hne : Text.byte c ≠ Text.byte c') :
    crc16 (pre ++ c :: post) ≠ crc16 (pre ++ c' :: post) := by
  intro h
  have hbits : ∀ c, Text.bits (pre ++ c :: post) = Text.bits pre ++ (Crc.msbFirst (Text.byte c) ++ Text.bits post) :=
    fun c => by simp [Text.bits]
  have hregister := congrArg UInt16.toBitVec h
  rw [toBitVec_crc16, toBitVec_crc16, hbits, hbits] at hregister
  exact Crc.register_ne_of_ne (by decide) (by decide) _ _ _ (by simp) (by simp) (Crc.msbFirst_injective.ne hne) hregister

/-- **`crc16` is CRC-16/CCITT-FALSE**, and a byte that changes changes it. -/
theorem crc16_eq (t pre post : Text) {c c' : Char} (hne : Text.byte c ≠ Text.byte c') :
    (crc16 t).toBitVec = Crc.register crc16Generator 0xffff t.bits ∧
      crc16 (pre ++ c :: post) ≠ crc16 (pre ++ c' :: post) :=
  ⟨toBitVec_crc16 t, crc16_ne_of_byte pre post hne⟩

theorem crc16_eq_digits :
    (crc16 "123456789".toList).toBitVec = Crc.register crc16Generator 0xffff (Text.bits "123456789".toList) ∧
      crc16 ("1234".toList ++ '5' :: "6789".toList) ≠ crc16 ("1234".toList ++ '6' :: "6789".toList) :=
  crc16_eq "123456789".toList "1234".toList "6789".toList (by decide)

/-- The check value of CRC-16/CCITT-FALSE. -/
example : crc16 "123456789".toList = 0x29b1 := by decide +kernel

/-- **The hash of a source changes with every byte of its description.** -/
theorem SapPass.hashOf_ne_of_byte (id : UInt8) (pre post : Text) {c c' : Char} (hne : Text.byte c ≠ Text.byte c') :
    SapPass.hashOf id (pre ++ c :: post) ≠ SapPass.hashOf id (pre ++ c' :: post) := by
  intro h
  refine crc16_ne_of_byte pre post hne (UInt16.toNat_inj.mp ?_)
  have hcrc := congrArg UInt32.toNat (add_left_cancel h)
  simpa using hcrc

/-! ## Remainders -/

theorem divisor_crc16Generator : Crc.divisor crc16Generator = X ^ 16 + X ^ 12 + X ^ 5 + 1 := by
  have hpoly : Crc.poly crc16Generator = 1 + X ^ 5 + X ^ 12 := by
    simp [Crc.poly, crc16Generator, Finset.sum_range_succ, Crc.bit, ← X_pow_eq_monomial]
  rw [Crc.divisor, hpoly]
  ring

/-- **`crc16` is the remainder of a division by x¹⁶ + x¹² + x⁵ + 1.** -/
theorem poly_crc16 (t : Text) : Crc.poly (crc16 t).toBitVec =
    (Crc.poly (0xffff : BitVec 16) * X ^ t.bits.length + Crc.message t.bits * X ^ 16) %ₘ (X ^ 16 + X ^ 12 + X ^ 5 + 1) := by
  rw [toBitVec_crc16, Crc.poly_register, divisor_crc16Generator]

end Aes67Daemon
