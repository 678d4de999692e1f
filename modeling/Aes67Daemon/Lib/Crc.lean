import Mathlib.Data.List.Basic
import Mathlib.Data.UInt
import Mathlib.Logic.Function.Iterate

/-!
# Cyclic redundancy checks

A register takes in a message bit by bit.  The bit that falls out at the top and the bit of
the message decide together whether the generator is added.  Codes that look up a table or
shift whole bytes never take in a bit: they put the message into the register first and
shift it afterwards.  Shifting is linear, and so the order does not matter as long as the
message fits into the register.

The other way round, least significant bit first, everything is mirrored.

## Main definitions

* `Crc.register`, `Crc.registerLow` — the register after a message, in the two directions.
* `Crc.shift`, `Crc.shiftLow` — a shift without a message.
* `Crc.register_eq`, `Crc.registerLow_eq` — the message may be put in first.
* `Crc.register_ne_of_ne` — a change within as many bits as the register has is noticed.
-/
namespace Aes67Daemon
namespace Crc

variable {w : ℕ} {g r : BitVec w}

/-- A shift of the register; `g` is the generator without its leading term. -/
def shift (g r : BitVec w) : BitVec w := if r.msb then (r <<< 1) ^^^ g else r <<< 1

/-- A bit of the message, most significant first. -/
def feed (g r : BitVec w) (b : Bool) : BitVec w := if r.msb ^^ b then (r <<< 1) ^^^ g else r <<< 1

/-- The register after a message. -/
def register (g init : BitVec w) (bits : List Bool) : BitVec w := bits.foldl (feed g) init

/-- A bit at the top of a register. -/
def topBit (b : Bool) : BitVec w := if b then BitVec.twoPow w (w - 1) else 0

/-- Bits at the top of a register, the first of them the most significant. -/
def top : List Bool → BitVec w
  | [] => 0
  | b :: bs => topBit b ^^^ (top bs >>> 1)

/-! ## Shifts -/

theorem shift_xor (g a b : BitVec w) : shift g (a ^^^ b) = shift g a ^^^ shift g b := by
  unfold shift
  rw [BitVec.msb_xor, BitVec.shiftLeft_xor_distrib]
  cases a.msb <;> cases b.msb
  · rfl
  · simp [BitVec.xor_assoc]
  · simp [BitVec.xor_assoc, BitVec.xor_comm g]
  · simp only [Bool.xor_self, Bool.false_eq_true, if_false, if_true]
    rw [BitVec.xor_comm (b <<< 1) g, BitVec.xor_assoc, ← BitVec.xor_assoc g g, BitVec.xor_self, BitVec.zero_xor]

theorem iterate_shift_xor (g a b : BitVec w) (n : ℕ) :
    (shift g)^[n] (a ^^^ b) = (shift g)^[n] a ^^^ (shift g)^[n] b := by
  induction n generalizing a b with
  | zero => rfl
  | succ n ih => rw [Function.iterate_succ_apply, Function.iterate_succ_apply, Function.iterate_succ_apply, shift_xor, ih]

/-- What stands one place lower, and has lost nothing, is shifted up again. -/
theorem shift_ushiftRight (g : BitVec w) {y : BitVec w} (hy : y.getMsbD (w - 1) = false) : shift g (y >>> 1) = y := by
  have hmsb : (y >>> 1).msb = false := by simp [BitVec.msb_ushiftRight]
  rw [shift, hmsb, if_neg (by simp)]
  refine BitVec.eq_of_getMsbD_eq fun i hi => ?_
  rw [BitVec.getMsbD_shiftLeft, BitVec.getMsbD_ushiftRight]
  by_cases hlast : i + 1 < w
  · simp [hlast]
  · obtain rfl : i = w - 1 := by omega
    simp [hlast, hy]

/-- Nothing falls out of a register that is clear at the top. -/
theorem iterate_shift_of_clear (g : BitVec w) {y : BitVec w} {n : ℕ} (hy : ∀ i < n, y.getMsbD i = false) :
    (shift g)^[n] y = y <<< n := by
  induction n generalizing y with
  | zero => simp
  | succ n ih =>
      have hstep : shift g y = y <<< 1 := by
        rw [shift, BitVec.msb_eq_getMsbD_zero, hy 0 (Nat.succ_pos n), if_neg (by simp)]
      have hclear : ∀ i < n, (y <<< 1).getMsbD i = false := by
        intro i hi
        rw [BitVec.getMsbD_shiftLeft]
        exact hy (i + 1) (by omega)
      rw [Function.iterate_succ_apply, hstep, ih hclear, ← BitVec.shiftLeft_add, Nat.add_comm]

/-! ## The message first -/

theorem getMsbD_topBit (b : Bool) (i : ℕ) :
    (topBit b : BitVec w).getMsbD i = (decide (i < w) && (decide (i = 0) && b)) := by
  cases b with
  | false => simp [topBit]
  | true =>
      rw [topBit, if_pos rfl, BitVec.getMsbD_twoPow, Bool.eq_iff_iff]
      simp only [Bool.and_eq_true, decide_eq_true_eq, and_true]
      omega

theorem getMsbD_top (bits : List Bool) (i : ℕ) :
    (top bits : BitVec w).getMsbD i = (decide (i < w) && bits[i]?.getD false) := by
  induction bits generalizing i with
  | nil => simp [top]
  | cons b bs ih =>
      rw [top, BitVec.getMsbD_xor, getMsbD_topBit, BitVec.getMsbD_ushiftRight, ih]
      cases i with
      | zero => simp
      | succ i =>
          have hlt : i + 1 < w → i < w := fun h => by omega
          by_cases hi : i + 1 < w
          · simp [hi, hlt hi]
          · simp [hi]

theorem top_injective {bits bits' : List Bool} (hlen : bits.length ≤ w) (hlen' : bits'.length = bits.length)
    (h : (top bits : BitVec w) = top bits') : bits = bits' := by
  refine List.ext_getElem hlen'.symm fun i hi hi' => ?_
  have hbit := congrArg (fun v => v.getMsbD i) h
  simpa [getMsbD_top, hi, hi', Nat.lt_of_lt_of_le hi hlen] using hbit

theorem feed_eq (hw : 0 < w) (g r : BitVec w) (b : Bool) : feed g r b = shift g (r ^^^ topBit b) := by
  have hmsb : (r ^^^ topBit b).msb = (r.msb ^^ b) := by
    rw [BitVec.msb_xor, BitVec.msb_eq_getMsbD_zero (topBit b), getMsbD_topBit]
    simp [hw]
  have hshift : (r ^^^ topBit b) <<< 1 = r <<< 1 := by
    refine BitVec.eq_of_getMsbD_eq fun i _ => ?_
    rw [BitVec.getMsbD_shiftLeft, BitVec.getMsbD_shiftLeft, BitVec.getMsbD_xor, getMsbD_topBit]
    simp
  rw [feed, shift, hmsb, hshift]

/-- **The message may be put into the register first.** -/
theorem register_eq (g r : BitVec w) {bits : List Bool} (hlen : bits.length ≤ w) :
    register g r bits = (shift g)^[bits.length] (r ^^^ top bits) := by
  induction bits generalizing r with
  | nil => simp [register, top]
  | cons b bs ih =>
      rw [List.length_cons] at hlen
      have hlast : (top bs : BitVec w).getMsbD (w - 1) = false := by
        rw [getMsbD_top, List.getElem?_eq_none (by omega)]
        simp
      have hrest := ih (feed g r b) (by omega)
      rw [register, List.foldl_cons, ← register, hrest, feed_eq (by omega), List.length_cons, Function.iterate_succ_apply,
        top, ← BitVec.xor_assoc, shift_xor g (r ^^^ topBit b), shift_ushiftRight g hlast]

/-! ## What is noticed -/

theorem eq_of_xor_eq_zero {a b : BitVec w} (h : a ^^^ b = 0) : a = b := by
  have hcancel := congrArg (· ^^^ b) h
  simpa [BitVec.xor_assoc] using hcancel

/-- A generator with a constant term loses nothing of the register. -/
theorem shift_injective (hg : g.getLsbD 0 = true) : Function.Injective (shift g) := by
  intro a b h
  have hzero : shift g (a ^^^ b) = 0 := by rw [shift_xor, h, BitVec.xor_self]; rfl
  refine eq_of_xor_eq_zero ?_
  generalize a ^^^ b = c at hzero
  have hmsb : c.msb = false := by
    by_contra htop
    rw [Bool.not_eq_false] at htop
    have hbit := congrArg (fun v => v.getLsbD 0) hzero
    simp [shift, htop, hg] at hbit
  rw [shift, hmsb, if_neg (by simp)] at hzero
  refine BitVec.eq_of_getMsbD_eq fun i hi => ?_
  cases i with
  | zero => rw [← BitVec.msb_eq_getMsbD_zero, hmsb]; simp
  | succ i =>
      have hbit := congrArg (fun v => v.getMsbD i) hzero
      simpa using hbit

theorem register_append (g r : BitVec w) (bits bits' : List Bool) :
    register g r (bits ++ bits') = register g (register g r bits) bits' :=
  List.foldl_append

theorem register_injective (hw : 0 < w) (hg : g.getLsbD 0 = true) (bits : List Bool) :
    Function.Injective fun r => register g r bits := by
  induction bits with
  | nil => exact fun _ _ h => h
  | cons b bs ih =>
      intro r r' h
      have hfeed := ih h
      rw [feed_eq hw, feed_eq hw] at hfeed
      have hxor := congrArg (· ^^^ topBit b) (shift_injective hg hfeed)
      simpa [BitVec.xor_assoc] using hxor

/-- **A change within as many bits as the register has is noticed**, whatever is before and
after them. -/
theorem register_ne_of_ne (hw : 0 < w) (hg : g.getLsbD 0 = true) (r : BitVec w) (pre post : List Bool)
    {bits bits' : List Bool} (hlen : bits.length ≤ w) (hlen' : bits'.length = bits.length) (hne : bits ≠ bits') :
    register g r (pre ++ (bits ++ post)) ≠ register g r (pre ++ (bits' ++ post)) := by
  intro h
  rw [register_append, register_append, register_append, register_append] at h
  have hmiddle := register_injective hw hg post h
  rw [register_eq _ _ hlen, register_eq _ _ (hlen'.trans_le hlen), hlen'] at hmiddle
  have hxor := ((shift_injective hg).iterate _) hmiddle
  exact hne (top_injective hlen hlen' (by simpa using congrArg (register g r pre ^^^ ·) hxor))

/-! ## Least significant bit first -/

/-- A shift of a register that has the highest degree at its lowest bit. -/
def shiftLow (g r : BitVec w) : BitVec w := if r.getLsbD 0 then (r >>> 1) ^^^ g.reverse else r >>> 1

/-- A bit of the message, least significant first. -/
def feedLow (g r : BitVec w) (b : Bool) : BitVec w :=
  if r.getLsbD 0 ^^ b then (r >>> 1) ^^^ g.reverse else r >>> 1

/-- The register after a message. -/
def registerLow (g init : BitVec w) (bits : List Bool) : BitVec w := bits.foldl (feedLow g) init

theorem reverse_xor (a b : BitVec w) : (a ^^^ b).reverse = a.reverse ^^^ b.reverse := by
  refine BitVec.eq_of_getMsbD_eq fun i _ => ?_
  simp only [BitVec.getMsbD_reverse, BitVec.getMsbD_xor, BitVec.getLsbD_xor]

theorem reverse_ushiftRight (a : BitVec w) : (a >>> 1).reverse = a.reverse <<< 1 := by
  refine BitVec.eq_of_getMsbD_eq fun i _ => ?_
  rw [BitVec.getMsbD_reverse, BitVec.getLsbD_ushiftRight, BitVec.getMsbD_shiftLeft, BitVec.getMsbD_reverse, Nat.add_comm]

theorem reverse_shiftLow (g r : BitVec w) : (shiftLow g r).reverse = shift g r.reverse := by
  rw [shiftLow, shift, BitVec.msb_reverse]
  split
  · rw [reverse_xor, reverse_ushiftRight, BitVec.reverse_reverse_eq]
  · rw [reverse_ushiftRight]

theorem reverse_feedLow (g r : BitVec w) (b : Bool) : (feedLow g r b).reverse = feed g r.reverse b := by
  rw [feedLow, feed, BitVec.msb_reverse]
  split
  · rw [reverse_xor, reverse_ushiftRight, BitVec.reverse_reverse_eq]
  · rw [reverse_ushiftRight]

/-- **One direction mirrors the other.** -/
theorem reverse_registerLow (g r : BitVec w) (bits : List Bool) :
    (registerLow g r bits).reverse = register g r.reverse bits := by
  induction bits generalizing r with
  | nil => rfl
  | cons b bs ih => exact (ih (feedLow g r b)).trans (congrArg (register g · bs) (reverse_feedLow g r b))

theorem reverse_iterate_shiftLow (g r : BitVec w) (n : ℕ) :
    ((shiftLow g)^[n] r).reverse = (shift g)^[n] r.reverse :=
  (Function.Semiconj.iterate_right (reverse_shiftLow g) n).eq r

theorem registerLow_eq (g r : BitVec w) {bits : List Bool} (hlen : bits.length ≤ w) :
    registerLow g r bits = (shiftLow g)^[bits.length] (r ^^^ (top bits).reverse) := by
  have hreverse : (registerLow g r bits).reverse = ((shiftLow g)^[bits.length] (r ^^^ (top bits).reverse)).reverse := by
    rw [reverse_registerLow, reverse_iterate_shiftLow, reverse_xor, BitVec.reverse_reverse_eq, register_eq _ _ hlen]
  simpa [BitVec.reverse_reverse_eq] using congrArg BitVec.reverse hreverse

/-! ## Bytes -/

/-- The bits of a byte, most significant first. -/
def msbFirst (b : UInt8) : List Bool := (List.range 8).map b.toBitVec.getMsbD

/-- The bits of a byte, least significant first. -/
def lsbFirst (b : UInt8) : List Bool := (List.range 8).map b.toBitVec.getLsbD

@[simp] theorem length_msbFirst (b : UInt8) : (msbFirst b).length = 8 := by simp [msbFirst]

@[simp] theorem length_lsbFirst (b : UInt8) : (lsbFirst b).length = 8 := by simp [lsbFirst]

theorem msbFirst_injective : Function.Injective msbFirst := by
  intro b b' h
  refine UInt8.toBitVec_inj.mp (BitVec.eq_of_getMsbD_eq fun i hi => ?_)
  have hbit := congrArg (fun bits => bits[i]?) h
  simpa [msbFirst, hi] using hbit

theorem reverse_top_lsbFirst (b : UInt8) : (top (lsbFirst b) : BitVec 8).reverse = b.toBitVec := by
  refine BitVec.eq_of_getLsbD_eq fun i hi => ?_
  rw [BitVec.getLsbD_reverse, getMsbD_top]
  simp [lsbFirst, hi]

end Crc
end Aes67Daemon
