import Aes67Daemon.Am824.Framer
import Aes67Daemon.Lib.Ones

/-!
# The parity bit

AES3 has the parity bit make the number of ones even among the bits that a sub-frame carries:
the data, V, U, C and P itself.  `getAM824Sample` computes it when the flags for the start of a
frame and of a block already stand in the word, and `getParity` counts every bit that is set.
So the flags count as well: a sub-frame keeps the rule when it has both of them or neither.

## Main definitions

* `AM824Framer.EvenParity` — the rule.
* `AM824Framer.getParity_eq` — what the loop of `getParity` counts.
* `AM824Framer.evenParity_iff` — the words that keep the rule, for every framer and sample.
* `AM824Framer.evenParity_output_iff` — the same, by the place of the word in a sequence.
-/
namespace Aes67Daemon
namespace AM824Framer

variable {f : AM824Framer} {x : UInt32}

/-- The rule of AES3: an even number of ones among the 24 bits of data and V, U, C and P. -/
def EvenParity (word : ℕ) : Prop := Even (ones 28 word)

/-- The sample, in its place in the word. -/
def placed (f : AM824Framer) (x : UInt32) : UInt32 := if f.bitDepth = 16 then x <<< 8 else x

/-- The bits above P: of the sample, and the starts of a frame and of a block. -/
def preamble (f : AM824Framer) (x : UInt32) : List Bool :=
  [(f.placed x).toNat.testBit 28 || decide (f.subFrameCounter = 0),
    (f.placed x).toNat.testBit 29 || decide (f.channelStatusIndex = 0 ∧ f.channelStatusMask = 1),
    (f.placed x).toNat.testBit 30, (f.placed x).toNat.testBit 31]

/-- What makes a word keep the rule.  A sample that comes with a bit in the place of P leaves it no
choice; no sample of the bit depth does. -/
def Protects (f : AM824Framer) (x : UInt32) : Prop :=
  if (f.placed x).toNat.testBit 27 then Odd (ones 27 (f.placed x ||| flag f.channelStatusBit 26).toNat)
  else Even ((f.preamble x).count true)

/-! ## The loop -/

/-- **`getParity` tells whether the number of ones is odd.** -/
theorem getParity_eq (n : UInt32) (parity : Bool) :
    getParity n parity = (parity ^^ decide (Odd (ones 32 n.toNat))) := by
  induction n, parity using getParity.induct with
  | case1 parity =>
      rw [getParity, dif_pos rfl, UInt32.toNat_zero, ones_zero_right]
      simp
  | case2 n parity hn ih =>
      have hne : n.toNat ≠ 0 := fun h0 => hn (UInt32.toNat_inj.mp h0)
      have hpred : (n - 1).toNat = n.toNat - 1 :=
        UInt32.toNat_sub_of_le n 1 (UInt32.le_iff_toNat_le.mpr (Nat.pos_of_ne_zero hne))
      have hcount := ones_and_pred hne n.toNat_lt
      rw [getParity, dif_neg hn, ih, UInt32.toNat_and, hpred, ← hcount]
      cases parity <;> simp [Nat.odd_add_one, -Nat.not_odd_iff_even]

/-! ## A word -/

theorem testBit_word (f : AM824Framer) (x : UInt32) (j : ℕ) : (f.outputSample x).toNat.testBit j =
    ((f.unprotected x).toNat.testBit j || decide (Odd (ones 32 (f.unprotected x).toNat)) && decide (j = 27)) := by
  rw [outputSample, UInt32.toNat_or, Nat.testBit_or, testBit_flag _ (by decide), getParity_eq, Bool.false_xor]
  rfl

/-- The ones below P are those of the sample and of the channel status. -/
theorem ones_unprotected (f : AM824Framer) (x : UInt32) :
    ones 27 (f.unprotected x).toNat = ones 27 (f.placed x ||| flag f.channelStatusBit 26).toNat := by
  refine ones_congr fun i hi => ?_
  rw [testBit_unprotected, UInt32.toNat_or, Nat.testBit_or, testBit_flag _ (by decide)]
  have h28 : i ≠ 28 := by omega
  have h29 : i ≠ 29 := by omega
  simp [h28, h29, placed]

/-- The ones of a word that P is computed from, below P, at its place and above. -/
theorem ones_split (f : AM824Framer) (x : UInt32) : ones 32 (f.unprotected x).toNat =
    ones 27 (f.unprotected x).toNat + ((f.placed x).toNat.testBit 27).toNat + (f.preamble x).count true := by
  have hcount : ∀ a b c d : Bool, [a, b, c, d].count true = a.toNat + b.toNat + c.toNat + d.toNat := by decide
  rw [ones_succ, ones_succ, ones_succ, ones_succ, ones_succ, preamble, hcount]
  simp only [testBit_unprotected, placed]
  simp [Nat.add_assoc]

/-- A bit that makes the sum of two numbers even leaves the one with the parity of the other. -/
theorem even_add_parity (a b : ℕ) : Even (a + (decide (Odd (a + b))).toNat) ↔ Even b := by
  by_cases h : Odd (a + b)
  · simp only [h, decide_true, Bool.toNat_true]
    rw [Nat.odd_iff] at h
    simp only [Nat.even_iff]
    omega
  · simp only [h, decide_false, Bool.toNat_false]
    rw [Nat.odd_iff] at h
    simp only [Nat.even_iff]
    omega

/-- **A word keeps the rule exactly when its preamble has an even number of ones**, unless the
sample itself sets the place of the parity bit. -/
theorem evenParity_outputSample (f : AM824Framer) (x : UInt32) :
    EvenParity (f.outputSample x).toNat ↔ f.Protects x := by
  have hlow : ones 27 (f.outputSample x).toNat = ones 27 (f.unprotected x).toNat := by
    refine ones_congr fun i hi => ?_
    have h27 : i ≠ 27 := by omega
    simp [testBit_word, h27]
  have hplaced : (f.unprotected x).toNat.testBit 27 = (f.placed x).toNat.testBit 27 := by
    simp [testBit_unprotected, placed]
  rw [EvenParity, ones_succ, hlow, testBit_word, hplaced, ones_split, Protects, ← ones_unprotected]
  cases (f.placed x).toNat.testBit 27 with
  | true => simp [Nat.even_add_one]
  | false => simp [even_add_parity]

/-- For a sample of the bit depth the sub-frame has to be first in its frame and in the block, or
in neither. -/
theorem protects_iff_of_takes (hx : f.Takes x) :
    f.Protects x ↔ ((f.channelStatusIndex = 0 ∧ f.channelStatusMask = 1) ↔ f.subFrameCounter = 0) := by
  have hclear : ∀ j, 24 ≤ j → (f.placed x).toNat.testBit j = false := by
    intro j hj
    rw [placed, toNat_shifted hx]
    exact testBit_payload hx hj
  rw [Protects, hclear 27 (by decide), preamble, hclear 28 (by decide), hclear 29 (by decide), hclear 30 (by decide),
    hclear 31 (by decide)]
  by_cases hblock : f.channelStatusIndex = 0 ∧ f.channelStatusMask = 1
  · by_cases hframe : f.subFrameCounter = 0 <;> simp [hblock, hframe]
  · by_cases hframe : f.subFrameCounter = 0 <;> simp [hblock, hframe]

/-- **The words that keep the rule**, for every framer and every sample. -/
theorem evenParity_iff (f : AM824Framer) (x : UInt32) :
    EvenParity (f.endian.order.load (f.getAM824Sample x).2) ↔ f.Protects x := by
  rw [getAM824Sample, load_outputBytes]
  exact f.evenParity_outputSample x

/-- The second channel of the first frame does not keep the rule. -/
theorem second_channel_not_even : ¬ ∀ (f : AM824Framer) (x : UInt32),
    EvenParity (f.endian.order.load (f.getAM824Sample x).2) := by
  intro h
  have heven := h stereo.advance 0
  rw [getAM824Sample, load_outputBytes, evenParity_outputSample, protects_iff_of_takes (by decide)] at heven
  exact absurd heven (by decide)

/-! ## A sequence -/

/-- A sample changes only the place. -/
theorem iterate_advance (f : AM824Framer) (k : ℕ) :
    (AM824Framer.advance^[k] f).numChannels = f.numChannels ∧ (AM824Framer.advance^[k] f).bitDepth = f.bitDepth := by
  induction k with
  | zero => exact ⟨rfl, rfl⟩
  | succ k ih =>
      rw [Function.iterate_succ_apply', advance_numChannels, advance_bitDepth]
      exact ih

theorem At.iterate {start : ℕ} (h : f.At start) (hn : 0 < f.numChannels.toNat) (k : ℕ) :
    (AM824Framer.advance^[k] f).At (start + k) := by
  induction k with
  | zero => exact h
  | succ k ih =>
      rw [Function.iterate_succ_apply']
      exact ih.advance ((f.iterate_advance k).1 ▸ hn)

theorem getElem?_output (f : AM824Framer) (xs : List UInt32) {k : ℕ} (hk : k < xs.length) :
    (f.output xs)[k]? = some (outputBytes f.endian ((AM824Framer.advance^[k] f).outputSample xs[k])) := by
  induction xs generalizing f k with
  | nil => exact absurd hk (Nat.not_lt_zero _)
  | cons x xs ih =>
      cases k with
      | zero => rfl
      | succ k =>
          have hrest := ih f.advance (Nat.lt_of_succ_lt_succ hk)
          rw [advance_endian] at hrest
          rw [Function.iterate_succ_apply]
          exact hrest

/-- **The words of a sequence that keep the rule**, by their place: first in a frame and in the
first frame of a block, or neither. -/
theorem evenParity_output_iff {n depth : UInt8} {endian : AM824Endianess} {g : AM824Framer} (hn : 1 ≤ n.toNat)
    (hcreate : create n depth endian = some g) (cs : Vector UInt8 channelStatusBytes) (xs : List UInt32)
    (hxs : ∀ x ∈ xs, g.Takes x) (k : ℕ) (hk : k < xs.length) :
    ∃ bytes, ((g.withChannelStatus cs).output xs)[k]? = some bytes ∧
      (EvenParity (endian.order.load bytes) ↔ (192 ∣ k / n.toNat ↔ n.toNat ∣ k)) := by
  obtain ⟨hat, hnum, hdepth, hendian⟩ := At.create hcreate cs
  refine ⟨_, getElem?_output _ xs hk, ?_⟩
  obtain ⟨hnumk, hdepthk⟩ := (g.withChannelStatus cs).iterate_advance k
  have hatk := hat.iterate (hnum ▸ hn : 0 < g.numChannels.toNat) k
  have hnumk : (AM824Framer.advance^[k] (g.withChannelStatus cs)).numChannels = n := hnumk.trans hnum
  rw [Nat.zero_add] at hatk
  have htakes : (AM824Framer.advance^[k] (g.withChannelStatus cs)).Takes xs[k] := by
    rw [Takes, hdepthk]
    exact hxs _ (List.getElem_mem hk)
  rw [show (g.withChannelStatus cs).endian = endian from hendian, load_outputBytes, evenParity_outputSample,
    protects_iff_of_takes htakes, hatk.block_iff, hatk.frame_iff, hnumk]

end AM824Framer
end Aes67Daemon
