import Aes67Daemon.Session.SdpBounds

/-!
# The numbers of a session description

Numbers are read into an `int` or an `unsigned long` and stored in fields of 8, 16, 32 or 64
bits.  What is stored is the number that is written modulo the size of the field, so it is the
number itself exactly when that one fits.

## Main definitions

* `writtenInt` — the integer that a text starts with.
* `SdpParser.numbers` — the numbers that a line gives, each with the field it is for.
* `NumbersKept`, `numbersKept_iff` — the fields hold the numbers that are written, and when.
-/
namespace Aes67Daemon

open Text

/-! ## Integers -/

/-- The integer that a text starts with, after white space and with an optional sign. -/
def writtenInt (t : Text) : Option ℤ := (readInt t).map fun r => if r.1 then -(r.2 : ℤ) else r.2

/-- `stoi` takes the integer as it is. -/
theorem writtenInt_of_stoi {t : Text} {z : ℤ} (h : stoi t = some z) : writtenInt t = some z := by
  obtain ⟨⟨neg, n⟩, hread, h⟩ := Option.bind_eq_some_iff.mp h
  unfold writtenInt
  rw [hread, Option.map_some]
  exact congrArg some (Option.some.inj (Option.ite_none_right_eq_some.mp h).2)

/-- `stoul` takes it modulo `2 ^ 64`. -/
theorem writtenInt_of_stoul {t : Text} {n : ℕ} (h : stoul t = some n) :
    ∃ z, writtenInt t = some z ∧ (n : ℤ) = z % 18446744073709551616 := by
  obtain ⟨⟨neg, m⟩, hread, h⟩ := Option.bind_eq_some_iff.mp h
  dsimp only at h
  have hlarge : (2 : ℕ) ^ 64 = 18446744073709551616 := by decide
  rw [hlarge] at h
  split at h
  · refine ⟨if neg then -(m : ℤ) else m, ?_, ?_⟩
    · unfold writtenInt
      rw [hread, Option.map_some]
    · have hn := Option.some.inj h
      cases neg with
      | true =>
          rw [if_pos rfl] at hn ⊢
          omega
      | false =>
          rw [if_neg Bool.false_ne_true] at hn ⊢
          omega
  · cases h

/-- What is written for a field: an integer, or a packet time in milliseconds, which is for a number of
samples at the sampling rate read before it. -/
inductive WrittenValue
  | integer (z : Option ℤ)
  | packetTime (rate : ℕ) (time : Option Spelled)
  deriving DecidableEq

/-- The number that is written; the samples of a packet time are rounded down.  A packet time that is
not finite gives none. -/
def WrittenValue.value : WrittenValue → Option ℤ
  | integer z => z
  | packetTime rate (some (.finite neg num den)) => some ⌊(rate : ℚ) * (if neg then -(num / den : ℚ) else num / den) / 1000⌋
  | packetTime _ _ => none

/-- Rounding a packet time and then its product with the sampling rate moves neither past a whole number
of samples. -/
def UncrossedSamples (double : ℚ → ℚ) (rate : ℕ) (time : ℚ) : Prop :=
  ∀ n : ℕ, 0 < n → n ≤ 2 ^ 32 → ((1000 * n : ℚ) ≤ double (rate * double time) ↔ (1000 * n : ℚ) ≤ rate * time)

/-- Rounding keeps the number of samples. -/
def WrittenValue.Uncrossed (double : ℚ → ℚ) : WrittenValue → Prop
  | packetTime rate (some (.finite _ num den)) => UncrossedSamples double rate (num / den)
  | _ => True

/-! ## The numbers of a line -/

/-- A numeric field. -/
inductive SdpNumber
  | port
  | payload
  | ttl
  | rate
  | offset
  | samples
  | version
  deriving DecidableEq

/-- How many values a field has. -/
def SdpNumber.size : SdpNumber → ℕ
  | port => 65536
  | payload | ttl => 256
  | rate | offset | samples => 4294967296
  | version => 18446744073709551616

/-- A number in a line, for a field of the record with an index. -/
structure WrittenNumber where
  leg : ℤ
  field : SdpNumber
  written : WrittenValue
  deriving DecidableEq

/-- The number itself. -/
def WrittenNumber.value (n : WrittenNumber) : Option ℤ := n.written.value

/-- The number fits its field. -/
def WrittenNumber.Fits (n : WrittenNumber) : Prop := ∃ z, n.value = some z ∧ 0 ≤ z ∧ z < n.field.size

/-- The number fits its field, and rounding does not change it. -/
def WrittenNumber.Kept (double : ℚ → ℚ) (n : WrittenNumber) : Prop := n.Fits ∧ n.written.Uncrossed double

/-- What a record holds in a field. -/
def TRTPStreamInfo.number (s : TRTPStreamInfo) : SdpNumber → ℕ
  | .port => s.usDestPort.toNat
  | .payload => s.byPayloadType.toNat
  | .ttl => s.byTTL.toNat
  | .rate => s.ui32SamplingRate.toNat
  | .offset => s.ui32RTPTimestampOffset.toNat
  | .samples => s.ui32MaxSamplesPerPacket.toNat
  | .version => 0

namespace SdpParser

/-- What is stored in a field. -/
def stored (p : SdpParser) (leg : ℤ) (field : SdpNumber) : Option ℤ :=
  if field = .version then some p.info.origin.sessionVersion.toNat
  else (p.info.stream.at? leg).map fun s => (s.number field : ℤ)

/-- `o=`: the session version. -/
def originNumbers (val : Text) : List WrittenNumber :=
  match splitBy (· = ' ') val with
  | _ :: _ :: f2 :: _ :: _ :: _ :: _ => [⟨0, .version, .integer (writtenInt f2)⟩]
  | _ => []

/-- `a=`: the sampling rate of a matching payload type, the timestamp offset and the packet time. -/
def attributeNumbers (mid : ℤ) (s : TRTPStreamInfo) (name value : Text) : List WrittenNumber :=
  if name = "rtpmap".toList then
    match splitBy (fun c => c = ' ' || c = '/') value with
    | f0 :: _ :: f2 :: _ :: _ =>
      if writtenInt f0 = some (s.byPayloadType.toNat : ℤ) then [⟨mid, .rate, .integer (writtenInt f2)⟩] else []
    | _ => []
  else if name = "sync-time".toList then [⟨mid, .offset, .integer (writtenInt value)⟩]
  else if name = "ptime".toList then [⟨mid, .samples, .packetTime s.ui32SamplingRate.toNat (spelled value)⟩]
  else if name = "mediaclk".toList then
    match splitBy (· = '=') value with
    | [f0, f1] => if f0 = "direct".toList then [⟨mid, .offset, .integer (writtenInt f1)⟩] else []
    | _ => []
  else []

/-- `a=` in an audio section. -/
def attributeLineNumbers (p : SdpParser) (val : Text) : List WrittenNumber :=
  match p.status, breakAt ':' val, p.info.stream.at? p.mid with
  | .media, some (name, value), some s => attributeNumbers p.mid s name value
  | _, _, _ => []

/-- `m=`: the port and the first payload type of an audio section. -/
def mediaNumbers (mid : ℤ) (val : Text) : List WrittenNumber :=
  match splitBy (· = ' ') val with
  | f0 :: f1 :: _ :: f3 :: _ =>
    if f0 = "audio".toList ∧ mid + 1 < mediaMax then
      [⟨mid + 1, .port, .integer (writtenInt f1)⟩, ⟨mid + 1, .payload, .integer (writtenInt f3)⟩]
    else []
  | _ => []

/-- `c=`: the TTL, if there is one. -/
def connectionNumbers (status : SdpStatus) (mid : ℤ) (val : Text) : List WrittenNumber :=
  match splitBy (fun c => c = ' ' || c = '/') val with
  | _ :: _ :: _ :: f3 :: _ =>
    match status with
    | .init => [⟨0, .ttl, .integer (writtenInt f3)⟩, ⟨1, .ttl, .integer (writtenInt f3)⟩]
    | .time => []
    | .media => [⟨mid, .ttl, .integer (writtenInt f3)⟩]
  | _ => []

/-- The numbers of a line. -/
def numbers (p : SdpParser) (raw : Text) : List WrittenNumber :=
  match trim raw with
  | c :: '=' :: val =>
    if c = 'o' then originNumbers val
    else if c = 'a' then p.attributeLineNumbers val
    else if c = 'm' then mediaNumbers p.mid val
    else if c = 'c' then connectionNumbers p.status p.mid val
    else []
  | _ => []

end SdpParser

/-- The fields hold the numbers that are written: if an SDP is accepted, then after each line that
the loop gets to every field that the line gives a number holds that number; and an SDP with a
number that does not fit is not accepted. -/
structure NumbersKept (host : Host) (ptp : Ptp) (sdp : Text) (info : StreamInfo) : Prop where
  stores : ∀ info', parseSdp host ptp sdp info = .ok info' →
    ∀ x ∈ SdpParser.processed host ptp { info := info } (getLines sdp), ∀ p', x.1.line host ptp x.2 = .ok p' →
      ∀ n ∈ x.1.numbers x.2, p'.stored n.leg n.field = n.value
  rejects : ∀ x ∈ SdpParser.processed host ptp { info := info } (getLines sdp),
    (∃ n ∈ x.1.numbers x.2, ¬ n.Fits) → ∀ info', parseSdp host ptp sdp info ≠ .ok info'

/-! ## What is stored -/

/-- A number modulo the size of its field is the number exactly when it fits. -/
theorem mod_eq_iff {z size : ℤ} (hsize : 0 < size) : z % size = z ↔ 0 ≤ z ∧ z < size := by
  constructor
  · intro h
    rw [← h]
    exact ⟨Int.emod_nonneg z (ne_of_gt hsize), Int.emod_lt_of_pos z hsize⟩
  · rintro ⟨hz, hlt⟩
    exact Int.emod_eq_of_lt hz hlt

theorem SdpNumber.size_pos (f : SdpNumber) : 0 < (f.size : ℤ) := by
  cases f <;> decide

/-- A field that holds an integer modulo its size. -/
theorem WrittenNumber.stored_iff {leg : ℤ} {field : SdpNumber} {value : Option ℤ} {z m : ℤ} (double : ℚ → ℚ)
    (hvalue : value = some z) (hm : m = z % field.size) :
    some m = value ↔ (⟨leg, field, .integer value⟩ : WrittenNumber).Kept double := by
  subst hvalue
  unfold Kept Fits
  rw [Option.some_inj, hm, mod_eq_iff field.size_pos]
  constructor
  · intro h
    exact ⟨⟨z, rfl, h⟩, trivial⟩
  · rintro ⟨⟨z', hz, h⟩, -⟩
    obtain rfl := Option.some.inj hz
    exact h

theorem toNat_uint32_ofNat {n : ℕ} {z : ℤ} (h : (n : ℤ) = z % 18446744073709551616) :
    ((UInt32.ofNat n).toNat : ℤ) = z % 4294967296 := by
  rw [UInt32.toNat_ofNat']
  omega

theorem toNat_uint64_ofNat {n : ℕ} {z : ℤ} (h : (n : ℤ) = z % 18446744073709551616) :
    ((UInt64.ofNat n).toNat : ℤ) = z % 18446744073709551616 := by
  rw [UInt64.toNat_ofNat']
  omega

/-- Three roundings in a row add less than a sample. -/
theorem rounded_lt {double : ℚ → ℚ} (H : ToNearest double) {rate : ℕ} {time : ℚ} (htime : 0 ≤ time) {w : ℕ}
    (hw : w < 2 ^ 32) (hlt : rate * time / 1000 < w + 1) : double (double (rate * double time) / 1000) < w + 2 := by
  have hrate : (0 : ℚ) ≤ rate := Nat.cast_nonneg _
  have hw' : (w : ℚ) + 1 ≤ 2 ^ 32 := by exact_mod_cast hw
  have hprod : (0 : ℚ) ≤ rate * double time := mul_nonneg hrate (H.nonneg htime)
  have hquot : 0 ≤ double (rate * double time) / 1000 := div_nonneg (H.nonneg hprod) (by norm_num)
  have hfirst : rate * double time ≤ rate * (time * (1 + 1 / 2 ^ 52)) := mul_le_mul_of_nonneg_left (H.le_mul htime) hrate
  have hsecond := H.le_mul hprod
  have hthird := H.le_mul hquot
  rw [div_lt_iff₀ (by norm_num)] at hlt
  linarith

/-- The samples of a packet time as they are computed, before they are cut to a word. -/
theorem samples_eq_iff {double : ℚ → ℚ} (H : ToNearest double) (rate : ℕ) {time : ℚ} (htime : 0 ≤ time) :
    ((UInt32.ofNat ⌊double (double (rate * double time) / 1000)⌋.toNat).toNat = ⌊rate * time / 1000⌋.toNat ↔
      ⌊rate * time / 1000⌋.toNat < 2 ^ 32 ∧ UncrossedSamples double rate time) ∧
    (⌊rate * time / 1000⌋.toNat < 2 ^ 32 → ⌊double (double (rate * double time) / 1000)⌋.toNat ≤ 2 ^ 32) := by
  have hrate : (0 : ℚ) ≤ rate := Nat.cast_nonneg _
  have hexact : 0 ≤ rate * time / 1000 := div_nonneg (mul_nonneg hrate htime) (by norm_num)
  have hrounded : 0 ≤ double (double (rate * double time) / 1000) :=
    H.nonneg (div_nonneg (H.nonneg (mul_nonneg hrate (H.nonneg htime))) (by norm_num))
  -- what is counted, by comparison with whole numbers
  have hfloor : ∀ {x : ℚ}, 0 ≤ x → ∀ n : ℕ, n ≤ ⌊x⌋.toNat ↔ (n : ℚ) ≤ x := by
    intro x hx n
    rw [← Int.ofNat_le, Int.toNat_of_nonneg (Int.floor_nonneg.mpr hx), Int.le_floor]
    push_cast
    rfl
  have hw : ∀ n : ℕ, n ≤ ⌊rate * time / 1000⌋.toNat ↔ (1000 * n : ℚ) ≤ rate * time := by
    intro n
    rw [hfloor hexact, le_div_iff₀ (by norm_num), mul_comm]
  have hq : ∀ n : ℕ, 0 < n → n ≤ 2 ^ 32 →
      (n ≤ ⌊double (double (rate * double time) / 1000)⌋.toNat ↔ (1000 * n : ℚ) ≤ double (rate * double time)) := by
    intro n hpos hle
    have hlog : n.log2 ≤ 32 := by
      have hlt : n.log2 < 33 := (Nat.log2_lt hpos.ne').mpr (lt_of_le_of_lt hle (by norm_num))
      omega
    rw [hfloor hrounded]
    exact_mod_cast H.natCast_le_div_iff (H.isDouble _) (d := 1000) (c := 9) (by norm_num) (by norm_num) hpos (by omega)
  have hbound : ⌊rate * time / 1000⌋.toNat < 2 ^ 32 →
      ⌊double (double (rate * double time) / 1000)⌋.toNat ≤ ⌊rate * time / 1000⌋.toNat + 1 := by
    intro hsmall
    have hlt : rate * time / 1000 < (⌊rate * time / 1000⌋.toNat : ℚ) + 1 := by
      have hnext := (hfloor hexact (⌊rate * time / 1000⌋.toNat + 1)).not.mp (by omega)
      push_cast at hnext
      exact not_le.mp hnext
    have hnot := (hfloor hrounded (⌊rate * time / 1000⌋.toNat + 2)).not.mpr (by
      push_cast
      exact not_le.mpr (rounded_lt H htime hsmall hlt))
    omega
  unfold UncrossedSamples
  simp only [← hw]
  have hcross : (∀ n : ℕ, 0 < n → n ≤ 2 ^ 32 → ((1000 * n : ℚ) ≤ double (rate * double time) ↔
      n ≤ ⌊rate * time / 1000⌋.toNat)) ↔ ∀ n : ℕ, 0 < n → n ≤ 2 ^ 32 →
        (n ≤ ⌊double (double (rate * double time) / 1000)⌋.toNat ↔ n ≤ ⌊rate * time / 1000⌋.toNat) := by
    refine forall_congr' fun n => forall_congr' fun hpos => forall_congr' fun hle => ?_
    rw [hq n hpos hle]
  rw [hcross, UInt32.toNat_ofNat']
  generalize ⌊double (double (rate * double time) / 1000)⌋.toNat = q at hbound ⊢
  generalize ⌊rate * time / 1000⌋.toNat = w at hbound ⊢
  refine ⟨⟨?_, ?_⟩, fun hsmall => ?_⟩
  · intro h
    have hsmall : w < 2 ^ 32 := by omega
    have hle := hbound hsmall
    have heq : q = w := by omega
    exact ⟨hsmall, fun n _ _ => by rw [heq]⟩
  · rintro ⟨hsmall, hsame⟩
    have hlarge : ¬ 2 ^ 32 ≤ q := fun h => by
      have := (hsame (2 ^ 32) (by norm_num) le_rfl).mp h
      omega
    rcases Nat.lt_trichotomy q w with hlt | heq | hgt
    · have := (hsame w (by omega) (by omega)).mpr le_rfl
      omega
    · omega
    · have := (hsame q (by omega) (by omega)).mp le_rfl
      omega
  · have hle := hbound hsmall
    omega

/-- What is kept of a packet time. -/
theorem kept_packetTime_iff {double : ℚ → ℚ} {leg : ℤ} {rate num den : ℕ} {neg : Bool} {z : ℤ}
    (hz : ⌊(rate : ℚ) * (if neg then -(num / den : ℚ) else num / den) / 1000⌋ = z) :
    WrittenNumber.Kept double ⟨leg, .samples, .packetTime rate (some (.finite neg num den))⟩ ↔
      (0 ≤ z ∧ z < 2 ^ 32) ∧ UncrossedSamples double rate (num / den) := by
  subst hz
  refine and_congr_left fun _ => ?_
  constructor
  · rintro ⟨z, hz, hrange⟩
    rwa [Option.some.inj hz]
  · intro hrange
    exact ⟨_, rfl, hrange⟩

/-- A time without a sign. -/
theorem samples_positive_iff {double : ℚ → ℚ} (H : ToNearest double) (rate : UInt32) (num den : ℕ) {leg : ℤ} :
    some ((SdpParser.packetSamples double rate (.finite false (double (num / den)))).toNat : ℤ) =
        (WrittenValue.packetTime rate.toNat (some (.finite false num den))).value ↔
      WrittenNumber.Kept double ⟨leg, .samples, .packetTime rate.toNat (some (.finite false num den))⟩ := by
  have htime : (0 : ℚ) ≤ num / den := by positivity
  obtain ⟨hiff, hbound⟩ := samples_eq_iff H rate.toNat htime
  have hfloor : 0 ≤ ⌊(rate.toNat : ℚ) * (num / den) / 1000⌋ := Int.floor_nonneg.mpr (by positivity)
  rw [kept_packetTime_iff rfl]
  simp only [WrittenValue.value, SdpParser.packetSamples, Option.some_inj, Bool.false_eq_true, if_false]
  generalize ⌊(rate.toNat : ℚ) * (num / den) / 1000⌋ = w at hiff hbound hfloor ⊢
  generalize ⌊double (double (rate.toNat * double (num / den)) / 1000)⌋.toNat = q at hiff hbound ⊢
  split
  · constructor
    · intro h
      obtain ⟨hsmall, hsame⟩ := hiff.mp (by omega)
      exact ⟨⟨hfloor, by omega⟩, hsame⟩
    · rintro ⟨⟨-, hsmall⟩, hsame⟩
      have h := hiff.mpr ⟨by omega, hsame⟩
      omega
  · -- the conversion gives zero
    rename_i hlarge
    have hzero : (0 : UInt32).toNat = 0 := rfl
    rw [hzero]
    constructor
    · intro h
      have := hbound (by omega)
      omega
    · rintro ⟨⟨-, hsmall⟩, -⟩
      have := hbound (by omega)
      omega

/-- A time with a minus is kept only when it gives no samples. -/
theorem samples_negative_iff {double : ℚ → ℚ} (H : ToNearest double) (rate : UInt32) (num den : ℕ) {leg : ℤ} :
    some ((SdpParser.packetSamples double rate (.finite true (double (num / den)))).toNat : ℤ) =
        (WrittenValue.packetTime rate.toNat (some (.finite true num den))).value ↔
      WrittenNumber.Kept double ⟨leg, .samples, .packetTime rate.toNat (some (.finite true num den))⟩ := by
  have htime : (0 : ℚ) ≤ num / den := by positivity
  have hexact : (0 : ℚ) ≤ rate.toNat * (num / den) / 1000 := by positivity
  rcases hexact.eq_or_lt with hzero | hpos
  · -- no samples, of whichever sign
    have hprod : (rate.toNat : ℚ) * double (num / den) = 0 := by
      rcases mul_eq_zero.mp ((div_eq_zero_iff.mp hzero.symm).resolve_right (by norm_num)) with h | h
      · rw [h, zero_mul]
      · rw [h, H.eq_self isDouble_zero, mul_zero]
    have hq : ⌊double (double (rate.toNat * double (num / den)) / 1000)⌋.toNat = 0 := by
      rw [hprod, H.eq_self isDouble_zero, zero_div, H.eq_self isDouble_zero]
      rfl
    have hw : ⌊(rate.toNat : ℚ) * (if true then -(num / den : ℚ) else num / den) / 1000⌋ = 0 := by
      rw [if_pos rfl, mul_neg, neg_div, ← hzero]
      rfl
    have hiff := (samples_eq_iff H rate.toNat htime).1
    rw [hq, ← hzero] at hiff
    rw [kept_packetTime_iff hw]
    refine iff_of_true ?_ ⟨by decide, (hiff.mp (by decide)).2⟩
    rw [WrittenValue.value, hw, SdpParser.packetSamples, hq]
    decide
  · -- a negative number is no number of samples
    have hw : ⌊(rate.toNat : ℚ) * (if true then -(num / den : ℚ) else num / den) / 1000⌋ < 0 := by
      rw [if_pos rfl, mul_neg, neg_div, Int.floor_lt]
      push_cast
      linarith
    rw [kept_packetTime_iff rfl, WrittenValue.value, Option.some_inj]
    refine iff_of_false ?_ ?_
    · omega
    · rintro ⟨⟨hnonneg, -⟩, -⟩
      omega

/-- A time that is no number is not kept. -/
theorem samples_no_number {double : ℚ → ℚ} {rate n : ℕ} {word : Spelled} {leg : ℤ}
    (hword : (WrittenValue.packetTime rate (some word)).value = none) :
    some (n : ℤ) = (WrittenValue.packetTime rate (some word)).value ↔
      WrittenNumber.Kept double ⟨leg, .samples, .packetTime rate (some word)⟩ := by
  rw [hword]
  refine iff_of_false (Option.some_ne_none _) ?_
  rintro ⟨⟨z, hz, -⟩, -⟩
  exact Option.some_ne_none _ (hz.symm.trans hword)

/-- **The samples of a packet time** are stored as they are written exactly when they fit and rounding
does not change them. -/
theorem samples_stored_iff {double : ℚ → ℚ} (H : ToNearest double) {rate : UInt32} {value : Text} {time : Real64}
    (htime : stod double value = some time) {leg : ℤ} :
    some ((SdpParser.packetSamples double rate time).toNat : ℤ) =
        (WrittenValue.packetTime rate.toNat (spelled value)).value ↔
      WrittenNumber.Kept double ⟨leg, .samples, .packetTime rate.toNat (spelled value)⟩ := by
  unfold stod at htime
  split at htime
  · rename_i neg num den hspelled
    obtain ⟨-, htime⟩ := Option.ite_none_right_eq_some.mp htime
    obtain rfl := Option.some.inj htime
    rw [hspelled]
    cases neg with
    | false => exact samples_positive_iff H rate num den
    | true => exact samples_negative_iff H rate num den
  · rename_i hspelled
    rw [hspelled]
    exact samples_no_number rfl
  · rename_i hspelled
    rw [hspelled]
    exact samples_no_number rfl
  · cases htime

namespace SdpParser
variable {host : Host} {ptp : Ptp} {p p' : SdpParser} {s : TRTPStreamInfo} {n : WrittenNumber}

theorem at?_modifyStream {f : TRTPStreamInfo → TRTPStreamInfo} (hs : p.info.stream.at? p.mid = some s)
    (h : p.modifyStream f = .ok p') : p'.info.stream.at? p.mid = some (f s) := by
  obtain ⟨stream, hstream, rfl⟩ := modifyStream_eq_ok.mp h
  rw [Legs.modify?_of_at? hs] at hstream
  rw [← Option.some.inj hstream]
  exact Legs.at?_set hs

/-- A number of the current record. -/
theorem stored_of_at? {leg : ℤ} {field : SdpNumber} (hfield : field ≠ .version) (hs : p.info.stream.at? leg = some s) :
    p.stored leg field = some (s.number field : ℤ) := by
  rw [stored, if_neg hfield, hs]
  rfl

theorem timestampOffset_stored (host : Host) {value : Text} (hs : p.info.stream.at? p.mid = some s)
    (h : p.timestampOffset value = .ok p') :
    p'.stored p.mid .offset = writtenInt value ↔ WrittenNumber.Kept host.double ⟨p.mid, .offset, .integer (writtenInt value)⟩ := by
  obtain ⟨offset, hoffset, h⟩ := Parsed.bind_eq_ok.mp h
  obtain ⟨z, hz, hmod⟩ := writtenInt_of_stoul (Parsed.orReject_eq_ok.mp hoffset)
  rw [stored_of_at? SdpNumber.noConfusion (at?_modifyStream hs h)]
  exact WrittenNumber.stored_iff host.double hz (toNat_uint32_ofNat hmod)

theorem attribute_stored (H : ToNearest host.double) {name value : Text} (hs : p.info.stream.at? p.mid = some s)
    (h : p.mediaAttribute host ptp name value = .ok p') (hn : n ∈ attributeNumbers p.mid s name value) :
    p'.stored n.leg n.field = n.value ↔ n.Kept host.double := by
  unfold attributeNumbers at hn
  unfold mediaAttribute at h
  split at hn
  · rename_i hname
    rw [if_pos hname] at h
    unfold rtpmap at h
    split at hn
    · rename_i f0 f1 f2 f3 fs hval
      rw [hval] at h
      split at hn
      · rename_i hpayload
        obtain rfl := List.mem_singleton.mp hn
        obtain ⟨s', hs', h⟩ := Parsed.bind_eq_ok.mp h
        obtain rfl := Option.some.inj (hs.symm.trans (Parsed.orOutOfBounds_eq_ok.mp hs'))
        obtain ⟨payload, hstoi, h⟩ := Parsed.bind_eq_ok.mp h
        rw [writtenInt_of_stoi (Parsed.orReject_eq_ok.mp hstoi), Option.some_inj] at hpayload
        rw [if_pos hpayload.symm] at h
        obtain ⟨rate, hrate, h⟩ := Parsed.bind_eq_ok.mp h
        obtain ⟨-, -, h⟩ := Parsed.bind_eq_ok.mp h
        obtain ⟨z, hz, hmod⟩ := writtenInt_of_stoul (Parsed.orReject_eq_ok.mp hrate)
        rw [stored_of_at? SdpNumber.noConfusion (at?_modifyStream hs h)]
        exact WrittenNumber.stored_iff host.double hz (toNat_uint32_ofNat hmod)
      · cases hn
    · cases hn
  rename_i hrtpmap
  rw [if_neg hrtpmap] at h
  split at hn
  · rename_i hname
    rw [if_pos hname] at h
    obtain rfl := List.mem_singleton.mp hn
    exact timestampOffset_stored host hs h
  rename_i hsync
  rw [if_neg hsync] at h
  split at hn
  · rename_i hname
    subst hname
    rw [if_neg (by decide), if_pos rfl] at h
    obtain rfl := List.mem_singleton.mp hn
    obtain ⟨s', hs', h⟩ := Parsed.bind_eq_ok.mp h
    obtain rfl := Option.some.inj (hs.symm.trans (Parsed.orOutOfBounds_eq_ok.mp hs'))
    obtain ⟨time, htime, h⟩ := Parsed.bind_eq_ok.mp h
    rw [stored_of_at? SdpNumber.noConfusion (at?_modifyStream hs h)]
    exact samples_stored_iff H (Parsed.orReject_eq_ok.mp htime)
  rename_i hptime
  split at hn
  · rename_i hname
    subst hname
    rw [if_neg (by decide), if_neg (by decide), if_pos rfl] at h
    unfold mediaclk at h
    split at hn
    · rename_i f0 f1 hval
      rw [hval] at h
      dsimp only at h
      split at hn
      · rename_i hdirect
        rw [if_pos hdirect] at h
        obtain rfl := List.mem_singleton.mp hn
        exact timestampOffset_stored host hs h
      · cases hn
    · cases hn
  · cases hn

/-- An `a=` line. -/
theorem attributeLine_stored (H : ToNearest host.double) {val : Text} (h : p.attributeLine host ptp val = .ok p')
    (hn : n ∈ p.attributeLineNumbers val) :
    p'.stored n.leg n.field = n.value ↔ n.Kept host.double := by
  unfold attributeLineNumbers at hn
  split at hn
  · rename_i name value s hmedia hbreak hs
    unfold attributeLine at h
    rw [hbreak, hmedia] at h
    exact attribute_stored H hs h hn
  · cases hn

/-- An `m=` line. -/
theorem media_stored (host : Host) {val : Text} (h : p.mediaLine val = .ok p') (hn : n ∈ mediaNumbers p.mid val) :
    p'.stored n.leg n.field = n.value ↔ n.Kept host.double := by
  obtain ⟨f0, f1, f2, f3, fs, hval, hline⟩ := mediaLine_eq_ok h
  unfold mediaNumbers at hn
  rw [hval] at hn
  dsimp only at hn
  split at hn
  · rename_i haudio
    rcases hline with ⟨hother, -⟩ | ⟨-, hopen⟩
    · exact absurd haudio.1 hother
    rcases openSection_eq_ok hopen with ⟨hfull, -⟩ | ⟨port, payload, q, hport, hpayload, hq, rfl⟩
    · exact absurd haudio.2 (not_lt.mpr hfull)
    · obtain ⟨stream, hstream, hq'⟩ := modifyStream_eq_ok.mp hq
      obtain ⟨s, hs, -⟩ := Legs.modify?_eq_some hstream
      have hs' := at?_modifyStream (p := { p with mid := p.mid + 1 }) hs hq
      rcases List.mem_pair.mp hn with rfl | rfl
      · rw [stored_of_at? (p := { q with status := .media }) SdpNumber.noConfusion hs']
        exact WrittenNumber.stored_iff host.double (writtenInt_of_stoi hport) (toNat_uint16_ofInt port)
      · rw [stored_of_at? (p := { q with status := .media }) SdpNumber.noConfusion hs']
        exact WrittenNumber.stored_iff host.double (writtenInt_of_stoi hpayload) (toNat_uint8_ofInt payload)
  · cases hn

/-- A `c=` line. -/
theorem connection_stored (host : Host) {val : Text} (h : p.connectionLine val = .ok p')
    (hn : n ∈ connectionNumbers p.status p.mid val) : p'.stored n.leg n.field = n.value ↔ n.Kept host.double := by
  rcases connectionLine_eq_ok h with ⟨htime, -⟩ | ⟨htime, f2, fs, destIP, ttl, hval, -, -, httl, hset⟩
  · unfold connectionNumbers at hn
    rw [htime] at hn
    split at hn <;> cases hn
  · unfold connectionNumbers at hn
    rw [hval] at hn
    cases fs with
    | nil => cases hn
    | cons f3 fs =>
        dsimp only at hn
        have hz := writtenInt_of_stoi (Parsed.orReject_eq_ok.mp httl)
        unfold setConnection at hset
        dsimp only at hset
        cases hstatus : p.status with
        | init =>
            rw [hstatus] at hn hset
            rw [if_pos rfl] at hset
            obtain rfl := Parsed.pure_eq_ok.mp hset
            rcases List.mem_pair.mp hn with rfl | rfl
            · exact WrittenNumber.stored_iff host.double hz (toNat_uint8_ofInt ttl)
            · exact WrittenNumber.stored_iff host.double hz (toNat_uint8_ofInt ttl)
        | time => exact absurd hstatus htime
        | media =>
            rw [hstatus] at hn hset
            rw [if_neg SdpStatus.noConfusion] at hset
            obtain rfl := List.mem_singleton.mp hn
            obtain ⟨stream, hstream, -⟩ := modifyStream_eq_ok.mp hset
            obtain ⟨s, hs, -⟩ := Legs.modify?_eq_some hstream
            rw [stored_of_at? SdpNumber.noConfusion (at?_modifyStream hs hset)]
            exact WrittenNumber.stored_iff host.double hz (toNat_uint8_ofInt ttl)

/-- An `o=` line. -/
theorem origin_stored (host : Host) {val : Text} (h : p.originLine val = .ok p') (hn : n ∈ originNumbers val) :
    p'.stored n.leg n.field = n.value ↔ n.Kept host.double := by
  unfold originNumbers at hn
  unfold originLine at h
  split at hn
  · rename_i f0 f1 f2 f3 f4 f5 fs hval
    rw [hval] at h
    obtain rfl := List.mem_singleton.mp hn
    obtain ⟨version, hversion, h⟩ := Parsed.bind_eq_ok.mp h
    obtain rfl := Parsed.pure_eq_ok.mp h
    obtain ⟨z, hz, hmod⟩ := writtenInt_of_stoul (Parsed.orReject_eq_ok.mp hversion)
    exact WrittenNumber.stored_iff host.double hz (toNat_uint64_ofNat hmod)
  · cases hn

/-- **A field holds the number of a line exactly when it fits** and rounding does not change it. -/
theorem stored_line (H : ToNearest host.double) {raw : Text} (h : p.line host ptp raw = .ok p') (hn : n ∈ p.numbers raw) :
    p'.stored n.leg n.field = n.value ↔ n.Kept host.double := by
  obtain ⟨c, val, htrim, hline⟩ := line_eq_ok h
  have hnumbers : n ∈ (if c = 'o' then originNumbers val else if c = 'a' then
      p.attributeLineNumbers val else if c = 'm' then mediaNumbers p.mid val
      else if c = 'c' then connectionNumbers p.status p.mid val else []) := by
    unfold numbers at hn
    simpa only [htrim] using hn
  cases hline with
  | ignored hc =>
      simp only [List.mem_cons, List.not_mem_nil, or_false, not_or] at hc
      simp only [hc, if_false, List.not_mem_nil] at hnumbers
  | origin hc h =>
      subst hc
      exact origin_stored host h hnumbers
  | time hc =>
      subst hc
      cases hnumbers
  | attr hc h =>
      subst hc
      rw [if_neg (by decide), if_pos rfl] at hnumbers
      exact attributeLine_stored H h hnumbers
  | media hc h =>
      subst hc
      rw [if_neg (by decide), if_neg (by decide), if_pos rfl] at hnumbers
      exact media_stored host h hnumbers
  | connection hc h =>
      subst hc
      rw [if_neg (by decide), if_neg (by decide), if_neg (by decide), if_pos rfl] at hnumbers
      exact connection_stored host h hnumbers

end SdpParser

open SdpParser

/-! ## When the numbers are kept -/

/-- **The fields hold the numbers that are written if and only if the SDP is rejected or every number
of a line that the loop gets to fits its field**, and no packet time is rounded past a whole number of
samples. -/
theorem numbersKept_iff {host : Host} (hdouble : ToNearest host.double) (ptp : Ptp) (sdp : Text) (info : StreamInfo) :
    NumbersKept host ptp sdp info ↔ ((∃ info', parseSdp host ptp sdp info = .ok info') →
      ∀ x ∈ SdpParser.processed host ptp { info := info } (getLines sdp), ∀ n ∈ x.1.numbers x.2,
        n.Fits ∧ n.written.Uncrossed host.double) := by
  constructor
  · rintro h ⟨info', hparse⟩ x hx n hn
    obtain ⟨p, hp, -⟩ := Parsed.bind_eq_ok.mp hparse
    obtain ⟨p', hline⟩ := line_of_processed hp hx
    exact (stored_line hdouble hline hn).mp (h.stores info' hparse x hx p' hline n hn)
  · intro h
    constructor
    · intro info' hparse x hx p' hline n hn
      exact (stored_line hdouble hline hn).mpr (h ⟨info', hparse⟩ x hx n hn)
    · rintro x hx ⟨n, hn, hfits⟩ info' hparse
      exact hfits (h ⟨info', hparse⟩ x hx n hn).1

/-- A description with a packet time. -/
def timedDescription (rate time : String) : Text :=
  unlines ["v=0".toList, "m=audio 5004 RTP/AVP 98".toList, "a=rtpmap:98 L16/".toList ++ rate.toList ++ "/2".toList,
    "a=ptime:".toList ++ time.toList]

/-- The numbers of such a description. -/
theorem mem_numbers_timed {rate time : String} {n : WrittenNumber} {ns : List WrittenNumber}
    (h : (processed {} {} { info := {} } (getLines (timedDescription rate time))).flatMap (fun x => x.1.numbers x.2) = ns) :
    n ∈ ns ↔ ∃ x ∈ processed {} {} { info := {} } (getLines (timedDescription rate time)), n ∈ x.1.numbers x.2 := by
  rw [← h, List.mem_flatMap]

/-- One millisecond at 48 kHz is 48 samples; 0.58 ms at 50 kHz are 29, of which 28 are stored. -/
theorem numbersKept_timed : NumbersKept {} {} (timedDescription "48000" "1") {} ∧
    ¬ NumbersKept {} {} (timedDescription "50000" "0.58") {} := by
  constructor
  · refine (numbersKept_iff toNearest_roundDouble {} _ _).mpr fun _ x hx n hn => ?_
    have hnumbers : (processed {} {} { info := {} } (getLines (timedDescription "48000" "1"))).flatMap
        (fun x => x.1.numbers x.2) = [⟨0, .port, .integer (some 5004)⟩, ⟨0, .payload, .integer (some 98)⟩,
          ⟨0, .rate, .integer (some 48000)⟩, ⟨0, .samples, .packetTime 48000 (some (.finite false 1 1))⟩] := by
      decide +kernel
    have hn := (mem_numbers_timed hnumbers).mpr ⟨x, hx, hn⟩
    simp only [List.mem_cons, List.not_mem_nil, or_false] at hn
    rcases hn with rfl | rfl | rfl | rfl
    · exact ⟨⟨5004, rfl, by decide⟩, trivial⟩
    · exact ⟨⟨98, rfl, by decide⟩, trivial⟩
    · exact ⟨⟨48000, rfl, by decide⟩, trivial⟩
    · refine ⟨⟨48, by decide +kernel, by decide⟩, fun n _ _ => ?_⟩
      have hdouble : roundDouble ((48000 : ℕ) * roundDouble ((1 : ℕ) / (1 : ℕ))) = (48000 : ℕ) * ((1 : ℕ) / (1 : ℕ)) := by
        decide +kernel
      show (_ : ℚ) ≤ roundDouble _ ↔ _
      rw [hdouble]
  · intro h
    have hnumbers : (processed {} {} { info := {} } (getLines (timedDescription "50000" "0.58"))).flatMap
        (fun x => x.1.numbers x.2) = [⟨0, .port, .integer (some 5004)⟩, ⟨0, .payload, .integer (some 98)⟩,
          ⟨0, .rate, .integer (some 50000)⟩, ⟨0, .samples, .packetTime 50000 (some (.finite false 58 100))⟩] := by
      decide +kernel
    obtain ⟨x, hx, hn⟩ := (mem_numbers_timed (n := ⟨0, .samples, .packetTime 50000 (some (.finite false 58 100))⟩)
      hnumbers).mp (by simp)
    have haccepted : ((parseSdp {} {} (timedDescription "50000" "0.58") {}).toOption).isSome = true := by decide +kernel
    obtain ⟨info', hinfo⟩ := Option.isSome_iff_exists.mp haccepted
    have hall := (numbersKept_iff toNearest_roundDouble {} _ _).mp h ⟨info', Parsed.toOption_eq_some.mp hinfo⟩
    have hcross : ((1000 * (29 : ℕ) : ℚ) ≤ roundDouble ((50000 : ℕ) * roundDouble ((58 : ℕ) / (100 : ℕ)))) ↔
        (1000 * (29 : ℕ) : ℚ) ≤ (50000 : ℕ) * ((58 : ℕ) / (100 : ℕ)) :=
      (hall x hx _ hn).2 29 (by decide) (by decide)
    revert hcross
    decide +kernel

/-- A description with a port of 17 bits. -/
def widePort : Text := unlines ["v=0".toList, "m=audio 70000 RTP/AVP 98".toList]

/-- Port 70000 is accepted as port 4464. -/
theorem widePort_not_kept : ¬ NumbersKept {} {} widePort {} ∧
    ∃ info', parseSdp {} {} widePort {} = .ok info' ∧ info'.stream.leg0.usDestPort = 4464 := by
  have hport : (parseSdp {} {} widePort {}).toOption.map (fun info => info.stream.leg0.usDestPort) = some 4464 := by
    decide +kernel
  obtain ⟨info', hinfo, hport⟩ := Option.map_eq_some_iff.mp hport
  have hparse := Parsed.toOption_eq_some.mp hinfo
  refine ⟨fun h => ?_, info', hparse, hport⟩
  have hline : (({ info := {} } : SdpParser), "m=audio 70000 RTP/AVP 98".toList) ∈
      SdpParser.processed {} {} { info := {} } (getLines widePort) := by
    decide +kernel
  have hnumber : (⟨0, .port, .integer (some 70000)⟩ : WrittenNumber) ∈
      ({ info := {} } : SdpParser).numbers "m=audio 70000 RTP/AVP 98".toList := by
    decide +kernel
  refine h.rejects _ hline ⟨_, hnumber, ?_⟩ info' hparse
  rintro ⟨z, hz, -, hlt⟩
  obtain rfl := Option.some.inj hz
  exact absurd hlt (by decide)

end Aes67Daemon
