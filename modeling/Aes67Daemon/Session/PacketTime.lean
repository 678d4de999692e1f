import Aes67Daemon.Lib.Decimal
import Aes67Daemon.Session.Sdp
import Mathlib.Tactic.Ring
import Mathlib.Tactic.Linarith

/-!
# Packet times

The size of a packet travels through an SDP as a time: `get_source_sdp_` prints it
in milliseconds, rounded to twelve decimals and without trailing zeros and dots,
and `parse_sdp` multiplies it by the sampling rate and drops the fraction.  A time
that was rounded down loses a sample on the way.  A time of ten milliseconds, or a
multiple of it, loses its last zero.

## Main definitions

* `PacketTimeKept` — the packet sizes that come back.
* `ptime_samples` — they are exactly the ones that do.
-/
namespace Aes67Daemon

open Text

/-- The time of `n` samples at `rate` samples per second, in femtoseconds, is not
rounded down, and when rounded it is no multiple of ten milliseconds. -/
def PacketTimeKept (n rate : ℕ) : Prop :=
  let time := n * 10 ^ 15 / rate
  let rest := n * 10 ^ 15 % rate
  (rest = 0 ∧ ¬ 10 ^ 13 ∣ time) ∨
    (rest ≠ 0 ∧ (rate < 2 * rest ∨ (2 * rest = rate ∧ time % 2 = 1)) ∧ ¬ 10 ^ 13 ∣ time + 1)

instance (n rate : ℕ) : Decidable (PacketTimeKept n rate) :=
  inferInstanceAs (Decidable (_ ∨ _))

/-! ## Printing -/

/-- A number in `k` digits. -/
def padded (k n : ℕ) : Text := List.replicate (k - (ofNat n).length) '0' ++ ofNat n

theorem fixed12_eq (n : ℕ) : fixed12 n = ofNat (n / 10 ^ 12) ++ '.' :: padded 12 (n % 10 ^ 12) := rfl

theorem padded_isDigit {k n : ℕ} : ∀ c ∈ padded k n, c.isDigit = true := by
  intro c hc
  rcases List.mem_append.mp hc with hc | hc
  · rw [List.eq_of_mem_replicate hc]; rfl
  · exact digits_isDigit hc

theorem length_padded {k n : ℕ} (hk : 0 < k) (h : n < 10 ^ k) : (padded k n).length = k := by
  have hlen : (ofNat n).length ≤ k := (Nat.length_toDigits_le_iff (by decide) hk).mpr h
  simp only [padded, List.length_append, List.length_replicate]
  omega

theorem digitsValue_padded (k n : ℕ) : digitsValue (padded k n) = n := by
  have hzeros : digitsValue (List.replicate (k - (ofNat n).length) '0') = 0 := by
    simp only [digitsValue, Nat.ofDigitChars_replicate_zero, Nat.mul_zero]
  rw [padded, digitsValue_append, hzeros, digitsValue_ofNat, Nat.mul_zero, Nat.zero_add]

/-- What is left of digits without their trailing zeros does not end in one. -/
theorem digitsValue_mod_ten {t : Text} (h : ∀ c ∈ t, c.isDigit = true)
    (hne : t.rdropWhile (· = '0') ≠ []) : digitsValue (t.rdropWhile (· = '0')) % 10 ≠ 0 := by
  obtain ⟨u, c, hu⟩ := List.eq_nil_or_concat _ |>.resolve_left hne
  rw [List.concat_eq_append] at hu
  have hlast : c ≠ '0' := by
    have hnot := List.rdropWhile_last_not (· = '0') t hne
    simpa [hu] using hnot
  have hc : c.isDigit = true := h c ((List.rdropWhile_prefix (· = '0') t).subset
    (hu ▸ List.mem_append_right _ List.mem_cons_self))
  simp only [Char.isDigit, Bool.and_eq_true, decide_eq_true_eq] at hc
  have hlow : 48 ≤ c.toNat := UInt32.le_iff_toNat_le.mp hc.1
  have hhigh : c.toNat ≤ 57 := UInt32.le_iff_toNat_le.mp hc.2
  have hzero : c.toNat ≠ 48 := fun h0 => hlast (Char.toNat_inj.mp h0)
  have hdigit : digitsValue [c] = c.toNat - 48 := by simp [digitsValue, Nat.ofDigitChars]
  rw [hu, digitsValue_append, hdigit, List.length_singleton]
  omega

/-- A value of moderate size, written with a denominator that is one or moderate, is
in the range of `stod`. -/
theorem inRange_of_value {double : ℚ → ℚ} (hexact : ∀ x, double x = x) {time num den s : ℕ} (hpos : 0 < time)
    (hlt : time < 2 ^ 200) (hden : 0 < den) (hs : 0 < s) (h : num * s = time * den) (hbound : den = 1 ∨ s ≤ 2 ^ 200) :
    inRange double ((num : ℚ) / den) = true := by
  have hnum : 0 < num := by
    rcases Nat.eq_zero_or_pos num with rfl | h0
    · have := Nat.mul_pos hpos hden
      omega
    · exact h0
  have hdenq : (0 : ℚ) < den := by exact_mod_cast hden
  have hupper : (num : ℚ) / den < 2 ^ 1024 := by
    have hle : num ≤ time * den := h ▸ Nat.le_mul_of_pos_right _ hs
    have hlt : num < 2 ^ 200 * den := lt_of_le_of_lt hle (Nat.mul_lt_mul_of_pos_right hlt hden)
    refine lt_of_lt_of_le ?_ (pow_le_pow_right₀ one_le_two (show 200 ≤ 1024 by decide))
    rw [div_lt_iff₀ hdenq]
    exact_mod_cast hlt
  have hlower : (1 : ℚ) ≤ (num : ℚ) / den * 2 ^ 1022 := by
    have hle : den ≤ num * 2 ^ 1022 := by
      rcases hbound with rfl | hbound
      · exact le_trans hnum (Nat.le_mul_of_pos_right _ (pow_pos two_pos _))
      · calc den ≤ time * den := Nat.le_mul_of_pos_left _ hpos
          _ = num * s := h.symm
          _ ≤ num * 2 ^ 1022 := Nat.mul_le_mul_left _
            (le_trans hbound (pow_le_pow_right₀ one_le_two (by decide)))
    rw [div_mul_eq_mul_div, one_le_div hdenq]
    exact_mod_cast hle
  unfold inRange
  rw [hexact]
  simp only [Bool.or_eq_true, Bool.and_eq_true, decide_eq_true_eq]
  exact .inr ⟨hupper, .inl hlower⟩

/-- **A printed packet time is read back**, unless it ends in zeros before the point:
these are lost. -/
theorem spelled_fixed12 {time : ℕ} (hpos : 0 < time) :
    ∃ num den j, spelled (stripZerosAndDots (fixed12 time)) = some (.finite false num den) ∧
      num * 10 ^ (12 + j) = time * den ∧ 0 < den ∧ (den = 1 ∨ j = 0) ∧ (j = 0 ↔ ¬ 10 ^ 13 ∣ time) := by
  have hwhole : ∀ c ∈ ofNat (time / 10 ^ 12), c.isDigit = true := fun c hc => digits_isDigit hc
  have hstrip : stripZerosAndDots (fixed12 time) =
      if (padded 12 (time % 10 ^ 12)).rdropWhile (· = '0') = [] then
        (ofNat (time / 10 ^ 12)).rdropWhile (· = '0')
      else ofNat (time / 10 ^ 12) ++ '.' :: (padded 12 (time % 10 ^ 12)).rdropWhile (· = '0') := by
    rw [fixed12_eq]
    exact rdropWhile_zerosOrDots hwhole padded_isDigit
  have hsplit : time = 10 ^ 12 * (time / 10 ^ 12) + time % 10 ^ 12 := (Nat.div_add_mod _ _).symm
  have hfrac := digitsValue_padded 12 (time % 10 ^ 12)
  have hlen := length_padded (by decide) (Nat.mod_lt time (show 0 < 10 ^ 12 by decide))
  obtain ⟨k, hk⟩ := exists_zeros (padded 12 (time % 10 ^ 12))
  have hdigits : ∀ c ∈ (padded 12 (time % 10 ^ 12)).rdropWhile (· = '0'), c.isDigit = true :=
    fun c hc => padded_isDigit c ((List.rdropWhile_prefix _ _).subset hc)
  have hmod := digitsValue_mod_ten (t := padded 12 (time % 10 ^ 12)) padded_isDigit
  generalize (padded 12 (time % 10 ^ 12)).rdropWhile (· = '0') = u at hk hstrip hdigits hmod
  rw [hk, digitsValue_append_zeros] at hfrac
  rw [hk, List.length_append, List.length_replicate] at hlen
  by_cases hnil : u = []
  · -- nothing is left behind the point: the number in front of it loses its zeros
    have hzero : time % 10 ^ 12 = 0 := by
      rw [← hfrac, hnil, show digitsValue [] = 0 from rfl, Nat.mul_zero]
    rw [if_pos hnil] at hstrip
    rw [hzero, Nat.add_zero] at hsplit
    obtain ⟨j, hj⟩ := exists_zeros (ofNat (time / 10 ^ 12))
    have hmod' := digitsValue_mod_ten hwhole
    have hvdigits : ∀ c ∈ (ofNat (time / 10 ^ 12)).rdropWhile (· = '0'), c.isDigit = true :=
      fun c hc => hwhole c ((List.rdropWhile_prefix _ _).subset hc)
    generalize (ofNat (time / 10 ^ 12)).rdropWhile (· = '0') = v at hj hstrip hmod' hvdigits
    have hvalue : time / 10 ^ 12 = 10 ^ j * digitsValue v := by
      rw [← digitsValue_append_zeros, ← hj, digitsValue_ofNat]
    have hv : v ≠ [] := by
      rintro rfl
      rw [hvalue, show digitsValue [] = 0 from rfl, Nat.mul_zero, Nat.mul_zero] at hsplit
      omega
    have hnum : digitsValue v * 10 ^ (12 + j) = time * 1 := by
      rw [hsplit, hvalue, pow_add]
      ring
    refine ⟨digitsValue v, 1, j, ?_, hnum, Nat.one_pos, .inl rfl, ?_⟩
    · rw [hstrip, spelled_digits hv hvdigits]
    · rw [hsplit, show (10 : ℕ) ^ 13 = 10 ^ 12 * 10 by norm_num,
        Nat.mul_dvd_mul_iff_left (by norm_num), hvalue]
      constructor
      · rintro rfl hdvd
        rw [Nat.pow_zero, Nat.one_mul] at hdvd
        exact hmod' hv (Nat.mod_eq_zero_of_dvd hdvd)
      · intro hdvd
        by_contra hj0
        exact hdvd (Dvd.dvd.mul_right (dvd_pow_self 10 hj0) _)
  · rw [if_neg hnil] at hstrip
    have hpow : (10 : ℕ) ^ 12 = 10 ^ u.length * 10 ^ k := by rw [← pow_add, hlen]
    have hnum : digitsValue (ofNat (time / 10 ^ 12) ++ u) * 10 ^ (12 + 0) =
        time * 10 ^ u.length := by
      rw [digitsValue_append, digitsValue_ofNat, Nat.add_zero]
      conv_rhs => rw [hsplit, ← hfrac]
      rw [hpow]
      ring
    refine ⟨_, _, 0, ?_, hnum, by positivity, .inr rfl, ⟨fun _ hdvd => ?_, fun _ => rfl⟩⟩
    · rw [hstrip, spelled_point (ofNat_ne_nil _) hwhole hdigits hnil]
    · have hzero : time % 10 ^ 12 = 0 := Nat.mod_eq_zero_of_dvd
        (dvd_trans (pow_dvd_pow 10 (by decide)) hdvd)
      rw [hzero, Nat.mul_eq_zero] at hfrac
      rcases hfrac with h | h
      · exact absurd h (by positivity)
      · exact hmod hnil (by rw [h])

/-! ## Rounding -/

/-- When rounding does not go down, and where it goes. -/
theorem le_roundHalfEven_iff (n : ℕ) {d : ℕ} (hd : 0 < d) :
    (n ≤ d * roundHalfEven n d ∧ roundHalfEven n d = (if n % d = 0 then n / d else n / d + 1)) ↔
      n % d = 0 ∨ d < 2 * (n % d) ∨ (2 * (n % d) = d ∧ n / d % 2 = 1) := by
  have hdiv := Nat.div_add_mod n d
  have hmod := Nat.mod_lt n hd
  have hsucc : d * (n / d + 1) = d * (n / d) + d := by ring
  simp only [roundHalfEven]
  split
  · split
    · simp_all
    · constructor <;> intro h <;> omega
  · split
    · rw [hsucc, if_neg (by omega)]; omega
    · split
      · rw [if_neg (by omega)]; omega
      · rw [hsucc, if_neg (by omega)]; omega

/-- Rounding that does not go down goes to the next integer, if it is needed. -/
theorem roundHalfEven_of_le {n d : ℕ} (hd : 0 < d) (h : n ≤ d * roundHalfEven n d) :
    roundHalfEven n d = if n % d = 0 then n / d else n / d + 1 := by
  have hdiv := Nat.div_add_mod n d
  simp only [roundHalfEven] at h ⊢
  split at h
  · rename_i hlow
    rw [if_pos hlow, if_pos (by omega)]
  · rename_i hlow
    rw [if_neg hlow]
    split at h
    · rename_i hhigh
      rw [if_pos hhigh, if_neg (by omega)]
    · rename_i hhigh
      rw [if_neg hhigh]
      split at h
      · omega
      · rename_i hodd
        rw [if_neg hodd, if_neg (by omega)]

/-- What `PacketTimeKept` says about the rounded time. -/
theorem packetTimeKept_iff (n : ℕ) {rate : ℕ} (hrate : 0 < rate) : PacketTimeKept n rate ↔
    n * 10 ^ 15 ≤ rate * roundHalfEven (n * 10 ^ 15) rate ∧
      ¬ 10 ^ 13 ∣ roundHalfEven (n * 10 ^ 15) rate := by
  have hle := le_roundHalfEven_iff (n * 10 ^ 15) hrate
  have hround := roundHalfEven_of_le (n := n * 10 ^ 15) hrate
  simp only [PacketTimeKept]
  generalize n * 10 ^ 15 = total at *
  constructor
  · rintro (⟨hrest, hdvd⟩ | ⟨hrest, hup, hdvd⟩)
    · obtain ⟨h1, h2⟩ := hle.mpr (.inl hrest)
      rw [if_pos hrest] at h2
      exact ⟨h1, h2 ▸ hdvd⟩
    · obtain ⟨h1, h2⟩ := hle.mpr (.inr hup)
      rw [if_neg hrest] at h2
      exact ⟨h1, h2 ▸ hdvd⟩
  · rintro ⟨h1, hdvd⟩
    have h2 := hround h1
    rcases hle.mp ⟨h1, h2⟩ with hrest | hup
    · rw [if_pos hrest] at h2
      exact .inl ⟨hrest, h2 ▸ hdvd⟩
    · by_cases hrest : total % rate = 0
      · rw [if_pos hrest] at h2
        exact .inl ⟨hrest, h2 ▸ hdvd⟩
      · rw [if_neg hrest] at h2
        exact .inr ⟨hrest, hup, h2 ▸ hdvd⟩

/-- The packet time in femtoseconds, rounded, from its value in milliseconds. -/
theorem roundHalfEven_packetTime {n rate : ℕ} (hrate : 0 < rate) :
    roundHalfEven (((n : ℚ) * 1000 / rate).num.toNat * 10 ^ 12) ((n : ℚ) * 1000 / rate).den =
      roundHalfEven (n * 10 ^ 15) rate := by
  set x : ℚ := (n : ℚ) * 1000 / rate with hx
  have hrateq : (0 : ℚ) < rate := by exact_mod_cast hrate
  have hnum : ((x.num.toNat : ℕ) : ℚ) = x * x.den := by
    rw [Rat.mul_den_eq_num, ← Int.cast_natCast, Int.toNat_of_nonneg (Rat.num_nonneg.mpr (by positivity))]
  have hcross : x.num.toNat * rate = n * 1000 * x.den := by
    have hq : (x.num.toNat : ℚ) * rate = n * 1000 * x.den := by
      rw [hnum, hx]
      field_simp
    exact_mod_cast hq
  calc roundHalfEven (x.num.toNat * 10 ^ 12) x.den
      = roundHalfEven (rate * (x.num.toNat * 10 ^ 12)) (rate * x.den) := (roundHalfEven_mul hrate _ _).symm
    _ = roundHalfEven (x.den * (n * 10 ^ 15)) (x.den * rate) := by
        rw [mul_comm rate x.den, ← mul_assoc, mul_comm rate, hcross]
        congr 1
        ring
    _ = roundHalfEven (n * 10 ^ 15) rate := roundHalfEven_mul x.pos _ _

/-! ## Reading the packet size -/

/-- The packet size read from a time that lost `j` zeros. -/
theorem samples_eq {n rate time j : ℕ} (hn : 0 < n) (hrate : 0 < rate) (hlt : rate < 2 ^ 32)
    (hupper : 2 * (rate * time) ≤ 2 * (n * 10 ^ 15) + rate) :
    rate * time / 10 ^ (15 + j) ≤ n ∧
      (rate * time / 10 ^ (15 + j) = n ↔ j = 0 ∧ n * 10 ^ 15 ≤ rate * time) := by
  have hnext : rate * time < (n + 1) * 10 ^ 15 := by
    have h1 : (n + 1) * 10 ^ 15 = n * 10 ^ 15 + 10 ^ 15 := by ring
    have h2 : (2 : ℕ) ^ 32 < 10 ^ 15 := by norm_num
    omega
  cases j with
  | zero =>
      rw [Nat.add_zero]
      have hq : rate * time / 10 ^ 15 < n + 1 := (Nat.div_lt_iff_lt_mul (by norm_num)).mpr hnext
      have hle : n ≤ rate * time / 10 ^ 15 ↔ n * 10 ^ 15 ≤ rate * time :=
        Nat.le_div_iff_mul_le (by norm_num)
      omega
  | succ j =>
      have hq : rate * time / 10 ^ (15 + (j + 1)) < n := by
        rw [Nat.div_lt_iff_lt_mul (by positivity)]
        calc rate * time < (n + 1) * 10 ^ 15 := hnext
          _ ≤ n * 10 * 10 ^ 15 := Nat.mul_le_mul_right _ (by omega)
          _ = n * 10 ^ 16 := by ring
          _ ≤ n * 10 ^ (15 + (j + 1)) :=
            Nat.mul_le_mul_left _ (Nat.pow_le_pow_right (by decide) (by omega))
      omega

/-- **The packet sizes that survive an SDP** are the ones `PacketTimeKept` names, where doubles are
exact. -/
theorem ptime_samples {double : ℚ → ℚ} (hexact : ∀ x, double x = x) {n rate : UInt32} (hn : n ≠ 0) (hrate : rate ≠ 0) :
    ∃ time, stod double (ptimeText double n rate) = some time ∧
      (SdpParser.packetSamples double rate time = n ↔ PacketTimeKept n.toNat rate.toNat) := by
  have hn0 : 0 < n.toNat := Nat.pos_of_ne_zero fun h => hn (UInt32.toNat_inj.mp h)
  have hr0 : 0 < rate.toNat := Nat.pos_of_ne_zero fun h => hrate (UInt32.toNat_inj.mp h)
  have hnlt := n.toNat_lt
  have hrlt := rate.toNat_lt
  obtain ⟨hupper, hlower⟩ := roundHalfEven_bounds (n.toNat * 10 ^ 15) hr0
  have hkept := packetTimeKept_iff n.toNat hr0
  rw [ptimeText, if_neg hrate, hexact, hexact]
  dsimp only
  rw [roundHalfEven_packetTime hr0]
  generalize roundHalfEven (n.toNat * 10 ^ 15) rate.toNat = time at *
  have hpos : 0 < time := by
    rcases Nat.eq_zero_or_pos time with rfl | h
    · omega
    · exact h
  have hlt : time < 2 ^ 200 := by
    have h1 : time ≤ rate.toNat * time := Nat.le_mul_of_pos_left _ hr0
    have h2 : (2 : ℕ) ^ 32 * 10 ^ 15 + 2 ^ 32 < 2 ^ 200 := by norm_num
    have h3 : n.toNat * 10 ^ 15 ≤ 2 ^ 32 * 10 ^ 15 := Nat.mul_le_mul_right _ (by omega)
    omega
  obtain ⟨num, den, j, hread, hvalue, hden, hj0, hj⟩ := spelled_fixed12 hpos
  have hbound : den = 1 ∨ (10 : ℕ) ^ (12 + j) ≤ 2 ^ 200 := hj0.imp_right fun h => by
    rw [h]
    norm_num
  have hrange := inRange_of_value hexact hpos hlt hden (by positivity) hvalue hbound
  refine ⟨.finite false ((num : ℚ) / den), by rw [stod, hread]; simp [hrange, hexact], ?_⟩
  have hq : rate.toNat * num / (1000 * den) = rate.toNat * time / 10 ^ (15 + j) := by
    rw [← Nat.mul_div_mul_right _ _ (show 0 < 10 ^ (12 + j) by positivity), mul_assoc, hvalue,
      show 1000 * den * 10 ^ (12 + j) = 10 ^ (15 + j) * den by ring, ← mul_assoc,
      Nat.mul_div_mul_right _ _ hden]
  have hfloor : ⌊(rate.toNat : ℚ) * (num / den) / 1000⌋.toNat = rate.toNat * num / (1000 * den) := by
    have hdiv : (rate.toNat : ℚ) * (num / den) / 1000 = ((rate.toNat * num : ℕ) : ℚ) / ((1000 * den : ℕ) : ℚ) := by
      push_cast
      field_simp
    rw [hdiv, Rat.floor_natCast_div_natCast]
    exact Int.toNat_natCast _
  obtain ⟨hle, hiff⟩ := samples_eq (j := j) hn0 hr0 hrlt hupper
  have hsmall : rate.toNat * time / 10 ^ (15 + j) < 2 ^ 63 := by omega
  rw [SdpParser.packetSamples, hexact, hexact, hfloor, hq]
  simp only [hsmall, if_true, Bool.false_eq_true, if_false]
  rw [hkept, ← hj, and_comm, ← hiff]
  constructor
  · intro h
    rw [← h, UInt32.toNat_ofNat_of_lt' (show _ < UInt32.size by simp only [UInt32.size]; omega)]
  · intro h
    rw [h, UInt32.ofNat_toNat]

end Aes67Daemon
