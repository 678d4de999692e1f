import Aes67Daemon.Nmos.Deadline
import Aes67Daemon.Nmos.MapActivations

/-!
# The times of channel mapping activations

A time is written as seconds and nanoseconds with a colon between them.  `stoll` takes
blanks and a sign before a number and anything behind it, and the nanoseconds are summed
up in 64 bits.

## Main definitions

* `TaiText` — a text `<seconds>:<nanoseconds>`, and the nanoseconds it stands for.
* `CmPost.TimesExact` — a scheduled activation is kept for the instant its request names.
* `CmPost.timesExact_iff` — when it is.
-/
namespace Aes67Daemon

open Text

/-! ## Sixty-four bits -/

/-- The number fits into a signed 64-bit integer. -/
def FitsInt64 (z : ℤ) : Prop := -9223372036854775808 ≤ z ∧ z < 9223372036854775808

theorem wrap64_eq_self_iff {z : ℤ} : wrap64 z = z ↔ FitsInt64 z := by
  constructor
  · intro h
    have hlow := Int.le_bmod (x := z) (m := 2 ^ 64) (by decide)
    have hhigh := Int.bmod_lt (x := z) (m := 2 ^ 64) (by decide)
    rw [wrap64] at h
    rw [h] at hlow hhigh
    norm_num at hlow hhigh
    exact ⟨hlow, by simpa using hhigh⟩
  · rintro ⟨hlow, hhigh⟩
    exact wrap64_eq hlow hhigh

/-- Only the last sum matters. -/
theorem wrap64_add_wrap64 (a z : ℤ) : wrap64 (a + wrap64 z) = wrap64 (a + z) := by
  rw [wrap64, wrap64, wrap64, Int.add_bmod_bmod]

/-! ## Texts -/

/-- A text of two decimal numbers with a colon between them, and the nanoseconds. -/
inductive TaiText : Text → ℤ → Prop
  | mk {secs nanos : Text} (hsecs : secs.Decimal) (hnanos : nanos.Decimal) :
      TaiText (secs ++ ':' :: nanos) (digitsValue secs * nanosPerSec + digitsValue nanos)

theorem TaiText.nonneg {t : Text} {v : ℤ} (h : TaiText t v) : 0 ≤ v := by
  obtain ⟨hsecs, hnanos⟩ := h
  exact Int.add_nonneg (Int.mul_nonneg (Int.natCast_nonneg _) (Int.natCast_nonneg _)) (Int.natCast_nonneg _)

/-- `stoll` does not take both parts of the text. -/
def TaiUnreadable (t : Text) : Prop :=
  ∀ secs nanos, breakAt ':' t = some (secs, nanos) → stoll secs = none ∨ stoll nanos = none

theorem parseTaiStr_eq_none_iff {t : Text} : parseTaiStr t = none ↔ TaiUnreadable t := by
  rw [parseTaiStr, TaiUnreadable]
  cases hbreak : breakAt ':' t with
  | none => simp
  | some r =>
      obtain ⟨secs, nanos⟩ := r
      cases hsecs : stoll secs with
      | none => simp [hsecs]
      | some sec =>
          cases hnanos : stoll nanos with
          | none => simp [hsecs, hnanos]
          | some nsec => simp [hsecs, hnanos]

/-- What is read of a well-formed text. -/
theorem parseTaiStr_taiText {t : Text} {v span : ℤ} (h : TaiText t v) (hparse : parseTaiStr t = some span) :
    span = wrap64 v := by
  obtain ⟨hsecs, hnanos⟩ := h
  rw [parseTaiStr, breakAt_append (Is05Activation.not_mem_decimal hsecs)] at hparse
  obtain ⟨sec, hsec, hparse⟩ := Option.bind_eq_some_iff.mp hparse
  obtain ⟨nsec, hnsec, hparse⟩ := Option.bind_eq_some_iff.mp hparse
  rw [stoll_digits hsecs.1 hsecs.2] at hsec
  rw [stoll_digits hnanos.1 hnanos.2] at hnsec
  obtain ⟨-, rfl⟩ := Option.ite_none_right_eq_some.mp hsec |>.imp_right Option.some.inj
  obtain ⟨-, rfl⟩ := Option.ite_none_right_eq_some.mp hnsec |>.imp_right Option.some.inj
  exact (Option.some.inj hparse).symm

/-- **A time that is written is read back.** -/
theorem parseTaiStr_nsToTaiStr {ns : ℤ} (h0 : 0 ≤ ns) (h : ns < 9223372036854775808) :
    parseTaiStr (nsToTaiStr ns) = some ns := by
  obtain ⟨n, rfl⟩ := Int.eq_ofNat_of_zero_le h0
  have hprint : ∀ m : ℕ, Json.printInt (m : ℤ) = ofNat m := fun m => by
    rw [Json.printInt, if_neg (by omega), Int.natAbs_natCast]
  have hdecimal : ∀ m, (ofNat m).Decimal := fun m => ⟨ofNat_ne_nil m, fun c hc => digits_isDigit hc⟩
  have htext : nsToTaiStr n = ofNat (n / nanosPerSec) ++ ':' :: ofNat (n % nanosPerSec) := by
    rw [nsToTaiStr, ← Int.natCast_ediv, ← Int.natCast_emod, hprint, hprint]
  have hstoll : ∀ m ≤ n, stoll (ofNat m) = some (m : ℤ) := fun m hm => by
    rw [stoll_digits (hdecimal m).1 (hdecimal m).2, digitsValue_ofNat, if_pos (by omega)]
  have hsum : ((n / nanosPerSec : ℕ) : ℤ) * nanosPerSec + ((n % nanosPerSec : ℕ) : ℤ) = n := by
    exact_mod_cast Nat.div_add_mod' n nanosPerSec
  rw [htext, parseTaiStr, breakAt_append (Is05Activation.not_mem_decimal (hdecimal _))]
  simp only [hstoll _ (Nat.div_le_self n _), hstoll _ (Nat.mod_le n _), Option.bind_eq_bind, Option.bind_some,
    hsum]
  exact congrArg some (wrap64_eq (by omega) h)

/-! ## Requests -/

namespace CmPost

/-- The instant that a request names. -/
def target (p : CmPost) (now v : ℤ) : ℤ := if p.mode = .relative then now + v else v

/-- **A time is read as it is written, and a scheduled activation is kept for the instant that
its request names**; if the request does not name one, the answer is 400. -/
structure TimesExact (h : CmHost) (readJson : Text → Option Ptree) (env : Env) (now : ℤ) (p : CmPost) (id : Text)
    (s : CmState) : Prop where
  readBack : ∀ ns : ℤ, 0 ≤ ns → ns < 9223372036854775808 → parseTaiStr (nsToTaiStr ns) = some ns
  kept : ∀ pa, (CmOp.validate p id).exec h readJson env now s = some ([.insert id pa], s) →
    ∃ v, TaiText p.requestedTime v ∧ pa.deadlineNs = p.target now v
  refused : (∀ v, ¬ TaiText p.requestedTime v) →
    ∃ err, (CmOp.validate p id).exec h readJson env now s = some ([], s.append [.refused 400 err])

/-- The request names an instant that fits into 64 bits, or its time cannot be read. -/
def TimeFits (p : CmPost) (now : ℤ) : Prop :=
  TaiUnreadable p.requestedTime ∨ ∃ v, TaiText p.requestedTime v ∧ FitsInt64 (p.target now v)

variable {h : CmHost} {readJson : Text → Option Ptree} {env : Env} {now : ℤ} {p : CmPost} {id : Text}
  {s : CmState} {canonical : Text} {sm : SessionManager}

/-- The last test of a request. -/
theorem exec_validate (now : ℤ) (id : Text) {s : CmState} (hmode : p.mode ≠ .immediate)
    (haction : h.is08ApplyActionJson readJson (fun _ => env) p.rawActionJson true s.sm =
      some (.ok canonical, sm)) :
    (CmOp.validate p id).exec h readJson env now s =
      (parseTaiStr p.requestedTime).elim
        (some ([], s.append [.refused 400 "Invalid or missing requested_time".toList]))
        fun span => some ([.insert id (p.pending now span canonical)], s) := by
  rw [CmOp.exec, haction]
  dsimp only
  rw [if_neg hmode]
  cases parseTaiStr p.requestedTime <;> rfl

/-- The deadline of a well-formed request. -/
theorem deadlineNs_pending {v : ℤ} : (p.pending now (wrap64 v) canonical).deadlineNs = wrap64 (p.target now v) := by
  simp only [pending, target]
  by_cases hrelative : p.mode = .relative
  · rw [if_pos hrelative, if_pos hrelative, wrap64_add_wrap64]
  · rw [if_neg hrelative, if_neg hrelative]

/-- **When the times are exact**: for a scheduled request whose action is valid, exactly if its
time cannot be read, or is two decimal numbers and names an instant that fits. -/
theorem timesExact_iff (hmode : p.mode ≠ .immediate)
    (haction : h.is08ApplyActionJson readJson (fun _ => env) p.rawActionJson true s.sm =
      some (.ok canonical, sm)) :
    p.TimesExact h readJson env now id s ↔ p.TimeFits now := by
  have hexec := exec_validate now id hmode haction
  cases hparse : parseTaiStr p.requestedTime with
  | none =>
      rw [hparse] at hexec
      refine ⟨fun _ => .inl (parseTaiStr_eq_none_iff.mp hparse), fun _ => ?_⟩
      refine ⟨fun ns => parseTaiStr_nsToTaiStr, fun pa hpa => ?_, fun _ => ⟨_, hexec⟩⟩
      rw [hexec] at hpa
      cases hpa
  | some span =>
      rw [hparse] at hexec
      have hreadable : ¬ TaiUnreadable p.requestedTime := fun hu => by
        rw [parseTaiStr_eq_none_iff.mpr hu] at hparse
        cases hparse
      rw [TimeFits, or_iff_right hreadable]
      constructor
      · intro hexact
        obtain ⟨v, hv, hdeadline⟩ := hexact.kept _ hexec
        rw [parseTaiStr_taiText hv hparse, deadlineNs_pending] at hdeadline
        exact ⟨v, hv, wrap64_eq_self_iff.mp hdeadline⟩
      · rintro ⟨v, hv, hfits⟩
        refine ⟨fun ns => parseTaiStr_nsToTaiStr, fun pa hpa => ⟨v, hv, ?_⟩, fun hnone => absurd hv (hnone v)⟩
        rw [hexec] at hpa
        cases hpa
        rw [parseTaiStr_taiText hv hparse, deadlineNs_pending, wrap64_eq_self_iff.mpr hfits]

/-- A request for an instant of the clock that changes nothing. -/
def emptyPost (requestedTime : Text) : CmPost := ⟨.absolute, .node [] [], requestedTime⟩

theorem emptyPost_valid (requestedTime : Text) : ∃ canonical sm,
    CmHost.is08ApplyActionJson {} Json.read (fun _ => {}) (emptyPost requestedTime).rawActionJson true {} =
      some (.ok canonical, sm) := by
  have haction : (CmHost.is08ApplyActionJson {} Json.read (fun _ => {}) (Json.write (.node [] [])) true
      {}).map (fun r => r.1.toOption.isSome) = some true := by
    decide +kernel
  obtain ⟨⟨reply, sm⟩, hreply, hok⟩ := Option.map_eq_some_iff.mp haction
  cases reply with
  | error err => cases hok
  | ok canonical => exact ⟨canonical, sm, hreply⟩

/-- The times of a request for five seconds after the epoch. -/
theorem timesExact_five : (emptyPost "5:0".toList).TimesExact {} Json.read {} 0 "1".toList { sm := {} } := by
  obtain ⟨canonical, sm, haction⟩ := emptyPost_valid "5:0".toList
  refine (timesExact_iff (by decide) haction).mpr (.inr ⟨_, @TaiText.mk ['5'] ['0'] (by decide)
    (by decide), ?_⟩)
  rw [target, if_neg (by decide), FitsInt64]
  decide

/-- A time in the far future becomes one in the past. -/
theorem farFuture_past : ¬ (emptyPost "9223372037:0".toList).TimesExact {} Json.read {} 0 "1".toList
    { sm := {} } := by
  obtain ⟨canonical, sm, haction⟩ := emptyPost_valid "9223372037:0".toList
  have hparse : parseTaiStr (emptyPost "9223372037:0".toList).requestedTime = some (-9223372036709551616) := by
    decide +kernel
  intro hexact
  have hexec := exec_validate (p := emptyPost "9223372037:0".toList) (s := { sm := {} }) 0 "1".toList
    (by decide) haction
  rw [hparse] at hexec
  obtain ⟨v, hv, hdeadline⟩ := hexact.kept _ hexec
  have hpositive := hv.nonneg
  have hpast : (-9223372036709551616 : ℤ) = v := hdeadline
  omega

end CmPost
end Aes67Daemon
