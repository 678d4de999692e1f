import Aes67Daemon.Session.Outline

/-!
# Reference clocks of descriptions

Of the PTP state a description is compared with the grandmaster and the domain only, in the
`ts-refclk` attributes of its audio sections.  So a description that was accepted is accepted
with another PTP state exactly when these attributes name its grandmaster and its domain.

## Main definitions

* `refclks` — the reference clocks a description is read for.
* `NamesClock` — what is asked of them.
* `parseSdp_again_iff` — when a description is accepted again.
-/
namespace Aes67Daemon

open Text

/-- The value of an `a=ts-refclk` line. -/
def refclkLine (l : Text) : Option Text :=
  match trim l with
  | 'a' :: '=' :: val => (breakAt ':' val).bind fun f => if f.1 = "ts-refclk".toList then some f.2 else none
  | _ => none

/-- The reference clocks in the audio sections of the lines that are read. -/
def Outline.refclks : Outline → List Text → List Text
  | _, [] => []
  | o, l :: ls =>
    if o.mid < SdpParser.mediaMax then
      (if o.status = .media then (refclkLine l).toList else []) ++ (o.line l).refclks ls
    else []

/-- The reference clocks in the audio sections of a description. -/
def refclks (sdp : Text) : List Text := ({ info := {} } : SdpParser).outline.refclks (getLines sdp)

/-- A reference with a grandmaster and a domain names the present ones. -/
def NamesClock (ptp : Ptp) (value : Text) : Prop :=
  ∀ f0 f1 f2, splitBy (· = ':') value = [f0, f1, f2] → f1 = ptp.status.gmid ∧ stoi f2 = some (ptp.config.domain.toNat : ℤ)

namespace SdpParser
variable {host : Host} {ptp ptp' : Ptp} {p p' q : SdpParser} {l : Text}

/-- The reference clock that a line is read for. -/
def compared (p : SdpParser) (l : Text) : Option Text :=
  if p.status = .media ∧ p.info.ignoreRefclkGmid = false then refclkLine l else none

theorem tsRefclk_eq_ok_iff {value : Text} : p.tsRefclk ptp value = .ok p' ↔ p = p' ∧ NamesClock ptp value := by
  unfold tsRefclk
  split
  · rename_i f0 f1 f2 hval
    have hnames : NamesClock ptp value ↔ f1 = ptp.status.gmid ∧ stoi f2 = some (ptp.config.domain.toNat : ℤ) := by
      constructor
      · exact fun h => h _ _ _ hval
      · intro h g0 g1 g2 hg
        obtain ⟨rfl, rfl, rfl⟩ : f0 = g0 ∧ f1 = g1 ∧ f2 = g2 := by simpa using hval.symm.trans hg
        exact h
    rw [hnames, Parsed.ite_error_eq_ok, not_not, Parsed.bind_eq_ok]
    simp only [Parsed.orReject_eq_ok, Parsed.ite_error_eq_ok, not_not, Parsed.pure_eq_ok]
    constructor
    · rintro ⟨hgmid, _, hdomain, rfl, rfl⟩
      exact ⟨rfl, hgmid, hdomain⟩
    · rintro ⟨rfl, hgmid, hdomain⟩
      exact ⟨hgmid, _, hdomain, rfl, rfl⟩
  · rename_i hval
    rw [Parsed.pure_eq_ok]
    exact (and_iff_left fun f0 f1 f2 hsplit => absurd hsplit (hval f0 f1 f2)).symm

theorem toList_compared (h : p.info.ignoreRefclkGmid = false) :
    (if p.outline.status = .media then (refclkLine l).toList else []) = (p.compared l).toList := by
  have hstatus : p.outline.status = p.status := rfl
  rw [compared, hstatus]
  by_cases hmedia : p.status = .media
  · rw [if_pos hmedia, if_pos ⟨hmedia, h⟩]
  · rw [if_neg hmedia, if_neg fun hm => hmedia hm.1]
    rfl

/-- A line that is read for its reference clock. -/
theorem line_of_compared {value : Text} (h : p.compared l = some value) : p.line host ptp l = p.tsRefclk ptp value := by
  rw [compared, Option.ite_none_right_eq_some] at h
  obtain ⟨⟨hstatus, hignore⟩, h⟩ := h
  unfold refclkLine at h
  split at h
  · rename_i val htrim
    obtain ⟨⟨name, v⟩, hval, h⟩ := Option.bind_eq_some_iff.mp h
    obtain ⟨rfl, hv⟩ := Option.ite_none_right_eq_some.mp h
    obtain rfl := Option.some.inj hv
    unfold line attributeLine
    rw [htrim]
    simp [hval, hstatus, mediaAttribute, hignore]
  · cases h

/-- Any other line does not depend on the PTP state. -/
theorem line_of_not_compared (h : p.compared l = none) : p.line host ptp' l = p.line host ptp l := by
  have hattr : ∀ val, trim l = 'a' :: '=' :: val → p.attributeLine host ptp' val = p.attributeLine host ptp val := by
    intro val htrim
    unfold attributeLine
    split
    · rfl
    · rename_i name value hval
      split
      · rfl
      · rfl
      · rename_i hstatus
        have hno : ¬ (name = "ts-refclk".toList ∧ p.info.ignoreRefclkGmid = false) := by
          rintro ⟨hname, hignore⟩
          rw [compared, if_pos ⟨hstatus, hignore⟩, refclkLine, htrim] at h
          have hsome : some value = none := by simpa only [hval, Option.bind_some, if_pos hname] using h
          cases hsome
        unfold mediaAttribute
        rw [if_neg hno, if_neg hno]
  unfold line
  split
  · rfl
  · rfl
  · rename_i c d val htrim
    by_cases hd : d = '='
    · by_cases hc : c = 'a'
      · subst hd hc
        rw [hattr val htrim]
      · simp only [hc, if_false]
    · simp only [hd, ne_eq, not_false_eq_true, if_true]

/-- **Lines that were accepted** are accepted again if their reference clocks name the present one. -/
theorem lines_again_iff {ls : List Text} (h : p.lines host ptp ls = .ok p') :
    (∃ q, p.lines host ptp' ls = .ok q) ↔
      (p.info.ignoreRefclkGmid = false → ∀ v ∈ p.outline.refclks ls, NamesClock ptp' v) := by
  induction ls generalizing p with
  | nil => exact iff_of_true ⟨p, rfl⟩ fun _ _ hv => absurd hv List.not_mem_nil
  | cons l ls ih =>
      rw [lines, Outline.refclks]
      rw [lines] at h
      split at h
      · rename_i hmid
        obtain ⟨q, hq, h⟩ := Parsed.bind_eq_ok.mp h
        have hignore : q.info.ignoreRefclkGmid = p.info.ignoreRefclkGmid :=
          congrArg (fun i => i.ignoreRefclkGmid) (undescribed_line hq)
        have hrest := ih h
        rw [hignore] at hrest
        rw [if_pos hmid, if_pos (show p.outline.mid < mediaMax from hmid), ← outline_line hq]
        cases hcomp : p.compared l with
        | none =>
            have hline : p.line host ptp' l = .ok q := (line_of_not_compared hcomp).trans hq
            have hnext : (p.line host ptp' l >>= fun q => q.lines host ptp' ls) = q.lines host ptp' ls := by
              rw [hline]
              rfl
            rw [hnext, hrest]
            refine forall_congr' fun hoff => ?_
            rw [toList_compared hoff, hcomp, Option.toList_none, List.nil_append]
        | some v =>
            have hoff : p.info.ignoreRefclkGmid = false := by
              rw [compared, Option.ite_none_right_eq_some] at hcomp
              exact hcomp.1.2
            -- the line checks the clock and changes nothing
            obtain ⟨rfl, -⟩ := tsRefclk_eq_ok_iff.mp ((line_of_compared hcomp).symm.trans hq)
            rw [toList_compared hoff, hcomp, Option.toList_some, List.singleton_append]
            simp only [hoff, forall_const] at hrest ⊢
            rw [List.forall_mem_cons, ← hrest, line_of_compared hcomp]
            simp only [Parsed.bind_eq_ok, tsRefclk_eq_ok_iff]
            constructor
            · rintro ⟨q, _, ⟨rfl, hnames⟩, hq⟩
              exact ⟨hnames, q, hq⟩
            · rintro ⟨hnames, q, hq⟩
              exact ⟨q, _, ⟨rfl, hnames⟩, hq⟩
      · rename_i hmid
        rw [if_neg hmid, if_neg (show ¬ p.outline.mid < mediaMax from hmid)]
        exact iff_of_true ⟨p, rfl⟩ fun _ _ hv => absurd hv List.not_mem_nil

end SdpParser

/-- **A description that was accepted** is accepted again exactly when the sink ignores the
grandmaster or the reference clocks name the present one. -/
theorem parseSdp_again_iff {host : Host} {ptp ptp' : Ptp} {sdp : Text} {info parsed : StreamInfo}
    (hstart : ({ info := info } : SdpParser).outline = ({ info := {} } : SdpParser).outline)
    (h : parseSdp host ptp sdp info = .ok parsed) : (∃ parsed', parseSdp host ptp' sdp info = .ok parsed') ↔
      (info.ignoreRefclkGmid = false → ∀ v ∈ refclks sdp, NamesClock ptp' v) := by
  obtain ⟨p, hp, -⟩ := Parsed.bind_eq_ok.mp h
  rw [refclks, ← hstart, ← SdpParser.lines_again_iff hp]
  simp only [parseSdp, Parsed.bind_eq_ok, Parsed.pure_eq_ok]
  constructor
  · rintro ⟨_, q, hq, -⟩
    exact ⟨q, hq⟩
  · rintro ⟨q, hq⟩
    exact ⟨_, q, hq, rfl⟩

end Aes67Daemon
