import Aes67Daemon.Session.Outline

/-!
# Reading an SDP in bounds

The loop of `parse_sdp` looks at the second character of every line it gets to, and at the
first one if the second is an equals sign; the rest of a line is taken with `substr`, which
throws.  It writes to the record of the current audio section, whose index starts at `-1`.

## Main definitions

* `SdpParser.processed` — the lines that the loop gets to, each with the variables of the loop.
* `lineReads` — the characters that are read of a line.
* `SdpSafe`, `sdpSafe_iff` — reading an SDP is safe, and when.
-/
namespace Aes67Daemon

open Text

/-! ## What the loop gets to -/

namespace SdpParser

/-- The lines that the loop gets to, each with the variables it starts with. -/
def processed (host : Host) (ptp : Ptp) : SdpParser → List Text → List (SdpParser × Text)
  | _, [] => []
  | p, l :: ls =>
    if p.mid < mediaMax then
      (p, l) :: match p.line host ptp l with
        | .ok p' => p'.processed host ptp ls
        | .error _ => []
    else []

end SdpParser

/-- The characters of a line that are read by their position. -/
def lineReads (raw : Text) : List (Option Char) :=
  let l := trim raw
  if l[1]? = some '=' then [l[1]?, l[0]?] else [l[1]?]

/-- A line is a letter, an equals sign and a value. -/
def TypedLine (raw : Text) : Prop := ∃ c val, trim raw = c :: '=' :: val ∧ c.isAlpha = true

/-- Reading an SDP is safe: it is accepted or rejected; of every line that the loop gets to, only
characters that are there are read, and a line that is not empty has no access to a record but
those of the two legs; and if one of these lines has another form, the SDP is not accepted. -/
structure SdpSafe (host : Host) (ptp : Ptp) (sdp : Text) (info : StreamInfo) : Prop where
  replies : (∃ info', parseSdp host ptp sdp info = .ok info') ∨ parseSdp host ptp sdp info = .error .rejected
  reads : ∀ x ∈ SdpParser.processed host ptp { info := info } (getLines sdp), ∀ c ∈ lineReads x.2, c.isSome = true
  legs : ∀ x ∈ SdpParser.processed host ptp { info := info } (getLines sdp),
    trim x.2 ≠ [] → x.1.line host ptp x.2 ≠ .error .outOfBounds
  rejects : ∀ x ∈ SdpParser.processed host ptp { info := info } (getLines sdp),
    ¬ TypedLine x.2 → ∀ info', parseSdp host ptp sdp info ≠ .ok info'

/-- A lower-case letter of the alphabet. -/
theorem isAlpha_of_between {c : Char} (ha : 'a' ≤ c) (hz : c ≤ 'z') : c.isAlpha = true := by
  have hlower : (decide (c.val ≥ 'a'.val) && decide (c.val ≤ 'z'.val)) = true := by
    rw [Bool.and_eq_true, decide_eq_true_eq, decide_eq_true_eq]
    exact ⟨ha, hz⟩
  exact Bool.or_eq_true_iff.mpr (.inr hlower)

/-! ## Accesses -/

namespace Parsed
variable {α β : Type}

/-- A step has no access outside the array. -/
def InBounds (x : Parsed α) : Prop := x ≠ .error .outOfBounds

theorem inBounds_pure (a : α) : InBounds (pure a) := by
  intro h
  cases h

theorem inBounds_rejected : InBounds (.error .rejected : Parsed α) := by
  intro h
  cases h

theorem inBounds_orReject (o : Option α) : InBounds (orReject o) := by
  intro h
  cases o <;> cases h

theorem InBounds.bind {x : Parsed α} {f : α → Parsed β} (hx : InBounds x) (hf : ∀ a, InBounds (f a)) :
    InBounds (x >>= f) := by
  cases x with
  | ok a => exact hf a
  | error e =>
    intro h
    exact hx (congrArg Except.error (Except.error.inj h))

theorem InBounds.ite {c : Prop} [Decidable c] {x y : Parsed α} (hx : InBounds x) (hy : InBounds y) :
    InBounds (if c then x else y) := by
  split
  · exact hx
  · exact hy

end Parsed

open Parsed

namespace Outline

/-- What a line does to the index and to the status: it stays in its section, leaves the sections, or
opens the next one. -/
theorem line_advance (o : Outline) (l : Text) :
    (o.line l).mid = o.mid ∧ ((o.line l).status = o.status ∨ (o.line l).status = .time) ∨
      (o.line l).mid = o.mid + 1 := by
  unfold Outline.line
  split
  · unfold Outline.typed
    split
    · exact .inl ⟨rfl, .inr rfl⟩
    split
    · left
      split <;> exact ⟨rfl, .inl rfl⟩
    split
    · unfold Outline.mediaLine
      split
      · split
        · right
          split <;> rfl
        · exact .inl ⟨rfl, .inl rfl⟩
      · exact .inl ⟨rfl, .inl rfl⟩
    split
    · left
      unfold Outline.connectionLine
      split
      · exact ⟨rfl, .inl rfl⟩
      · split
        · exact ⟨rfl, .inl rfl⟩
        · exact ⟨rfl, .inl rfl⟩
        · exact ⟨rfl, .inl rfl⟩
    · exact .inl ⟨rfl, .inl rfl⟩
  · exact .inl ⟨rfl, .inl rfl⟩

end Outline

namespace SdpParser
variable {host : Host} {ptp : Ptp} {p p' : SdpParser}

/-- The index of the current audio section is the index of a leg. -/
def OnLeg (p : SdpParser) : Prop := p.mid = 0 ∨ p.mid = 1

/-- What holds of the variables of the loop: there is a current audio section once one was opened. -/
structure Indexed (p : SdpParser) : Prop where
  start : -1 ≤ p.mid
  media : p.status = .media → 0 ≤ p.mid

theorem Indexed.onLeg (h : p.Indexed) (hmedia : p.status = .media) (hmid : p.mid < mediaMax) : p.OnLeg := by
  have hstart := h.media hmedia
  unfold mediaMax at hmid
  unfold OnLeg
  omega

theorem OnLeg.at? (h : p.OnLeg) : InBounds (orOutOfBounds (p.info.stream.at? p.mid)) := by
  intro hbad
  rcases h with h | h <;> rw [h] at hbad <;> cases hbad

theorem OnLeg.modifyStream (h : p.OnLeg) (f : TRTPStreamInfo → TRTPStreamInfo) : InBounds (p.modifyStream f) := by
  refine InBounds.bind ?_ fun stream => inBounds_pure _
  intro hbad
  rcases h with h | h <;> rw [h] at hbad <;> cases hbad

theorem inBounds_originLine (val : Text) : InBounds (p.originLine val) := by
  unfold originLine
  split
  · exact (inBounds_orReject _).bind fun _ => inBounds_pure _
  · exact inBounds_pure _

theorem OnLeg.rtpmap (h : p.OnLeg) (value : Text) : InBounds (p.rtpmap host value) := by
  unfold SdpParser.rtpmap
  split
  · refine h.at?.bind fun stream => (inBounds_orReject _).bind fun payload => InBounds.ite ?_ (inBounds_pure _)
    exact (inBounds_orReject _).bind fun rate => (inBounds_orReject _).bind fun _ => h.modifyStream _
  · exact inBounds_rejected

theorem OnLeg.ptime (h : p.OnLeg) (host : Host) (value : Text) : InBounds (p.ptime host value) :=
  h.at?.bind fun _ => (inBounds_orReject _).bind fun _ => h.modifyStream _

theorem OnLeg.timestampOffset (h : p.OnLeg) (value : Text) : InBounds (p.timestampOffset value) :=
  (inBounds_orReject _).bind fun _ => h.modifyStream _

theorem OnLeg.mediaclk (h : p.OnLeg) (value : Text) : InBounds (p.mediaclk value) := by
  unfold SdpParser.mediaclk
  split
  · exact InBounds.ite (h.timestampOffset _) (inBounds_pure _)
  · exact inBounds_pure _

theorem inBounds_tsRefclk (value : Text) : InBounds (p.tsRefclk ptp value) := by
  unfold tsRefclk
  split
  · refine InBounds.ite inBounds_rejected ((inBounds_orReject _).bind fun domain => ?_)
    exact InBounds.ite inBounds_rejected (inBounds_pure _)
  · exact inBounds_pure _

theorem inBounds_sessionAttribute (name value : Text) : InBounds (p.sessionAttribute name value) := by
  unfold sessionAttribute
  refine InBounds.ite (inBounds_pure _) (InBounds.ite ?_ (inBounds_pure _))
  exact InBounds.ite inBounds_rejected (inBounds_pure _)

theorem OnLeg.mediaAttribute (h : p.OnLeg) (name value : Text) : InBounds (p.mediaAttribute host ptp name value) := by
  unfold SdpParser.mediaAttribute
  refine InBounds.ite (h.rtpmap _) (InBounds.ite (h.timestampOffset _) (InBounds.ite (inBounds_pure _) ?_))
  refine InBounds.ite (h.ptime _ _) (InBounds.ite (h.mediaclk _) ?_)
  exact InBounds.ite (inBounds_tsRefclk _) (inBounds_pure _)

theorem Indexed.attributeLine (h : p.Indexed) (hmid : p.mid < mediaMax) (val : Text) :
    InBounds (p.attributeLine host ptp val) := by
  unfold SdpParser.attributeLine
  split
  · exact inBounds_pure _
  · split
    · exact inBounds_sessionAttribute _ _
    · exact inBounds_sessionAttribute _ _
    · rename_i hmedia
      exact (h.onLeg hmedia hmid).mediaAttribute _ _

/-- The index has been advanced when a section is opened. -/
theorem inBounds_openSection (h : 0 ≤ p.mid) (f1 f3 : Text) : InBounds (p.openSection f1 f3) := by
  unfold openSection
  split
  · rename_i hmid
    have hleg : p.OnLeg := by
      unfold mediaMax at hmid
      unfold OnLeg
      omega
    refine (inBounds_orReject _).bind fun port => (inBounds_orReject _).bind fun payload => ?_
    exact (hleg.modifyStream _).bind fun _ => inBounds_pure _
  · exact inBounds_pure _

theorem Indexed.mediaLine (h : p.Indexed) (val : Text) : InBounds (p.mediaLine val) := by
  have hnext : 0 ≤ p.mid + 1 := by
    have hstart := h.start
    omega
  unfold SdpParser.mediaLine
  split
  · exact InBounds.ite (inBounds_openSection hnext _ _) (inBounds_pure _)
  · exact inBounds_rejected

theorem inBounds_connectionTtl (fs : List Text) : InBounds (connectionTtl fs) := by
  cases fs with
  | nil => exact inBounds_pure _
  | cons f fs => exact inBounds_orReject _

theorem Indexed.connectionLine (h : p.Indexed) (hmid : p.mid < mediaMax) (val : Text) :
    InBounds (p.connectionLine val) := by
  unfold SdpParser.connectionLine
  split
  · exact inBounds_pure _
  · rename_i htime
    split
    · refine InBounds.ite inBounds_rejected ((inBounds_orReject _).bind fun destIP => ?_)
      refine InBounds.ite inBounds_rejected ((inBounds_connectionTtl _).bind fun ttl => ?_)
      unfold setConnection
      dsimp only
      split
      · exact inBounds_pure _
      · rename_i hinit
        have hmedia : p.status = .media := by
          cases hs : p.status with
          | init => exact absurd hs hinit
          | time => exact absurd hs htime
          | media => rfl
        exact (h.onLeg hmedia hmid).modifyStream _
    · exact inBounds_rejected

/-- **A line that is not empty has no access outside the array.** -/
theorem Indexed.line (h : p.Indexed) (hmid : p.mid < mediaMax) {raw : Text} (hraw : trim raw ≠ []) :
    InBounds (p.line host ptp raw) := by
  unfold SdpParser.line
  split
  · rename_i hnil
    exact absurd hnil hraw
  · exact inBounds_rejected
  · rename_i c d val htrim
    refine InBounds.ite inBounds_rejected ?_
    refine InBounds.ite (InBounds.ite inBounds_rejected (inBounds_pure _)) ?_
    refine InBounds.ite (inBounds_originLine _) (InBounds.ite (inBounds_pure _) ?_)
    refine InBounds.ite (h.attributeLine hmid _) (InBounds.ite (h.mediaLine _) ?_)
    exact InBounds.ite (h.connectionLine hmid _) (InBounds.ite inBounds_rejected (inBounds_pure _))

/-! ## The loop -/

theorem indexed_start (info : StreamInfo) : Indexed { info := info } :=
  ⟨le_refl _, fun h => absurd h SdpStatus.noConfusion⟩

/-- **An accepted line** closes no section, and a section is opened with its index. -/
theorem Indexed.step (h : p.Indexed) {raw : Text} (hline : p.line host ptp raw = .ok p') : p'.Indexed := by
  have hout := outline_line hline
  have hmid : p'.mid = (p.outline.line raw).mid := congrArg Outline.mid hout
  have hstatus : p'.status = (p.outline.line raw).status := congrArg Outline.status hout
  have hstart : -1 ≤ p.outline.mid := h.start
  rcases p.outline.line_advance raw with ⟨hsame, hkept | htime⟩ | hnext
  · rw [hsame] at hmid
    rw [hkept] at hstatus
    exact ⟨by rw [hmid]; exact h.start, fun hs => by rw [hmid]; exact h.media (hstatus.symm.trans hs)⟩
  · rw [hsame] at hmid
    rw [htime] at hstatus
    exact ⟨by rw [hmid]; exact h.start, fun hs => absurd (hstatus.symm.trans hs) (by decide)⟩
  · rw [hnext] at hmid
    exact ⟨by omega, fun _ => by omega⟩

/-- The lines that the loop gets to find the variables in order. -/
theorem Indexed.processed {ls : List Text} (h : p.Indexed) {x : SdpParser × Text}
    (hx : x ∈ p.processed host ptp ls) : x.1.Indexed ∧ x.1.mid < mediaMax := by
  induction ls generalizing p with
  | nil => cases hx
  | cons l ls ih =>
      unfold SdpParser.processed at hx
      split at hx
      · rename_i hmid
        rcases List.mem_cons.mp hx with rfl | hx
        · exact ⟨h, hmid⟩
        · split at hx
          · rename_i hline
            exact ih (h.step hline) hx
          · cases hx
      · cases hx

/-- If the text is accepted, so is every line that the loop gets to. -/
theorem line_of_processed {ls : List Text} (hls : p.lines host ptp ls = .ok p') {x : SdpParser × Text}
    (hx : x ∈ p.processed host ptp ls) : ∃ q, x.1.line host ptp x.2 = .ok q := by
  induction ls generalizing p with
  | nil => cases hx
  | cons l ls ih =>
      unfold SdpParser.processed at hx
      unfold SdpParser.lines at hls
      split at hx
      · rename_i hmid
        rw [if_pos hmid] at hls
        obtain ⟨q, hq, hls⟩ := Parsed.bind_eq_ok.mp hls
        rcases List.mem_cons.mp hx with rfl | hx
        · exact ⟨q, hq⟩
        · rw [hq] at hx
          exact ih hls hx
      · cases hx

/-- The loop has no access outside the array if none of its lines has. -/
theorem inBounds_lines {ls : List Text}
    (h : ∀ x ∈ p.processed host ptp ls, InBounds (x.1.line host ptp x.2)) : InBounds (p.lines host ptp ls) := by
  induction ls generalizing p with
  | nil => exact inBounds_pure _
  | cons l ls ih =>
      unfold SdpParser.processed at h
      unfold SdpParser.lines
      split
      · rename_i hmid
        rw [if_pos hmid] at h
        have hl := h (p, l) List.mem_cons_self
        cases hq : p.line host ptp l with
        | error e =>
          intro he
          exact hl (hq.trans (congrArg Except.error (Except.error.inj he)))
        | ok q =>
          refine ih fun x hx => h x (List.mem_cons_of_mem _ ?_)
          rw [hq]
          exact hx
      · exact inBounds_pure _

/-- A line that is accepted is a letter, an equals sign and a value. -/
theorem typedLine_of_line {raw : Text} (h : p.line host ptp raw = .ok p') : TypedLine raw := by
  obtain ⟨c, val, htrim, -⟩ := line_eq_ok h
  refine ⟨c, val, htrim, ?_⟩
  unfold SdpParser.line at h
  rw [htrim] at h
  dsimp only at h
  rw [if_neg (not_not.mpr rfl)] at h
  split at h
  · rename_i hc
    rw [hc]
    decide
  split at h
  · rename_i hc
    rw [hc]
    decide
  split at h
  · rename_i hc
    rw [hc]
    decide
  split at h
  · rename_i hc
    rw [hc]
    decide
  split at h
  · rename_i hc
    rw [hc]
    decide
  split at h
  · rename_i hc
    rw [hc]
    decide
  split at h
  · cases h
  · rename_i hc
    exact isAlpha_of_between (not_lt.mp (not_or.mp hc).1) (not_lt.mp (not_or.mp hc).2)

end SdpParser

open SdpParser

/-! ## When reading is safe -/

/-- Of a line with two characters, only characters that are there are read; else the second one is
not. -/
theorem lineReads_isSome_iff (raw : Text) :
    (∀ c ∈ lineReads raw, c.isSome = true) ↔ 2 ≤ (trim raw).length := by
  have hsecond : (trim raw)[1]?.isSome = true ↔ 2 ≤ (trim raw).length := by
    rw [Option.isSome_iff_ne_none, ne_eq, List.getElem?_eq_none_iff, not_le]
    rfl
  have hmem : (trim raw)[1]? ∈ lineReads raw := by
    unfold lineReads
    dsimp only
    split <;> exact List.mem_cons_self
  constructor
  · intro h
    exact hsecond.mp (h _ hmem)
  · intro h c hc
    have hfirst : (trim raw)[0]?.isSome = true := by
      rw [Option.isSome_iff_ne_none, ne_eq, List.getElem?_eq_none_iff]
      omega
    unfold lineReads at hc
    dsimp only at hc
    split at hc
    · rcases List.mem_cons.mp hc with rfl | hc
      · exact hsecond.mpr h
      · rw [List.mem_singleton.mp hc]
        exact hfirst
    · rw [List.mem_singleton.mp hc]
      exact hsecond.mpr h

/-- **Reading an SDP is safe if and only if every line that the loop gets to has, trimmed, two
characters.** -/
theorem sdpSafe_iff (host : Host) (ptp : Ptp) (sdp : Text) (info : StreamInfo) :
    SdpSafe host ptp sdp info ↔
      ∀ x ∈ SdpParser.processed host ptp { info := info } (getLines sdp), 2 ≤ (trim x.2).length := by
  have hlegs : ∀ x ∈ SdpParser.processed host ptp { info := info } (getLines sdp),
      trim x.2 ≠ [] → InBounds (x.1.line host ptp x.2) := by
    intro x hx
    have hx := (indexed_start info).processed hx
    exact hx.1.line hx.2
  constructor
  · intro h x hx
    exact (lineReads_isSome_iff x.2).mp (h.reads x hx)
  · intro h
    refine ⟨?_, fun x hx => (lineReads_isSome_iff x.2).mpr (h x hx), hlegs, ?_⟩
    · have hlines : InBounds (SdpParser.lines host ptp { info := info } (getLines sdp)) :=
        inBounds_lines fun x hx => hlegs x hx fun hnil => by
          have hlength := h x hx
          rw [hnil] at hlength
          exact absurd hlength (by decide)
      cases hparse : parseSdp host ptp sdp info with
      | ok info' => exact .inl ⟨info', rfl⟩
      | error e =>
        cases e with
        | rejected => exact .inr rfl
        | outOfBounds => exact absurd hparse (hlines.bind fun _ => inBounds_pure _)
    · intro x hx htyped info' hparse
      obtain ⟨p, hp, -⟩ := Parsed.bind_eq_ok.mp hparse
      obtain ⟨q, hq⟩ := line_of_processed hp hx
      exact htyped (typedLine_of_line hq)

/-- A line break too many at the end: the empty line has no second character. -/
theorem not_sdpSafe_of_blankLine : ¬ SdpSafe {} {} "v=0\n\n".toList {} := by
  intro h
  have hlast : (({ info := {} } : SdpParser), ([] : Text)) ∈
      SdpParser.processed {} {} { info := {} } (getLines "v=0\n\n".toList) := by
    decide +kernel
  exact absurd ((lineReads_isSome_iff []).mp (h.reads _ hlast)) (by decide)

end Aes67Daemon
