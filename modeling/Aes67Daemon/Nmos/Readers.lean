import Aes67Daemon.Nmos.Receiver
import Aes67Daemon.Session.Outline
import Aes67Daemon.Session.Prepared

/-!
# Two readers of a session description

`parse_sdp` decides what a sink receives, and `build_receiver_tp_from_sdp` what
the connection API says about it.  The first follows the lines of the text and
its audio sections, the second goes from one `m=audio ` to the next wherever they
stand.

## Main definitions

* `audioSections` — the audio sections of a text.
* `lines_sections` — what `parse_sdp` reads in them.
* `LegAligned` — what stands behind an `m=audio ` is what a section says.
* `ReadersAligned`, `sdp_readers_agree` — when the two agree.
-/
namespace Aes67Daemon

open Text

/-- The lines before the audio sections of a text, and the sections. -/
def audioSections (sdp : Text) : List Text × List (Text × List Text) := sections opensAudio (getLines sdp)

namespace SdpParser
variable {host : Host} {ptp : Ptp} {p p' : SdpParser}

/-- An accepted line that opens an audio section has a port, and opens one if there is room. -/
theorem line_opensAudio {m : Text} (h : p.line host ptp m = .ok p') (hm : opensAudio m = true) :
    (p.mid + 1 < mediaMax → ∃ port, portAt (trim m) = some port ∧ p'.outline =
      { p.outline with
        status := .media, mid := p.mid + 1, port := p.outline.port.set (p.mid + 1) port }) ∧
    (¬ p.mid + 1 < mediaMax → p'.outline = { p.outline with mid := p.mid + 1 }) := by
  obtain ⟨c, val, htrim, hline⟩ := line_eq_ok h
  have hpre : audioMark <+: trim m := List.isPrefixOf_iff_prefix.mp hm
  have hmark : audioMark = 'm' :: '=' :: ("audio".toList ++ [' ']) := by decide
  rw [htrim, hmark, List.cons_prefix_cons, List.cons_prefix_cons] at hpre
  obtain ⟨rfl, -, w, hw⟩ := hpre
  rw [List.append_assoc, List.singleton_append] at hw
  cases hline with
  | ignored hc => exact absurd hc (by decide)
  | origin hc => exact absurd hc (by decide)
  | time hc => exact absurd hc (by decide)
  | attr hc => exact absurd hc (by decide)
  | connection hc => exact absurd hc (by decide)
  | media _ h =>
      have hout := outline_mediaLine h
      obtain ⟨f0, f1, f2, f3, fs, hval, hcase⟩ := mediaLine_eq_ok h
      obtain ⟨u, hu, hf0, hsplit⟩ := splitBy_eq_cons_cons hval
      obtain ⟨v, rfl, hf1, -⟩ := splitBy_eq_cons_cons hsplit
      have hbreak : breakAt ' ' val = some ("audio".toList, w) := by
        rw [← hw, breakAt_append (by decide)]
      rw [hu, breakAt_append hf0, Option.some.injEq, Prod.mk.injEq] at hbreak
      obtain ⟨rfl, rfl⟩ := hbreak
      rcases hcase with ⟨hne, -⟩ | ⟨-, h⟩
      · exact absurd rfl hne
      simp only [Outline.mediaLine, hval, if_true] at hout
      rcases openSection_eq_ok h with ⟨hmax, -⟩ | ⟨z, _, q, hz, -, hq, -⟩
      · rw [if_neg (show ¬ p.outline.mid + 1 < mediaMax from not_lt.mpr hmax)] at hout
        exact ⟨fun hlt => absurd hlt (not_lt.mpr hmax), fun _ => hout⟩
      · obtain ⟨s, hs, -⟩ := outline_modifyStream hq
        have hlt : p.mid + 1 < mediaMax := lt_mediaMax_of_at? hs
        rw [if_pos (show p.outline.mid + 1 < mediaMax from hlt), hz] at hout
        refine ⟨fun _ => ⟨UInt16.ofInt z, ?_, hout⟩, fun hge => absurd hlt hge⟩
        have htext : trim m = "m=audio ".toList ++ (f1 ++ ' ' :: v) := by rw [htrim, hu]; rfl
        rw [htext, portAt_append hf1, hz]
        rfl

/-- One section, up to the next. -/
theorem lines_section {m : Text} {body rest : List Text}
    (h : p.lines host ptp (m :: (body ++ rest)) = .ok p') (hm : opensAudio m = true)
    (hbody : ∀ l ∈ body, ¬ opensAudio l = true) (hmid : p.mid + 1 < mediaMax) {d : UInt32}
    (hd : p.outline.dest.at? (p.mid + 1) = some d) :
    ∃ q : SdpParser, q.lines host ptp rest = .ok p' ∧ ∃ status port, portAt (trim m) = some port ∧
      q.outline =
        { status := status
          mid := p.mid + 1
          dup := p.dup || announcesDup false body
          port := p.outline.port.set (p.mid + 1) port
          dest := p.outline.dest.set (p.mid + 1) (appliedConnection d body) } := by
  rw [lines, if_pos (by omega)] at h
  obtain ⟨q, hq, h⟩ := Parsed.bind_eq_ok.mp h
  obtain ⟨q', hq', h⟩ := lines_append_eq_ok h
  obtain ⟨port, hport, hout⟩ := (line_opensAudio hq hm).1 hmid
  have hqmid : q.outline.mid = p.mid + 1 := by rw [hout]
  obtain ⟨status, hlines⟩ := Outline.lines_media hbody (o := q.outline) (d := d) (by omega)
    (by rw [hout]) (by rw [hqmid, hout]; exact hd)
  refine ⟨q', h, status, port, hport, ?_⟩
  rw [outline_lines hq', hlines, hout]
  rfl

/-- From the third section on nothing more is read. -/
theorem lines_third {secs : List (Text × List Text)} (h : p.lines host ptp (ofSections secs) = .ok p')
    (hsecs : ∀ s ∈ secs, opensAudio s.1 = true) (hmid : p.mid = 1) :
    0 < p'.mid ∧ p'.outline = { p.outline with mid := p'.mid } := by
  cases secs with
  | nil =>
      obtain rfl := Parsed.pure_eq_ok.mp h
      exact ⟨by omega, rfl⟩
  | cons s secs =>
      rw [ofSections, List.flatMap_cons, List.cons_append, lines,
        if_pos (by rw [hmid]; decide)] at h
      obtain ⟨q, hq, h⟩ := Parsed.bind_eq_ok.mp h
      have hout := (line_opensAudio hq (hsecs s List.mem_cons_self)).2 (by rw [hmid]; decide)
      have hqmid : q.mid = 2 := by
        have hmid' : q.mid = p.mid + 1 := congrArg Outline.mid hout
        omega
      have hend : p' = q := by
        have hstop : ¬ q.mid < mediaMax := by rw [hqmid]; decide
        cases hls : s.2 ++ List.flatMap (fun s => s.1 :: s.2) secs with
        | nil => rw [hls] at h; exact (Parsed.pure_eq_ok.mp h).symm
        | cons => rw [hls, lines, if_neg hstop] at h; exact (Parsed.pure_eq_ok.mp h).symm
      rw [hend]
      exact ⟨by omega, by rw [hout, hqmid, hmid]; rfl⟩

end SdpParser

/-- What an outline says about a leg is what its section says. -/
structure Outline.LegRead (o : Outline) (d : UInt32) (k : ℕ) (s : Text × List Text) : Prop where
  port : ∃ port, o.port.at? k = some port ∧ portAt (trim s.1) = some port
  dest : o.dest.at? k = some (appliedConnection d s.2)

/-- Whether a `DUP` group is announced before the third section. -/
def announced (secs : List Text × List (Text × List Text)) : Bool :=
  announcesDup true secs.1 || (secs.2.take 2).any fun s => announcesDup false s.2

namespace SdpParser
variable {host : Host} {ptp : Ptp} {p p' : SdpParser}

/-- What is read before the first section. -/
theorem lines_preamble {pre rest : List Text} (h : p.lines host ptp (pre ++ rest) = .ok p')
    (hpre : ∀ l ∈ pre, ¬ opensAudio l = true) (hstatus : p.status = .init) (hmid : p.mid = -1)
    (hdup : p.dup = false) (hdest : p.outline.dest = ⟨0, 0⟩) :
    ∃ q : SdpParser, q.lines host ptp rest = .ok p' ∧ q.mid = -1 ∧ q.dup = announcesDup true pre ∧
      q.outline.dest = ⟨appliedConnection 0 pre, appliedConnection 0 pre⟩ := by
  obtain ⟨q, hq, h⟩ := lines_append_eq_ok h
  obtain ⟨status, -, hlines⟩ := Outline.lines_init hpre (o := p.outline)
    (show p.mid < mediaMax by rw [hmid]; decide) hstatus hdest
  have hqout := (outline_lines hq).trans hlines
  refine ⟨q, h, (congrArg Outline.mid hqout).trans hmid, (congrArg Outline.dup hqout).trans ?_,
    congrArg Outline.dest hqout⟩
  show (p.dup || _) = _
  rw [hdup, Bool.false_or]

/-- What is read in the first section. -/
theorem lines_first {m : Text} {body rest : List Text} {d : UInt32}
    (h : p.lines host ptp (m :: (body ++ rest)) = .ok p') (hm : opensAudio m = true)
    (hbody : ∀ l ∈ body, ¬ opensAudio l = true) (hmid : p.mid = -1) (hdest : p.outline.dest = ⟨d, d⟩) :
    ∃ q : SdpParser, q.lines host ptp rest = .ok p' ∧ q.mid = 0 ∧
      q.dup = (p.dup || announcesDup false body) ∧ q.outline.dest = ⟨appliedConnection d body, d⟩ ∧
        ∃ port, portAt (trim m) = some port ∧ q.outline.port.at? 0 = some port := by
  obtain ⟨q, h, status, port, hport, hout⟩ := lines_section h hm hbody (by rw [hmid]; decide) (d := d)
    (by rw [hmid, hdest]; rfl)
  refine ⟨q, h, (congrArg Outline.mid hout).trans (by simp [hmid]), congrArg Outline.dup hout, ?_,
    port, hport, ?_⟩
  · exact (congrArg Outline.dest hout).trans (by simp [hmid, hdest, Legs.set])
  · rw [congrArg Outline.port hout]
    simp [hmid, Legs.set, Legs.at?]

/-- **What `parse_sdp` reads in the sections.** -/
theorem lines_sections {sdp : Text} (h : p.lines host ptp (getLines sdp) = .ok p') (hstatus : p.status = .init)
    (hmid : p.mid = -1) (hdup : p.dup = false) (hdest : p.outline.dest = ⟨0, 0⟩) :
    (∀ k s, (audioSections sdp).2[k]? = some s → k < 2 →
      p'.outline.LegRead (appliedConnection 0 (audioSections sdp).1) k s) ∧
    (0 < p'.mid ↔ 2 ≤ (audioSections sdp).2.length) ∧
    (2 ≤ (audioSections sdp).2.length → p'.dup = announced (audioSections sdp)) := by
  obtain ⟨hpre, hbody⟩ := not_of_mem_sections opensAudio (getLines sdp)
  have hmark := of_mem_sections opensAudio (getLines sdp)
  have hls := sections_eq opensAudio (getLines sdp)
  rw [audioSections]
  generalize sections opensAudio (getLines sdp) = split at *
  obtain ⟨pre, secs⟩ := split
  simp only at hpre hbody hmark hls ⊢
  rw [← hls] at h
  obtain ⟨q, h, hqmid, hqdup, hqdest⟩ := lines_preamble h hpre hstatus hmid hdup hdest
  cases secs with
  | nil =>
      obtain rfl := Parsed.pure_eq_ok.mp h
      refine ⟨by simp, ?_, by simp⟩
      simp only [List.length_nil]
      omega
  | cons s0 secs =>
      rw [ofSections, List.flatMap_cons, List.cons_append] at h
      obtain ⟨q0, h, hmid0, hdup0, hdest0, port0, hport0, hread0⟩ := lines_first h (hmark s0 (by simp))
        (hbody s0 (by simp)) hqmid hqdest
      cases secs with
      | nil =>
          obtain rfl := Parsed.pure_eq_ok.mp h
          refine ⟨fun k s hs _ => ?_, by simp [hmid0], by simp⟩
          have hk : k = 0 := by
            have hlt := (List.getElem?_eq_some_iff.mp hs).1
            simp only [List.length_singleton] at hlt
            omega
          subst hk
          cases hs
          exact ⟨⟨port0, hread0, hport0⟩, by rw [hdest0]; rfl⟩
      | cons s1 secs =>
          rw [List.flatMap_cons, List.cons_append] at h
          obtain ⟨q1, h, status1, port1, hport1, hout1⟩ := lines_section h (hmark s1 (by simp))
            (hbody s1 (by simp)) (by rw [hmid0]; decide) (d := appliedConnection 0 pre)
            (by rw [hmid0, hdest0]; rfl)
          have hmid1 : q1.mid = 1 := (congrArg Outline.mid hout1).trans (by simp [hmid0])
          obtain ⟨hpos, hout⟩ := lines_third h (fun s hs => hmark s (by simp [hs])) hmid1
          have hout' : p'.outline = { q1.outline with mid := p'.mid } := hout
          refine ⟨fun k s hs hk => ?_, by simp [hpos], fun _ => ?_⟩
          · have hport' : p'.outline.port = q0.outline.port.set 1 port1 := by
              rw [hout', hout1]; simp [hmid0]
            have hdest' : p'.outline.dest = ⟨appliedConnection (appliedConnection 0 pre) s0.2,
                appliedConnection (appliedConnection 0 pre) s1.2⟩ := by
              rw [hout', hout1]; simp [hmid0, hdest0, Legs.set]
            obtain rfl | rfl : k = 0 ∨ k = 1 := by omega
            · cases hs
              refine ⟨⟨port0, ?_, hport0⟩, by rw [hdest']; rfl⟩
              rw [hport', ← hread0]
              simp [Legs.set, Legs.at?]
            · cases hs
              exact ⟨⟨port1, by rw [hport']; simp [Legs.set, Legs.at?], hport1⟩, by rw [hdest']; rfl⟩
          · have hdup1 : p'.dup = (q0.dup || announcesDup false s1.2) :=
              (congrArg Outline.dup hout').trans (congrArg Outline.dup hout1)
            rw [hdup1, hdup0, hqdup]
            simp [announced, Bool.or_assoc]

end SdpParser

/-! ## When the readers agree -/

/-- The transport parameters of a leg show its port, and its destination if that is a
multicast address. -/
def LegAgrees (tp : ReceiverTp) (stream : TRTPStreamInfo) : Prop :=
  tp.destinationPort = stream.usDestPort ∧ tp.multicastIp =
    if Address.inMulticast stream.ui32DestIP then Address.toText stream.ui32DestIP else []

/-- The transport parameters of two legs show what `parse_sdp` has read. -/
def ReadersAgree (tps : List ReceiverTp) (info : StreamInfo) : Prop :=
  ∃ tp0 tp1, tps = [tp0, tp1] ∧ LegAgrees tp0 info.stream.leg0 ∧
    (tp1.rtpEnabled = true ↔ info.st20227Enabled = true) ∧
    (info.st20227Enabled = true → LegAgrees tp1 info.stream.leg1)

instance (tp : ReceiverTp) (stream : TRTPStreamInfo) : Decidable (LegAgrees tp stream) :=
  inferInstanceAs (Decidable (_ ∧ _))

instance (info : StreamInfo) : (tps : List ReceiverTp) → Decidable (ReadersAgree tps info)
  | [tp0, tp1] =>
    decidable_of_iff (LegAgrees tp0 info.stream.leg0 ∧
      (tp1.rtpEnabled = true ↔ info.st20227Enabled = true) ∧
      (info.st20227Enabled = true → LegAgrees tp1 info.stream.leg1))
      ⟨fun h => ⟨tp0, tp1, rfl, h⟩, fun ⟨_, _, heq, h⟩ => by cases heq; exact h⟩
  | [] => .isFalse fun ⟨_, _, heq, _⟩ => by cases heq
  | [_] => .isFalse fun ⟨_, _, heq, _⟩ => by cases heq
  | _ :: _ :: _ :: _ => .isFalse fun ⟨_, _, heq, _⟩ => by cases heq

/-- The address behind the `k`-th `m=audio ` of a text: the first `c=IN IP4`, before another `m=` line. -/
def connectionAt (sdp : Text) (k : ℕ) : Text :=
  ((occurrence audioMark k (getLines sdp)).map fun m => connectionFrom m.1 m.2).getD []

/-- Behind the `k`-th `m=audio ` of a text stands the port of an audio section, 5004 if there is no number,
and the address of the last `c=` line that applies to the section, unless neither is a multicast address;
`d` is the address of the session. -/
def LegAligned (sdp : Text) (d : UInt32) (k : ℕ) (s : Text × List Text) : Prop :=
  portAt (trim s.1) = some (((seekNth audioMark 1 k sdp).bind portAt).getD 5004) ∧
    (isMulticast (connectionAt sdp k) = true ∨ Address.inMulticast (appliedConnection d s.2) = true →
      connectionAt sdp k = Address.toText (appliedConnection d s.2))

instance (sdp : Text) (d : UInt32) (k : ℕ) (s : Text × List Text) : Decidable (LegAligned sdp d k s) :=
  inferInstanceAs (Decidable (_ ∧ (_ → _)))

/-- A `DUP` group is mentioned exactly when one is announced for two audio sections, and
the legs that are described are aligned. -/
def ReadersAligned (sdp : Text) : Prop :=
  (sdpHasDup sdp = true ↔ 2 ≤ (audioSections sdp).2.length ∧ announced (audioSections sdp) = true) ∧
    ∀ k < if sdpHasDup sdp then 2 else 1, ∀ s ∈ (audioSections sdp).2[k]?,
      LegAligned sdp (appliedConnection 0 (audioSections sdp).1) k s

instance (sdp : Text) : Decidable (ReadersAligned sdp) := inferInstanceAs (Decidable (_ ∧ _))

theorem isMulticast_nil : isMulticast [] = false := by decide

/-- What a search finds, and the address it stands for. -/
theorem connection_agrees_iff (seen : Text) (applied : UInt32) :
    ((if isMulticast seen then seen else []) =
      if Address.inMulticast applied then Address.toText applied else []) ↔
      (isMulticast seen = true ∨ Address.inMulticast applied = true → seen = Address.toText applied) := by
  constructor
  · intro heq hm
    cases hseen : isMulticast seen <;> cases happ : Address.inMulticast applied <;>
      simp only [hseen, happ, if_true, if_false, Bool.false_eq_true, or_self] at heq hm
    · exact absurd heq.symm (Address.toText_ne_nil _)
    · rw [heq, isMulticast_nil] at hseen
      cases hseen
    · exact heq
  · intro halign
    cases hseen : isMulticast seen <;> cases happ : Address.inMulticast applied <;>
      simp only [hseen, happ, if_true, if_false, Bool.false_eq_true, or_self, or_true, true_or,
        forall_const] at halign ⊢
    · rw [halign, isMulticast_toText, happ] at hseen
      cases hseen
    · rw [halign, isMulticast_toText, happ] at hseen
      cases hseen
    · exact halign

namespace SdpParser
variable {host : Host} {ptp : Ptp} {p : SdpParser}

/-- A second leg is announced after the last line only. -/
theorem finish_fields {ls : List Text} {info : StreamInfo}
    (hlines : SdpParser.lines host ptp { info := info } ls = .ok p)
    (hinfo : info.st20227Enabled = false) : p.finish.stream = p.info.stream ∧
      (p.finish.st20227Enabled = true ↔ p.dup = true ∧ 0 < p.mid) := by
  have hst : p.info.st20227Enabled = false := by
    refine lines_keep (J := fun q => q.info.st20227Enabled = false) (fun q q' l _ hq hline => ?_)
      hinfo hlines
    obtain ⟨stream, origin, hinfo⟩ := info_line hline
    rw [hinfo]
    exact hq
  rw [finish]
  split <;> simp_all

end SdpParser

/-- A text with an audio line has a first section. -/
theorem exists_cons_sections {sdp : Text} (haudio : ∃ l ∈ getLines sdp, opensAudio l = true) :
    ∃ s0 rest, (audioSections sdp).2 = s0 :: rest := by
  obtain ⟨l, hl, hopens⟩ := haudio
  refine List.exists_cons_of_ne_nil fun hnil => ?_
  rw [audioSections] at hnil
  have heq := sections_eq opensAudio (getLines sdp)
  rw [hnil, ofSections, List.flatMap_nil, List.append_nil] at heq
  exact (not_of_mem_sections opensAudio (getLines sdp)).1 l (by rwa [heq]) hopens

/-- The two readers of a described leg. -/
theorem legAgrees_iff {o : Outline} {d : UInt32} {k : ℕ} {s : Text × List Text} {sdp : Text}
    (hread : o.LegRead d k s) (hne : getLines sdp ≠ []) {stream : TRTPStreamInfo}
    (hport : o.port.at? k = some stream.usDestPort) (hdest : o.dest.at? k = some stream.ui32DestIP)
    (ip : Text) : LegAgrees (receiverLeg ip sdp k) stream ↔ LegAligned sdp d k s := by
  obtain ⟨port, hp, hline⟩ := hread.port
  obtain rfl : port = stream.usDestPort := Option.some.inj (hp.symm.trans hport)
  have hdest' : stream.ui32DestIP = appliedConnection d s.2 :=
    Option.some.inj (hdest.symm.trans hread.dest)
  obtain ⟨l, ls, hls⟩ := List.exists_cons_of_ne_nil hne
  obtain ⟨e, he, -, hnl, hcons⟩ := exists_afterLines sdp
  have hip : sdpConnectionIp sdp k = connectionAt sdp k := by
    rw [connectionAt, hls]
    conv_lhs => rw [hcons l ls hls]
    exact sdpConnectionIp_lines he (hls ▸ hnl) k
  rw [LegAgrees, LegAligned, hline, hdest', ← connection_agrees_iff]
  simp only [receiverLeg, hip, sdpMediaPort_eq, Option.some.injEq]
  exact and_congr_left' eq_comm

/-- **The two readers agree** on an accepted text with an audio section exactly when it is aligned. -/
theorem sdp_readers_agree {host : Host} (hdual : host.config.interfaceName1 ≠ []) {ptp : Ptp}
    {sink : StreamSink} {sdp : Text} {parsed : StreamInfo}
    (h : parseSdp host ptp sdp (SessionManager.sinkInfo host sink) = .ok parsed)
    (haudio : ∃ l ∈ getLines sdp, opensAudio l = true) (secIp : Text) :
    ReadersAgree (buildReceiverTpFromSdp host.config secIp sdp) parsed ↔ ReadersAligned sdp := by
  obtain ⟨p, hp, h⟩ := Parsed.bind_eq_ok.mp h
  obtain rfl := Parsed.pure_eq_ok.mp h
  obtain ⟨hlegs, hmid, hdup⟩ := SdpParser.lines_sections hp rfl rfl rfl rfl
  obtain ⟨hstream, hst⟩ := SdpParser.finish_fields hp rfl
  obtain ⟨s0, rest, hsecs⟩ := exists_cons_sections haudio
  obtain ⟨l0, hl0, -⟩ := haudio
  have hst' : p.finish.st20227Enabled = true ↔
      2 ≤ (audioSections sdp).2.length ∧ announced (audioSections sdp) = true := by
    rw [hst, hmid, and_comm]
    exact and_congr_right fun hlen => by rw [hdup hlen]
  have hleg : ∀ (k : ℕ) s ip stream, k < 2 → (audioSections sdp).2[k]? = some s →
      p.info.stream.at? k = some stream →
      (LegAgrees (receiverLeg ip sdp k) stream ↔
        LegAligned sdp (appliedConnection 0 (audioSections sdp).1) k s) := by
    intro k s ip stream hk hs hat
    refine legAgrees_iff (hlegs k s hs hk) (List.ne_nil_of_mem hl0) ?_ ?_ ip
    · rw [SdpParser.outline, Legs.at?_map, hat]
      rfl
    · rw [SdpParser.outline, Legs.at?_map, hat]
      rfl
  have hleg0 := hleg 0 s0 host.config.ipAddrStr p.info.stream.leg0 (by omega) (by rw [hsecs]; rfl) rfl
  have hdualLeg : host.config.isDualLeg = true := by simpa [Config.isDualLeg] using hdual
  rw [ReadersAligned, ← hst']
  simp only [ReadersAgree, buildReceiverTpFromSdp, hdualLeg, if_true, hstream]
  cases hd : sdpHasDup sdp with
  | false =>
      simp only [Bool.false_eq_true, if_false, false_iff, Nat.lt_one_iff, forall_eq, hsecs,
        List.getElem?_cons_zero, Option.mem_def, Option.some.injEq, forall_eq', ← hleg0]
      constructor
      · rintro ⟨tp0, tp1, heq, h0, h1, -⟩
        cases heq
        exact ⟨fun hs => absurd (h1.mpr hs) (by simp), h0⟩
      · rintro ⟨hno, h0⟩
        exact ⟨_, _, rfl, h0, by simp [hno], fun hs => absurd hs hno⟩
  | true =>
      have hsecond : p.finish.st20227Enabled = true → ∃ s1 rest', rest = s1 :: rest' := fun hs => by
        have hlen := (hst'.mp hs).1
        rw [hsecs, List.length_cons] at hlen
        exact List.exists_cons_of_ne_nil fun hnil => by simp [hnil] at hlen
      simp only [if_true, true_iff]
      constructor
      · rintro ⟨tp0, tp1, heq, h0, h1, h2⟩
        cases heq
        have hs := h1.mp rfl
        obtain ⟨s1, rest', rfl⟩ := hsecond hs
        have hleg1 := hleg 1 s1 secIp p.info.stream.leg1 (by omega) (by rw [hsecs]; rfl) rfl
        refine ⟨hs, fun k hk s hmem => ?_⟩
        rw [hsecs] at hmem
        obtain rfl | rfl : k = 0 ∨ k = 1 := by omega
        · cases hmem
          exact hleg0.mp h0
        · cases hmem
          exact hleg1.mp (h2 hs)
      · rintro ⟨hs, hall⟩
        obtain ⟨s1, rest', rfl⟩ := hsecond hs
        have hleg1 := hleg 1 s1 secIp p.info.stream.leg1 (by omega) (by rw [hsecs]; rfl) rfl
        rw [hsecs] at hall
        exact ⟨_, _, rfl, hleg0.mpr (hall 0 (by omega) s0 rfl), by simp [receiverLeg, hs],
          fun _ => hleg1.mpr (hall 1 (by omega) s1 rfl)⟩

/-- A text that `parse_sdp` accepts and the NMOS readers read alike. -/
def ReadAlikeBy (sdp : Text) : Prop :=
  ∃ parsed, parseSdp redundantHost {} sdp (SessionManager.sinkInfo redundantHost (stereoSink 1 "b".toList [])) = .ok parsed ∧
    ReadersAgree (buildReceiverTpFromSdp redundantHost.config "10.0.1.1".toList sdp) parsed

/-- Two legs; and an `m=audio ` inside another line, which the searches do not reach. -/
theorem sdp_readers_agree_redundant :
    ReadAlikeBy (redundantSdp "239.1.0.1/15".toList "239.1.0.2/15".toList) ∧
    ReadAlikeBy (unlines (["s=a", "t=0 0", "m=audio 5004 RTP/AVP 98", "c=IN IP4 239.1.0.1/15",
      "a=foo:m=audio bar"].map String.toList)) := by
  have hagree : ∀ sdp, (parseSdp redundantHost {} sdp
        (SessionManager.sinkInfo redundantHost (stereoSink 1 "b".toList []))).toOption.isSome = true →
      (∃ l ∈ getLines sdp, opensAudio l = true) → ReadersAligned sdp → ReadAlikeBy sdp := by
    intro sdp hparse haudio haligned
    obtain ⟨parsed, hparsed⟩ := Option.isSome_iff_exists.mp hparse
    have hparsed := Parsed.toOption_eq_some.mp hparsed
    exact ⟨parsed, hparsed,
      (sdp_readers_agree (by decide) hparsed haudio "10.0.1.1".toList).mpr haligned⟩
  constructor
  · exact hagree _ (by decide +kernel) (by decide +kernel) (by decide +kernel)
  · exact hagree _ (by decide +kernel) (by decide +kernel) (by decide +kernel)

/-- A text of whole lines that `parse_sdp` accepts and the NMOS readers read otherwise. -/
def ReadersDisagree (ls : List String) : Prop :=
  ∃ parsed, parseSdp redundantHost {} (unlines (ls.map String.toList))
      (SessionManager.sinkInfo redundantHost (stereoSink 1 "b".toList [])) = .ok parsed ∧
    ¬ ReadersAgree (buildReceiverTpFromSdp redundantHost.config "10.0.1.1".toList
      (unlines (ls.map String.toList))) parsed

/-- A connection of the session; a video section with a connection; a `DUP` group with a
single section; text behind the address. -/
theorem sdp_readers_disagree :
    ReadersDisagree ["s=a", "c=IN IP4 239.1.0.1/15", "t=0 0", "m=audio 5004 RTP/AVP 98"] ∧
    ReadersDisagree ["s=a", "t=0 0", "m=audio 5004 RTP/AVP 98", "c=IN IP4 239.1.0.1/15",
      "m=video 6000 RTP/AVP 96", "c=IN IP4 239.1.0.9/15"] ∧
    ReadersDisagree ["s=a", "t=0 0", "a=group:DUP 1 2", "m=audio 5004 RTP/AVP 98",
      "c=IN IP4 239.1.0.1/15"] ∧
    ReadersDisagree ["s=a", "t=0 0", "m=audio 5004 RTP/AVP 98", "c=IN IP4 239.1.0.1 "] := by
  have hdisagree : ∀ ls : List String,
      (parseSdp redundantHost {} (unlines (ls.map String.toList))
        (SessionManager.sinkInfo redundantHost (stereoSink 1 "b".toList []))).toOption.map
          (fun parsed => decide (ReadersAgree (buildReceiverTpFromSdp redundantHost.config
            "10.0.1.1".toList (unlines (ls.map String.toList))) parsed)) = some false →
        ReadersDisagree ls := by
    intro ls hparse
    obtain ⟨parsed, hparsed, hno⟩ := Option.map_eq_some_iff.mp hparse
    exact ⟨parsed, Parsed.toOption_eq_some.mp hparsed, of_decide_eq_false hno⟩
  exact ⟨hdisagree _ (by decide +kernel), hdisagree _ (by decide +kernel),
    hdisagree _ (by decide +kernel), hdisagree _ (by decide +kernel)⟩

end Aes67Daemon
