import Aes67Daemon.Session.SdpFrame

/-!
# The origin of a session description

`sdp_get_origin` of `utils.cpp` looks for the first `o=` line of an SDP and stops
at the first line that has no type.  It is what the browser stores for a remote
source.  Reading the second character of an empty line is outside the line; the
result is the same whichever byte is there.

## Main definitions

* `sdpGetOrigin` — `sdp_get_origin`.
* `sdpGetOrigin_getSourceSdp` — the origin of the SDP of a source.
* `origin_parseSdp` — `parse_sdp` and `sdp_get_origin` read the same origin.
-/
namespace Aes67Daemon

open Text

/-- The fields of an `o=` line.  What was written before the version turns out not
to be a number stays. -/
def originFields (val : Text) : SDPOrigin :=
  match splitBy (· = ' ') val with
  | f0 :: f1 :: f2 :: f3 :: f4 :: f5 :: _ =>
    match stoul f2 with
    | some version =>
      { username := f0, sessionId := f1, sessionVersion := UInt64.ofNat version,
        networkType := f3, addressType := f4, unicastAddress := f5 }
    | none => { username := f0, sessionId := f1 }
  | _ => {}

/-- The loop of `sdp_get_origin`. -/
def originOfLines : List Text → SDPOrigin
  | [] => {}
  | l :: ls =>
    match trim l with
    | c :: d :: val =>
      if d ≠ '=' then {} else if c = 'o' then originFields val else originOfLines ls
    | _ => {}

/-- `sdp_get_origin`. -/
def sdpGetOrigin (sdp : Text) : SDPOrigin := originOfLines (getLines sdp)

/-- The origin a source announces. -/
def StreamInfo.sourceOrigin (info : StreamInfo) : SDPOrigin :=
  { username := "-".toList
    sessionId := ofNat info.sessionId.toNat
    sessionVersion := UInt64.ofNat info.sessionVersion.toNat
    networkType := "IN".toList
    addressType := "IP4".toList
    unicastAddress := Address.toText info.stream.leg0.ui32SrcIP }

/-- The fields of a printed `o=` line. -/
theorem splitBy_origin (sid ver ip : UInt32) :
    splitBy (· = ' ') ("- ".toList ++ ofNat sid.toNat ++ ' ' :: (ofNat ver.toNat ++
        " IN IP4 ".toList ++ Address.toText ip)) =
      ["-".toList, ofNat sid.toNat, ofNat ver.toNat, "IN".toList, "IP4".toList,
        Address.toText ip] := by
  have hnat : ∀ n, ∀ c ∈ ofNat n, decide (c = ' ') = false := by
    intro n c hc
    exact decide_eq_false fun h => not_mem_ofNat (by decide) n (h ▸ hc)
  have hip : ∀ c ∈ Address.toText ip, decide (c = ' ') = false := by
    intro c hc
    exact decide_eq_false fun h => Address.not_mem_toText (by decide) (by decide) ip (h ▸ hc)
  rw [show "- ".toList ++ ofNat sid.toNat ++ ' ' :: (ofNat ver.toNat ++ " IN IP4 ".toList ++
      Address.toText ip) = "-".toList ++ ' ' :: (ofNat sid.toNat ++ ' ' :: (ofNat ver.toNat ++
        ' ' :: ("IN".toList ++ ' ' :: ("IP4".toList ++ ' ' :: Address.toText ip)))) by simp]
  rw [splitBy_append_cons (isField_of_any (by decide)) (by decide),
    splitBy_append_cons (hnat _) (by decide), splitBy_append_cons (hnat _) (by decide),
    splitBy_append_cons (isField_of_any (by decide)) (by decide),
    splitBy_append_cons (isField_of_any (by decide)) (by decide), splitBy_eq_singleton hip]

/-- **The SDP of a source names its session and its version.** -/
theorem sdpGetOrigin_getSourceSdp (host : Host) (env : Env) (ptp : Ptp) (rate : UInt32)
    (info : StreamInfo) : sdpGetOrigin (getSourceSdp host env ptp rate info) =
      info.sourceOrigin := by
  have hline : ∀ n, '\n' ∉ ofNat n := not_mem_ofNat (by decide)
  have hip : '\n' ∉ Address.toText info.stream.leg0.ui32SrcIP :=
    Address.not_mem_toText (by decide) (by decide) _
  obtain ⟨rest, hrest⟩ : ∃ rest, getSourceSdp host env ptp rate info =
      "v=0".toList ++ '\n' :: (("o=- ".toList ++ ofNat info.sessionId.toNat ++ ' ' ::
        (ofNat info.sessionVersion.toNat ++ " IN IP4 ".toList ++
          Address.toText info.stream.leg0.ui32SrcIP)) ++ '\n' :: rest) :=
    ⟨_, by simp only [getSourceSdp, unlines, List.cons_append, List.flatMap_cons,
      List.append_assoc, List.nil_append]; rfl⟩
  rw [hrest, sdpGetOrigin, getLines_line_append (by decide),
    getLines_line_append (by simp [hline, hip])]
  have htrim : trim ("o=- ".toList ++ ofNat info.sessionId.toNat ++ ' ' ::
      (ofNat info.sessionVersion.toNat ++ " IN IP4 ".toList ++
        Address.toText info.stream.leg0.ui32SrcIP)) = 'o' :: '=' :: ("- ".toList ++
      ofNat info.sessionId.toNat ++ ' ' :: (ofNat info.sessionVersion.toNat ++ " IN IP4 ".toList ++
        Address.toText info.stream.leg0.ui32SrcIP)) := by
    rw [show "o=- ".toList = 'o' :: '=' :: "- ".toList by decide]
    simp only [List.cons_append]
    exact trim_of_noSpaceLast (by decide)
      ((((((Address.noSpaceLast_toText _).append _).cons ' ').append _).cons '=').cons 'o')
  have hver : stoul (ofNat info.sessionVersion.toNat) = some info.sessionVersion.toNat :=
    stoul_ofNat (lt_of_lt_of_le info.sessionVersion.toNat_lt (by decide))
  rw [originOfLines, show trim "v=0".toList = ['v', '=', '0'] by decide]
  simp only [ne_eq, not_true_eq_false, if_false, show ¬ ('v' = 'o') by decide]
  rw [originOfLines, htrim]
  simp only [ne_eq, not_true_eq_false, if_false, if_true, originFields, splitBy_origin, hver]
  rfl

/-! ## The two readers of an origin -/

/-- A line, trimmed, has the given type. -/
def HasType (c : Char) (l : Text) : Prop := ∃ val, trim l = c :: '=' :: val

instance (c : Char) (l : Text) : Decidable (HasType c l) :=
  decidable_of_iff ((trim l).take 2 = [c, '=']) <| by
    rw [HasType]
    match trim l with
    | [] | [_] => simp
    | d :: e :: val => simp

/-- The value of a well-formed `o=` line: at least six fields, with a session id and
a version that is a number. -/
def WellFormedOrigin (val : Text) : Prop :=
  ∃ f0 f1 f2 f3 f4 f5 fs version, splitBy (· = ' ') val = f0 :: f1 :: f2 :: f3 :: f4 :: f5 :: fs ∧
    f1 ≠ [] ∧ stoul f2 = some version

/-- An SDP with exactly one `o=` line, which is well formed and comes before the
first `m=` line. -/
def OneOrigin (sdp : Text) : Prop :=
  ∃ pre l val post, getLines sdp = pre ++ l :: post ∧ trim l = 'o' :: '=' :: val ∧
    WellFormedOrigin val ∧ (∀ l' ∈ pre, ¬ HasType 'o' l' ∧ ¬ HasType 'm' l') ∧
    ∀ l' ∈ post, ¬ HasType 'o' l'

theorem WellFormedOrigin.sessionId_ne_nil {val : Text} (h : WellFormedOrigin val) :
    (originFields val).sessionId ≠ [] := by
  obtain ⟨f0, f1, f2, f3, f4, f5, fs, version, hval, hf1, hf2⟩ := h
  simpa only [originFields, hval, hf2] using hf1

/-- The lines before the `o=` line are passed over, or end the search. -/
theorem originOfLines_append {pre : List Text} (ls : List Text) (hpre : ∀ l ∈ pre, ¬ HasType 'o' l) :
    originOfLines (pre ++ ls) = {} ∨ originOfLines (pre ++ ls) = originOfLines ls := by
  induction pre with
  | nil => exact .inr rfl
  | cons l pre ih =>
      rw [List.cons_append, originOfLines]
      split
      · rename_i c d val htrim
        split
        · exact .inl rfl
        · rename_i hd
          split
          · rename_i hc
            rw [hc, not_not.mp hd] at htrim
            exact absurd ⟨val, htrim⟩ (hpre l List.mem_cons_self)
          · exact ih fun l' hl' => hpre l' (List.mem_cons_of_mem _ hl')
      · exact .inl rfl

theorem OneOrigin.sessionId_ne_nil {sdp : Text} (h : OneOrigin sdp)
    (hne : sdpGetOrigin sdp ≠ {}) : (sdpGetOrigin sdp).sessionId ≠ [] := by
  obtain ⟨pre, l, val, post, hlines, htrim, hval, hpre, -⟩ := h
  have hread : originOfLines (l :: post) = originFields val := by
    rw [originOfLines, htrim]
    simp only [ne_eq, not_true_eq_false, if_false, if_true]
  rw [sdpGetOrigin, hlines] at hne ⊢
  rcases originOfLines_append (l :: post) fun l hl => (hpre l hl).1 with h | h
  · exact absurd h hne
  · rw [h, hread]
    exact hval.sessionId_ne_nil

namespace SdpParser
variable {host : Host} {ptp : Ptp} {p p' : SdpParser}

theorem originLine_of_wellFormed {val : Text} (hval : WellFormedOrigin val)
    (h : p.originLine val = .ok p') : p' = { p with info.origin := originFields val } := by
  obtain ⟨f0, f1, f2, f3, f4, f5, fs, version, hval, -, hf2⟩ := hval
  simp only [originLine, hval, hf2] at h
  obtain rfl := Parsed.pure_eq_ok.mp h
  simp only [originFields, hval, hf2]

theorem modifyStream_frame {f : TRTPStreamInfo → TRTPStreamInfo} (h : p.modifyStream f = .ok p') :
    p'.info.origin = p.info.origin ∧ p'.mid = p.mid := by
  obtain ⟨_, -, rfl⟩ := modifyStream_eq_ok.mp h
  exact ⟨rfl, rfl⟩

theorem Attributed.frame {val : Text} (h : p.Attributed val p') :
    p'.info.origin = p.info.origin ∧ p'.mid = p.mid := by
  cases h with
  | dup => exact ⟨rfl, rfl⟩
  | noDup => exact ⟨rfl, rfl⟩
  | written _ h =>
      cases h with
      | same => exact ⟨rfl, rfl⟩
      | write _ h => exact modifyStream_frame h

theorem setConnection_frame {destIP : UInt32} {ttl : ℤ} (h : p.setConnection destIP ttl = .ok p') :
    p'.info.origin = p.info.origin ∧ p'.mid = p.mid := by
  simp only [setConnection] at h
  split at h
  · rw [← Parsed.pure_eq_ok.mp h]; exact ⟨rfl, rfl⟩
  · exact modifyStream_frame h

/-- Only an `o=` line sets the origin. -/
theorem origin_line {l : Text} (h : p.line host ptp l = .ok p') (ho : ¬ HasType 'o' l) :
    p'.info.origin = p.info.origin := by
  obtain ⟨c, val, htrim, hline⟩ := line_eq_ok h
  cases hline with
  | ignored => rfl
  | origin hc => subst hc; exact absurd ⟨val, htrim⟩ ho
  | time => rfl
  | attr _ h => exact (attributed_attributeLine h).frame.1
  | media _ h =>
      obtain ⟨_, _, _, _, _, -, ⟨-, rfl⟩ | ⟨-, h⟩⟩ := mediaLine_eq_ok h
      · rfl
      · rcases openSection_eq_ok h with ⟨-, rfl⟩ | ⟨_, _, q, -, -, hq, rfl⟩
        · rfl
        · exact (modifyStream_frame hq).1
  | connection _ h =>
      rcases connectionLine_eq_ok h with ⟨-, rfl⟩ | ⟨-, _, _, _, _, -, -, -, -, h⟩
      · rfl
      · exact (setConnection_frame h).1

/-- Only an `m=` line goes to the next section. -/
theorem mid_line {l : Text} (h : p.line host ptp l = .ok p') (hm : ¬ HasType 'm' l) :
    p'.mid = p.mid := by
  obtain ⟨c, val, htrim, hline⟩ := line_eq_ok h
  cases hline with
  | ignored => rfl
  | origin _ h => obtain ⟨_, rfl⟩ := originLine_eq_ok h; rfl
  | time => rfl
  | attr _ h => exact (attributed_attributeLine h).frame.2
  | media hc => subst hc; exact absurd ⟨val, htrim⟩ hm
  | connection _ h =>
      rcases connectionLine_eq_ok h with ⟨-, rfl⟩ | ⟨-, _, _, _, _, -, -, -, -, h⟩
      · rfl
      · exact (setConnection_frame h).2

/-- Before the first `m=` line the parser reads every line, and so does
`sdp_get_origin` before the first `o=` line. -/
theorem before_origin {pre : List Text} (hpre : ∀ l ∈ pre, ¬ HasType 'o' l ∧ ¬ HasType 'm' l)
    (hmid : p.mid < mediaMax) (h : p.lines host ptp pre = .ok p') :
    p'.mid = p.mid ∧ ∀ ls, originOfLines (pre ++ ls) = originOfLines ls := by
  induction pre generalizing p with
  | nil =>
      obtain rfl := Parsed.pure_eq_ok.mp h
      exact ⟨rfl, fun _ => rfl⟩
  | cons l pre ih =>
      obtain ⟨ho, hm⟩ := hpre l List.mem_cons_self
      rw [lines, if_pos hmid] at h
      obtain ⟨q, hq, h⟩ := Parsed.bind_eq_ok.mp h
      have hqmid := mid_line hq hm
      obtain ⟨hp', hls⟩ := ih (fun l' hl' => hpre l' (List.mem_cons_of_mem _ hl')) (hqmid ▸ hmid) h
      obtain ⟨c, val, htrim, -⟩ := line_eq_ok hq
      have hc : c ≠ 'o' := fun hc => ho ⟨val, hc ▸ htrim⟩
      refine ⟨hp'.trans hqmid, fun ls => ?_⟩
      rw [List.cons_append, originOfLines, htrim]
      simp only [ne_eq, not_true_eq_false, if_false, hc, hls]

end SdpParser

/-- **The two readers agree** on an SDP with one origin: `parse_sdp`, if it accepts,
and `sdp_get_origin`. -/
theorem origin_parseSdp {host : Host} {ptp : Ptp} {sdp : Text} {info parsed : StreamInfo}
    (hone : OneOrigin sdp) (h : parseSdp host ptp sdp info = .ok parsed) :
    parsed.origin = sdpGetOrigin sdp ∧ (sdpGetOrigin sdp).sessionId ≠ [] := by
  obtain ⟨pre, l, val, post, hlines, htrim, hval, hpre, hpost⟩ := hone
  obtain ⟨p, hp, h⟩ := Parsed.bind_eq_ok.mp h
  rw [hlines] at hp
  obtain ⟨q, hq, hp⟩ := SdpParser.lines_append_eq_ok hp
  have hmax : (-1 : ℤ) < SdpParser.mediaMax := by decide
  obtain ⟨hmid, horigin⟩ := SdpParser.before_origin hpre hmax hq
  rw [SdpParser.lines, if_pos (hmid ▸ hmax)] at hp
  obtain ⟨q', hq', hp⟩ := Parsed.bind_eq_ok.mp hp
  have hread : q'.info.origin = originFields val := by
    obtain ⟨c, val', htrim', hline⟩ := SdpParser.line_eq_ok hq'
    rw [htrim] at htrim'
    cases htrim'
    cases hline with
    | ignored h => exact absurd h (by decide)
    | origin _ h => rw [SdpParser.originLine_of_wellFormed hval h]
    | time hc => cases hc
    | attr hc => cases hc
    | media hc => cases hc
    | connection hc => cases hc
  have hend : p.info.origin = originFields val :=
    SdpParser.lines_keep (J := fun q => q.info.origin = originFields val)
      (fun _ _ l' hl' hinv hline => (SdpParser.origin_line hline (hpost l' hl')).trans hinv) hread hp
  have hget : sdpGetOrigin sdp = originFields val := by
    rw [sdpGetOrigin, hlines, horigin, originOfLines, htrim]
    simp only [ne_eq, not_true_eq_false, if_false, if_true]
  have hfinish : p.finish.origin = p.info.origin := by
    simp only [SdpParser.finish]
    split <;> rfl
  rw [hget, ← Parsed.pure_eq_ok.mp h, hfinish, hend]
  exact ⟨rfl, hval.sessionId_ne_nil⟩

end Aes67Daemon
