import Aes67Daemon.Session.Sdp

/-!
# What reading a session description does

Line by line: `SdpParser.Line` says what an accepted line can do to the variables
of the parsing loop, and everything else about the loop is derived from it.

`parseSdp` fills in what an SDP says about a stream.  Everything else in the
record it is given (the identity of the stream in the driver, its channels, its
handles and its flags) comes out unchanged.

## Main definitions

* `SdpParser.Line`, `line_eq_ok` — what a line can do.
* `SdpParser.lines_keep` — what every line keeps, the loop keeps.
* `StreamInfo.undescribed` — a record without what an SDP describes.
* `undescribed_parseSdp` — parsing keeps the rest of the record.
-/
namespace Aes67Daemon

open Text

namespace Parsed
variable {α β : Type}

theorem bind_eq_ok {x : Parsed α} {f : α → Parsed β} {b : β} :
    x >>= f = .ok b ↔ ∃ a, x = .ok a ∧ f a = .ok b := by
  cases x <;> simp [bind, Except.bind]

@[simp] theorem pure_eq_ok {a b : α} : (pure a : Parsed α) = .ok b ↔ a = b := by
  simp [pure, Except.pure]

@[simp] theorem orReject_eq_ok {o : Option α} {a : α} : orReject o = .ok a ↔ o = some a := by
  cases o <;> simp [orReject]

@[simp] theorem orOutOfBounds_eq_ok {o : Option α} {a : α} :
    orOutOfBounds o = .ok a ↔ o = some a := by
  cases o <;> simp [orOutOfBounds]

theorem ite_error_eq_ok {c : Prop} [Decidable c] {e : ParseFailure} {x : Parsed α} {a : α} :
    (if c then .error e else x) = .ok a ↔ ¬ c ∧ x = .ok a := by
  split <;> simp_all

/-- The result of a computation that may fail. -/
theorem toOption_eq_some {ε : Type} {x : Except ε α} {a : α} : x.toOption = some a ↔ x = .ok a := by
  cases x <;> simp [Except.toOption]

end Parsed

namespace Legs
variable {α : Type}

/-- Replace the leg with an index. -/
def set (l : Legs α) (i : ℤ) (a : α) : Legs α :=
  if i = 0 then { l with leg0 := a } else { l with leg1 := a }

theorem at?_set {l : Legs α} {i : ℤ} {a b : α} (h : l.at? i = some b) :
    (l.set i a).at? i = some a := by
  simp only [at?] at h
  split at h
  · simp [set, at?, *]
  · split at h
    · simp [set, at?, *]
    · cases h

theorem modify?_of_at? {l : Legs α} {i : ℤ} {f : α → α} {a : α} (h : l.at? i = some a) :
    l.modify? i f = some (l.set i (f a)) := by
  simp only [at?] at h
  split at h
  · cases h; simp [modify?, set, *]
  · split at h
    · cases h; simp [modify?, set, *]
    · cases h

@[simp] theorem set_set (l : Legs α) (i : ℤ) (a b : α) : (l.set i a).set i b = l.set i b := by
  simp only [set]
  split <;> rfl

end Legs

/-- The record of a leg without the fields an SDP describes. -/
def TRTPStreamInfo.undescribed (s : TRTPStreamInfo) : TRTPStreamInfo :=
  { s with
    cCodec := [], byWordLength := 0, ui32SamplingRate := 0, ui32RTPTimestampOffset := 0
    ui32MaxSamplesPerPacket := 0, usDestPort := 0, byPayloadType := 0, ui32DestIP := 0
    byTTL := 0 }

/-- The record of a stream without the fields an SDP describes. -/
def StreamInfo.undescribed (info : StreamInfo) : StreamInfo :=
  { info with
    stream := ⟨info.stream.leg0.undescribed, info.stream.leg1.undescribed⟩
    origin := {}, st20227Enabled := false }

/-- A change of a leg that an attribute can make. -/
def AttributeWrite (f : TRTPStreamInfo → TRTPStreamInfo) : Prop :=
  ∀ s, ∃ codec word rate samples offset, f s = { s with
    cCodec := codec, byWordLength := word, ui32SamplingRate := rate
    ui32MaxSamplesPerPacket := samples, ui32RTPTimestampOffset := offset }

namespace SdpParser
variable {host : Host} {ptp : Ptp} {p p' : SdpParser}

theorem modifyStream_eq_ok {f : TRTPStreamInfo → TRTPStreamInfo} :
    p.modifyStream f = .ok p' ↔
      ∃ stream, p.info.stream.modify? p.mid f = some stream ∧
        { p with info.stream := stream } = p' := by
  simp only [modifyStream, Parsed.bind_eq_ok, Parsed.orOutOfBounds_eq_ok, Parsed.pure_eq_ok]

theorem lt_mediaMax_of_at? {α : Type} {l : Legs α} {i : ℤ} {a : α} (h : l.at? i = some a) :
    i < mediaMax := by
  simp only [Legs.at?] at h
  simp only [mediaMax]
  split at h
  · omega
  · split at h
    · omega
    · cases h

theorem undescribed_modifyStream {f : TRTPStreamInfo → TRTPStreamInfo}
    (hf : ∀ s, (f s).undescribed = s.undescribed) (h : p.modifyStream f = .ok p') :
    p'.info.undescribed = p.info.undescribed := by
  obtain ⟨stream, hs, rfl⟩ := modifyStream_eq_ok.mp h
  simp only [Legs.modify?] at hs
  split at hs
  · cases hs; simp [StreamInfo.undescribed, hf]
  · split at hs
    · cases hs; simp [StreamInfo.undescribed, hf]
    · cases hs

/-! ## What each kind of line does -/

/-- What an attribute of an audio section can do: change its leg. -/
inductive Written (p : SdpParser) : SdpParser → Prop
  | same : Written p p
  | write {f : TRTPStreamInfo → TRTPStreamInfo} {p' : SdpParser} (hf : AttributeWrite f)
      (h : p.modifyStream f = .ok p') : Written p p'

theorem written_of_pure_eq_ok (h : (pure p : Parsed SdpParser) = .ok p') : p.Written p' := by
  obtain rfl := Parsed.pure_eq_ok.mp h
  exact .same

theorem written_timestampOffset {value : Text} (h : p.timestampOffset value = .ok p') :
    p.Written p' := by
  obtain ⟨_, -, h⟩ := Parsed.bind_eq_ok.mp h
  exact .write (fun s => ⟨_, _, _, _, _, rfl⟩) h

theorem written_rtpmap {value : Text} (h : p.rtpmap host value = .ok p') : p.Written p' := by
  simp only [rtpmap] at h
  split at h
  · obtain ⟨_, -, h⟩ := Parsed.bind_eq_ok.mp h
    obtain ⟨_, -, h⟩ := Parsed.bind_eq_ok.mp h
    split at h
    · obtain ⟨_, -, h⟩ := Parsed.bind_eq_ok.mp h
      obtain ⟨_, -, h⟩ := Parsed.bind_eq_ok.mp h
      exact .write (fun s => ⟨_, _, _, _, _, rfl⟩) h
    · exact written_of_pure_eq_ok h
  · cases h

theorem written_ptime {host : Host} {value : Text} (h : p.ptime host value = .ok p') : p.Written p' := by
  obtain ⟨_, -, h⟩ := Parsed.bind_eq_ok.mp h
  obtain ⟨_, -, h⟩ := Parsed.bind_eq_ok.mp h
  exact .write (fun s => ⟨_, _, _, _, _, rfl⟩) h

theorem written_mediaclk {value : Text} (h : p.mediaclk value = .ok p') : p.Written p' := by
  simp only [mediaclk] at h
  split at h
  · split at h
    · exact written_timestampOffset h
    · exact written_of_pure_eq_ok h
  · exact written_of_pure_eq_ok h

/-- The reference clock is checked and not stored. -/
theorem tsRefclk_eq_ok {value : Text} (h : p.tsRefclk ptp value = .ok p') : p = p' := by
  simp only [tsRefclk] at h
  split at h
  · split at h
    · cases h
    · obtain ⟨_, -, h⟩ := Parsed.bind_eq_ok.mp h
      split at h
      · cases h
      · exact Parsed.pure_eq_ok.mp h
  · exact Parsed.pure_eq_ok.mp h

theorem written_mediaAttribute {name value : Text}
    (h : p.mediaAttribute host ptp name value = .ok p') : p.Written p' := by
  simp only [mediaAttribute] at h
  split at h
  · exact written_rtpmap h
  split at h
  · exact written_timestampOffset h
  split at h
  · exact written_of_pure_eq_ok h
  split at h
  · exact written_ptime h
  split at h
  · exact written_mediaclk h
  split at h
  · obtain rfl := tsRefclk_eq_ok h
    exact .same
  · exact written_of_pure_eq_ok h

/-- Session attributes announce a `DUP` group, and nothing else is kept of them. -/
theorem sessionAttribute_eq_ok {name value : Text} (h : p.sessionAttribute name value = .ok p') :
    p' = if name = "group".toList ∧ value.take 3 = "DUP".toList then { p with dup := true } else p := by
  simp only [sessionAttribute] at h
  split at h
  · rename_i hname
    rw [← Parsed.pure_eq_ok.mp h]
    simp only [hname, true_and]
  · rename_i hname
    rw [if_neg fun hg => hname hg.1]
    split at h
    · split at h
      · cases h
      · exact (Parsed.pure_eq_ok.mp h).symm
    · exact (Parsed.pure_eq_ok.mp h).symm

/-- What an attribute can do: announce a `DUP` group outside the audio sections, or
change the leg of one. -/
inductive Attributed (p : SdpParser) (val : Text) : SdpParser → Prop
  | dup (hp : p.status ≠ .media) (hval : "group:DUP".toList <+: val) :
    Attributed p val { p with dup := true }
  | noDup (hp : p.status ≠ .media) (hval : ¬ "group:DUP".toList <+: val) : Attributed p val p
  | written {p' : SdpParser} (hp : p.status = .media) (h : p.Written p') : Attributed p val p'

/-- Where the value of an attribute announces a `DUP` group. -/
theorem breakAt_group (t : Text) :
    breakAt ':' ("group:DUP".toList ++ t) = some ("group".toList, "DUP".toList ++ t) :=
  breakAt_append (t := "group".toList) (by decide)

theorem group_prefix_iff {val name value : Text} (h : breakAt ':' val = some (name, value)) :
    (name = "group".toList ∧ value.take 3 = "DUP".toList) ↔ "group:DUP".toList <+: val := by
  constructor
  · rintro ⟨hname, hvalue⟩
    refine ⟨value.drop 3, ?_⟩
    rw [breakAt_eq_some h, hname, ← List.take_append_drop 3 value, hvalue]
    rfl
  · rintro ⟨t, rfl⟩
    rw [breakAt_group] at h
    cases h
    exact ⟨rfl, rfl⟩

/-- **What an `a=` line can do.** -/
theorem attributed_attributeLine {val : Text} (h : p.attributeLine host ptp val = .ok p') :
    p.Attributed val p' := by
  have hsession : ∀ name value, breakAt ':' val = some (name, value) → p.status ≠ .media →
      p.sessionAttribute name value = .ok p' → p.Attributed val p' := by
    intro name value hval hp h
    have hgroup := group_prefix_iff hval
    rw [sessionAttribute_eq_ok h]
    split
    · exact .dup hp (hgroup.mp ‹_›)
    · exact .noDup hp fun hpre => absurd (hgroup.mpr hpre) ‹_›
  simp only [attributeLine] at h
  split at h
  · rename_i hval
    obtain rfl := Parsed.pure_eq_ok.mp h
    by_cases hp : p.status = .media
    · exact .written hp .same
    · refine .noDup hp fun hpre => ?_
      obtain ⟨t, rfl⟩ := hpre
      rw [breakAt_group] at hval
      cases hval
  · rename_i name value hval
    split at h
    · rename_i hp
      exact hsession name value hval (by rw [hp]; decide) h
    · rename_i hp
      exact hsession name value hval (by rw [hp]; decide) h
    · rename_i hp
      exact .written hp (written_mediaAttribute h)

theorem originLine_eq_ok {val : Text} (h : p.originLine val = .ok p') :
    ∃ origin, p' = { p with info.origin := origin } := by
  simp only [originLine] at h
  split at h
  · obtain ⟨_, -, h⟩ := Parsed.bind_eq_ok.mp h
    exact ⟨_, (Parsed.pure_eq_ok.mp h).symm⟩
  · exact ⟨p.info.origin, (Parsed.pure_eq_ok.mp h).symm⟩

theorem openSection_eq_ok {f1 f3 : Text} (h : p.openSection f1 f3 = .ok p') :
    (mediaMax ≤ p.mid ∧ p' = p) ∨ ∃ port payload q, stoi f1 = some port ∧ stoi f3 = some payload ∧
      p.modifyStream (fun s => { s with
        usDestPort := UInt16.ofInt port, byPayloadType := UInt8.ofInt payload }) = .ok q ∧
      p' = { q with status := .media } := by
  simp only [openSection] at h
  split at h
  · obtain ⟨port, hport, h⟩ := Parsed.bind_eq_ok.mp h
    obtain ⟨payload, hpayload, h⟩ := Parsed.bind_eq_ok.mp h
    obtain ⟨q, hq, h⟩ := Parsed.bind_eq_ok.mp h
    exact .inr ⟨port, payload, q, Parsed.orReject_eq_ok.mp hport, Parsed.orReject_eq_ok.mp hpayload,
      hq, (Parsed.pure_eq_ok.mp h).symm⟩
  · exact .inl ⟨not_lt.mp ‹_›, (Parsed.pure_eq_ok.mp h).symm⟩

/-- What an accepted `m=` line says. -/
theorem mediaLine_eq_ok {val : Text} (h : p.mediaLine val = .ok p') :
    ∃ f0 f1 f2 f3 fs, splitBy (· = ' ') val = f0 :: f1 :: f2 :: f3 :: fs ∧
      ((f0 ≠ "audio".toList ∧ p' = p) ∨
        (f0 = "audio".toList ∧ { p with mid := p.mid + 1 }.openSection f1 f3 = .ok p')) := by
  simp only [mediaLine] at h
  split at h
  · rename_i f0 f1 f2 f3 fs hval
    refine ⟨f0, f1, f2, f3, fs, hval, ?_⟩
    split at h
    · exact .inr ⟨‹_›, h⟩
    · exact .inl ⟨‹_›, (Parsed.pure_eq_ok.mp h).symm⟩
  · cases h

/-- What an accepted `c=` line says. -/
theorem connectionLine_eq_ok {val : Text} (h : p.connectionLine val = .ok p') :
    (p.status = .time ∧ p' = p) ∨ (p.status ≠ .time ∧ ∃ f2 fs destIP ttl,
      splitBy (fun c => c = ' ' || c = '/') val = "IN".toList :: "IP4".toList :: f2 :: fs ∧
      Address.ofText f2 = some destIP ∧ destIP ≠ Address.inaddrNone ∧
      connectionTtl fs = .ok ttl ∧ p.setConnection destIP ttl = .ok p') := by
  simp only [connectionLine] at h
  split at h
  · exact .inl ⟨‹_›, (Parsed.pure_eq_ok.mp h).symm⟩
  · refine .inr ⟨‹_›, ?_⟩
    split at h
    · rename_i f0 f1 f2 fs hval
      split at h
      · cases h
      · rename_i hin
        obtain ⟨hf0, hf1⟩ := not_or.mp hin
        obtain ⟨destIP, hip, h⟩ := Parsed.bind_eq_ok.mp h
        split at h
        · cases h
        · rename_i hnone
          obtain ⟨ttl, httl, h⟩ := Parsed.bind_eq_ok.mp h
          rw [not_not.mp hf0, not_not.mp hf1] at hval
          exact ⟨f2, fs, destIP, ttl, hval, Parsed.orReject_eq_ok.mp hip, hnone, httl, h⟩
    · cases h

/-- What a line with a given type and value can do. -/
inductive Line (host : Host) (ptp : Ptp) (p : SdpParser) (c : Char) (val : Text) :
    SdpParser → Prop
  | ignored (h : c ∉ ['o', 't', 'a', 'm', 'c']) : Line host ptp p c val p
  | origin {p' : SdpParser} (hc : c = 'o') (h : p.originLine val = .ok p') : Line host ptp p c val p'
  | time (hc : c = 't') : Line host ptp p c val { p with status := .time }
  | attr {p' : SdpParser} (hc : c = 'a') (h : p.attributeLine host ptp val = .ok p') :
    Line host ptp p c val p'
  | media {p' : SdpParser} (hc : c = 'm') (h : p.mediaLine val = .ok p') : Line host ptp p c val p'
  | connection {p' : SdpParser} (hc : c = 'c') (h : p.connectionLine val = .ok p') :
    Line host ptp p c val p'

/-- **What an accepted line does.** -/
theorem line_eq_ok {raw : Text} (h : p.line host ptp raw = .ok p') :
    ∃ c val, trim raw = c :: '=' :: val ∧ Line host ptp p c val p' := by
  simp only [line] at h
  split at h
  · cases h
  · cases h
  rename_i c d val htrim
  split at h
  · cases h
  rename_i hd
  obtain rfl := not_not.mp hd
  refine ⟨c, val, htrim, ?_⟩
  split at h
  · rename_i hv
    split at h
    · cases h
    · obtain rfl := Parsed.pure_eq_ok.mp h
      exact .ignored (by subst hv; decide)
  split at h
  · exact .origin ‹_› h
  split at h
  · obtain rfl := Parsed.pure_eq_ok.mp h
    exact .time ‹_›
  split at h
  · exact .attr ‹_› h
  split at h
  · exact .media ‹_› h
  split at h
  · exact .connection ‹_› h
  split at h
  · cases h
  · obtain rfl := Parsed.pure_eq_ok.mp h
    exact .ignored (by simp only [List.mem_cons, List.not_mem_nil]; tauto)

theorem lines_of_stopped (h : ¬ p.mid < mediaMax) (ls : List Text) : p.lines host ptp ls = .ok p := by
  cases ls with
  | nil => rfl
  | cons l ls => rw [lines, if_neg h]; rfl

/-- The loop, up to a point. -/
theorem lines_append_eq_ok {ls ls' : List Text} (h : p.lines host ptp (ls ++ ls') = .ok p') :
    ∃ q, p.lines host ptp ls = .ok q ∧ q.lines host ptp ls' = .ok p' := by
  induction ls generalizing p with
  | nil => exact ⟨p, rfl, h⟩
  | cons l ls ih =>
      simp only [List.cons_append, lines] at h ⊢
      split at h
      · rename_i hmid
        obtain ⟨q, hq, h⟩ := Parsed.bind_eq_ok.mp h
        obtain ⟨q', hq', h⟩ := ih h
        exact ⟨q', by rw [if_pos hmid]; exact Parsed.bind_eq_ok.mpr ⟨q, hq, hq'⟩, h⟩
      · rename_i hmid
        obtain rfl := Parsed.pure_eq_ok.mp h
        exact ⟨p, by rw [if_neg hmid]; rfl, lines_of_stopped hmid ls'⟩

/-- What every line of a text keeps, the loop keeps. -/
theorem lines_keep {J : SdpParser → Prop} {ls : List Text}
    (hline : ∀ p p' l, l ∈ ls → J p → p.line host ptp l = .ok p' → J p') (h0 : J p)
    (h : p.lines host ptp ls = .ok p') : J p' := by
  induction ls generalizing p with
  | nil => exact Parsed.pure_eq_ok.mp h ▸ h0
  | cons l ls ih =>
      simp only [lines] at h
      split at h
      · obtain ⟨q, hq, h⟩ := Parsed.bind_eq_ok.mp h
        exact ih (fun p p' l hl => hline p p' l (List.mem_cons_of_mem _ hl))
          (hline p q l List.mem_cons_self h0 hq) h
      · exact Parsed.pure_eq_ok.mp h ▸ h0

/-! ## What stays -/

theorem Written.undescribed (h : p.Written p') : p'.info.undescribed = p.info.undescribed := by
  cases h with
  | same => rfl
  | write hf h =>
      refine undescribed_modifyStream (fun s => ?_) h
      obtain ⟨_, _, _, _, _, hs⟩ := hf s
      rw [hs]
      rfl

theorem Attributed.undescribed {val : Text} (h : p.Attributed val p') :
    p'.info.undescribed = p.info.undescribed := by
  cases h with
  | dup => rfl
  | noDup => rfl
  | written _ h => exact h.undescribed

theorem undescribed_openSection {f1 f3 : Text} (h : p.openSection f1 f3 = .ok p') :
    p'.info.undescribed = p.info.undescribed := by
  rcases openSection_eq_ok h with ⟨-, rfl⟩ | ⟨_, _, q, -, -, hq, rfl⟩
  · rfl
  · have hkeep : q.info.undescribed = p.info.undescribed :=
      undescribed_modifyStream (fun _ => by rfl) hq
    exact hkeep

theorem undescribed_setConnection {destIP : UInt32} {ttl : ℤ}
    (h : p.setConnection destIP ttl = .ok p') : p'.info.undescribed = p.info.undescribed := by
  simp only [setConnection] at h
  split at h
  · rw [← Parsed.pure_eq_ok.mp h]; rfl
  · exact undescribed_modifyStream (fun _ => by rfl) h

/-- **One line** fills in what it describes. -/
theorem undescribed_line {raw : Text} (h : p.line host ptp raw = .ok p') :
    p'.info.undescribed = p.info.undescribed := by
  obtain ⟨c, val, -, hline⟩ := line_eq_ok h
  cases hline with
  | ignored => rfl
  | origin _ h => obtain ⟨_, rfl⟩ := originLine_eq_ok h; rfl
  | time => rfl
  | attr _ h => exact (attributed_attributeLine h).undescribed
  | media _ h =>
      obtain ⟨_, _, _, _, _, -, ⟨-, rfl⟩ | ⟨-, h⟩⟩ := mediaLine_eq_ok h
      · rfl
      · exact undescribed_openSection (p := { p with mid := p.mid + 1 }) h
  | connection _ h =>
      rcases connectionLine_eq_ok h with ⟨-, rfl⟩ | ⟨-, _, _, _, _, -, -, -, -, h⟩
      · rfl
      · exact undescribed_setConnection h

/-- A line changes the legs and the origin of the record. -/
theorem info_line {l : Text} (h : p.line host ptp l = .ok p') :
    ∃ stream origin, p'.info = { p.info with stream := stream, origin := origin } := by
  have hwrite : ∀ {q q' : SdpParser} {f}, q.modifyStream f = .ok q' → ∃ stream,
      q'.info = { q.info with stream := stream } := by
    intro q q' f h
    obtain ⟨stream, -, rfl⟩ := modifyStream_eq_ok.mp h
    exact ⟨stream, rfl⟩
  obtain ⟨c, val, -, hline⟩ := line_eq_ok h
  cases hline with
  | ignored => exact ⟨_, _, rfl⟩
  | origin _ h => obtain ⟨origin, rfl⟩ := originLine_eq_ok h; exact ⟨_, origin, rfl⟩
  | time => exact ⟨_, _, rfl⟩
  | attr _ h =>
      cases attributed_attributeLine h with
      | dup => exact ⟨_, _, rfl⟩
      | noDup => exact ⟨_, _, rfl⟩
      | written _ h =>
          cases h with
          | same => exact ⟨_, _, rfl⟩
          | write _ h => obtain ⟨stream, hinfo⟩ := hwrite h; exact ⟨stream, _, hinfo⟩
  | media _ h =>
      obtain ⟨_, _, _, _, _, -, ⟨-, rfl⟩ | ⟨-, h⟩⟩ := mediaLine_eq_ok h
      · exact ⟨_, _, rfl⟩
      · rcases openSection_eq_ok h with ⟨-, rfl⟩ | ⟨_, _, q, -, -, hq, rfl⟩
        · exact ⟨_, _, rfl⟩
        · obtain ⟨stream, hinfo⟩ := hwrite hq; exact ⟨stream, _, hinfo⟩
  | connection _ h =>
      rcases connectionLine_eq_ok h with ⟨-, rfl⟩ | ⟨-, _, _, _, _, -, -, -, -, h⟩
      · exact ⟨_, _, rfl⟩
      · rw [setConnection] at h
        split at h
        · rw [← Parsed.pure_eq_ok.mp h]; exact ⟨_, _, rfl⟩
        · obtain ⟨stream, hinfo⟩ := hwrite h; exact ⟨stream, _, hinfo⟩

theorem finish_stream (p : SdpParser) : p.finish.stream = p.info.stream := by
  simp only [finish]
  split <;> rfl

theorem undescribed_finish (p : SdpParser) : p.finish.undescribed = p.info.undescribed := by
  simp only [finish]
  split <;> rfl

end SdpParser

/-- **Parsing keeps what an SDP does not describe.** -/
theorem undescribed_parseSdp {host : Host} {ptp : Ptp} {sdp : Text} {info info' : StreamInfo}
    (h : parseSdp host ptp sdp info = .ok info') : info'.undescribed = info.undescribed := by
  obtain ⟨p, hp, h⟩ := Parsed.bind_eq_ok.mp h
  rw [← Parsed.pure_eq_ok.mp h, SdpParser.undescribed_finish]
  exact SdpParser.lines_keep (J := fun q => q.info.undescribed = info.undescribed)
    (fun _ _ _ _ hq hl => (SdpParser.undescribed_line hl).trans hq) rfl hp

end Aes67Daemon
