import Aes67Daemon.Session.Outline

/-!
# What a session description writes

Reading a line writes to the records of the legs, and which writes these are depends on
how far the parser is and on the payload types of the legs, and on nothing else in the
records: the parser is a program that writes.  So two runs of the same lines from records
with the same payload types do the same writes, and what a field is in the end is what was
written to it last.

## Main definitions

* `LegWrite` — a write to the record of a leg.
* `SdpParser.writes`, `SdpParser.allWrites` — the writes of a line and of a text.
* `SdpParser.lines_swap` — two runs do the same writes.
-/
namespace Aes67Daemon

open Text

/-! ## Writes -/

/-- A write to the record of a leg. -/
inductive LegWrite
  | opened (port : UInt16) (payload : UInt8)
  | connection (destIP : UInt32) (ttl : UInt8)
  | format (codec : Text) (word : UInt8) (rate : UInt32)
  | offset (n : UInt32)
  /-- The packet time is written as the number of samples at the current rate. -/
  | packetTime (samples : UInt32 → UInt32)

/-- The record after a write. -/
def LegWrite.apply : LegWrite → TRTPStreamInfo → TRTPStreamInfo
  | opened port payload, s => { s with usDestPort := port, byPayloadType := payload }
  | connection destIP ttl, s => { s with ui32DestIP := destIP, byTTL := ttl }
  | format codec word rate, s => { s with cCodec := codec, byWordLength := word, ui32SamplingRate := rate }
  | offset n, s => { s with ui32RTPTimestampOffset := n }
  | packetTime samples, s => { s with ui32MaxSamplesPerPacket := samples s.ui32SamplingRate }

namespace Legs

/-- A write to the leg with an index. -/
def write (l : Legs TRTPStreamInfo) (w : ℤ × LegWrite) : Legs TRTPStreamInfo :=
  if w.1 = 0 then { l with leg0 := w.2.apply l.leg0 } else { l with leg1 := w.2.apply l.leg1 }

/-- Writes in order. -/
def play (l : Legs TRTPStreamInfo) (ws : List (ℤ × LegWrite)) : Legs TRTPStreamInfo := ws.foldl write l

/-- The payload types. -/
def payloads (l : Legs TRTPStreamInfo) : Legs UInt8 := l.map TRTPStreamInfo.byPayloadType

variable {l l' : Legs TRTPStreamInfo}

@[simp] theorem play_nil : l.play [] = l := rfl

theorem play_append (ws ws' : List (ℤ × LegWrite)) : l.play (ws ++ ws') = (l.play ws).play ws' := List.foldl_append

/-- Writes keep payload types equal. -/
theorem payloads_write (h : l.payloads = l'.payloads) (w : ℤ × LegWrite) : (l.write w).payloads = (l'.write w).payloads := by
  obtain ⟨i, w⟩ := w
  obtain ⟨h0, h1⟩ := Legs.mk.inj h
  have happly : ∀ {s s' : TRTPStreamInfo}, s.byPayloadType = s'.byPayloadType →
      (w.apply s).byPayloadType = (w.apply s').byPayloadType := by
    intro s s' hs
    cases w with
    | opened port payload => rfl
    | connection destIP ttl => exact hs
    | format codec word rate => exact hs
    | offset n => exact hs
    | packetTime time => exact hs
  unfold write
  dsimp only
  split
  · exact congrArg₂ Legs.mk (happly h0) h1
  · exact congrArg₂ Legs.mk h0 (happly h1)

theorem payloads_play (h : l.payloads = l'.payloads) (ws : List (ℤ × LegWrite)) :
    (l.play ws).payloads = (l'.play ws).payloads := by
  induction ws generalizing l l' with
  | nil => exact h
  | cons w ws ih => exact ih (payloads_write h w)

theorem payload_at? (h : l.payloads = l'.payloads) (i : ℤ) :
    (l.at? i).map TRTPStreamInfo.byPayloadType = (l'.at? i).map TRTPStreamInfo.byPayloadType := by
  rw [← Legs.at?_map, ← Legs.at?_map]
  exact congrArg (Legs.at? · i) h

/-- A change that succeeds for one pair of legs succeeds for another one. -/
theorem modify?_write {i : ℤ} {w : LegWrite} {k : Legs TRTPStreamInfo} (l' : Legs TRTPStreamInfo) (h : l.modify? i w.apply = some k) :
    k = l.write (i, w) ∧ l'.modify? i w.apply = some (l'.write (i, w)) := by
  unfold modify? at h ⊢
  unfold write
  dsimp only
  split at h
  · rename_i hi
    rw [if_pos hi, if_pos hi, if_pos hi]
    exact ⟨(Option.some.inj h).symm, rfl⟩
  · rename_i hi
    split at h
    · rename_i hi'
      rw [if_neg hi, if_neg hi, if_neg hi, if_pos hi']
      exact ⟨(Option.some.inj h).symm, rfl⟩
    · cases h

end Legs

/-! ## The writes of a line -/

namespace SdpParser

/-- `a=rtpmap`, where the payload type matches. -/
def formatWrite (host : Host) (payload : UInt8) (value : Text) : List LegWrite :=
  match splitBy (fun c => c = ' ' || c = '/') value with
  | f0 :: f1 :: f2 :: _ =>
    if stoi f0 = some (payload.toNat : ℤ) then
      [.format (cStr host.codecSize f1) (getCodecWordLength f1) (UInt32.ofNat ((stoul f2).getD 0))]
    else []
  | _ => []

/-- `a=sync-time`. -/
def offsetWrite (value : Text) : List LegWrite := [.offset (UInt32.ofNat ((stoul value).getD 0))]

/-- `a=mediaclk`. -/
def clockWrite (value : Text) : List LegWrite :=
  match splitBy (· = '=') value with
  | [f0, f1] => if f0 = "direct".toList then offsetWrite f1 else []
  | _ => []

/-- `a=ptime`. -/
def timeWrite (host : Host) (value : Text) : List LegWrite :=
  ((stod host.double value).map fun time => LegWrite.packetTime fun rate => packetSamples host.double rate time).toList

/-- An attribute of an audio section. -/
def attributeWrite (host : Host) (payload : UInt8) (name value : Text) : List LegWrite :=
  if name = "rtpmap".toList then formatWrite host payload value
  else if name = "sync-time".toList then offsetWrite value
  else if name = "framecount".toList then []
  else if name = "ptime".toList then timeWrite host value
  else if name = "mediaclk".toList then clockWrite value
  else []

/-- An `m=` line of an audio section. -/
def openedWrite (val : Text) : List LegWrite :=
  match splitBy (· = ' ') val with
  | f0 :: f1 :: _ :: f3 :: _ =>
    if f0 = "audio".toList then [.opened (UInt16.ofInt ((stoi f1).getD 0)) (UInt8.ofInt ((stoi f3).getD 0))] else []
  | _ => []

/-- A `c=` line. -/
def connectionWrite (val : Text) : List LegWrite :=
  match splitBy (fun c => c = ' ' || c = '/') val with
  | _ :: _ :: f2 :: fs =>
    [.connection ((Address.ofText f2).getD 0) (UInt8.ofInt ((connectionTtl fs).toOption.getD 0))]
  | _ => []

/-- The payload type of the current section. -/
def payload (p : SdpParser) : UInt8 := ((p.info.stream.at? p.mid).map TRTPStreamInfo.byPayloadType).getD 0

/-- The writes of a line, each with the index of its leg. -/
def writes (host : Host) (p : SdpParser) (raw : Text) : List (ℤ × LegWrite) :=
  match trim raw with
  | c :: _ :: val =>
    if c = 'a' then
      match p.status, breakAt ':' val with
      | .media, some (name, value) => (attributeWrite host p.payload name value).map fun w => (p.mid, w)
      | _, _ => []
    else if c = 'm' then if p.mid + 1 < mediaMax then (openedWrite val).map fun w => (p.mid + 1, w) else []
    else if c = 'c' then
      match p.status with
      | .init => (connectionWrite val).flatMap fun w => [(0, w), (1, w)]
      | .time => []
      | .media => (connectionWrite val).map fun w => (p.mid, w)
    else []
  | _ => []

/-- A line announces a `DUP` group. -/
def announcesGroup (p : SdpParser) (raw : Text) : Bool :=
  match trim raw with
  | c :: _ :: val => c = 'a' && p.status ≠ .media && "group:DUP".toList.isPrefixOf val
  | _ => false

/-- The writes of a text. -/
def allWrites (host : Host) (ptp : Ptp) : SdpParser → List Text → List (ℤ × LegWrite)
  | _, [] => []
  | p, l :: ls =>
    if p.mid < mediaMax then
      match p.line host ptp l with
      | .ok p' => p.writes host l ++ p'.allWrites host ptp ls
      | .error _ => []
    else []

/-- A text announces a `DUP` group. -/
def announcesAnyGroup (host : Host) (ptp : Ptp) : SdpParser → List Text → Bool
  | _, [] => false
  | p, l :: ls =>
    if p.mid < mediaMax then
      match p.line host ptp l with
      | .ok p' => p.announcesGroup l || p'.announcesAnyGroup host ptp ls
      | .error _ => false
    else false

/-! ## The same writes to other records -/

/-- The parser with other records. -/
def swap (p : SdpParser) (legs : Legs TRTPStreamInfo) (dup : Bool) : SdpParser :=
  { p with info := { p.info with stream := legs }, dup := dup }

variable {host : Host} {ptp : Ptp} {p p' : SdpParser} {legs : Legs TRTPStreamInfo} {dup : Bool}

theorem swap_self : p.swap p.info.stream p.dup = p := rfl

theorem swap_modifyStream {w : LegWrite} (h : p.modifyStream w.apply = .ok p') :
    (p.swap legs dup).modifyStream w.apply = .ok (p'.swap (legs.write (p.mid, w)) dup) := by
  obtain ⟨stream, hstream, rfl⟩ := modifyStream_eq_ok.mp h
  exact modifyStream_eq_ok.mpr ⟨_, (Legs.modify?_write legs hstream).2, rfl⟩

theorem swap_timestampOffset {value : Text} (h : p.timestampOffset value = .ok p') :
    (p.swap legs dup).timestampOffset value =
      .ok (p'.swap (legs.play ((offsetWrite value).map fun w => (p.mid, w))) dup) := by
  obtain ⟨n, hn, h⟩ := Parsed.bind_eq_ok.mp h
  have hread : stoul value = some n := Parsed.orReject_eq_ok.mp hn
  have hwrite : p.modifyStream (LegWrite.offset (UInt32.ofNat n)).apply = .ok p' := h
  refine Parsed.bind_eq_ok.mpr ⟨n, hn, ?_⟩
  rw [offsetWrite, hread]
  exact swap_modifyStream hwrite

theorem swap_mediaclk {value : Text} (h : p.mediaclk value = .ok p') :
    (p.swap legs dup).mediaclk value = .ok (p'.swap (legs.play ((clockWrite value).map fun w => (p.mid, w))) dup) := by
  have hnothing : p = p' → Except.ok (p.swap legs dup) = (Except.ok (p'.swap (legs.play []) dup) : Parsed SdpParser) := by
    rintro rfl
    rfl
  rcases hval : splitBy (· = '=') value with _ | ⟨f0, _ | ⟨f1, _ | ⟨f2, fs⟩⟩⟩
  · simp only [mediaclk, clockWrite, hval] at h ⊢
    exact hnothing (Parsed.pure_eq_ok.mp h)
  · simp only [mediaclk, clockWrite, hval] at h ⊢
    exact hnothing (Parsed.pure_eq_ok.mp h)
  · simp only [mediaclk, clockWrite, hval] at h ⊢
    split at h
    · rename_i hdirect
      rw [if_pos hdirect, if_pos hdirect]
      exact swap_timestampOffset h
    · rename_i hdirect
      rw [if_neg hdirect, if_neg hdirect]
      exact hnothing (Parsed.pure_eq_ok.mp h)
  · simp only [mediaclk, clockWrite, hval] at h ⊢
    exact hnothing (Parsed.pure_eq_ok.mp h)

/-- The other record of the current section. -/
theorem swap_at? {stream : TRTPStreamInfo} (hlegs : legs.payloads = p.info.stream.payloads)
    (hstream : p.info.stream.at? p.mid = some stream) :
    ∃ stream', legs.at? p.mid = some stream' ∧ stream'.byPayloadType = stream.byPayloadType := by
  have hsame := Legs.payload_at? hlegs p.mid
  rw [hstream, Option.map_some] at hsame
  exact Option.map_eq_some_iff.mp hsame

theorem swap_rtpmap {value : Text} (hlegs : legs.payloads = p.info.stream.payloads) (h : p.rtpmap host value = .ok p') :
    (p.swap legs dup).rtpmap host value =
      .ok (p'.swap (legs.play ((formatWrite host p.payload value).map fun w => (p.mid, w))) dup) := by
  unfold rtpmap at h ⊢
  split at h
  · rename_i f0 f1 f2 f3 fs hval
    simp only [formatWrite, hval]
    obtain ⟨stream, hstream, h⟩ := Parsed.bind_eq_ok.mp h
    obtain ⟨payload, hpayload, h⟩ := Parsed.bind_eq_ok.mp h
    have hat := Parsed.orOutOfBounds_eq_ok.mp hstream
    obtain ⟨stream', hother, hsame⟩ := swap_at? hlegs hat
    have hmine : p.payload = stream.byPayloadType := by rw [SdpParser.payload, hat]; rfl
    have hread : stoi f0 = some payload := Parsed.orReject_eq_ok.mp hpayload
    refine Parsed.bind_eq_ok.mpr ⟨stream', Parsed.orOutOfBounds_eq_ok.mpr hother, ?_⟩
    refine Parsed.bind_eq_ok.mpr ⟨payload, hpayload, ?_⟩
    rw [hsame, hmine, hread]
    split at h
    · rename_i hmatches
      obtain ⟨rate, hrate, h⟩ := Parsed.bind_eq_ok.mp h
      obtain ⟨channels, hchannels, h⟩ := Parsed.bind_eq_ok.mp h
      have hwrite : p.modifyStream (LegWrite.format (cStr host.codecSize f1) (getCodecWordLength f1) (UInt32.ofNat rate)).apply =
          .ok p' := h
      rw [if_pos hmatches, if_pos (congrArg some hmatches.symm), Parsed.orReject_eq_ok.mp hrate]
      exact Parsed.bind_eq_ok.mpr ⟨rate, rfl, Parsed.bind_eq_ok.mpr ⟨channels, hchannels, swap_modifyStream hwrite⟩⟩
    · rename_i hmatches
      obtain rfl := Parsed.pure_eq_ok.mp h
      rw [if_neg hmatches, if_neg fun heq => hmatches (Option.some.inj heq).symm]
      rfl
  · cases h

theorem swap_ptime {value : Text} (hlegs : legs.payloads = p.info.stream.payloads) (h : p.ptime host value = .ok p') :
    (p.swap legs dup).ptime host value =
      .ok (p'.swap (legs.play ((timeWrite host value).map fun w => (p.mid, w))) dup) := by
  obtain ⟨stream, hstream, h⟩ := Parsed.bind_eq_ok.mp h
  obtain ⟨time, htime, h⟩ := Parsed.bind_eq_ok.mp h
  obtain ⟨stream', hother, -⟩ := swap_at? hlegs (Parsed.orOutOfBounds_eq_ok.mp hstream)
  -- the rate is the one of the record that is written
  have hmodify : ∀ {l : Legs TRTPStreamInfo} {s : TRTPStreamInfo}, l.at? p.mid = some s →
      l.modify? p.mid (fun t => { t with ui32MaxSamplesPerPacket := packetSamples host.double s.ui32SamplingRate time }) =
        l.modify? p.mid (LegWrite.packetTime fun rate => packetSamples host.double rate time).apply := by
    intro l s hs
    rw [Legs.modify?_of_at? hs, Legs.modify?_of_at? hs]
    rfl
  have hwrite : p.modifyStream (LegWrite.packetTime fun rate => packetSamples host.double rate time).apply = .ok p' := by
    unfold modifyStream at h ⊢
    rwa [hmodify (Parsed.orOutOfBounds_eq_ok.mp hstream)] at h
  rw [timeWrite, Parsed.orReject_eq_ok.mp htime]
  refine Parsed.bind_eq_ok.mpr ⟨stream', Parsed.orOutOfBounds_eq_ok.mpr hother, ?_⟩
  refine Parsed.bind_eq_ok.mpr ⟨time, htime, ?_⟩
  have hswap : (p.swap legs dup).modifyStream
      (LegWrite.packetTime fun rate => packetSamples host.double rate time).apply = _ := swap_modifyStream hwrite
  unfold modifyStream at hswap ⊢
  rwa [show (p.swap legs dup).info.stream.modify? (p.swap legs dup).mid _ = _ from hmodify hother]

theorem swap_tsRefclk {value : Text} (h : p.tsRefclk ptp value = .ok p') :
    (p.swap legs dup).tsRefclk ptp value = .ok (p'.swap legs dup) := by
  unfold tsRefclk at h ⊢
  split at h
  · split at h
    · cases h
    · rename_i hgmid
      obtain ⟨domain, hdomain, h⟩ := Parsed.bind_eq_ok.mp h
      rw [if_neg hgmid]
      refine Parsed.bind_eq_ok.mpr ⟨domain, hdomain, ?_⟩
      split at h
      · cases h
      · rename_i hsame
        obtain rfl := Parsed.pure_eq_ok.mp h
        rw [if_neg hsame]
        rfl
  · obtain rfl := Parsed.pure_eq_ok.mp h
    rfl

/-- An attribute of an audio section writes to its leg. -/
theorem swap_mediaAttribute {name value : Text} (hlegs : legs.payloads = p.info.stream.payloads)
    (h : p.mediaAttribute host ptp name value = .ok p') :
    (p.swap legs dup).mediaAttribute host ptp name value =
      .ok (p'.swap (legs.play ((attributeWrite host p.payload name value).map fun w => (p.mid, w))) dup) := by
  unfold mediaAttribute at h ⊢
  unfold attributeWrite
  by_cases hrtpmap : name = "rtpmap".toList
  · rw [if_pos hrtpmap] at h ⊢
    rw [if_pos hrtpmap]
    exact swap_rtpmap hlegs h
  rw [if_neg hrtpmap] at h ⊢
  rw [if_neg hrtpmap]
  by_cases hsync : name = "sync-time".toList
  · rw [if_pos hsync] at h ⊢
    rw [if_pos hsync]
    exact swap_timestampOffset h
  rw [if_neg hsync] at h ⊢
  rw [if_neg hsync]
  by_cases hframes : name = "framecount".toList
  · rw [if_pos hframes] at h ⊢
    rw [if_pos hframes]
    obtain rfl := Parsed.pure_eq_ok.mp h
    rfl
  rw [if_neg hframes] at h ⊢
  rw [if_neg hframes]
  by_cases hptime : name = "ptime".toList
  · rw [if_pos hptime] at h ⊢
    rw [if_pos hptime]
    exact swap_ptime hlegs h
  rw [if_neg hptime] at h ⊢
  rw [if_neg hptime]
  by_cases hclock : name = "mediaclk".toList
  · rw [if_pos hclock] at h ⊢
    rw [if_pos hclock]
    exact swap_mediaclk h
  rw [if_neg hclock] at h ⊢
  rw [if_neg hclock]
  by_cases hrefclk : name = "ts-refclk".toList ∧ p.info.ignoreRefclkGmid = false
  · rw [if_pos hrefclk] at h
    rw [if_pos (show name = _ ∧ (p.swap legs dup).info.ignoreRefclkGmid = false from hrefclk)]
    exact swap_tsRefclk h
  · rw [if_neg hrefclk] at h
    obtain rfl := Parsed.pure_eq_ok.mp h
    rw [if_neg (show ¬ (name = _ ∧ (p.swap legs dup).info.ignoreRefclkGmid = false) from hrefclk)]
    rfl

/-- A session attribute writes nothing. -/
theorem swap_sessionAttribute {name value : Text} (h : p.sessionAttribute name value = .ok p') :
    (p.swap legs dup).sessionAttribute name value =
      .ok (p'.swap legs (dup || decide (name = "group".toList ∧ value.take 3 = "DUP".toList))) := by
  have hp' := sessionAttribute_eq_ok h
  unfold sessionAttribute at h ⊢
  split at h
  · rename_i hname
    rw [if_pos hname]
    subst hp'
    by_cases hdup : value.take 3 = "DUP".toList
    · rw [if_pos hdup, if_pos ⟨hname, hdup⟩, decide_eq_true ⟨hname, hdup⟩, Bool.or_true]
      rfl
    · have hno : ¬ (name = "group".toList ∧ value.take 3 = "DUP".toList) := fun hgroup => hdup hgroup.2
      rw [if_neg hdup, if_neg hno, decide_eq_false hno, Bool.or_false]
      rfl
  · rename_i hname
    rw [if_neg hname]
    rw [if_neg fun hgroup => hname hgroup.1] at hp'
    subst hp'
    have hdup : decide (name = "group".toList ∧ value.take 3 = "DUP".toList) = false :=
      decide_eq_false fun hgroup => hname hgroup.1
    rw [hdup, Bool.or_false]
    split at h
    · split at h
      · cases h
      · rename_i hname' hversion
        rw [if_pos hname', if_neg hversion]
        rfl
    · rename_i hname'
      rw [if_neg hname']
      rfl

theorem swap_originLine {val : Text} (h : p.originLine val = .ok p') :
    (p.swap legs dup).originLine val = .ok (p'.swap legs dup) := by
  unfold originLine at h ⊢
  split at h
  · obtain ⟨version, hversion, h⟩ := Parsed.bind_eq_ok.mp h
    obtain rfl := Parsed.pure_eq_ok.mp h
    exact Parsed.bind_eq_ok.mpr ⟨version, hversion, rfl⟩
  · obtain rfl := Parsed.pure_eq_ok.mp h
    rfl

/-- An `a=` line, by its name and value. -/
theorem swap_attributeLine {val : Text} (hlegs : legs.payloads = p.info.stream.payloads)
    (h : p.attributeLine host ptp val = .ok p') :
    (p.swap legs dup).attributeLine host ptp val = .ok (p'.swap
      (legs.play (match p.status, breakAt ':' val with
        | .media, some (name, value) => (attributeWrite host p.payload name value).map fun w => (p.mid, w)
        | _, _ => []))
      (dup || (p.status ≠ .media && "group:DUP".toList.isPrefixOf val))) := by
  have hnoGroup : breakAt ':' val = none → "group:DUP".toList.isPrefixOf val = false := by
    intro hnone
    refine Bool.eq_false_iff.mpr fun hprefix => ?_
    obtain ⟨t, rfl⟩ := List.isPrefixOf_iff_prefix.mp hprefix
    rw [breakAt_group] at hnone
    cases hnone
  have hsession : ∀ {name value : Text}, breakAt ':' val = some (name, value) → p.status ≠ .media →
      p.sessionAttribute name value = .ok p' → (p.swap legs dup).sessionAttribute name value =
        .ok (p'.swap legs (dup || (p.status ≠ .media && "group:DUP".toList.isPrefixOf val))) := by
    intro name value hval hstatus h
    have hgroup : decide (name = "group".toList ∧ value.take 3 = "DUP".toList) = "group:DUP".toList.isPrefixOf val := by
      rw [Bool.eq_iff_iff, decide_eq_true_eq, List.isPrefixOf_iff_prefix]
      exact group_prefix_iff hval
    rw [swap_sessionAttribute h, hgroup, decide_eq_true hstatus, Bool.true_and]
  unfold attributeLine at h ⊢
  cases hval : breakAt ':' val with
  | none =>
      rw [hval] at h
      obtain rfl := Parsed.pure_eq_ok.mp h
      rw [hnoGroup hval, Bool.and_false, Bool.or_false]
      cases p.status <;> rfl
  | some pair =>
      obtain ⟨name, value⟩ := pair
      rw [hval] at h
      dsimp only at h ⊢
      have hstatus : (p.swap legs dup).status = p.status := rfl
      rw [hstatus]
      cases hs : p.status with
      | init =>
          rw [hs] at h
          have hsame := hsession hval (by rw [hs]; decide) h
          rw [hs] at hsame
          exact hsame
      | time =>
          rw [hs] at h
          have hsame := hsession hval (by rw [hs]; decide) h
          rw [hs] at hsame
          exact hsame
      | media =>
          rw [hs] at h
          have hsame : (p.swap legs dup).mediaAttribute host ptp name value = _ := swap_mediaAttribute hlegs h
          simpa using hsame

theorem swap_openSection {f1 f3 : Text} (h : p.openSection f1 f3 = .ok p') :
    (p.swap legs dup).openSection f1 f3 = .ok (p'.swap
      (legs.play (if p.mid < mediaMax then
        [(p.mid, .opened (UInt16.ofInt ((stoi f1).getD 0)) (UInt8.ofInt ((stoi f3).getD 0)))] else [])) dup) := by
  unfold openSection at h ⊢
  have hmid : (p.swap legs dup).mid = p.mid := rfl
  rw [hmid]
  split at h
  · rename_i hopen
    obtain ⟨port, hport, h⟩ := Parsed.bind_eq_ok.mp h
    obtain ⟨payload, hpayload, h⟩ := Parsed.bind_eq_ok.mp h
    obtain ⟨q, hq, h⟩ := Parsed.bind_eq_ok.mp h
    obtain rfl := Parsed.pure_eq_ok.mp h
    have hwrite : p.modifyStream (LegWrite.opened (UInt16.ofInt port) (UInt8.ofInt payload)).apply = .ok q := hq
    rw [if_pos hopen, if_pos hopen, Parsed.orReject_eq_ok.mp hport, Parsed.orReject_eq_ok.mp hpayload]
    refine Parsed.bind_eq_ok.mpr ⟨port, rfl, Parsed.bind_eq_ok.mpr ⟨payload, rfl, ?_⟩⟩
    exact Parsed.bind_eq_ok.mpr ⟨_, swap_modifyStream hwrite, rfl⟩
  · rename_i hopen
    obtain rfl := Parsed.pure_eq_ok.mp h
    rw [if_neg hopen, if_neg hopen]
    rfl

/-- An `m=` line. -/
theorem swap_mediaLine {val : Text} (h : p.mediaLine val = .ok p') :
    (p.swap legs dup).mediaLine val = .ok (p'.swap
      (legs.play (if p.mid + 1 < mediaMax then (openedWrite val).map fun w => (p.mid + 1, w) else [])) dup) := by
  unfold mediaLine at h ⊢
  split at h
  · rename_i f0 f1 f2 f3 fs hval
    simp only [openedWrite, hval]
    split at h
    · rename_i haudio
      rw [if_pos haudio, if_pos haudio]
      exact swap_openSection h
    · rename_i hother
      obtain rfl := Parsed.pure_eq_ok.mp h
      rw [if_neg hother, if_neg hother, List.map_nil, ite_self]
      rfl
  · cases h

/-- A `c=` line. -/
theorem swap_connectionLine {val : Text} (h : p.connectionLine val = .ok p') :
    (p.swap legs dup).connectionLine val = .ok (p'.swap
      (legs.play (match p.status with
        | .init => (connectionWrite val).flatMap fun w => [(0, w), (1, w)]
        | .time => []
        | .media => (connectionWrite val).map fun w => (p.mid, w))) dup) := by
  unfold connectionLine at h ⊢
  have hstatus : (p.swap legs dup).status = p.status := rfl
  rw [hstatus]
  split at h
  · rename_i htime
    obtain rfl := Parsed.pure_eq_ok.mp h
    rw [if_pos htime, htime]
    rfl
  · rename_i htime
    rw [if_neg htime]
    split at h
    · rename_i f0 f1 f2 fs hval
      simp only [connectionWrite, hval]
      split at h
      · cases h
      · rename_i hinternet
        rw [if_neg hinternet]
        obtain ⟨destIP, hdest, h⟩ := Parsed.bind_eq_ok.mp h
        split at h
        · cases h
        · rename_i hnone
          obtain ⟨ttl, httl, h⟩ := Parsed.bind_eq_ok.mp h
          refine Parsed.bind_eq_ok.mpr ⟨destIP, hdest, ?_⟩
          rw [if_neg hnone, Parsed.orReject_eq_ok.mp hdest, httl]
          refine Parsed.bind_eq_ok.mpr ⟨ttl, rfl, ?_⟩
          unfold setConnection at h ⊢
          dsimp only at h ⊢
          rw [hstatus]
          split at h
          · rename_i hinit
            obtain rfl := Parsed.pure_eq_ok.mp h
            rw [if_pos hinit, hinit]
            rfl
          · rename_i hinit
            have hmedia : p.status = .media := by
              cases hs : p.status with
              | init => exact absurd hs hinit
              | time => exact absurd hs htime
              | media => rfl
            rw [if_neg hinit, hmedia]
            have hwrite : p.modifyStream (LegWrite.connection destIP (UInt8.ofInt ttl)).apply = .ok p' := h
            exact swap_modifyStream hwrite
    · cases h

/-- **A line does the same writes to other records** with the same payload types. -/
theorem swap_line {raw : Text} (hlegs : legs.payloads = p.info.stream.payloads) (h : p.line host ptp raw = .ok p') :
    (p.swap legs dup).line host ptp raw =
      .ok (p'.swap (legs.play (p.writes host raw)) (dup || p.announcesGroup raw)) := by
  have hnothing : ∀ {x : Parsed SdpParser}, x = .ok p' → ∀ {y : Parsed SdpParser},
      y = .ok (p'.swap legs dup) → y = .ok (p'.swap (legs.play []) (dup || false)) := by
    intro _ _ y hy
    rw [hy, Bool.or_false]
    rfl
  unfold line at h ⊢
  unfold writes announcesGroup
  generalize trim raw = t at h ⊢
  match t with
  | [] => cases h
  | [_] => cases h
  | c :: d :: val =>
      dsimp only at h ⊢
      split at h
      · cases h
      rename_i hd
      rw [if_neg hd]
      by_cases hv : c = 'v'
      · subst hv
        rw [if_pos rfl] at h ⊢
        split at h
        · cases h
        · rename_i hzero
          obtain rfl := Parsed.pure_eq_ok.mp h
          rw [if_neg hzero]
          exact hnothing h rfl
      rw [if_neg hv] at h ⊢
      by_cases ho : c = 'o'
      · subst ho
        rw [if_pos rfl] at h ⊢
        exact hnothing h (swap_originLine h)
      rw [if_neg ho] at h ⊢
      by_cases ht : c = 't'
      · subst ht
        rw [if_pos rfl] at h ⊢
        obtain rfl := Parsed.pure_eq_ok.mp h
        exact hnothing h rfl
      rw [if_neg ht] at h ⊢
      by_cases ha : c = 'a'
      · subst ha
        rw [if_pos rfl] at h ⊢
        rw [if_pos rfl]
        have hsame : (p.swap legs dup).attributeLine host ptp val = _ := swap_attributeLine hlegs h
        simpa using hsame
      rw [if_neg ha] at h ⊢
      rw [if_neg ha, decide_eq_false ha, Bool.false_and, Bool.false_and, Bool.or_false]
      by_cases hm : c = 'm'
      · subst hm
        rw [if_pos rfl] at h ⊢
        rw [if_pos rfl]
        exact swap_mediaLine h
      rw [if_neg hm] at h ⊢
      rw [if_neg hm]
      by_cases hc : c = 'c'
      · subst hc
        rw [if_pos rfl] at h ⊢
        rw [if_pos rfl]
        exact swap_connectionLine h
      rw [if_neg hc] at h ⊢
      rw [if_neg hc]
      split at h
      · cases h
      · rename_i hletter
        obtain rfl := Parsed.pure_eq_ok.mp h
        rw [if_neg hletter]
        rfl

/-- What a line does to the records it is read with. -/
theorem line_writes {raw : Text} (h : p.line host ptp raw = .ok p') :
    p'.info.stream = p.info.stream.play (p.writes host raw) ∧ p'.dup = (p.dup || p.announcesGroup raw) := by
  have hself : (p.swap p.info.stream p.dup).line host ptp raw = _ := swap_line rfl h
  rw [swap_self, h] at hself
  have heq := Except.ok.inj hself
  exact ⟨congrArg (fun q => q.info.stream) heq, congrArg SdpParser.dup heq⟩

/-- **A text does the same writes to other records** with the same payload types. -/
theorem lines_swap {ls : List Text} (hlegs : legs.payloads = p.info.stream.payloads) (h : p.lines host ptp ls = .ok p') :
    (p.swap legs dup).lines host ptp ls =
      .ok (p'.swap (legs.play (p.allWrites host ptp ls)) (dup || p.announcesAnyGroup host ptp ls)) := by
  induction ls generalizing p legs dup with
  | nil =>
      obtain rfl := Parsed.pure_eq_ok.mp h
      rw [allWrites, announcesAnyGroup, Bool.or_false]
      rfl
  | cons l ls ih =>
      rw [lines] at h ⊢
      rw [allWrites, announcesAnyGroup]
      have hmid : (p.swap legs dup).mid = p.mid := rfl
      rw [hmid]
      split at h
      · rename_i hopen
        obtain ⟨q, hq, h⟩ := Parsed.bind_eq_ok.mp h
        rw [if_pos hopen, if_pos hopen, if_pos hopen, hq]
        have hnext : (legs.play (p.writes host l)).payloads = q.info.stream.payloads := by
          rw [(line_writes hq).1]
          exact Legs.payloads_play hlegs _
        refine Parsed.bind_eq_ok.mpr ⟨_, swap_line hlegs hq, ?_⟩
        rw [ih hnext h, ← Legs.play_append, Bool.or_assoc]
      · rename_i hopen
        obtain rfl := Parsed.pure_eq_ok.mp h
        rw [if_neg hopen, if_neg hopen, if_neg hopen, Bool.or_false]
        rfl

/-- What a text does to the records it is read with. -/
theorem lines_writes {ls : List Text} (h : p.lines host ptp ls = .ok p') :
    p'.info.stream = p.info.stream.play (p.allWrites host ptp ls) ∧
      p'.dup = (p.dup || p.announcesAnyGroup host ptp ls) := by
  have hself : (p.swap p.info.stream p.dup).lines host ptp ls = _ := lines_swap rfl h
  rw [swap_self, h] at hself
  have heq := Except.ok.inj hself
  exact ⟨congrArg (fun q => q.info.stream) heq, congrArg SdpParser.dup heq⟩

end SdpParser
end Aes67Daemon
