import Aes67Daemon.Lib.Assign
import Aes67Daemon.Lib.Replay
import Aes67Daemon.Session.SdpWrites

/-!
# Sections of other media

Only `m=` lines for audio move the parser on, so the lines of a section of another kind are
read as lines of what comes before it: as session-level lines before the first audio
section, and as lines of the last audio section after it.  There they can be rejected, and
what they write stays unless it is written again.

## Main definitions

* `ForeignSection` — a section of another kind.
* `Healed` — what the rest writes makes up for a changed record.
* `SdpParser.Ignores` — a place where a section does no harm.
* `foreign_ignored_iff` — a section can be inserted exactly at such a place.
-/
namespace Aes67Daemon

open Text

/-! ## Records that end up the same -/

/-- The fields that are written together. -/
inductive LegGroup
  | port
  | connection
  | format
  | offset
  | samples
  deriving DecidableEq

/-- What a write writes. -/
def LegWrite.group : LegWrite → LegGroup
  | opened _ _ => .port
  | connection _ _ => .connection
  | format _ _ _ => .format
  | offset _ => .offset
  | packetTime _ => .samples

/-- The record without what a section of another kind can change. -/
def TRTPStreamInfo.fixedPart (s : TRTPStreamInfo) : TRTPStreamInfo :=
  { s with
    ui32DestIP := 0, byTTL := 0, cCodec := [], byWordLength := 0, ui32SamplingRate := 0
    ui32RTPTimestampOffset := 0, ui32MaxSamplesPerPacket := 0 }

/-- What is written later makes up for the difference between two records: each group of
fields is the same or is written, and the last packet time gives the same number of
samples, at a rate that is written as well or by itself. -/
structure Healed (ws : List LegWrite) (a b : TRTPStreamInfo) : Prop where
  connection : (a.ui32DestIP = b.ui32DestIP ∧ a.byTTL = b.byTTL) ∨ ∃ w ∈ ws, w.group = .connection
  format : (a.cCodec = b.cCodec ∧ a.byWordLength = b.byWordLength ∧ a.ui32SamplingRate = b.ui32SamplingRate) ∨
    ∃ w ∈ ws, w.group = .format
  offset : a.ui32RTPTimestampOffset = b.ui32RTPTimestampOffset ∨ ∃ w ∈ ws, w.group = .offset
  samples : ((∀ w ∈ ws, w.group ≠ .samples) ∧ a.ui32MaxSamplesPerPacket = b.ui32MaxSamplesPerPacket) ∨
    ∃ before time after, ws = before ++ .packetTime time :: after ∧ (∀ w ∈ after, w.group ≠ .samples) ∧
      (time a.ui32SamplingRate = time b.ui32SamplingRate ∨
        ∃ w ∈ before, w.group = .format)

namespace TRTPStreamInfo

/-- The record after writes. -/
def replay (s : TRTPStreamInfo) (ws : List LegWrite) : TRTPStreamInfo := ws.foldl (fun s w => w.apply s) s

theorem eq_iff_groups (a b : TRTPStreamInfo) : a = b ↔ a.fixedPart = b.fixedPart ∧
    (a.ui32DestIP, a.byTTL) = (b.ui32DestIP, b.byTTL) ∧
    (a.cCodec, a.byWordLength, a.ui32SamplingRate) = (b.cCodec, b.byWordLength, b.ui32SamplingRate) ∧
    a.ui32RTPTimestampOffset = b.ui32RTPTimestampOffset ∧ a.ui32MaxSamplesPerPacket = b.ui32MaxSamplesPerPacket := by
  constructor
  · rintro rfl
    exact ⟨rfl, rfl, rfl, rfl, rfl⟩
  · rintro ⟨hfixed, hconnection, hformat, hoffset, hsamples⟩
    cases a
    cases b
    simp only [fixedPart, TRTPStreamInfo.mk.injEq, Prod.mk.injEq] at hfixed hconnection hformat hoffset hsamples ⊢
    tauto

variable {a b : TRTPStreamInfo}

theorem sets_connection : Sets LegWrite.apply (fun s => (s.ui32DestIP, s.byTTL)) (·.group = .connection) where
  set w a b hw := by cases w <;> first | rfl | cases hw
  keep w a hw := by cases w <;> first | rfl | exact absurd rfl hw

theorem sets_format : Sets LegWrite.apply (fun s => (s.cCodec, s.byWordLength, s.ui32SamplingRate)) (·.group = .format) where
  set w a b hw := by cases w <;> first | rfl | cases hw
  keep w a hw := by cases w <;> first | rfl | exact absurd rfl hw

theorem sets_offset : Sets LegWrite.apply (fun s => s.ui32RTPTimestampOffset) (·.group = .offset) where
  set w a b hw := by cases w <;> first | rfl | cases hw
  keep w a hw := by cases w <;> first | rfl | exact absurd rfl hw

theorem samples_keep {ws : List LegWrite} (hws : ∀ w ∈ ws, w.group ≠ .samples) (a : TRTPStreamInfo) :
    (a.replay ws).ui32MaxSamplesPerPacket = a.ui32MaxSamplesPerPacket := by
  refine foldl_keep (f := TRTPStreamInfo.ui32MaxSamplesPerPacket) (fun w hw a => ?_) a
  have hother := hws w hw
  cases w with
  | packetTime time => exact absurd rfl hother
  | opened port payload => rfl
  | connection destIP ttl => rfl
  | format codec word rate => rfl
  | offset n => rfl

theorem replay_fixedPart (ws : List LegWrite) (h : a.fixedPart = b.fixedPart) :
    (a.replay ws).fixedPart = (b.replay ws).fixedPart := by
  induction ws generalizing a b with
  | nil => exact h
  | cons w ws ih =>
      refine ih ?_
      cases w with
      | opened port payload => exact congrArg (fun s : TRTPStreamInfo => { s with usDestPort := port, byPayloadType := payload }) h
      | connection destIP ttl => exact h
      | format codec word rate => exact h
      | offset n => exact h
      | packetTime time => exact h

/-- The number of samples after a last packet time. -/
theorem samples_replay {before after : List LegWrite} {time : UInt32 → UInt32} (hafter : ∀ w ∈ after, w.group ≠ .samples)
    (a : TRTPStreamInfo) : (a.replay (before ++ .packetTime time :: after)).ui32MaxSamplesPerPacket =
      time (a.replay before).ui32SamplingRate := by
  rw [replay, List.foldl_append, List.foldl_cons]
  exact samples_keep hafter _

/-- **Two records end up the same exactly when what is written makes up for their difference.** -/
theorem replay_eq_iff (ws : List LegWrite) (hfixed : a.fixedPart = b.fixedPart) :
    a.replay ws = b.replay ws ↔ Healed ws a b := by
  have hconnection := sets_connection.foldl_eq_iff ws a b
  have hformat := sets_format.foldl_eq_iff ws a b
  have hoffset := sets_offset.foldl_eq_iff ws a b
  -- the rate before the last packet time
  have hrate : ∀ before : List LegWrite, (∃ w ∈ before, w.group = .format) →
      (a.replay before).ui32SamplingRate = (b.replay before).ui32SamplingRate := by
    intro before hset
    have hsame := (sets_format.foldl_eq_iff before a b).mpr (.inr hset)
    exact (Prod.mk.inj (Prod.mk.inj hsame).2).2
  have hkept : ∀ {s : TRTPStreamInfo} (before : List LegWrite), (¬ ∃ w ∈ before, w.group = .format) →
      (s.replay before).ui32SamplingRate = s.ui32SamplingRate := by
    intro s before hset
    refine foldl_keep (f := TRTPStreamInfo.ui32SamplingRate) (fun w hw a => ?_) s
    exact congrArg (fun t => t.2.2) (sets_format.keep w a fun hformat => hset ⟨w, hw, hformat⟩)
  have hlast : ∀ before time after, ws = before ++ .packetTime time :: after → (∀ w ∈ after, w.group ≠ .samples) →
      ((a.replay ws).ui32MaxSamplesPerPacket = (b.replay ws).ui32MaxSamplesPerPacket ↔
        time a.ui32SamplingRate = time b.ui32SamplingRate ∨
          ∃ w ∈ before, w.group = .format) := by
    rintro before time after rfl hafter
    rw [samples_replay hafter, samples_replay hafter]
    by_cases hset : ∃ w ∈ before, w.group = .format
    · rw [hrate before hset]
      exact iff_of_true rfl (.inr hset)
    · rw [hkept before hset, hkept before hset]
      exact (or_iff_left hset).symm
  have hsamples : (a.replay ws).ui32MaxSamplesPerPacket = (b.replay ws).ui32MaxSamplesPerPacket ↔
      ((∀ w ∈ ws, w.group ≠ .samples) ∧ a.ui32MaxSamplesPerPacket = b.ui32MaxSamplesPerPacket) ∨
      ∃ before time after, ws = before ++ .packetTime time :: after ∧ (∀ w ∈ after, w.group ≠ .samples) ∧
        (time a.ui32SamplingRate = time b.ui32SamplingRate ∨
          ∃ w ∈ before, w.group = .format) := by
    constructor
    · intro hsame
      by_cases hset : ∃ w ∈ ws, w.group = .samples
      · obtain ⟨before, w, after, hws, hw, hafter⟩ := exists_last hset
        cases w with
        | packetTime time => exact .inr ⟨before, time, after, hws, hafter, (hlast before time after hws hafter).mp hsame⟩
        | opened port payload => cases hw
        | connection destIP ttl => cases hw
        | format codec word rate => cases hw
        | offset n => cases hw
      · have hnone : ∀ w ∈ ws, w.group ≠ .samples := fun w hw hgroup => hset ⟨w, hw, hgroup⟩
        rw [samples_keep hnone, samples_keep hnone] at hsame
        exact .inl ⟨hnone, hsame⟩
    · rintro (⟨hnone, hsame⟩ | ⟨before, time, after, hws, hafter, hheals⟩)
      · rw [samples_keep hnone, samples_keep hnone, hsame]
      · exact (hlast before time after hws hafter).mpr hheals
  rw [eq_iff_groups]
  constructor
  · rintro ⟨-, hc, hf, ho, hs⟩
    refine ⟨(hconnection.mp hc).imp_left Prod.mk.inj, (hformat.mp hf).imp_left fun heq => ?_, hoffset.mp ho, hsamples.mp hs⟩
    obtain ⟨hcodec, hrest⟩ := Prod.mk.inj heq
    exact ⟨hcodec, Prod.mk.inj hrest⟩
  · intro H
    refine ⟨replay_fixedPart ws hfixed, hconnection.mpr (H.connection.imp_left fun h => ?_),
      hformat.mpr (H.format.imp_left fun h => ?_), hoffset.mpr H.offset, hsamples.mpr H.samples⟩
    · exact Prod.ext h.1 h.2
    · exact Prod.ext h.1 (Prod.ext h.2.1 h.2.2)

end TRTPStreamInfo

/-- The writes to one of the legs. -/
def writesTo (ws : List (ℤ × LegWrite)) (first : Bool) : List LegWrite :=
  (ws.filter fun w => (w.1 = 0) = first).map Prod.snd

/-- Each leg gets its own writes. -/
theorem Legs.play_eq (l : Legs TRTPStreamInfo) (ws : List (ℤ × LegWrite)) :
    l.play ws = ⟨l.leg0.replay (writesTo ws true), l.leg1.replay (writesTo ws false)⟩ := by
  induction ws generalizing l with
  | nil => rfl
  | cons w ws ih =>
      rw [show l.play (w :: ws) = (l.write w).play ws from rfl, ih, Legs.write]
      by_cases hfirst : w.1 = 0
      · simp [hfirst, writesTo, TRTPStreamInfo.replay]
      · simp [hfirst, writesTo, TRTPStreamInfo.replay]

/-! ## Sections -/

/-- An `m=` line of another kind of media. -/
def OtherMedia (l : Text) : Prop :=
  ∃ val f0 f1 f2 f3 fs, trim l = 'm' :: '=' :: val ∧ splitBy (· = ' ') val = f0 :: f1 :: f2 :: f3 :: fs ∧
    f0 ≠ "audio".toList

/-- A line that can stand in a section. -/
def SectionLine (l : Text) : Prop := ∃ c ∈ ['c', 'b', 'a'], ∃ val, trim l = c :: '=' :: val

/-- A line at the media level, after the `m=` line of its section. -/
def MediaLevel (l : Text) : Prop := ∃ c ∈ ['i', 'c', 'b', 'k', 'a'], HasType c l

theorem SectionLine.mediaLevel {l : Text} (h : SectionLine l) : MediaLevel l := by
  obtain ⟨c, hc, hl⟩ := h
  refine ⟨c, ?_, hl⟩
  simp only [List.mem_cons, List.not_mem_nil, or_false] at hc ⊢
  rcases hc with hc | hc | hc
  · exact .inr (.inl hc)
  · exact .inr (.inr (.inl hc))
  · exact .inr (.inr (.inr (.inr hc)))

/-- A section of another kind of media. -/
def ForeignSection (ls : List Text) : Prop :=
  ∃ head body, ls = head :: body ∧ OtherMedia head ∧ ∀ l ∈ body, SectionLine l

namespace SdpParser
variable {host : Host} {ptp : Ptp} {p p' : SdpParser}

theorem stream_of_modifyStream {f : TRTPStreamInfo → TRTPStreamInfo} (h : p.modifyStream f = .ok p') :
    p' = p.swap p'.info.stream p'.dup := by
  obtain ⟨stream, -, rfl⟩ := modifyStream_eq_ok.mp h
  rfl

/-- A line of a section that does not open one changes the records and the flag for a group only. -/
theorem swap_of_section {l : Text} (hl : OtherMedia l ∨ MediaLevel l) (h : p.line host ptp l = .ok p') :
    p' = p.swap p'.info.stream p'.dup := by
  obtain ⟨c, val, htrim, hline⟩ := line_eq_ok h
  have htype : c ∈ ['m', 'i', 'c', 'b', 'k', 'a'] := by
    rcases hl with ⟨val', f0, f1, f2, f3, fs, htrim', -⟩ | ⟨c', hc', val', htrim'⟩
    · obtain ⟨rfl, -⟩ := List.cons.inj (htrim.symm.trans htrim')
      exact List.mem_cons_self
    · obtain ⟨rfl, -⟩ := List.cons.inj (htrim.symm.trans htrim')
      exact List.mem_cons_of_mem _ hc'
  cases hline with
  | ignored hc => rfl
  | origin hc horigin =>
      subst hc
      exact absurd htype (by decide)
  | time hc =>
      subst hc
      exact absurd htype (by decide)
  | attr hc hattribute =>
      cases attributed_attributeLine hattribute with
      | dup hp hval => rfl
      | noDup hp hval => rfl
      | written hp hwritten =>
          cases hwritten with
          | same => rfl
          | write hf hmodify => exact stream_of_modifyStream hmodify
  | media hc hmedia =>
      subst hc
      obtain ⟨f0, f1, f2, f3, fs, hval, ⟨-, rfl⟩ | ⟨haudio, -⟩⟩ := mediaLine_eq_ok hmedia
      · rfl
      · rcases hl with ⟨val', g0, g1, g2, g3, gs, htrim', hval', hother⟩ | ⟨c', hc', val', htrim'⟩
        · obtain ⟨-, htail⟩ := List.cons.inj (htrim.symm.trans htrim')
          obtain ⟨-, rfl⟩ := List.cons.inj htail
          obtain ⟨rfl, -⟩ := List.cons.inj (hval.symm.trans hval')
          exact absurd haudio hother
        · obtain ⟨rfl, -⟩ := List.cons.inj (htrim.symm.trans htrim')
          exact absurd hc' (by decide)
  | connection hc hconnection =>
      rcases connectionLine_eq_ok hconnection with ⟨-, rfl⟩ | ⟨-, f2, fs, destIP, ttl, -, -, -, -, hset⟩
      · rfl
      · unfold setConnection at hset
        dsimp only at hset
        split at hset
        · obtain rfl := Parsed.pure_eq_ok.mp hset
          rfl
        · exact stream_of_modifyStream hset

/-- And it opens no section. -/
theorem group_of_section {l : Text} (hl : OtherMedia l ∨ MediaLevel l) (p : SdpParser) :
    ∀ w ∈ p.writes host l, w.2.group ≠ .port := by
  have hoffset : ∀ value, ∀ w ∈ offsetWrite value, w.group ≠ .port := by
    intro value w hw
    obtain rfl := List.mem_singleton.mp hw
    exact LegGroup.noConfusion
  have hattribute : ∀ payload name value, ∀ w ∈ attributeWrite host payload name value, w.group ≠ .port := by
    intro payload name value w hw
    unfold attributeWrite at hw
    split at hw
    · unfold formatWrite at hw
      split at hw
      · split at hw
        · obtain rfl := List.mem_singleton.mp hw
          exact LegGroup.noConfusion
        · cases hw
      · cases hw
    split at hw
    · exact hoffset value w hw
    split at hw
    · cases hw
    split at hw
    · obtain ⟨time, -, rfl⟩ := Option.map_eq_some_iff.mp (Option.mem_toList.mp hw)
      exact LegGroup.noConfusion
    split at hw
    · unfold clockWrite at hw
      split at hw
      · split at hw
        · exact hoffset _ w hw
        · cases hw
      · cases hw
    · cases hw
  have hconnection : ∀ val, ∀ w ∈ connectionWrite val, w.group ≠ .port := by
    intro val w hw
    unfold connectionWrite at hw
    split at hw
    · obtain rfl := List.mem_singleton.mp hw
      exact LegGroup.noConfusion
    · cases hw
  intro w hw
  rcases hl with ⟨val, f0, f1, f2, f3, fs, htrim, hval, hother⟩ | ⟨c, hc, val, htrim⟩
  · simp only [writes, htrim, openedWrite, hval, if_neg hother, List.map_nil, ite_self] at hw
    cases hw
  · simp only [writes, htrim] at hw
    simp only [List.mem_cons, List.not_mem_nil, or_false] at hc
    rcases hc with rfl | rfl | rfl | rfl | rfl
    · cases hw
    · rw [if_neg (by decide), if_neg (by decide), if_pos rfl] at hw
      split at hw
      · obtain ⟨w', hw', hmem⟩ := List.mem_flatMap.mp hw
        rcases List.mem_pair.mp hmem with rfl | rfl
        · exact hconnection val w' hw'
        · exact hconnection val w' hw'
      · cases hw
      · obtain ⟨w', hw', rfl⟩ := List.mem_map.mp hw
        exact hconnection val w' hw'
    · cases hw
    · cases hw
    · rw [if_pos rfl] at hw
      split at hw
      · obtain ⟨w', hw', rfl⟩ := List.mem_map.mp hw
        exact hattribute _ _ _ w' hw'
      · cases hw

/-- Writes that open no section leave the fixed parts alone. -/
theorem fixedPart_of_group {ws : List LegWrite} (hws : ∀ w ∈ ws, w.group ≠ .port) (s : TRTPStreamInfo) :
    (s.replay ws).fixedPart = s.fixedPart := by
  refine foldl_keep (f := TRTPStreamInfo.fixedPart) (fun w hw a => ?_) s
  have hother := hws w hw
  cases w with
  | opened port payload => exact absurd rfl hother
  | connection destIP ttl => rfl
  | format codec word rate => rfl
  | offset n => rfl
  | packetTime time => rfl

theorem payloads_of_group {ws : List (ℤ × LegWrite)} (hws : ∀ w ∈ ws, w.2.group ≠ .port) (l : Legs TRTPStreamInfo) :
    (l.play ws).payloads = l.payloads := by
  have hleg : ∀ first (s : TRTPStreamInfo), (s.replay (writesTo ws first)).byPayloadType = s.byPayloadType := by
    intro first s
    have hfixed : (s.replay (writesTo ws first)).fixedPart = s.fixedPart := by
      refine fixedPart_of_group (fun w hw => ?_) s
      obtain ⟨w', hw', rfl⟩ := List.mem_map.mp hw
      exact hws w' (List.mem_filter.mp hw').1
    have hpayload : (s.replay (writesTo ws first)).fixedPart.byPayloadType = s.fixedPart.byPayloadType := by rw [hfixed]
    exact hpayload
  rw [Legs.play_eq]
  exact congrArg₂ Legs.mk (hleg true l.leg0) (hleg false l.leg1)

/-- **A section is read line by line in the state in which it starts.** -/
theorem section_lines {sec : List Text} (hsec : ∀ l ∈ sec, OtherMedia l ∨ MediaLevel l) (hmid : p.mid < mediaMax)
    {legs : Legs TRTPStreamInfo} (hlegs : legs.payloads = p.info.stream.payloads) (dup : Bool) (q : SdpParser) :
    (p.swap legs dup).lines host ptp sec = .ok q ↔ (∀ l ∈ sec, ∃ p', p.line host ptp l = .ok p') ∧
      q = p.swap (legs.play (sec.flatMap (p.writes host))) (dup || sec.any p.announcesGroup) := by
  induction sec generalizing legs dup with
  | nil =>
      rw [lines, Parsed.pure_eq_ok]
      simp [eq_comm]
  | cons l ls ih =>
      have hl := hsec l List.mem_cons_self
      have hopen : (p.swap legs dup).mid < mediaMax := hmid
      rw [lines, if_pos hopen, Parsed.bind_eq_ok]
      -- the line with these records and with the ones of the start
      have hhere : ∀ {p'}, p.line host ptp l = .ok p' → (p.swap legs dup).line host ptp l =
          .ok (p.swap (legs.play (p.writes host l)) (dup || p.announcesGroup l)) := by
        intro p' hp'
        rw [swap_line hlegs hp', swap_of_section hl hp']
        rfl
      have hthere : ∀ {p'}, (p.swap legs dup).line host ptp l = .ok p' → ∃ p'', p.line host ptp l = .ok p'' := by
        intro p' hp'
        have hback : ((p.swap legs dup).swap p.info.stream p.dup).line host ptp l = _ := swap_line hlegs.symm hp'
        exact ⟨_, hback⟩
      have hnext : (legs.play (p.writes host l)).payloads = p.info.stream.payloads := by
        rw [payloads_of_group (group_of_section hl p), hlegs]
      have hrest := fun dup => ih (fun l' hl' => hsec l' (List.mem_cons_of_mem _ hl')) hnext dup
      rw [List.forall_mem_cons, List.flatMap_cons, List.any_cons, ← Bool.or_assoc]
      constructor
      · rintro ⟨p', hp', h⟩
        obtain ⟨p'', hp''⟩ := hthere hp'
        obtain rfl := Except.ok.inj ((hhere hp'').symm.trans hp')
        obtain ⟨hall, rfl⟩ := (hrest _).mp h
        refine ⟨⟨⟨p'', hp''⟩, hall⟩, ?_⟩
        rw [Legs.play_append]
      · rintro ⟨⟨⟨p', hp'⟩, hall⟩, rfl⟩
        refine ⟨_, hhere hp', (hrest _).mpr ⟨hall, ?_⟩⟩
        rw [Legs.play_append]

/-- The loop, from a point on. -/
theorem lines_append_iff {ls ls' : List Text} :
    p.lines host ptp (ls ++ ls') = .ok p' ↔ ∃ q, p.lines host ptp ls = .ok q ∧ q.lines host ptp ls' = .ok p' := by
  refine ⟨lines_append_eq_ok, ?_⟩
  rintro ⟨q, hq, h⟩
  induction ls generalizing p with
  | nil =>
      obtain rfl := Parsed.pure_eq_ok.mp hq
      exact h
  | cons l ls ih =>
      rw [List.cons_append, lines]
      rw [lines] at hq
      split at hq
      · rename_i hopen
        obtain ⟨p₁, hp₁, hq⟩ := Parsed.bind_eq_ok.mp hq
        rw [if_pos hopen]
        exact Parsed.bind_eq_ok.mpr ⟨p₁, hp₁, ih hq⟩
      · rename_i hopen
        obtain rfl := Parsed.pure_eq_ok.mp hq
        rw [if_neg hopen]
        rwa [lines_of_stopped hopen] at h

/-! ## Where a section does no harm -/

/-- The lines of a section are accepted where it starts, what it writes is made up for by
what follows, and it announces no group, or the announcement makes no difference. -/
structure Ignores (host : Host) (ptp : Ptp) (p : SdpParser) (sec post : List Text) : Prop where
  accepted : ∀ l ∈ sec, ∃ p', p.line host ptp l = .ok p'
  leg0 : Healed (writesTo (p.allWrites host ptp post) true) p.info.stream.leg0
    (p.info.stream.leg0.replay (writesTo (sec.flatMap (p.writes host)) true))
  leg1 : Healed (writesTo (p.allWrites host ptp post) false) p.info.stream.leg1
    (p.info.stream.leg1.replay (writesTo (sec.flatMap (p.writes host)) false))
  group : sec.any p.announcesGroup = true → ∀ r, p.lines host ptp post = .ok r → 0 < r.mid →
    r.dup = true ∨ r.info.st20227Enabled = true

/-- What comes out of a description in which a section has been inserted. -/
theorem ignores_iff {sec post : List Text} {r : SdpParser} (hsec : ∀ l ∈ sec, OtherMedia l ∨ MediaLevel l)
    (hmid : p.mid < mediaMax) (hr : p.lines host ptp post = .ok r) :
    (∃ r', p.lines host ptp (sec ++ post) = .ok r' ∧ r'.finish.stream = r.finish.stream ∧
      r'.finish.st20227Enabled = r.finish.st20227Enabled) ↔ p.Ignores host ptp sec post := by
  have hflag : ∀ q : SdpParser, q.finish.st20227Enabled = (q.dup && decide (0 < q.mid) || q.info.st20227Enabled) := by
    intro q
    unfold finish
    split
    · rename_i hdup
      simp [hdup]
    · rename_i hdup
      cases hd : q.dup <;> simp_all
  obtain ⟨hrstream, hrdup⟩ := lines_writes hr
  set ws := sec.flatMap (p.writes host) with hws
  have hgroup : ∀ w ∈ ws, w.2.group ≠ .port := by
    intro w hw
    obtain ⟨l, hl, hw⟩ := List.mem_flatMap.mp hw
    exact group_of_section (hsec l hl) p w hw
  have hfixed : ∀ first (s : TRTPStreamInfo), s.fixedPart = (s.replay (writesTo ws first)).fixedPart := by
    intro first s
    refine (fixedPart_of_group (fun w hw => ?_) s).symm
    obtain ⟨w', hw', rfl⟩ := List.mem_map.mp hw
    exact hgroup w' (List.mem_filter.mp hw').1
  -- the rest after the section
  have hafter : ∀ dup, (p.swap (p.info.stream.play ws) dup).lines host ptp post =
      .ok (r.swap ((p.info.stream.play ws).play (p.allWrites host ptp post)) (dup || p.announcesAnyGroup host ptp post)) :=
    fun dup => lines_swap (payloads_of_group hgroup _) hr
  have hwhole : ∀ r', p.lines host ptp (sec ++ post) = .ok r' ↔ (∀ l ∈ sec, ∃ p', p.line host ptp l = .ok p') ∧
      r' = r.swap ((p.info.stream.play ws).play (p.allWrites host ptp post))
        ((p.dup || sec.any p.announcesGroup) || p.announcesAnyGroup host ptp post) := by
    intro r'
    rw [lines_append_iff]
    have hsection : ∀ q, p.lines host ptp sec = .ok q ↔ (∀ l ∈ sec, ∃ p', p.line host ptp l = .ok p') ∧
        q = p.swap (p.info.stream.play ws) (p.dup || sec.any p.announcesGroup) :=
      fun q => section_lines hsec hmid rfl p.dup q
    constructor
    · rintro ⟨q, hq, h⟩
      obtain ⟨hall, rfl⟩ := (hsection q).mp hq
      exact ⟨hall, Except.ok.inj (h.symm.trans (hafter _))⟩
    · rintro ⟨hall, rfl⟩
      exact ⟨_, (hsection _).mpr ⟨hall, rfl⟩, hafter _⟩
  -- both legs end up the same
  have hlegs : (p.info.stream.play ws).play (p.allWrites host ptp post) = r.info.stream ↔
      Healed (writesTo (p.allWrites host ptp post) true) p.info.stream.leg0 (p.info.stream.leg0.replay (writesTo ws true)) ∧
      Healed (writesTo (p.allWrites host ptp post) false) p.info.stream.leg1 (p.info.stream.leg1.replay (writesTo ws false)) := by
    rw [hrstream, eq_comm, Legs.play_eq, Legs.play_eq, Legs.play_eq, Legs.mk.injEq,
      TRTPStreamInfo.replay_eq_iff _ (hfixed true _), TRTPStreamInfo.replay_eq_iff _ (hfixed false _)]
  have hswapped : ∀ legs dup, (r.swap legs dup).finish.st20227Enabled =
      (dup && decide (0 < r.mid) || r.info.st20227Enabled) := fun legs dup => hflag _
  have hrdup : r.dup = (p.dup || p.announcesAnyGroup host ptp post) := hrdup
  constructor
  · rintro ⟨r', hr', hsame, hsameFlag⟩
    obtain ⟨hall, rfl⟩ := (hwhole r').mp hr'
    rw [finish_stream, finish_stream] at hsame
    obtain ⟨h0, h1⟩ := hlegs.mp hsame
    refine ⟨hall, h0, h1, fun hgroups r₂ hr₂ hsecond => ?_⟩
    obtain rfl := Except.ok.inj (hr.symm.trans hr₂)
    rw [hswapped, hflag, hgroups, decide_eq_true hsecond, Bool.or_true, Bool.true_or, Bool.true_and, Bool.true_or,
      Bool.and_true] at hsameFlag
    exact Bool.or_eq_true_iff.mp hsameFlag.symm
  · intro H
    refine ⟨_, (hwhole _).mpr ⟨H.accepted, rfl⟩, ?_, ?_⟩
    · rw [finish_stream, finish_stream]
      exact hlegs.mpr ⟨H.leg0, H.leg1⟩
    · rw [hswapped, hflag]
      cases hgroups : sec.any p.announcesGroup with
      | false => rw [Bool.or_false, hrdup]
      | true =>
          by_cases hsecond : 0 < r.mid
          · have hyes := Bool.or_eq_true_iff.mpr (H.group hgroups r hr hsecond)
            rw [decide_eq_true hsecond, Bool.and_true, Bool.and_true, hyes, Bool.or_true, Bool.true_or, Bool.true_or]
          · rw [decide_eq_false hsecond, Bool.and_false, Bool.and_false]

end SdpParser

/-- **A section of another kind can be inserted exactly where it does no harm**: where the
loop has ended already, or where the parser ignores it. -/
theorem foreign_ignored_iff {host : Host} {ptp : Ptp} {info info' : StreamInfo} {sdp sdp' : Text} {pre sec post : List Text}
    (hlines : getLines sdp = pre ++ post) (hlines' : getLines sdp' = pre ++ sec ++ post) (hsec : ForeignSection sec)
    (hparse : parseSdp host ptp sdp info = .ok info') :
    (∃ info'', parseSdp host ptp sdp' info = .ok info'' ∧ info''.stream = info'.stream ∧
      info''.st20227Enabled = info'.st20227Enabled) ↔
      ∀ p, SdpParser.lines host ptp { info := info } pre = .ok p → p.mid < SdpParser.mediaMax →
        p.Ignores host ptp sec post := by
  have hforeign : ∀ l ∈ sec, OtherMedia l ∨ MediaLevel l := by
    obtain ⟨head, body, rfl, hhead, hbody⟩ := hsec
    intro l hl
    rcases List.mem_cons.mp hl with rfl | hl
    · exact .inl hhead
    · exact .inr (hbody l hl).mediaLevel
  obtain ⟨r, hr, hfinish⟩ := Parsed.bind_eq_ok.mp hparse
  obtain rfl := Parsed.pure_eq_ok.mp hfinish
  rw [hlines] at hr
  obtain ⟨p, hp, hr⟩ := SdpParser.lines_append_iff.mp hr
  have hresult : ∀ info'', parseSdp host ptp sdp' info = .ok info'' ↔
      ∃ r', p.lines host ptp (sec ++ post) = .ok r' ∧ r'.finish = info'' := by
    intro info''
    rw [parseSdp, hlines', List.append_assoc, Parsed.bind_eq_ok]
    constructor
    · rintro ⟨r', hr', hfinish⟩
      obtain ⟨q, hq, hr'⟩ := SdpParser.lines_append_iff.mp hr'
      obtain rfl := Except.ok.inj (hp.symm.trans hq)
      exact ⟨r', hr', Parsed.pure_eq_ok.mp hfinish⟩
    · rintro ⟨r', hr', hfinish⟩
      exact ⟨r', SdpParser.lines_append_iff.mpr ⟨p, hp, hr'⟩, Parsed.pure_eq_ok.mpr hfinish⟩
  have hthis : (∀ q, SdpParser.lines host ptp { info := info } pre = .ok q → q.mid < SdpParser.mediaMax →
      q.Ignores host ptp sec post) ↔ (p.mid < SdpParser.mediaMax → p.Ignores host ptp sec post) := by
    constructor
    · intro hall
      exact hall p hp
    · intro H q hq
      obtain rfl := Except.ok.inj (hp.symm.trans hq)
      exact H
  rw [hthis]
  by_cases hmid : p.mid < SdpParser.mediaMax
  · rw [forall_prop_of_true hmid, ← SdpParser.ignores_iff hforeign hmid hr]
    constructor
    · rintro ⟨info'', hparse', hstream, hflag⟩
      obtain ⟨r', hr', rfl⟩ := (hresult info'').mp hparse'
      exact ⟨r', hr', hstream, hflag⟩
    · rintro ⟨r', hr', hstream, hflag⟩
      exact ⟨r'.finish, (hresult _).mpr ⟨r', hr', rfl⟩, hstream, hflag⟩
  · refine iff_of_true ?_ fun hopen => absurd hopen hmid
    -- the loop has ended
    obtain rfl := Except.ok.inj ((SdpParser.lines_of_stopped hmid post).symm.trans hr)
    exact ⟨p.finish, (hresult _).mpr ⟨p, SdpParser.lines_of_stopped hmid _, rfl⟩, rfl, rfl⟩

/-! ### Sample descriptions -/

/-- The lines before the first section. -/
def sessionLines : List Text := ["v=0".toList, "o=- 1 1 IN IP4 10.0.0.9".toList, "s=a".toList, "t=0 0".toList]

/-- A section for audio. -/
def audioSection : List Text :=
  ["m=audio 5004 RTP/AVP 98".toList, "c=IN IP4 239.1.0.1/15".toList, "a=rtpmap:98 L16/48000/2".toList]

/-- A section for video. -/
def videoSection : List Text := ["m=video 5010 RTP/AVP 96".toList, "c=IN IP4 239.9.9.9/15".toList]

theorem videoSection_foreign : ForeignSection videoSection := by
  refine ⟨_, _, rfl, ⟨"video 5010 RTP/AVP 96".toList, "video".toList, "5010".toList, "RTP/AVP".toList, "96".toList, [],
    by decide +kernel, by decide +kernel, by decide⟩, fun l hl => ?_⟩
  obtain rfl := List.mem_singleton.mp hl
  exact ⟨'c', by decide, "IN IP4 239.9.9.9/15".toList, by decide +kernel⟩

/-- The video comes before the audio. -/
theorem foreign_ignored_before : ∃ info', parseSdp {} {} (unlines (sessionLines ++ audioSection)) {} = .ok info' ∧
    ((∃ info'', parseSdp {} {} (unlines (sessionLines ++ videoSection ++ audioSection)) {} = .ok info'' ∧
        info''.stream = info'.stream ∧ info''.st20227Enabled = info'.st20227Enabled) ↔
      ∀ p, SdpParser.lines {} {} { info := {} } sessionLines = .ok p → p.mid < SdpParser.mediaMax →
        p.Ignores {} {} videoSection audioSection) := by
  have hok : (parseSdp {} {} (unlines (sessionLines ++ audioSection)) {}).toOption.isSome = true := by decide +kernel
  obtain ⟨info', hinfo⟩ := Option.isSome_iff_exists.mp hok
  have hparse := Parsed.toOption_eq_some.mp hinfo
  exact ⟨info', hparse, foreign_ignored_iff (by decide +kernel) (by decide +kernel) videoSection_foreign hparse⟩

/-- The video comes after the audio: the sink listens to the video. -/
theorem video_taken : ∃ info' info'', ForeignSection videoSection ∧
    parseSdp {} {} (unlines (sessionLines ++ audioSection)) {} = .ok info' ∧
    parseSdp {} {} (unlines (sessionLines ++ audioSection ++ videoSection)) {} = .ok info'' ∧
    info'.stream.leg0.ui32DestIP = 0xef010001 ∧ info''.stream.leg0.ui32DestIP = 0xef090909 := by
  have hfirst : (parseSdp {} {} (unlines (sessionLines ++ audioSection)) {}).toOption.map
      (fun info => info.stream.leg0.ui32DestIP) = some 0xef010001 := by decide +kernel
  have hsecond : (parseSdp {} {} (unlines (sessionLines ++ audioSection ++ videoSection)) {}).toOption.map
      (fun info => info.stream.leg0.ui32DestIP) = some 0xef090909 := by decide +kernel
  obtain ⟨info', hinfo', hdest'⟩ := Option.map_eq_some_iff.mp hfirst
  obtain ⟨info'', hinfo'', hdest''⟩ := Option.map_eq_some_iff.mp hsecond
  exact ⟨info', info'', videoSection_foreign, Parsed.toOption_eq_some.mp hinfo', Parsed.toOption_eq_some.mp hinfo'',
    hdest', hdest''⟩

end Aes67Daemon
