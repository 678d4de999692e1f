import Aes67Daemon.Session.SdpSections

/-!
# The order of attributes

The attributes of an audio section are read one after the other, and the packet time is
turned into samples of the rate read so far.  So a description with the same attributes in
another order is accepted or rejected like the first one, and what is read of it is the same
but for the number of samples of a packet.

## Main definitions

* `Reordered` — the attributes of each section in another order.
* `OneEach` — each attribute once in each section.
* `SdpParser.Steady` — where the rate before a section and the rate it gives make the same
  number of samples.
* `orderFree_iff` — when the order makes no difference.
-/
namespace Aes67Daemon

open Text

/-- What follows an `m=` line in its section. -/
def sectionBody (ls : List Text) : List Text := ls.takeWhile fun l => MediaLevel l

/-- A description with the attributes of each section in another order. -/
inductive Reordered : List Text → List Text → Prop
  | nil : Reordered [] []
  | line (l : Text) {ls ls' : List Text} (h : Reordered ls ls') : Reordered (l :: ls) (l :: ls')
  | attributes (m : Text) {sec sec' ls ls' : List Text} (hm : HasType 'm' m) (hsec : ∀ l ∈ sec, MediaLevel l)
    (hperm : Permuted sec sec') (h : Reordered ls ls') : Reordered (m :: (sec ++ ls)) (m :: (sec' ++ ls'))

/-- Each section has. -/
def OneEach : List Text → Prop
  | [] => True
  | l :: ls => (HasType 'm' l → OneEachIn (sectionBody ls)) ∧ OneEach ls

instance decidableOneEach : (ls : List Text) → Decidable (OneEach ls)
  | [] => isTrue trivial
  | l :: ls =>
    have := decidableOneEach ls
    inferInstanceAs (Decidable ((HasType 'm' l → OneEachIn (sectionBody ls)) ∧ OneEach ls))

/-- A description is read the same in every order of the attributes of its sections: accepted or
not, and with the same result. -/
def OrderFree (host : Host) (ptp : Ptp) (sdp : Text) (info : StreamInfo) : Prop :=
  ∀ sdp', Reordered (getLines sdp) (getLines sdp') →
    (parseSdp host ptp sdp' info).toOption = (parseSdp host ptp sdp info).toOption

/-- One of the legs. -/
def Legs.pick {α : Type} (l : Legs α) (first : Bool) : α := if first then l.leg0 else l.leg1

namespace SdpParser

/-- The packet time is read again on a leg. -/
def Retimed (host : Host) (ptp : Ptp) (p : SdpParser) (ls : List Text) (first : Bool) : Prop :=
  ∃ w ∈ writesTo (p.allWrites host ptp ls) first, w.group = .samples

/-- The packet time of the section that starts here is as many samples at the rate that its leg has
as it is at the rate that the section gives, or it is read again later. -/
def SameSamples (host : Host) (ptp : Ptp) (p : SdpParser) (sec post : List Text) : Prop :=
  ∀ first codec word rate time, .format codec word rate ∈ p.sectionWrites host sec first →
    .packetTime time ∈ p.sectionWrites host sec first →
    time (p.info.stream.pick first).ui32SamplingRate = time rate ∨
      ∃ q, p.lines host ptp sec = .ok q ∧ q.Retimed host ptp post first

/-- So it is in each section. -/
def Steady (host : Host) (ptp : Ptp) (p : SdpParser) (lines : List Text) : Prop :=
  ∀ pre m sec post q, lines = pre ++ m :: (sec ++ post) → HasType 'm' m → (∀ l ∈ sec, MediaLevel l) →
    p.lines host ptp (pre ++ [m]) = .ok q → q.mid < mediaMax → q.SameSamples host ptp sec post

end SdpParser

/-! ## Lists of lines -/

namespace Reordered
variable {ls ls' : List Text}

theorem refl (ls : List Text) : Reordered ls ls := by
  induction ls with
  | nil => exact .nil
  | cons l ls ih => exact .line l ih

theorem prepend (pre : List Text) (h : Reordered ls ls') : Reordered (pre ++ ls) (pre ++ ls') := by
  induction pre with
  | nil => exact h
  | cons l pre ih => exact .line l ih

theorem symm (h : Reordered ls ls') : Reordered ls' ls := by
  induction h with
  | nil => exact .nil
  | line l h ih => exact .line l ih
  | attributes m hm hsec hperm h ih =>
      exact .attributes m hm (fun l hl => hsec l (hperm.1.mem_iff.mpr hl)) hperm.symm ih

theorem perm (h : Reordered ls ls') : ls.Perm ls' := by
  induction h with
  | nil => exact List.Perm.nil
  | line l h ih => exact ih.cons l
  | attributes m hm hsec hperm h ih => exact (hperm.1.append ih).cons m

end Reordered

theorem not_mediaLevel {m : Text} (hm : HasType 'm' m) : ¬ MediaLevel m := by
  rintro ⟨c, hc, val, htrim⟩
  obtain ⟨val', htrim'⟩ := hm
  obtain ⟨rfl, -⟩ := List.cons.inj (htrim.symm.trans htrim')
  exact absurd hc (by decide)

theorem sectionBody_append {sec : List Text} (hsec : ∀ l ∈ sec, MediaLevel l) (ls : List Text) :
    sectionBody (sec ++ ls) = sec ++ sectionBody ls :=
  List.takeWhile_append_of_pos fun l hl => decide_eq_true (hsec l hl)

theorem sectionBody_of_media {m : Text} (hm : HasType 'm' m) (ls : List Text) : sectionBody (m :: ls) = [] :=
  List.takeWhile_cons_of_neg (by simpa using not_mediaLevel hm)

/-- The first section keeps its lines. -/
theorem Reordered.perm_sectionBody {ls ls' : List Text} (h : Reordered ls ls') :
    (sectionBody ls).Perm (sectionBody ls') := by
  induction h with
  | nil => exact List.Perm.nil
  | line l h ih =>
      unfold sectionBody at ih ⊢
      rw [List.takeWhile_cons, List.takeWhile_cons]
      split
      · exact ih.cons l
      · exact List.Perm.nil
  | attributes m hm hsec hperm h ih => rw [sectionBody_of_media hm, sectionBody_of_media hm]

/-- A first part of a section. -/
theorem OneEachIn.left {sec sec' : List Text} (h : OneEachIn (sec ++ sec')) : OneEachIn sec := by
  obtain ⟨hnodup, hclocks⟩ := h
  rw [List.filterMap_append] at hnodup hclocks
  exact ⟨(List.nodup_append.mp hnodup).1,
    fun hboth => hclocks ⟨List.mem_append_left _ hboth.1, List.mem_append_left _ hboth.2⟩⟩

theorem OneEach.append {sec ls : List Text} (hsec : ∀ l ∈ sec, MediaLevel l) : OneEach (sec ++ ls) ↔ OneEach ls := by
  induction sec with
  | nil => rfl
  | cons l sec ih =>
      have hl := hsec l List.mem_cons_self
      have hrest := ih fun l' hl' => hsec l' (List.mem_cons_of_mem _ hl')
      constructor
      · intro h
        exact hrest.mp h.2
      · intro h
        exact ⟨fun hm => absurd hl (not_mediaLevel hm), hrest.mpr h⟩

theorem Reordered.oneEach {ls ls' : List Text} (h : Reordered ls ls') (hone : OneEach ls) : OneEach ls' := by
  induction h with
  | nil => exact hone
  | line l h ih => exact ⟨fun hm => (hone.1 hm).perm h.perm_sectionBody, ih hone.2⟩
  | attributes m hm hsec hperm h ih =>
      have hsec' : ∀ l ∈ _, MediaLevel l := fun l hl => hsec l (hperm.1.mem_iff.mpr hl)
      have hbody := hone.1 hm
      rw [sectionBody_append hsec] at hbody
      refine ⟨fun _ => ?_, (OneEach.append hsec').mpr (ih ((OneEach.append hsec).mp hone.2))⟩
      rw [sectionBody_append hsec']
      exact hbody.perm (hperm.1.append h.perm_sectionBody)

namespace SdpParser
variable {host : Host} {ptp : Ptp} {p p' q : SdpParser} {sec sec' : List Text} {first : Bool}

/-! ## Two orders read side by side -/

/-- Records that are the same but for the number of samples. -/
def Similar (legs : Legs TRTPStreamInfo) (p : SdpParser) : Prop :=
  ∀ first, (legs.pick first).unsampled = (p.info.stream.pick first).unsampled

variable {legs : Legs TRTPStreamInfo} {ls ls' : List Text} {r : SdpParser}

theorem Similar.payloads (h : Similar legs p) : legs.payloads = p.info.stream.payloads := by
  have hleg : ∀ first, (legs.pick first).byPayloadType = (p.info.stream.pick first).byPayloadType := by
    intro first
    have hpayload : (legs.pick first).unsampled.byPayloadType = (p.info.stream.pick first).unsampled.byPayloadType := by
      rw [h first]
    exact hpayload
  exact congrArg₂ Legs.mk (hleg true) (hleg false)

theorem pick_play (l : Legs TRTPStreamInfo) (ws : List (ℤ × LegWrite)) (first : Bool) :
    (l.play ws).pick first = (l.pick first).replay (writesTo ws first) := by
  rw [Legs.play_eq]
  cases first <;> rfl

theorem eq_of_pick {l l' : Legs TRTPStreamInfo} (h : ∀ first, l.pick first = l'.pick first) : l = l' :=
  congrArg₂ Legs.mk (h true) (h false)

/-- **The same line** from similar records. -/
theorem line_similar {l : Text} (hlegs : Similar legs p) (h : p.line host ptp l = .ok q) :
    ∃ legs₁, (p.swap legs p.dup).line host ptp l = .ok (q.swap legs₁ q.dup) ∧ Similar legs₁ q ∧
      ∀ first, (legs.pick first = p.info.stream.pick first ∨ ∃ w ∈ writesTo (p.writes host l) first, w.group = .samples) →
        legs₁.pick first = q.info.stream.pick first := by
  obtain ⟨hstream, hdup⟩ := line_writes h
  refine ⟨legs.play (p.writes host l), ?_, ?_, ?_⟩
  · rw [swap_line hlegs.payloads h, hdup]
  · intro first
    rw [hstream, pick_play, pick_play]
    exact TRTPStreamInfo.unsampled_replay_same (hlegs first) _
  · intro first hstart
    rw [hstream, pick_play, pick_play]
    exact (TRTPStreamInfo.replay_eq_iff_of_unsampled (hlegs first) _).mpr hstart

/-- **A section in another order** from similar records. -/
theorem section_similar (hsec : ∀ l ∈ sec, MediaLevel l) (hone : OneEachIn sec) (hperm : Permuted sec sec')
    (hmid : p.mid < mediaMax) (hlegs : Similar legs p) (h : p.lines host ptp sec = .ok q) :
    ∃ legs₁, (p.swap legs p.dup).lines host ptp sec' = .ok (q.swap legs₁ q.dup) ∧ Similar legs₁ q ∧
      ∀ first, (∀ codec word rate time, .format codec word rate ∈ p.sectionWrites host sec first →
          .packetTime time ∈ p.sectionWrites host sec first →
          time (p.info.stream.pick first).ui32SamplingRate = time rate) →
        (legs.pick first = p.info.stream.pick first ∨ ∃ w ∈ p.sectionWrites host sec first, w.group = .samples) →
        legs₁.pick first = q.info.stream.pick first := by
  have hsec' : ∀ l ∈ sec', MediaLevel l := fun l hl => hsec l (hperm.1.mem_iff.mpr hl)
  have hself : (p.swap p.info.stream p.dup).lines host ptp sec = .ok q := h
  obtain ⟨hall, rfl⟩ := (section_lines (fun l hl => .inr (hsec l hl)) hmid rfl p.dup q).mp hself
  have hany : sec.any p.announcesGroup = sec'.any p.announcesGroup := hperm.1.any_eq
  have hunsampled : ∀ first, ((legs.play (sec'.flatMap (p.writes host))).pick first).unsampled =
      ((p.info.stream.play (sec.flatMap (p.writes host))).pick first).unsampled := by
    intro first
    rw [pick_play, pick_play]
    exact (unsampled_replay hsec hone hperm (hlegs first).symm).symm
  refine ⟨legs.play (sec'.flatMap (p.writes host)), ?_, hunsampled, ?_⟩
  · refine (section_lines (fun l hl => .inr (hsec' l hl)) hmid hlegs.payloads p.dup _).mpr ⟨?_, ?_⟩
    · exact fun l hl => hall l (hperm.1.mem_iff.mpr hl)
    · rw [← hany]
      rfl
  · intro first hrates hstart
    refine TRTPStreamInfo.eq_of_unsampled (hunsampled first) ?_
    have hsamples := samples_eq hsec hone hperm (hlegs first).symm hrates
      (hstart.imp_left fun heq => congrArg TRTPStreamInfo.ui32MaxSamplesPerPacket heq.symm)
    show ((legs.play _).pick first).ui32MaxSamplesPerPacket = ((p.info.stream.play _).pick first).ui32MaxSamplesPerPacket
    rw [pick_play, pick_play]
    exact hsamples.symm

theorem allWrites_of_stopped (h : ¬ p.mid < mediaMax) (ls : List Text) : p.allWrites host ptp ls = [] := by
  cases ls with
  | nil => rfl
  | cons l ls => rw [allWrites, if_neg h]

theorem allWrites_append (h : p.lines host ptp ls = .ok q) (ls' : List Text) :
    p.allWrites host ptp (ls ++ ls') = p.allWrites host ptp ls ++ q.allWrites host ptp ls' := by
  induction ls generalizing p with
  | nil =>
      obtain rfl := Parsed.pure_eq_ok.mp h
      rfl
  | cons l ls ih =>
      by_cases hmid : p.mid < mediaMax
      · rw [lines, if_pos hmid] at h
        obtain ⟨p₁, hp₁, h⟩ := Parsed.bind_eq_ok.mp h
        rw [List.cons_append, allWrites, allWrites, if_pos hmid, if_pos hmid, hp₁]
        dsimp only
        rw [ih h, List.append_assoc]
      · obtain rfl := Except.ok.inj ((lines_of_stopped hmid _).symm.trans h)
        rw [allWrites_of_stopped hmid, allWrites_of_stopped hmid, allWrites_of_stopped hmid, List.append_nil]

theorem writes_swap (hlegs : legs.payloads = p.info.stream.payloads) (dup : Bool) (l : Text) :
    (p.swap legs dup).writes host l = p.writes host l := by
  have hpayload : (p.swap legs dup).payload = p.payload :=
    congrArg (fun o => o.getD 0) (Legs.payload_at? hlegs p.mid)
  unfold writes
  rw [hpayload]
  rfl

/-- The writes of a section are those of its lines in the state in which it starts. -/
theorem allWrites_section (hsec : ∀ l ∈ sec, MediaLevel l) (hmid : p.mid < mediaMax)
    (hlegs : legs.payloads = p.info.stream.payloads) (dup : Bool) (hall : ∀ l ∈ sec, ∃ p', p.line host ptp l = .ok p') :
    (p.swap legs dup).allWrites host ptp sec = sec.flatMap (p.writes host) := by
  induction sec generalizing legs dup with
  | nil => rfl
  | cons l sec ih =>
      have hl := hsec l List.mem_cons_self
      have hopen : (p.swap legs dup).mid < mediaMax := hmid
      obtain ⟨p', hp'⟩ := hall l List.mem_cons_self
      have hline : (p.swap legs dup).line host ptp l = .ok (p'.swap (legs.play (p.writes host l)) (dup || p.announcesGroup l)) :=
        swap_line hlegs hp'
      rw [swap_of_section (.inr hl) hp'] at hline
      have hnext : (legs.play (p.writes host l)).payloads = p.info.stream.payloads := by
        rw [payloads_of_group (group_of_section (.inr hl) p), hlegs]
      rw [allWrites, if_pos hopen, hline]
      dsimp only
      rw [writes_swap hlegs, List.flatMap_cons]
      congr 1
      exact ih (fun l' hl' => hsec l' (List.mem_cons_of_mem _ hl')) hnext _ fun l' hl' => hall l' (List.mem_cons_of_mem _ hl')

/-- A later part of the text. -/
theorem Steady.append (ls : List Text) (h : p.Steady host ptp (ls ++ ls')) (hls : p.lines host ptp ls = .ok q) :
    q.Steady host ptp ls' := by
  intro pre m sec post q' hsplit hm hsec hq' hmid
  refine h (ls ++ pre) m sec post q' (by rw [hsplit, List.append_assoc]) hm hsec ?_ hmid
  rw [List.append_assoc]
  exact lines_append_iff.mpr ⟨q, hls, hq'⟩

theorem lines_singleton {l : Text} (hmid : p.mid < mediaMax) (h : p.line host ptp l = .ok q) :
    p.lines host ptp [l] = .ok q := by
  rw [lines, if_pos hmid]
  exact Parsed.bind_eq_ok.mpr ⟨q, h, rfl⟩

/-- What is the same, or is read again, after a line. -/
theorem agrees_or_retimed_line {l : Text} {legs₁ : Legs TRTPStreamInfo} (hmid : p.mid < mediaMax)
    (hq : p.line host ptp l = .ok q)
    (hagree : (legs.pick first = p.info.stream.pick first ∨ ∃ w ∈ writesTo (p.writes host l) first, w.group = .samples) →
      legs₁.pick first = q.info.stream.pick first)
    (hstart : legs.pick first = p.info.stream.pick first ∨ p.Retimed host ptp (l :: ls) first) :
    legs₁.pick first = q.info.stream.pick first ∨ q.Retimed host ptp ls first := by
  rcases hstart with heq | ⟨w, hw, hgroup⟩
  · exact .inl (hagree (.inl heq))
  · rw [allWrites, if_pos hmid, hq] at hw
    dsimp only at hw
    rw [writesTo_append] at hw
    rcases List.mem_append.mp hw with hw | hw
    · exact .inl (hagree (.inr ⟨w, hw, hgroup⟩))
    · exact .inr ⟨w, hw, hgroup⟩

/-- **Two orders of a text** from similar records: the second one is accepted as well and leaves
similar records, and the same ones where the rates do not matter. -/
theorem reordered_lines (h : Reordered ls ls') (hone : OneEach ls) (hlegs : Similar legs p)
    (hr : p.lines host ptp ls = .ok r) :
    ∃ legs', (p.swap legs p.dup).lines host ptp ls' = .ok (r.swap legs' r.dup) ∧ Similar legs' r ∧
      (p.Steady host ptp ls → (∀ first, legs.pick first = p.info.stream.pick first ∨ p.Retimed host ptp ls first) →
        legs' = r.info.stream) := by
  -- where the loop has ended
  have hended : ∀ {p : SdpParser} {legs : Legs TRTPStreamInfo} {ls : List Text} (ls' : List Text), Similar legs p →
      ¬ p.mid < mediaMax → p.lines host ptp ls = .ok r →
      ∃ legs', (p.swap legs p.dup).lines host ptp ls' = .ok (r.swap legs' r.dup) ∧ Similar legs' r ∧
        (p.Steady host ptp ls → (∀ first, legs.pick first = p.info.stream.pick first ∨ p.Retimed host ptp ls first) →
          legs' = r.info.stream) := by
    intro p legs ls ls' hlegs hmid hr
    obtain rfl := Except.ok.inj ((lines_of_stopped hmid ls).symm.trans hr)
    refine ⟨legs, lines_of_stopped (p := p.swap legs p.dup) hmid ls', hlegs, fun _ hstart => eq_of_pick fun first => ?_⟩
    refine (hstart first).resolve_right ?_
    rintro ⟨w, hw, -⟩
    rw [allWrites_of_stopped hmid] at hw
    cases hw
  induction h generalizing p legs with
  | nil =>
      obtain rfl := Parsed.pure_eq_ok.mp hr
      refine ⟨legs, rfl, hlegs, fun _ hstart => eq_of_pick fun first => ?_⟩
      refine (hstart first).resolve_right ?_
      rintro ⟨w, hw, -⟩
      cases hw
  | @line l ls ls' h ih =>
      by_cases hmid : p.mid < mediaMax
      · rw [lines, if_pos hmid] at hr
        obtain ⟨q, hq, hr⟩ := Parsed.bind_eq_ok.mp hr
        obtain ⟨legs₁, hq', hlegs₁, hagree⟩ := line_similar hlegs hq
        obtain ⟨legs', hr', hlegs', hsame⟩ := ih hone.2 hlegs₁ hr
        refine ⟨legs', ?_, hlegs', fun hsteady hstart => hsame ?_ fun first => ?_⟩
        · rw [lines, if_pos (show (p.swap legs p.dup).mid < mediaMax from hmid), hq']
          exact hr'
        · exact Steady.append [l] hsteady (lines_singleton hmid hq)
        · exact agrees_or_retimed_line hmid hq (hagree first) (hstart first)
      · exact hended _ hlegs hmid hr
  | @attributes m sec sec' ls ls' hm hsec hperm h ih =>
      by_cases hmid : p.mid < mediaMax
      · rw [lines, if_pos hmid] at hr
        obtain ⟨q, hq, hr⟩ := Parsed.bind_eq_ok.mp hr
        obtain ⟨legs₁, hq', hlegs₁, hagree⟩ := line_similar hlegs hq
        have hfirst : (p.swap legs p.dup).lines host ptp (m :: (sec' ++ ls')) =
            (q.swap legs₁ q.dup).lines host ptp (sec' ++ ls') := by
          rw [lines, if_pos (show (p.swap legs p.dup).mid < mediaMax from hmid), hq']
          rfl
        rw [hfirst]
        by_cases hopen : q.mid < mediaMax
        · have hin : OneEachIn (sec ++ sectionBody ls) := sectionBody_append hsec ls ▸ hone.1 hm
          obtain ⟨r₁, hr₁, hr⟩ := lines_append_iff.mp hr
          obtain ⟨legs₂, hr₂, hlegs₂, hagree₂⟩ := section_similar hsec hin.left hperm hopen hlegs₁ hr₁
          obtain ⟨legs', hr', hlegs', hsame⟩ := ih ((OneEach.append hsec).mp hone.2) hlegs₂ hr
          refine ⟨legs', lines_append_iff.mpr ⟨_, hr₂, hr'⟩, hlegs', fun hsteady hstart => hsame ?_ fun first => ?_⟩
          · refine Steady.append (m :: sec) hsteady ?_
            exact lines_append_iff.mpr ⟨q, lines_singleton hmid hq, hr₁⟩
          · by_cases hlater : r₁.Retimed host ptp ls first
            · exact .inr hlater
            · left
              refine hagree₂ first (fun codec word rate time hformat htime => ?_) ?_
              · have hsamples := hsteady [] m sec ls q rfl hm hsec (lines_singleton hmid hq) hopen first codec word rate time
                  hformat htime
                refine hsamples.resolve_right ?_
                rintro ⟨r₁', hr₁', hretimed⟩
                obtain rfl := Except.ok.inj (hr₁.symm.trans hr₁')
                exact hlater hretimed
              · rcases agrees_or_retimed_line hmid hq (hagree first) (hstart first) with heq | ⟨w, hw, hgroup⟩
                · exact .inl heq
                · rw [allWrites_append hr₁, writesTo_append] at hw
                  rcases List.mem_append.mp hw with hw | hw
                  · refine .inr ⟨w, ?_, hgroup⟩
                    have hself : (q.swap q.info.stream q.dup).lines host ptp sec = .ok r₁ := hr₁
                    obtain ⟨hall, -⟩ := (section_lines (fun l hl => .inr (hsec l hl)) hopen rfl q.dup r₁).mp hself
                    have hwrites : q.allWrites host ptp sec = sec.flatMap (q.writes host) :=
                      allWrites_section hsec hopen rfl q.dup hall
                    rw [hwrites] at hw
                    exact hw
                  · exact absurd ⟨w, hw, hgroup⟩ hlater
        · obtain ⟨legs', hr', hlegs', hsame⟩ := hended (sec' ++ ls') hlegs₁ hopen hr
          refine ⟨legs', hr', hlegs', fun hsteady hstart => hsame ?_ fun first => ?_⟩
          · exact Steady.append [m] hsteady (lines_singleton hmid hq)
          · exact agrees_or_retimed_line hmid hq (hagree first) (hstart first)
      · exact hended _ hlegs hmid hr

end SdpParser

open SdpParser

variable {host : Host} {ptp : Ptp} {sdp : Text} {info : StreamInfo}

/-! ## When the order makes no difference -/

theorem OneEach.of_append {pre ls : List Text} (h : OneEach (pre ++ ls)) : OneEach ls := by
  induction pre with
  | nil => exact h
  | cons l pre ih => exact ih h.2

/-- A description in another order is accepted as well. -/
theorem parseSdp_reordered {sdp' : Text} (h : Reordered (getLines sdp) (getLines sdp')) (hone : OneEach (getLines sdp))
    {info' : StreamInfo} (hparse : parseSdp host ptp sdp info = .ok info') :
    ∃ info'', parseSdp host ptp sdp' info = .ok info'' ∧
      (Steady host ptp { info := info } (getLines sdp) → info'' = info') := by
  obtain ⟨r, hr, hfinish⟩ := Parsed.bind_eq_ok.mp hparse
  obtain rfl := Parsed.pure_eq_ok.mp hfinish
  have hstart : Similar info.stream { info := info } := fun _ => rfl
  obtain ⟨legs', hr', -, hsame⟩ := reordered_lines h hone hstart hr
  have hparse' : parseSdp host ptp sdp' info = .ok (r.swap legs' r.dup).finish := by
    have hlines : SdpParser.lines host ptp { info := info } (getLines sdp') = .ok (r.swap legs' r.dup) := hr'
    rw [parseSdp, hlines]
    rfl
  refine ⟨_, hparse', fun hsteady => ?_⟩
  rw [hsame hsteady fun _ => .inl rfl]
  rfl

/-- Where a text is read the same in every order, two orders of one section leave the same record,
or the packet time is read again. -/
theorem OrderFree.section (hfree : OrderFree host ptp sdp info) {info' : StreamInfo}
    (hparse : parseSdp host ptp sdp info = .ok info') {pre sec sec' post : List Text} {m : Text} {q : SdpParser}
    (hsplit : getLines sdp = pre ++ m :: (sec ++ post)) (hm : HasType 'm' m) (hsec : ∀ l ∈ sec, MediaLevel l)
    (hone : OneEachIn sec) (hperm : Permuted sec sec')
    (hq : SdpParser.lines host ptp { info := info } (pre ++ [m]) = .ok q) (hmid : q.mid < mediaMax) (first : Bool) :
    (q.info.stream.pick first).replay (q.sectionWrites host sec' first) =
        (q.info.stream.pick first).replay (q.sectionWrites host sec first) ∨
      ∃ r₁, q.lines host ptp sec = .ok r₁ ∧ r₁.Retimed host ptp post first := by
  have hsec' : ∀ l ∈ sec', MediaLevel l := fun l hl => hsec l (hperm.1.mem_iff.mpr hl)
  -- the other order as a text
  have hlines' : getLines (unlines (pre ++ m :: (sec' ++ post))) = pre ++ m :: (sec' ++ post) := by
    refine getLines_unlines fun l hl => ?_
    have hreordered : Reordered (pre ++ m :: (sec ++ post)) (pre ++ m :: (sec' ++ post)) :=
      (Reordered.attributes m hm hsec hperm (.refl post)).prepend pre
    rw [← hsplit] at hreordered
    exact not_mem_getLines (hreordered.perm.mem_iff.mpr hl)
  have hreordered : Reordered (getLines sdp) (getLines (unlines (pre ++ m :: (sec' ++ post)))) := by
    rw [hlines', hsplit]
    exact (Reordered.attributes m hm hsec hperm (.refl post)).prepend pre
  have hparse' := hfree _ hreordered
  rw [hparse] at hparse'
  obtain ⟨r', hr', hfinish'⟩ := Parsed.bind_eq_ok.mp (Parsed.toOption_eq_some.mp hparse')
  obtain ⟨r, hr, hfinish⟩ := Parsed.bind_eq_ok.mp hparse
  have hstream : r'.info.stream = r.info.stream := by
    rw [← finish_stream, ← finish_stream r, Parsed.pure_eq_ok.mp hfinish', Parsed.pure_eq_ok.mp hfinish]
  -- the two runs from the section on
  have hafter : ∀ sec : List Text, pre ++ m :: (sec ++ post) = (pre ++ [m]) ++ (sec ++ post) := by
    intro sec
    rw [List.append_assoc, List.singleton_append]
  rw [hsplit, hafter] at hr
  rw [hlines', hafter] at hr'
  obtain ⟨q₁, hq₁, hr⟩ := lines_append_iff.mp hr
  obtain ⟨q₂, hq₂, hr'⟩ := lines_append_iff.mp hr'
  obtain rfl := Except.ok.inj (hq.symm.trans hq₁)
  obtain rfl := Except.ok.inj (hq.symm.trans hq₂)
  obtain ⟨r₁, hr₁, hr⟩ := lines_append_iff.mp hr
  obtain ⟨r₂, hr₂, hr'⟩ := lines_append_iff.mp hr'
  have hrun : ∀ {sec r₁}, (∀ l ∈ sec, MediaLevel l) → q.lines host ptp sec = .ok r₁ →
      r₁ = q.swap (q.info.stream.play (sec.flatMap (q.writes host))) (q.dup || sec.any q.announcesGroup) := by
    intro sec r₁ hsec hr₁
    exact ((section_lines (p := q) (fun l hl => .inr (hsec l hl)) hmid rfl q.dup r₁).mp hr₁).2
  have hrest : r₂.lines host ptp post = .ok (r.swap (r₂.info.stream.play (r₁.allWrites host ptp post))
      (r₂.dup || r₁.announcesAnyGroup host ptp post)) := by
    have hr₂ := hrun hsec' hr₂
    have hr₁ := hrun hsec hr₁
    have hpayloads : r₂.info.stream.payloads = r₁.info.stream.payloads := by
      rw [hr₂, hr₁]
      show (Legs.play _ _).payloads = (Legs.play _ _).payloads
      rw [payloads_of_group, payloads_of_group]
      · intro w hw
        obtain ⟨l, hl, hw⟩ := List.mem_flatMap.mp hw
        exact group_of_section (.inr (hsec l hl)) q w hw
      · intro w hw
        obtain ⟨l, hl, hw⟩ := List.mem_flatMap.mp hw
        exact group_of_section (.inr (hsec' l hl)) q w hw
    have hself : r₁.swap r₂.info.stream r₂.dup = r₂ := by
      rw [hr₂, hr₁]
      rfl
    rw [← lines_swap hpayloads hr, hself]
  obtain rfl := Except.ok.inj (hr'.symm.trans hrest)
  have hpick := congrArg (fun l : Legs TRTPStreamInfo => l.pick first) hstream
  have hstream₁ : ∀ {sec r₁}, r₁ = q.swap (q.info.stream.play (sec.flatMap (q.writes host))) (q.dup || sec.any q.announcesGroup) →
      r₁.info.stream.pick first = (q.info.stream.pick first).replay (q.sectionWrites host sec first) := by
    rintro sec r₁ rfl
    exact pick_play _ _ first
  rw [(lines_writes hr).1] at hpick
  have hleg : ((q.info.stream.pick first).replay (q.sectionWrites host sec' first)).replay
      (writesTo (r₁.allWrites host ptp post) first) =
      ((q.info.stream.pick first).replay (q.sectionWrites host sec first)).replay
      (writesTo (r₁.allWrites host ptp post) first) := by
    rw [← hstream₁ (hrun hsec hr₁), ← hstream₁ (hrun hsec' hr₂), ← pick_play, ← pick_play]
    exact hpick
  have hunsampled : ((q.info.stream.pick first).replay (q.sectionWrites host sec' first)).unsampled =
      ((q.info.stream.pick first).replay (q.sectionWrites host sec first)).unsampled :=
    (unsampled_replay hsec hone hperm rfl).symm
  refine ((TRTPStreamInfo.replay_eq_iff_of_unsampled hunsampled _).mp hleg).imp_right fun hlater => ?_
  exact ⟨r₁, hr₁, hlater⟩

/-- Two attributes change places. -/
theorem permuted_swap {x y : Text} (hx : HasType 'a' x) (hy : HasType 'a' y) (s₁ s₂ s₃ : List Text) :
    Permuted (s₁ ++ x :: (s₂ ++ y :: s₃)) (s₁ ++ y :: (s₂ ++ x :: s₃)) := by
  have hsame : ∀ s : List Text, List.Forall₂ (fun l l' => l = l' ∨ (HasType 'a' l ∧ HasType 'a' l')) s s := by
    intro s
    exact List.forall₂_same.mpr fun l _ => .inl rfl
  constructor
  · refine List.Perm.append_left s₁ ?_
    exact (List.perm_middle.cons x).trans ((List.Perm.swap y x _).trans (List.perm_middle.symm.cons y))
  · exact List.rel_append (hsame s₁) (.cons (.inr ⟨hx, hy⟩) (List.rel_append (hsame s₂) (.cons (.inr ⟨hy, hx⟩) (hsame s₃))))

/-- **A description is read the same in every order exactly when it is rejected or the rates do not
matter**: in each section with a packet time and a rate, the packet time is as many samples at the
rate before as at the rate that the section gives, or it is read again. -/
theorem orderFree_iff (hone : OneEach (getLines sdp)) : OrderFree host ptp sdp info ↔
    ((∃ info', parseSdp host ptp sdp info = .ok info') → Steady host ptp { info := info } (getLines sdp)) := by
  constructor
  · rintro hfree ⟨info', hparse⟩ pre m sec post q hsplit hm hsec hq hmid first codec word rate time hformat htime
    have hin : OneEachIn sec := by
      have hbody := OneEach.of_append (hsplit ▸ hone)
      exact (sectionBody_append hsec post ▸ hbody.1 hm).left
    obtain ⟨lf, hlf, hf⟩ := mem_sectionWrites.mp hformat
    obtain ⟨lt, hlt, ht⟩ := mem_sectionWrites.mp htime
    have hlfa := hasType_of_bears LegGroup.noConfusion (bears_of_mem (hsec lf hlf) hf)
    have hlta := hasType_of_bears LegGroup.noConfusion (bears_of_mem (hsec lt hlt) ht)
    obtain ⟨s, t, rfl⟩ := List.append_of_mem hlf
    rcases List.mem_append.mp hlt with hlt | hlt
    · obtain ⟨s₁, s₂, rfl⟩ := List.append_of_mem hlt
      have hassoc : (s₁ ++ lt :: s₂) ++ lf :: t = s₁ ++ lt :: (s₂ ++ lf :: t) := by
        rw [List.append_assoc, List.cons_append]
      rw [hassoc] at hsec hin hsplit ⊢
      have hperm := permuted_swap hlta hlfa s₁ s₂ t
      have hsec' : ∀ l ∈ s₁ ++ lf :: (s₂ ++ lt :: t), MediaLevel l := fun l hl => hsec l (hperm.1.mem_iff.mpr hl)
      refine (hfree.section hparse hsplit hm hsec hin hperm hq hmid first).imp_left fun hsame => ?_
      rw [← samples_of_time_first hf ht hsec hin, ← samples_of_format_first hf ht hsec' (hin.perm hperm.1), hsame]
    · rcases List.mem_cons.mp hlt with rfl | hlt
      · rw [sectionWrites_eq_singleton hlfa hf] at ht
        exact absurd (List.mem_singleton.mp ht) LegWrite.noConfusion
      · obtain ⟨s₂, s₃, rfl⟩ := List.append_of_mem hlt
        have hperm := permuted_swap hlfa hlta s s₂ s₃
        have hsec' : ∀ l ∈ s ++ lt :: (s₂ ++ lf :: s₃), MediaLevel l := fun l hl => hsec l (hperm.1.mem_iff.mpr hl)
        refine (hfree.section hparse hsplit hm hsec hin hperm hq hmid first).imp_left fun hsame => ?_
        rw [← samples_of_format_first hf ht hsec hin, ← samples_of_time_first hf ht hsec' (hin.perm hperm.1), hsame]
  · intro hsteady sdp' h
    cases hparse : parseSdp host ptp sdp info with
    | ok info' =>
        obtain ⟨info'', hparse', hsame⟩ := parseSdp_reordered h hone hparse
        rw [hparse', hsame (hsteady ⟨info', hparse⟩)]
    | error e =>
        cases hparse' : parseSdp host ptp sdp' info with
        | error e' => rfl
        | ok info'' =>
            obtain ⟨info', hback, -⟩ := parseSdp_reordered h.symm (h.oneEach hone) hparse'
            rw [hparse] at hback
            cases hback

/-- A section with a rate and a packet time. -/
def timedSection : List Text := audioSection ++ ["a=ptime:1".toList]

/-- The packet time before the rate. -/
def timedFirst : List Text := audioSection.dropLast ++ ["a=ptime:1".toList, "a=rtpmap:98 L16/48000/2".toList]

/-- The packet time of one millisecond is 48 samples if the rate comes first, and none if it comes
last. -/
theorem not_orderFree_timedSection :
    OneEach (getLines (unlines (sessionLines ++ timedSection))) ∧ ¬ OrderFree {} {} (unlines (sessionLines ++ timedSection)) {} := by
  refine ⟨by decide +kernel, fun hfree => ?_⟩
  have hlines : getLines (unlines (sessionLines ++ timedSection)) = sessionLines ++ timedSection := by decide +kernel
  have hlines' : getLines (unlines (sessionLines ++ timedFirst)) = sessionLines ++ timedFirst := by decide +kernel
  have hreordered : Reordered (getLines (unlines (sessionLines ++ timedSection)))
      (getLines (unlines (sessionLines ++ timedFirst))) := by
    rw [hlines, hlines']
    have hperm := permuted_swap (x := "a=rtpmap:98 L16/48000/2".toList) (y := "a=ptime:1".toList) (by decide +kernel)
      (by decide +kernel) ["c=IN IP4 239.1.0.1/15".toList] [] []
    exact (Reordered.attributes "m=audio 5004 RTP/AVP 98".toList (by decide +kernel) (by decide +kernel) hperm .nil).prepend _
  have hsame := congrArg (Option.map fun info => info.stream.leg0.ui32MaxSamplesPerPacket) (hfree _ hreordered)
  have hfirst : (parseSdp {} {} (unlines (sessionLines ++ timedFirst)) {}).toOption.map
      (fun info => info.stream.leg0.ui32MaxSamplesPerPacket) = some 0 := by decide +kernel
  have hlast : (parseSdp {} {} (unlines (sessionLines ++ timedSection)) {}).toOption.map
      (fun info => info.stream.leg0.ui32MaxSamplesPerPacket) = some 48 := by decide +kernel
  rw [hfirst, hlast] at hsame
  exact absurd hsame (by decide)

/-- Such a section. -/
theorem orderFree_timedSection : OneEach (getLines (unlines (sessionLines ++ timedSection))) ∧
    (OrderFree {} {} (unlines (sessionLines ++ timedSection)) {} ↔
      ((∃ info', parseSdp {} {} (unlines (sessionLines ++ timedSection)) {} = .ok info') →
        Steady {} {} { info := {} } (getLines (unlines (sessionLines ++ timedSection))))) := by
  have hone : OneEach (getLines (unlines (sessionLines ++ timedSection))) := by decide +kernel
  exact ⟨hone, orderFree_iff hone⟩

end Aes67Daemon
