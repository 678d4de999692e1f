import Aes67Daemon.Nmos.Activated

/-!
# What the channel mapping API offers

For each output the API lists the inputs that can be routed to it and its channels, and for
each input its channels.  An action stays within what is listed when its channel keys are
indices of listed channels in decimal form, and each of its entries has a null input or a
listed one with an index of a listed channel.  The first pass of `is08_apply_action_json`
makes checks of its own: it reads a key as far as there are digits, takes zero for an index
that is missing or no integer, and compares an index with the channels of a sink only.

## Main definitions

* `CmHost.outputCaps`, `outputChannels`, `inputChannels` — what the API lists.
* `CmHost.Offered`, `CmHost.Advertised` — an action within what is listed.
* `CmHost.Lenient` — what the first pass asks of an action.
* `CmHost.Explicit` — an entry that needs no lenient reading.
* `CmHost.matchesAdvertised_iff` — when the first pass agrees with the lists.
-/
namespace Aes67Daemon

open Text

theorem Text.stoi_ofNat_eq_some {n : ℕ} {z : ℤ} (h : stoi (ofNat n) = some z) : z = n := by
  simp only [stoi, readInt_ofNat, Option.bind_some, Bool.false_eq_true, if_false, Option.ite_none_right_eq_some,
    Option.some.injEq] at h
  exact h.2.symm

theorem exists_mapM_eq_ok {ε α β : Type} {f : α → Except ε β} {as : List α} :
    (∃ bs, as.mapM f = .ok bs) ↔ ∀ a ∈ as, ∃ b, f a = .ok b := by
  simp only [mapM_eq_ok]
  induction as with
  | nil => simp
  | cons a as ih =>
      rw [List.forall_mem_cons, ← ih]
      constructor
      · intro h
        obtain ⟨bs, h⟩ := h
        cases h with
        | cons hb hbs => exact ⟨⟨_, hb⟩, _, hbs⟩
      · intro h
        obtain ⟨⟨b, hb⟩, bs, hbs⟩ := h
        exact ⟨b :: bs, .cons hb hbs⟩

namespace CmHost
variable {h : CmHost} {s : SessionManager}

/-! ## The lists of the API -/

/-- `is08_channels_json`: the label of each channel. -/
def is08ChannelsJson (channelCount : ℕ) : List Text :=
  (List.range channelCount).map fun i =>
    if channelCount = 2 then (if i = 0 then "Left".toList else "Right".toList)
    else "Ch".toList ++ ofNat (i + 1)

@[simp] theorem length_is08ChannelsJson (n : ℕ) : (is08ChannelsJson n).length = n := by
  simp [is08ChannelsJson]

/-- The `routable_inputs` of a sender or of an ALSA output, with `none` for `null`. -/
def routableInputs (h : CmHost) (s : SessionManager) (isSenderOutput : Bool) : List (Option Text) :=
  none :: (s.getSinks.map fun sink => some (h.is08InputId sink.id)) ++
    if isSenderOutput then h.alsaChannelList.map fun ch => some (h.is08AlsaInputId ch) else []

/-- `outputs/{id}/caps`: the `routable_inputs`. -/
def outputCaps (h : CmHost) (s : SessionManager) (uuid : Text) : Option (List (Option Text)) :=
  match h.findCmOutputSourceId s uuid with
  | some _ => some (h.routableInputs s true)
  | none => (h.findAlsaOutputChannel uuid).map fun _ => h.routableInputs s false

/-- `outputs/{id}/channels`. -/
def outputChannels (h : CmHost) (s : SessionManager) (uuid : Text) : Option (List Text) :=
  match h.findCmOutputSourceId s uuid with
  | some id => (s.getSource id).map fun src => is08ChannelsJson src.map.length
  | none => (h.findAlsaOutputChannel uuid).map fun _ => is08ChannelsJson 1

/-- `inputs/{id}/channels`. -/
def inputChannels (h : CmHost) (s : SessionManager) (uuid : Text) : Option (List Text) :=
  match h.findCmInputSinkId s uuid with
  | some id => (s.getSink id).map fun sink => is08ChannelsJson sink.map.length
  | none => (h.findAlsaInputChannel uuid).map fun _ => is08ChannelsJson 1

theorem findCmInputSinkId_isSome {uuid : Text} :
    (h.findCmInputSinkId s uuid).isSome ↔ ∃ sink ∈ s.getSinks, h.is08InputId sink.id = uuid := by
  simp [findCmInputSinkId, List.find?_isSome]

theorem findAlsaInputChannel_isSome {uuid : Text} :
    (h.findAlsaInputChannel uuid).isSome ↔ ∃ ch ∈ h.alsaChannelList, h.is08AlsaInputId ch = uuid := by
  simp [findAlsaInputChannel, List.find?_isSome]

/-- **The lists name what the lookups find.** -/
theorem mem_routableInputs {isSender : Bool} {uuid : Text} :
    some uuid ∈ h.routableInputs s isSender ↔ (h.findCmInputSinkId s uuid).isSome ∨
      isSender = true ∧ (h.findAlsaInputChannel uuid).isSome := by
  rw [findCmInputSinkId_isSome, findAlsaInputChannel_isSome]
  cases isSender <;> simp [routableInputs]

/-- The `channel_index` of an entry, if it is an integer. -/
def channelIndex? (entry : Ptree) : Option ℤ :=
  (entry.child? "channel_index".toList).bind Ptree.getInt?

theorem entryChannel_eq (entry : Ptree) : entryChannel entry = (channelIndex? entry).getD 0 := rfl

/-- An entry with a null input, or with a listed input and an integer that is an index of
one of its channels.  An empty text names no input. -/
def Offered (h : CmHost) (s : SessionManager) (routable : List (Option Text)) (entry : Ptree) : Prop :=
  ∃ input, entry.child? "input".toList = some input ∧
    (input.data = "null".toList ∨ input.data ≠ [] ∧ some input.data ∈ routable ∧
      ∃ channels i, h.inputChannels s input.data = some channels ∧ channelIndex? entry = some i ∧
        0 ≤ i ∧ i < channels.length)

/-- An action within what the API lists. -/
def Advertised (h : CmHost) (s : SessionManager) (action : Ptree) : Prop :=
  ∀ output ∈ action.children, ∃ routable channels, h.outputCaps s output.1 = some routable ∧
    h.outputChannels s output.1 = some channels ∧
    ∀ entry ∈ output.2.children, (∃ i < channels.length, entry.1 = ofNat i) ∧ h.Offered s routable entry.2

/-! ## What the first pass asks -/

/-- A listed input, with an index of one of its channels if it is a sink. -/
def LenientInput (h : CmHost) (s : SessionManager) (routable : List (Option Text)) (uuid : Text)
    (channel : ℤ) : Prop :=
  some uuid ∈ routable ∧ ∃ channels, h.inputChannels s uuid = some channels ∧
    ((h.findCmInputSinkId s uuid).isSome → 0 ≤ channel ∧ channel < channels.length)

/-- An entry whose key starts with an index, and whose input is listed if there is one. -/
def LenientEntry (h : CmHost) (s : SessionManager) (routable : List (Option Text)) (channels : List Text)
    (entry : Text × Ptree) : Prop :=
  (∃ z, stoi entry.1 = some z ∧ 0 ≤ z ∧ z < channels.length) ∧
    ∀ uuid, entryInput entry.2 = some uuid → h.LenientInput s routable uuid (entryChannel entry.2)

/-- An action whose outputs are listed, with such entries. -/
def Lenient (h : CmHost) (s : SessionManager) (action : Ptree) : Prop :=
  ∀ output ∈ action.children, ∃ routable channels, h.outputCaps s output.1 = some routable ∧
    h.outputChannels s output.1 = some channels ∧
    ∀ entry ∈ output.2.children, h.LenientEntry s routable channels entry

theorem outputCaps_of_resolveOutput {uuid : Text} {out : Is08Output} (hout : h.resolveOutput s uuid = .ok out) :
    h.outputCaps s uuid = some (h.routableInputs s out.isSenderOutput) ∧
      ∃ channels, h.outputChannels s uuid = some channels ∧ channels.length = out.channelCount := by
  unfold resolveOutput at hout
  unfold outputCaps outputChannels
  cases hsource : h.findCmOutputSourceId s uuid with
  | some id =>
      simp only [hsource] at hout ⊢
      cases hget : s.getSource id with
      | none => simp [hget] at hout
      | some src =>
          simp only [hget, Except.ok.injEq] at hout
          subst hout
          simp
  | none =>
      simp only [hsource] at hout ⊢
      cases halsa : h.findAlsaOutputChannel uuid with
      | none => simp [halsa] at hout
      | some id =>
          simp only [halsa, Except.ok.injEq] at hout
          subst hout
          simp

theorem exists_resolveOutput {uuid : Text} (hthere : (h.outputChannels s uuid).isSome) :
    ∃ out, h.resolveOutput s uuid = .ok out := by
  unfold outputChannels at hthere
  unfold resolveOutput
  cases hsource : h.findCmOutputSourceId s uuid with
  | some id =>
      simp only [hsource, Option.isSome_map] at hthere ⊢
      obtain ⟨src, hget⟩ := Option.isSome_iff_exists.mp hthere
      exact ⟨_, by rw [hget]⟩
  | none =>
      simp only [hsource, Option.isSome_map] at hthere ⊢
      obtain ⟨id, hfind⟩ := Option.isSome_iff_exists.mp hthere
      exact ⟨_, by rw [hfind]⟩

/-- **An input is let through** when it is listed, with the index compared for a sink. -/
theorem exists_resolveInput {out : Is08Output} {uuid : Text} {channel : ℤ} :
    (∃ found, h.resolveInput s out uuid channel = .ok found) ↔
      h.LenientInput s (h.routableInputs s out.isSenderOutput) uuid channel := by
  unfold resolveInput LenientInput inputChannels
  rw [mem_routableInputs]
  cases hsink : h.findCmInputSinkId s uuid with
  | some id =>
      cases hget : s.getSink id with
      | none =>
          simp only [hget]
          simp
      | some sink =>
          simp only [hget]
          by_cases hrange : channel < 0 ∨ sink.map.length ≤ channel.toNat
          · have hout : ¬ (0 ≤ channel ∧ channel < sink.map.length) := by omega
            simp [if_pos hrange, hout]
          · have hin : 0 ≤ channel ∧ channel < sink.map.length := by omega
            simp only [if_neg hrange]
            simp [hin]
  | none =>
      cases halsa : h.findAlsaInputChannel uuid with
      | none => simp
      | some id => cases hsender : out.isSenderOutput <;> simp

theorem exists_resolveChannel {out : Is08Output} {key : Text} :
    (∃ z, resolveChannel out key = .ok z) ↔ ∃ z, stoi key = some z ∧ 0 ≤ z ∧ z < out.channelCount := by
  unfold resolveChannel
  cases hread : stoi key with
  | none => simp
  | some z =>
      by_cases hrange : z < 0 ∨ out.channelCount ≤ z.toNat
      · have hout : ¬ (0 ≤ z ∧ z < out.channelCount) := by omega
        simp [if_pos hrange, hout]
      · have hin : 0 ≤ z ∧ z < out.channelCount := by omega
        simp only [if_neg hrange]
        simp [hin]

theorem exists_resolveEntry {out : Is08Output} {channels : List Text} (hcount : channels.length = out.channelCount)
    {entry : Text × Ptree} :
    (∃ item, h.resolveEntry s out entry = .ok item) ↔
      h.LenientEntry s (h.routableInputs s out.isSenderOutput) channels entry := by
  unfold LenientEntry
  rw [hcount, ← exists_resolveChannel]
  unfold resolveEntry
  cases hchannel : resolveChannel out entry.1 with
  | error err => simp [bind, Except.bind]
  | ok oc =>
      cases hinput : entryInput entry.2 with
      | none => simp [bind, Except.bind, pure, Except.pure]
      | some uuid =>
          simp only [Option.some.injEq, forall_eq', ← exists_resolveInput]
          cases hresolve : h.resolveInput s out uuid (entryChannel entry.2) with
          | error err => simp [bind, Except.bind]
          | ok found => simp [bind, Except.bind, pure, Except.pure]

theorem exists_resolveGroup {output : Text × Ptree} :
    (∃ group, h.resolveGroup s output = .ok group) ↔ ∃ routable channels,
      h.outputCaps s output.1 = some routable ∧ h.outputChannels s output.1 = some channels ∧
      ∀ entry ∈ output.2.children, h.LenientEntry s routable channels entry := by
  unfold resolveGroup
  cases hout : h.resolveOutput s output.1 with
  | error err =>
      refine iff_of_false (by simp [bind, Except.bind]) ?_
      intro hlisted
      obtain ⟨-, channels, -, hchannels, -⟩ := hlisted
      have hthere : (h.outputChannels s output.1).isSome := by rw [hchannels]; rfl
      obtain ⟨out, hresolve⟩ := exists_resolveOutput hthere
      cases hout.symm.trans hresolve
  | ok out =>
      obtain ⟨hcaps, channels, hchannels, hcount⟩ := outputCaps_of_resolveOutput hout
      simp only [hcaps, hchannels, Option.some.injEq, exists_and_left, exists_eq_left', ← exists_resolveEntry hcount,
        ← exists_mapM_eq_ok]
      cases hitems : output.2.children.mapM (h.resolveEntry s out) with
      | error err => simp [bind, Except.bind, hitems]
      | ok items => simp [bind, Except.bind, hitems, pure, Except.pure]

/-- **The first pass accepts exactly the lenient actions.** -/
theorem exists_resolveAction {action : Ptree} :
    (∃ groups, h.resolveAction s action = .ok groups) ↔ h.Lenient s action := by
  unfold resolveAction Lenient
  rw [exists_mapM_eq_ok]
  exact forall₂_congr fun _ _ => exists_resolveGroup

/-! ## Where they agree -/

/-- An entry with its key in decimal form and its input given, and with an integer for the
channel of that input, zero for an ALSA channel. -/
structure Explicit (h : CmHost) (s : SessionManager) (entry : Text × Ptree) : Prop where
  key : ∃ n, entry.1 = ofNat n
  input : ∃ input, entry.2.child? "input".toList = some input ∧ input.data ≠ []
  index : ∀ uuid, entryInput entry.2 = some uuid →
    ∃ i, channelIndex? entry.2 = some i ∧ (h.findCmInputSinkId s uuid = none → i = 0)

theorem length_outputChannels {uuid : Text} {channels : List Text} (hch : h.outputChannels s uuid = some channels) :
    channels.length < 256 := by
  unfold outputChannels at hch
  cases hsource : h.findCmOutputSourceId s uuid with
  | some id =>
      simp only [hsource] at hch
      obtain ⟨src, hget, rfl⟩ := Option.map_eq_some_iff.mp hch
      have hmap : s.channels .source id = some src.map := by rw [SessionManager.channels_source, hget]; rfl
      simpa using SessionManager.length_of_channels hmap
  | none =>
      simp only [hsource] at hch
      obtain ⟨id, -, rfl⟩ := Option.map_eq_some_iff.mp hch
      simp

theorem length_inputChannels_alsa {uuid : Text} {channels : List Text} (hsink : h.findCmInputSinkId s uuid = none)
    (hch : h.inputChannels s uuid = some channels) : channels.length = 1 := by
  simp only [inputChannels, hsink] at hch
  obtain ⟨id, -, rfl⟩ := Option.map_eq_some_iff.mp hch
  simp

theorem channelKey_iff {key : Text} {n : ℕ} (hn : n < 256) :
    (∃ i < n, key = ofNat i) ↔ (∃ z, stoi key = some z ∧ 0 ≤ z ∧ z < n) ∧ ∃ i, key = ofNat i := by
  constructor
  · intro hkey
    obtain ⟨i, hi, rfl⟩ := hkey
    exact ⟨⟨i, stoi_ofNat (by omega), by omega, by omega⟩, i, rfl⟩
  · intro hkey
    obtain ⟨⟨z, hz, hnonneg, hlt⟩, i, rfl⟩ := hkey
    have heq := Text.stoi_ofNat_eq_some hz
    exact ⟨i, by omega, rfl⟩

theorem offeredInput_iff {routable : List (Option Text)} {uuid : Text} {entry : Ptree} :
    (some uuid ∈ routable ∧ ∃ channels i, h.inputChannels s uuid = some channels ∧ channelIndex? entry = some i ∧
        0 ≤ i ∧ i < channels.length) ↔
      h.LenientInput s routable uuid (entryChannel entry) ∧
        ∃ i, channelIndex? entry = some i ∧ (h.findCmInputSinkId s uuid = none → i = 0) := by
  rw [LenientInput, and_assoc]
  refine and_congr_right fun _ => ?_
  constructor
  · intro hoffer
    obtain ⟨channels, i, hch, hi, hnonneg, hlt⟩ := hoffer
    refine ⟨⟨channels, hch, fun _ => ?_⟩, i, hi, fun hsink => ?_⟩
    · rw [entryChannel_eq, hi, Option.getD_some]
      exact ⟨hnonneg, hlt⟩
    · rw [length_inputChannels_alsa hsink hch] at hlt
      omega
  · intro hlenient
    obtain ⟨⟨channels, hch, hrange⟩, i, hi, hzero⟩ := hlenient
    rw [entryChannel_eq, hi, Option.getD_some] at hrange
    refine ⟨channels, i, hch, hi, ?_⟩
    cases hsink : h.findCmInputSinkId s uuid with
    | some id => exact hrange (by rw [hsink]; rfl)
    | none =>
        have hlength := length_inputChannels_alsa hsink hch
        have hi := hzero hsink
        omega

theorem entryInput_of_child {entry input : Ptree} (hinput : entry.child? "input".toList = some input)
    (hne : input.data ≠ []) :
    entryInput entry = if input.data = "null".toList then none else some input.data := by
  rw [entryInput, hinput, Option.map_some]
  by_cases hnull : input.data = "null".toList
  · rw [if_pos hnull, Option.filter_some, hnull]
    rfl
  · rw [if_neg hnull, Option.filter_some]
    rw [bne_iff_ne.mpr hnull, bne_iff_ne.mpr hne]
    rfl

/-- **An entry is offered** when it is let through and needs no lenient reading. -/
theorem offered_iff {routable : List (Option Text)} {channels : List Text} (hlength : channels.length < 256)
    {entry : Text × Ptree} :
    ((∃ i < channels.length, entry.1 = ofNat i) ∧ h.Offered s routable entry.2) ↔
      h.LenientEntry s routable channels entry ∧ h.Explicit s entry := by
  have hnull : ("null".toList : Text) ≠ [] := by decide
  rw [channelKey_iff hlength]
  constructor
  · intro hoffer
    obtain ⟨⟨hkey, hdecimal⟩, input, hinput, hcase⟩ := hoffer
    have hne : input.data ≠ [] := by
      rcases hcase with heq | hlisted
      · rw [heq]
        exact hnull
      · exact hlisted.1
    have hread := entryInput_of_child hinput hne
    by_cases heq : input.data = "null".toList
    · rw [if_pos heq] at hread
      exact ⟨⟨hkey, by simp [hread]⟩, hdecimal, ⟨input, hinput, hne⟩, by simp [hread]⟩
    · rw [if_neg heq] at hread
      obtain ⟨hlenient, hindex⟩ := offeredInput_iff.mp (hcase.resolve_left heq).2
      refine ⟨⟨hkey, ?_⟩, hdecimal, ⟨input, hinput, hne⟩, ?_⟩
      · simpa [hread] using hlenient
      · simpa [hread] using hindex
  · intro hboth
    obtain ⟨⟨hkey, hlenient⟩, hdecimal, ⟨input, hinput, hne⟩, hindex⟩ := hboth
    refine ⟨⟨hkey, hdecimal⟩, input, hinput, ?_⟩
    have hread := entryInput_of_child hinput hne
    by_cases heq : input.data = "null".toList
    · exact .inl heq
    · rw [if_neg heq] at hread
      exact .inr ⟨hne, offeredInput_iff.mpr ⟨hlenient _ hread, hindex _ hread⟩⟩

/-- **An action is advertised** when the first pass accepts it and every entry is explicit. -/
theorem advertised_iff {action : Ptree} :
    h.Advertised s action ↔ h.Lenient s action ∧
      ∀ output ∈ action.children, ∀ entry ∈ output.2.children, h.Explicit s entry := by
  rw [Advertised, Lenient, ← forall₂_and]
  refine forall₂_congr fun output _ => ?_
  constructor
  · intro hadv
    obtain ⟨routable, channels, hcaps, hch, hentries⟩ := hadv
    have hboth := fun entry hentry => (offered_iff (length_outputChannels hch)).mp (hentries entry hentry)
    exact ⟨⟨routable, channels, hcaps, hch, fun entry hentry => (hboth entry hentry).1⟩,
      fun entry hentry => (hboth entry hentry).2⟩
  · intro hboth
    obtain ⟨⟨routable, channels, hcaps, hch, hlenient⟩, hexplicit⟩ := hboth
    exact ⟨routable, channels, hcaps, hch, fun entry hentry =>
      (offered_iff (length_outputChannels hch)).mpr ⟨hlenient entry hentry, hexplicit entry hentry⟩⟩

/-- The first pass accepts what is advertised and nothing else. -/
def MatchesAdvertised (h : CmHost) (readJson : Text → Option Ptree) (envs : ℕ → Env) (actionJson : Text)
    (s : SessionManager) : Prop :=
  (∃ canonical, h.is08ApplyActionJson readJson envs actionJson true s = some (.ok canonical, s)) ↔
    ∃ action, readJson actionJson = some action ∧ h.Advertised s action

/-- An action the first pass lets through has nothing in it that it reads leniently. -/
def NothingLenient (h : CmHost) (readJson : Text → Option Ptree) (actionJson : Text) (s : SessionManager) : Prop :=
  ∀ action, readJson actionJson = some action → h.Lenient s action →
    ∀ output ∈ action.children, ∀ entry ∈ output.2.children, h.Explicit s entry

theorem accepts_iff {readJson : Text → Option Ptree} {envs : ℕ → Env} {actionJson : Text} :
    (∃ canonical, h.is08ApplyActionJson readJson envs actionJson true s = some (.ok canonical, s)) ↔
      ∃ action, readJson actionJson = some action ∧ h.Lenient s action := by
  unfold is08ApplyActionJson
  cases hread : readJson actionJson with
  | none => simp
  | some action =>
      simp only [Option.some.injEq, exists_eq_left', ← exists_resolveAction]
      cases hresolve : h.resolveAction s action with
      | error err => simp
      | ok groups => simp

/-- **The first pass matches the lists of the API** exactly when an action it lets through
has nothing in it that it reads leniently. -/
theorem matchesAdvertised_iff (h : CmHost) (readJson : Text → Option Ptree) (envs : ℕ → Env) (actionJson : Text)
    (s : SessionManager) :
    MatchesAdvertised h readJson envs actionJson s ↔ NothingLenient h readJson actionJson s := by
  rw [MatchesAdvertised, accepts_iff]
  constructor
  · intro hmatch action hread hlenient
    obtain ⟨action', hread', hadv⟩ := hmatch.mp ⟨action, hread, hlenient⟩
    obtain rfl := Option.some.inj (hread.symm.trans hread')
    exact (advertised_iff.mp hadv).2
  · intro hnothing
    refine exists_congr fun action => and_congr_right fun hread => ?_
    rw [advertised_iff]
    exact ⟨fun hlenient => ⟨hlenient, hnothing action hread hlenient⟩, And.left⟩

/-- The text of an action that asks for the eighth channel of an ALSA input, which has one. -/
def eighthChannel : Text := actionText {} { alsaItem {} 1 5 with inputChannel := 7 }

/-- The eighth channel of an ALSA input is accepted, and it is not advertised. -/
theorem eighthChannel_accepted : ∃ s, run (SessionManager.step {}) (.create {})
      [.addSource (.answering none (.ok 7) (.error (.driver 1))) (stereoSource 1 "a".toList)] = some s ∧
    ¬ MatchesAdvertised {} Json.read (fun _ => .answering none (.ok 7) (.ok 8)) eighthChannel s := by
  have heval : (run (SessionManager.step {}) (SessionManager.create {})
      [.addSource (.answering none (.ok 7) (.error (.driver 1))) (stereoSource 1 "a".toList)]).map
      (fun s => (Json.read eighthChannel).map fun action => ((resolveAction {} s action).isOk,
        action.children.flatMap fun output => output.2.children.map fun entry =>
          (channelIndex? entry.2, (entryInput entry.2).map fun uuid => (findCmInputSinkId {} s uuid).isSome))) =
      some (some (true, [(some 7, some false)])) := by
    decide +kernel
  obtain ⟨s, hrun, heq⟩ := Option.map_eq_some_iff.mp heval
  obtain ⟨action, hread, heq⟩ := Option.map_eq_some_iff.mp heq
  simp only [Prod.mk.injEq] at heq
  obtain ⟨hok, hentries⟩ := heq
  refine ⟨s, hrun, fun hmatch => ?_⟩
  have hlenient : Lenient {} s action := by
    rw [← exists_resolveAction]
    cases hresolve : resolveAction {} s action with
    | error err => rw [hresolve] at hok; cases hok
    | ok groups => exact ⟨groups, rfl⟩
  obtain ⟨action', hread', hadv⟩ := hmatch.mp (accepts_iff.mpr ⟨action, hread, hlenient⟩)
  obtain rfl := Option.some.inj (hread.symm.trans hread')
  have hmem : ((some 7, some false) : Option ℤ × Option Bool) ∈ _ :=
    hentries ▸ List.mem_singleton_self _
  obtain ⟨output, houtput, hmem⟩ := List.mem_flatMap.mp hmem
  obtain ⟨entry, hentry, heq⟩ := List.mem_map.mp hmem
  simp only [Prod.mk.injEq] at heq
  obtain ⟨hindex, hinput⟩ := heq
  obtain ⟨uuid, huuid, hsink⟩ := Option.map_eq_some_iff.mp hinput
  obtain ⟨i, hi, hzero⟩ := ((advertised_iff.mp hadv).2 output houtput entry hentry).index uuid huuid
  have hseven : (7 : ℤ) = i := Option.some.inj (hindex.symm.trans hi)
  have hzero := hzero (by simpa using hsink)
  omega

end CmHost
end Aes67Daemon
