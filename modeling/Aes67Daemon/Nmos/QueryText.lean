import Aes67Daemon.Lib.Quoted
import Aes67Daemon.Lib.Seek
import Aes67Daemon.Nmos.Resources

/-!
# The JSON texts of resources

The texts that the builders write of the IS-04 resources.  A text is written here cut at its
quotes: the strings in it, each with what follows its closing quote.  A label is looked for
in such a text by the words `"label": "..."`, which the channels of a source or flow have,
too.

## Main definitions

* `SourceDoc.json`, `FlowDoc.json`, `SenderDoc.json`, `ReceiverDoc.json` — the JSON texts.
* `jsonFieldMatches` — the search for a member.
* `jsonFieldMatches_document` — a label is found where it is a label.
-/
namespace Aes67Daemon

open Text

/-! ## JSON texts -/

/-- A member with a string value, and the comma behind it. -/
def stringMember (key : String) (value : Text) : List (Text × Text) :=
  [(key.toList, ": ".toList), (value, ",\n  ".toList)]

/-- The members that every resource begins with. -/
def headMembers (id version label : Text) : List (Text × Text) :=
  stringMember "id" id ++ stringMember "version" version ++ stringMember "label" label ++ stringMember "description" []

/-- The text of `make_channels_json` after its first bracket, and the end of the document. -/
def channelMembers : List Text → List (Text × Text)
  | [] => []
  | [c] => [("label".toList, ": ".toList), (c, "\x7d]\n\x7d".toList)]
  | c :: cs => ("label".toList, ": ".toList) :: (c, "\x7d, \x7b".toList) :: channelMembers cs

/-- The channels, and the end of the document. -/
def channelsMember (cs : List Text) : List (Text × Text) :=
  if cs = [] then [("channels".toList, ": []\n\x7d".toList)] else ("channels".toList, ": [\x7b".toList) :: channelMembers cs

/-- A fraction in braces. -/
def fractionMember (key : String) (numerator denominator : ℕ) : List (Text × Text) :=
  [(key.toList, ": \x7b".toList), ("numerator".toList, ": ".toList ++ ofNat numerator ++ ", ".toList),
    ("denominator".toList, ": ".toList ++ ofNat denominator ++ "\x7d,\n  ".toList)]

/-- The names of interfaces, up to the comma behind the list. -/
def bindingNames : List Text → List (Text × Text)
  | [] => []
  | [b] => [(b, "],\n  ".toList)]
  | b :: bs => (b, ", ".toList) :: bindingNames bs

/-- `interface_bindings`. -/
def bindingsMember (bs : List Text) : List (Text × Text) :=
  if bs = [] then [("interface_bindings".toList, ": [],\n  ".toList)]
  else ("interface_bindings".toList, ": [".toList) :: bindingNames bs

/-- `subscription`, and the end of the document. -/
def subscriptionMember (key : String) (peerId : Text) (active : Bool) : List (Text × Text) :=
  ("subscription".toList, ": \x7b".toList) ::
    (if peerId = [] then [(key.toList, ": null, ".toList)] else [(key.toList, ": ".toList), (peerId, ", ".toList)]) ++
    [("active".toList, ": ".toList ++ boolText active ++ "\x7d\n\x7d".toList)]

/-- The strings of `build_source_json`. -/
def SourceDoc.members (d : SourceDoc) : List (Text × Text) :=
  headMembers d.id d.version d.label ++
    [("tags".toList, ": \x7b".toList), ("aes67-daemon:source-id".toList, ": [".toList),
      (ofNat d.sourceTag.toNat, "]\x7d,\n  ".toList)] ++
    stringMember "device_id" d.deviceId ++
    [("parents".toList, ": [],\n  ".toList)] ++
    stringMember "clock_name" "clk0".toList ++
    fractionMember "grain_rate" d.grainRate.1.toNat d.grainRate.2.toNat ++
    [("caps".toList, ": \x7b\x7d,\n  ".toList)] ++
    stringMember "format" "urn:x-nmos:format:audio".toList ++
    channelsMember d.channels

/-- The strings of `build_flow_json`. -/
def FlowDoc.members (d : FlowDoc) : List (Text × Text) :=
  headMembers d.id d.version d.label ++
    [("tags".toList, ": \x7b\x7d,\n  ".toList)] ++
    fractionMember "grain_rate" d.grainRate.1.toNat d.grainRate.2.toNat ++
    stringMember "source_id" d.sourceId ++
    [("parents".toList, ": [],\n  ".toList)] ++
    stringMember "device_id" d.deviceId ++
    stringMember "format" "urn:x-nmos:format:audio".toList ++
    stringMember "media_type" d.mediaType ++
    fractionMember "sample_rate" d.sampleRate.toNat 1 ++
    [("bit_depth".toList, ": ".toList ++ ofNat d.bitDepth ++ ",\n  ".toList)] ++
    channelsMember d.channels

/-- The strings of `build_sender_json`. -/
def SenderDoc.members (d : SenderDoc) : List (Text × Text) :=
  headMembers d.id d.version d.label ++
    [("tags".toList, ": \x7b\x7d,\n  ".toList)] ++
    stringMember "flow_id" d.flowId ++
    stringMember "transport" d.transport ++
    stringMember "device_id" d.deviceId ++
    stringMember "manifest_href" d.manifestHref ++
    bindingsMember d.interfaceBindings ++
    subscriptionMember "receiver_id" d.receiverId d.active

/-- The strings of `build_receiver_json`. -/
def ReceiverDoc.members (d : ReceiverDoc) : List (Text × Text) :=
  headMembers d.id d.version d.label ++
    [("tags".toList, ": \x7b".toList), ("aes67-daemon:sink-id".toList, ": [".toList),
      (ofNat d.sinkTag.toNat, "]\x7d,\n  ".toList)] ++
    stringMember "device_id" d.deviceId ++
    stringMember "transport" "urn:x-nmos:transport:rtp.mcast".toList ++
    bindingsMember d.interfaceBindings ++
    stringMember "format" "urn:x-nmos:format:audio".toList ++
    [("caps".toList, ": \x7b\n    ".toList), ("media_types".toList, ": [".toList), ("audio/L24".toList, ", ".toList),
      ("audio/L16".toList, ", ".toList), ("audio/AM824".toList, "],\n    ".toList),
      ("constraint_sets".toList, ": [\x7b\n      ".toList),
      ("urn:x-nmos:cap:format:channel_count".toList, ": \x7b".toList), ("minimum".toList, ": 1, ".toList),
      ("maximum".toList, ": ".toList ++ ofNat d.channelCount ++ "\x7d,\n      ".toList),
      ("urn:x-nmos:cap:format:sample_depth".toList, ": \x7b".toList),
      ("enum".toList, ": [16, 24, 32]\x7d,\n      ".toList),
      ("urn:x-nmos:cap:format:sample_rate".toList, ": \x7b".toList), ("enum".toList, ": [\x7b".toList),
      ("denominator".toList, ": 1, ".toList),
      ("numerator".toList, ": ".toList ++ ofNat d.sampleRate.toNat ++ "\x7d]\x7d,\n      ".toList),
      ("urn:x-nmos:cap:transport:packet_time".toList, ": \x7b".toList),
      ("enum".toList, ": [".toList ++ ", ".toList.intercalate d.packetTimes ++ "]\x7d\n    \x7d]\n  \x7d,\n  ".toList)] ++
    subscriptionMember "sender_id" d.senderId d.active

/-- A document with these strings. -/
def documentText (members : List (Text × Text)) : Text := "\x7b\n  ".toList ++ quotedText members

def SourceDoc.json (d : SourceDoc) : Text := documentText d.members
def FlowDoc.json (d : FlowDoc) : Text := documentText d.members
def SenderDoc.json (d : SenderDoc) : Text := documentText d.members
def ReceiverDoc.json (d : ReceiverDoc) : Text := documentText d.members

/-- The texts of the daemon in a document. -/
def SourceDoc.texts (d : SourceDoc) : List Text := [d.id, d.version, d.label, d.deviceId] ++ d.channels
def FlowDoc.texts (d : FlowDoc) : List Text :=
  [d.id, d.version, d.label, d.sourceId, d.deviceId, d.mediaType] ++ d.channels
def SenderDoc.texts (d : SenderDoc) : List Text :=
  [d.id, d.version, d.label, d.flowId, d.transport, d.deviceId, d.manifestHref, d.receiverId] ++ d.interfaceBindings
def ReceiverDoc.texts (d : ReceiverDoc) : List Text :=
  [d.id, d.version, d.label, d.deviceId, d.senderId] ++ d.interfaceBindings ++ d.packetTimes

/-! ## Labels in documents -/

/-- `json_field_matches`. -/
def jsonFieldMatches (json key value : Text) : Bool := (seek (fieldText key value) json).isSome

/-- No string and nothing between strings has a quote, and what follows a string is no name. -/
def Tame (us : List (Text × Text)) : Prop := ∀ u ∈ us, '"' ∉ u.1 ∧ '"' ∉ u.2 ∧ u.2 ≠ "label".toList

theorem Tame.append {us us' : List (Text × Text)} (h : Tame us) (h' : Tame us') : Tame (us ++ us') := by
  intro u hu
  rcases List.mem_append.mp hu with hu | hu
  · exact h u hu
  · exact h' u hu

theorem Tame.cons {a b : Text} {us : List (Text × Text)} (ha : '"' ∉ a) (hb : '"' ∉ b ∧ b ≠ "label".toList)
    (h : Tame us) : Tame ((a, b) :: us) :=
  List.forall_mem_cons.mpr ⟨⟨ha, hb⟩, h⟩

instance (us : List (Text × Text)) : Decidable (Tame us) := inferInstanceAs (Decidable (∀ u ∈ us, _))

theorem tame_nil : Tame [] := fun _ hu => absurd hu List.not_mem_nil

/-- What follows a string may have a number in it. -/
theorem tame_number (n : ℕ) {t : Text} (ht : '"' ∉ t) :
    '"' ∉ ": ".toList ++ ofNat n ++ t ∧ ": ".toList ++ ofNat n ++ t ≠ "label".toList := by
  constructor
  · rw [List.mem_append, List.mem_append, not_or, not_or]
    exact ⟨⟨by decide, not_mem_ofNat (by decide) n⟩, ht⟩
  · intro heq
    cases (List.cons.inj heq).1

theorem tame_stringMember {key : String} {value : Text} (hkey : '"' ∉ key.toList) (hvalue : '"' ∉ value) :
    Tame (stringMember key value) :=
  .cons hkey (by decide) (.cons hvalue (by decide) tame_nil)

theorem tame_headMembers {id version label : Text} (hid : '"' ∉ id) (hversion : '"' ∉ version) (hlabel : '"' ∉ label) :
    Tame (headMembers id version label) :=
  (((tame_stringMember (by decide) hid).append (tame_stringMember (by decide) hversion)).append
    (tame_stringMember (by decide) hlabel)).append (tame_stringMember (by decide) (by decide))

theorem tame_fractionMember {key : String} (hkey : '"' ∉ key.toList) (n d : ℕ) : Tame (fractionMember key n d) :=
  .cons hkey (by decide) (.cons (by decide) (tame_number n (by decide))
    (.cons (by decide) (tame_number d (by decide)) tame_nil))

theorem tame_channelsMember {cs : List Text} (h : ∀ c ∈ cs, '"' ∉ c) : Tame (channelsMember cs) := by
  have hall : ∀ cs : List Text, (∀ c ∈ cs, '"' ∉ c) → Tame (channelMembers cs) := by
    intro cs h
    induction cs with
    | nil => exact tame_nil
    | cons c cs ih =>
      obtain ⟨hc, hcs⟩ := List.forall_mem_cons.mp h
      cases cs with
      | nil => exact .cons (by decide) (by decide) (.cons hc (by decide) tame_nil)
      | cons c' cs => exact .cons (by decide) (by decide) (.cons hc (by decide) (ih hcs))
  unfold channelsMember
  split
  · exact .cons (by decide) (by decide) tame_nil
  · exact .cons (by decide) (by decide) (hall cs h)

theorem tame_bindingsMember {bs : List Text} (h : ∀ b ∈ bs, '"' ∉ b) : Tame (bindingsMember bs) := by
  have hall : ∀ bs : List Text, (∀ b ∈ bs, '"' ∉ b) → Tame (bindingNames bs) := by
    intro bs h
    induction bs with
    | nil => exact tame_nil
    | cons b bs ih =>
      obtain ⟨hb, hbs⟩ := List.forall_mem_cons.mp h
      cases bs with
      | nil => exact .cons hb (by decide) tame_nil
      | cons b' bs => exact .cons hb (by decide) (ih hbs)
  unfold bindingsMember
  split
  · exact .cons (by decide) (by decide) tame_nil
  · exact .cons (by decide) (by decide) (hall bs h)

theorem tame_subscriptionMember {key : String} {peerId : Text} (hkey : '"' ∉ key.toList) (hpeer : '"' ∉ peerId)
    (active : Bool) : Tame (subscriptionMember key peerId active) := by
  have hactive : Tame [("active".toList, ": ".toList ++ boolText active ++ "\x7d\n\x7d".toList)] := by
    cases active <;> decide
  unfold subscriptionMember
  refine Tame.append (.cons (by decide) (by decide) ?_) hactive
  split
  · exact .cons hkey (by decide) tame_nil
  · exact .cons hkey (by decide) (.cons hpeer (by decide) tame_nil)

theorem notMem_intercalate {c : Char} {sep : Text} {ts : List Text} (hsep : c ∉ sep) (h : ∀ t ∈ ts, c ∉ t) :
    c ∉ sep.intercalate ts := by
  induction ts with
  | nil => exact List.not_mem_nil
  | cons t ts ih =>
    obtain ⟨ht, hts⟩ := List.forall_mem_cons.mp h
    cases ts with
    | nil => simpa using ht
    | cons t' ts =>
      rw [List.intercalate_cons_cons, List.mem_append, List.mem_append, not_or, not_or]
      exact ⟨⟨ht, hsep⟩, ih hts⟩

theorem SourceDoc.tame_members {d : SourceDoc} (h : ∀ t ∈ d.texts, '"' ∉ t) : Tame d.members := by
  obtain ⟨hhead, hchannels⟩ := List.forall_mem_append.mp h
  simp only [List.forall_mem_cons] at hhead
  obtain ⟨hid, hversion, hlabel, hdevice, -⟩ := hhead
  refine ((((((((tame_headMembers hid hversion hlabel).append ?_).append (tame_stringMember (by decide) hdevice)).append
    (by decide)).append (tame_stringMember (by decide) (by decide))).append (tame_fractionMember (by decide) _ _)).append
    (by decide)).append (tame_stringMember (by decide) (by decide))).append (tame_channelsMember hchannels)
  exact .cons (by decide) (by decide) (.cons (by decide) (by decide)
    (.cons (not_mem_ofNat (by decide) _) (by decide) tame_nil))

theorem FlowDoc.tame_members {d : FlowDoc} (h : ∀ t ∈ d.texts, '"' ∉ t) : Tame d.members := by
  obtain ⟨hhead, hchannels⟩ := List.forall_mem_append.mp h
  simp only [List.forall_mem_cons] at hhead
  obtain ⟨hid, hversion, hlabel, hsource, hdevice, hmedia, -⟩ := hhead
  refine ((((((((((tame_headMembers hid hversion hlabel).append (by decide)).append
    (tame_fractionMember (by decide) _ _)).append (tame_stringMember (by decide) hsource)).append (by decide)).append
    (tame_stringMember (by decide) hdevice)).append (tame_stringMember (by decide) (by decide))).append
    (tame_stringMember (by decide) hmedia)).append (tame_fractionMember (by decide) _ _)).append ?_).append
    (tame_channelsMember hchannels)
  exact .cons (by decide) (tame_number _ (by decide)) tame_nil

theorem SenderDoc.tame_members {d : SenderDoc} (h : ∀ t ∈ d.texts, '"' ∉ t) : Tame d.members := by
  obtain ⟨hhead, hbindings⟩ := List.forall_mem_append.mp h
  simp only [List.forall_mem_cons] at hhead
  obtain ⟨hid, hversion, hlabel, hflow, htransport, hdevice, hmanifest, hreceiver, -⟩ := hhead
  exact (((((((tame_headMembers hid hversion hlabel).append (by decide)).append
    (tame_stringMember (by decide) hflow)).append (tame_stringMember (by decide) htransport)).append
    (tame_stringMember (by decide) hdevice)).append (tame_stringMember (by decide) hmanifest)).append
    (tame_bindingsMember hbindings)).append (tame_subscriptionMember (by decide) hreceiver _)

theorem ReceiverDoc.tame_members {d : ReceiverDoc} (h : ∀ t ∈ d.texts, '"' ∉ t) : Tame d.members := by
  obtain ⟨hfirst, htimes⟩ := List.forall_mem_append.mp h
  obtain ⟨hhead, hbindings⟩ := List.forall_mem_append.mp hfirst
  simp only [List.forall_mem_cons] at hhead
  obtain ⟨hid, hversion, hlabel, hdevice, hsender, -⟩ := hhead
  refine (((((((tame_headMembers hid hversion hlabel).append ?_).append (tame_stringMember (by decide) hdevice)).append
    (tame_stringMember (by decide) (by decide))).append (tame_bindingsMember hbindings)).append
    (tame_stringMember (by decide) (by decide))).append ?_).append (tame_subscriptionMember (by decide) hsender _)
  · exact .cons (by decide) (by decide) (.cons (by decide) (by decide)
      (.cons (not_mem_ofNat (by decide) _) (by decide) tame_nil))
  · have hjoined : '"' ∉ ", ".toList.intercalate d.packetTimes :=
      notMem_intercalate (by decide) htimes
    refine @Tame.append [_, _, _, _, _, _, _, _] _ (by decide) ?_
    refine .cons (by decide) (tame_number _ (by decide)) (@Tame.append [_, _, _, _, _] _ (by decide) ?_)
    refine .cons (by decide) (tame_number _ (by decide)) (.cons (by decide) (by decide) (.cons (by decide) ⟨?_, ?_⟩ tame_nil))
    · rw [List.mem_append, List.mem_append, not_or, not_or]
      exact ⟨⟨by decide, hjoined⟩, by decide⟩
    · intro heq
      cases (List.cons.inj heq).1

theorem fieldValues_cons_of_ne {key : Text} {u : Text × Text} (hu : u ≠ (key, ": ".toList)) (us : List (Text × Text)) :
    fieldValues key (u :: us) = fieldValues key us := by
  cases us with
  | nil => rfl
  | cons u' us => exact if_neg hu

theorem fieldValues_pair (key v r : Text) (us : List (Text × Text)) :
    fieldValues key ((key, ": ".toList) :: (v, r) :: us) = v :: fieldValues key ((v, r) :: us) :=
  if_pos rfl

theorem fieldValues_skip {key a b : Text} (hb : b ≠ ": ".toList) (us : List (Text × Text)) :
    fieldValues key ((a, b) :: us) = fieldValues key us :=
  fieldValues_cons_of_ne (fun heq => hb (congrArg Prod.snd heq)) us

theorem fieldValues_stringMember {key : String} {value : Text} (hkey : key.toList ≠ "label".toList)
    (us : List (Text × Text)) : fieldValues "label".toList (stringMember key value ++ us) = fieldValues "label".toList us := by
  have hne : (key.toList, ": ".toList) ≠ ("label".toList, ": ".toList) := fun heq => hkey (congrArg Prod.fst heq)
  exact (fieldValues_cons_of_ne hne _).trans (fieldValues_skip (by decide) us)

theorem fieldValues_headMembers (id version label : Text) (us : List (Text × Text)) :
    fieldValues "label".toList (headMembers id version label ++ us) = label :: fieldValues "label".toList us := by
  rw [headMembers, List.append_assoc, List.append_assoc, List.append_assoc, fieldValues_stringMember (by decide),
    fieldValues_stringMember (by decide)]
  refine (fieldValues_pair _ _ _ _).trans (congrArg _ ?_)
  exact (fieldValues_skip (by decide) _).trans (fieldValues_stringMember (by decide) us)

theorem number_ne_colon (n : ℕ) (t : Text) : ": ".toList ++ ofNat n ++ t ≠ ": ".toList := by
  intro heq
  have hlen := congrArg List.length heq
  have hpos := List.length_pos_of_ne_nil (ofNat_ne_nil n)
  rw [List.length_append, List.length_append] at hlen
  omega

/-- Strings that are not followed by a colon and another string. -/
theorem fieldValues_others {key : Text} {g : List (Text × Text)} (hg : ∀ b ∈ g.map Prod.snd, b ≠ ": ".toList)
    (us : List (Text × Text)) : fieldValues key (g ++ us) = fieldValues key us := by
  induction g with
  | nil => rfl
  | cons u g ih =>
    obtain ⟨hu, hg⟩ := List.forall_mem_cons.mp hg
    exact (fieldValues_skip hu _).trans (ih hg)

theorem fieldValues_fractionMember (key : String) (n d : ℕ) (us : List (Text × Text)) :
    fieldValues "label".toList (fractionMember key n d ++ us) = fieldValues "label".toList us :=
  (fieldValues_skip (by decide) _).trans ((fieldValues_skip (number_ne_colon n _) _).trans
    (fieldValues_skip (number_ne_colon d _) us))

theorem fieldValues_channelsMember (cs : List Text) : fieldValues "label".toList (channelsMember cs) = cs := by
  have hall : ∀ cs : List Text, fieldValues "label".toList (channelMembers cs) = cs := by
    intro cs
    induction cs with
    | nil => rfl
    | cons c cs ih =>
      cases cs with
      | nil => exact fieldValues_pair _ _ _ _
      | cons c' cs =>
        refine (fieldValues_pair _ _ _ _).trans (congrArg _ ?_)
        exact (fieldValues_skip (by decide) _).trans ih
  unfold channelsMember
  split
  · rename_i hnil
    exact hnil.symm
  · exact (fieldValues_skip (by decide) _).trans (hall cs)

theorem fieldValues_bindingsMember (bs : List Text) (us : List (Text × Text)) :
    fieldValues "label".toList (bindingsMember bs ++ us) = fieldValues "label".toList us := by
  have hall : ∀ bs : List Text, fieldValues "label".toList (bindingNames bs ++ us) = fieldValues "label".toList us := by
    intro bs
    induction bs with
    | nil => rfl
    | cons b bs ih =>
      cases bs with
      | nil => exact fieldValues_skip (by decide) us
      | cons b' bs => exact (fieldValues_skip (by decide) _).trans ih
  unfold bindingsMember
  split
  · exact fieldValues_skip (by decide) us
  · exact (fieldValues_skip (by decide) _).trans (hall bs)

theorem fieldValues_subscriptionMember {key : String} (hkey : key.toList ≠ "label".toList) (peerId : Text) (active : Bool) :
    fieldValues "label".toList (subscriptionMember key peerId active) = [] := by
  have hne : (key.toList, ": ".toList) ≠ ("label".toList, ": ".toList) := fun heq => hkey (congrArg Prod.fst heq)
  refine (fieldValues_skip (by decide) _).trans ?_
  split
  · exact fieldValues_skip (by decide) _
  · exact (fieldValues_cons_of_ne hne _).trans (fieldValues_skip (by decide) _)

/-- The labels in a source are its own and those of its channels ... -/
theorem SourceDoc.fieldValues_members (d : SourceDoc) : fieldValues "label".toList d.members = d.label :: d.channels := by
  have htags : ∀ b ∈ ([("tags".toList, ": \x7b".toList), ("aes67-daemon:source-id".toList, ": [".toList),
      (ofNat d.sourceTag.toNat, "]\x7d,\n  ".toList)] : List (Text × Text)).map Prod.snd, b ≠ ": ".toList := by
    simp only [List.map_cons, List.map_nil]
    decide
  simp only [members, List.append_assoc]
  rw [fieldValues_headMembers, fieldValues_others htags, fieldValues_stringMember (by decide),
    fieldValues_others (g := [_]) (by decide), fieldValues_stringMember (by decide), fieldValues_fractionMember,
    fieldValues_others (g := [_]) (by decide), fieldValues_stringMember (by decide), fieldValues_channelsMember]

theorem FlowDoc.fieldValues_members (d : FlowDoc) : fieldValues "label".toList d.members = d.label :: d.channels := by
  have hbits : ∀ b ∈ ([("bit_depth".toList, ": ".toList ++ (ofNat d.bitDepth ++ ",\n  ".toList))] :
      List (Text × Text)).map Prod.snd, b ≠ ": ".toList := by
    rw [List.map_singleton, ← List.append_assoc]
    exact List.forall_mem_singleton.mpr (number_ne_colon _ _)
  simp only [members, List.append_assoc]
  rw [fieldValues_headMembers, fieldValues_others (g := [_]) (by decide), fieldValues_fractionMember,
    fieldValues_stringMember (by decide), fieldValues_others (g := [_]) (by decide), fieldValues_stringMember (by decide),
    fieldValues_stringMember (by decide), fieldValues_stringMember (by decide), fieldValues_fractionMember,
    fieldValues_others hbits, fieldValues_channelsMember]

/-- ... in a sender or receiver there is only its own. -/
theorem SenderDoc.fieldValues_members (d : SenderDoc) : fieldValues "label".toList d.members = [d.label] := by
  simp only [members, List.append_assoc]
  rw [fieldValues_headMembers, fieldValues_others (g := [_]) (by decide), fieldValues_stringMember (by decide),
    fieldValues_stringMember (by decide), fieldValues_stringMember (by decide), fieldValues_stringMember (by decide),
    fieldValues_bindingsMember, fieldValues_subscriptionMember (by decide)]

theorem ReceiverDoc.fieldValues_members (d : ReceiverDoc) : fieldValues "label".toList d.members = [d.label] := by
  have htags : ∀ b ∈ ([("tags".toList, ": \x7b".toList), ("aes67-daemon:sink-id".toList, ": [".toList),
      (ofNat d.sinkTag.toNat, "]\x7d,\n  ".toList)] : List (Text × Text)).map Prod.snd, b ≠ ": ".toList := by
    simp only [List.map_cons, List.map_nil]
    decide
  rw [members, List.append_assoc, List.append_assoc, List.append_assoc, List.append_assoc, List.append_assoc,
    List.append_assoc, List.append_assoc]
  rw [fieldValues_headMembers, fieldValues_others htags, fieldValues_stringMember (by decide),
    fieldValues_stringMember (by decide), fieldValues_bindingsMember, fieldValues_stringMember (by decide),
    fieldValues_others, fieldValues_subscriptionMember (by decide)]
  simp only [List.map_cons, List.map_nil, List.forall_mem_cons]
  refine ⟨by decide, by decide, by decide, by decide, by decide, by decide, by decide, by decide, number_ne_colon _ _,
    by decide, by decide, by decide, by decide, by decide, number_ne_colon _ _, by decide, ?_, ?_⟩
  · intro heq
    cases (List.cons.inj (List.cons.inj heq).2).2
  · exact fun b hb => absurd hb List.not_mem_nil

theorem jsonFieldMatches_iff (json key value : Text) : jsonFieldMatches json key value = true ↔ fieldText key value <:+: json :=
  seek_isSome_iff

/-- A label is found in a document where it is a label. -/
theorem jsonFieldMatches_document {members : List (Text × Text)} (hmembers : Tame members) {v : Text} (hv : '"' ∉ v) :
    jsonFieldMatches (documentText members) "label".toList v = true ↔ v ∈ fieldValues "label".toList members := by
  have hopen : '"' ∉ "\x7b\n  ".toList := by decide
  rw [jsonFieldMatches_iff, documentText, fieldText_eq, cons_infix_append_iff hopen, ← fieldText_eq]
  exact fieldText_infix_iff (by decide) hv hmembers

/-- The label of a resource is always found. -/
theorem jsonFieldMatches_own {id version label : Text} {members : List (Text × Text)}
    (h : headMembers id version label <+: members) :
    jsonFieldMatches (documentText members) "label".toList label = true := by
  obtain ⟨rest, rfl⟩ := h
  rw [jsonFieldMatches_iff]
  refine List.infix_append_of_infix_right ?_
  have hmembers : headMembers id version label ++ rest = (stringMember "id" id ++ stringMember "version" version) ++
      ("label".toList, ": ".toList) :: (label, ",\n  ".toList) :: (stringMember "description" [] ++ rest) := by
    simp [headMembers, stringMember]
  rw [hmembers]
  exact fieldText_infix _ _ _

theorem SourceDoc.head_members (d : SourceDoc) : headMembers d.id d.version d.label <+: d.members := by
  simp only [members, List.append_assoc]
  exact List.prefix_append _ _

theorem FlowDoc.head_members (d : FlowDoc) : headMembers d.id d.version d.label <+: d.members := by
  simp only [members, List.append_assoc]
  exact List.prefix_append _ _

theorem SenderDoc.head_members (d : SenderDoc) : headMembers d.id d.version d.label <+: d.members := by
  simp only [members, List.append_assoc]
  exact List.prefix_append _ _

theorem ReceiverDoc.head_members (d : ReceiverDoc) : headMembers d.id d.version d.label <+: d.members := by
  simp only [members, List.append_assoc]
  exact List.prefix_append _ _

end Aes67Daemon
