import Aes67Daemon.Nmos.Canonical
import Aes67Daemon.Nmos.StagedPatch

/-!
# The text of the staged and the active half

The Connection API shows the two halves of a sender or a receiver as JSON texts, which
are put together without escaping anything.  Where every text of a half can stand in a
JSON string as it is, what is shown is read back as what is stored, with the look-ups
and the conversions of a PATCH.

## Main definitions

* `stagedSenderJson`, `activeSenderJson`, `stagedReceiverJson`, `activeReceiverJson` — the texts.
* `Endpoint.DecodesTo` — a text is read back as a half.
* `Endpoint.Plain`, `Endpoint.decodesTo_of_plain` — a half without anything to escape is read back.
-/
namespace Aes67Daemon

open Text

/-! ## The encoders -/

/-- A text in quotes, and `null` for the empty text. -/
def quotedOrNull (t : Text) : Text := if t = [] then "null".toList else inQuotes t

/-- The members of an object in a row, as the encoders write them. -/
def inBraces (ms : List (Text × Text)) : Text := '{' :: ", ".toList.intercalate (ms.map Json.memberText) ++ ['}']

/-- `tp_sender_json`. -/
def tpSenderJson (tp : SenderTp) : Text :=
  inBraces [("source_ip".toList, inQuotes tp.sourceIp), ("destination_ip".toList, inQuotes tp.destinationIp),
    ("source_port".toList, ofNat tp.sourcePort.toNat), ("destination_port".toList, ofNat tp.destinationPort.toNat),
    ("rtp_enabled".toList, boolText tp.rtpEnabled)]

/-- `tp_receiver_json`. -/
def tpReceiverJson (tp : ReceiverTp) : Text :=
  inBraces [("interface_ip".toList, inQuotes tp.interfaceIp), ("multicast_ip".toList, quotedOrNull tp.multicastIp),
    ("destination_port".toList, ofNat tp.destinationPort.toNat), ("source_ip".toList, inQuotes tp.sourceIp),
    ("rtp_enabled".toList, boolText tp.rtpEnabled)]

/-- `activation_json`. -/
def activationJson (act : Is05Activation) : Text :=
  inBraces [("mode".toList, quotedOrNull act.mode), ("requested_time".toList, quotedOrNull act.requestedTime),
    ("activation_time".toList, quotedOrNull act.activationTime)]

/-- One half, with the key of the peer's id. -/
def endpointJson {τ : Type} (peerKey : Text) (tpJson : τ → Text) (ep : Endpoint τ) : Text :=
  inBraces [("master_enable".toList, boolText ep.masterEnable), (peerKey, quotedOrNull ep.peerId),
    ("activation".toList, activationJson ep.act),
    ("transport_params".toList, '[' :: ", ".toList.intercalate (ep.tp.map tpJson) ++ [']'])]

/-- `staged_sender_json`. -/
def stagedSenderJson (sr : SenderResources) : Text := endpointJson "receiver_id".toList tpSenderJson sr.staged

/-- `active_sender_json`. -/
def activeSenderJson (sr : SenderResources) : Text := endpointJson "receiver_id".toList tpSenderJson sr.active

/-- `staged_receiver_json`. -/
def stagedReceiverJson (rr : ReceiverResources) : Text :=
  endpointJson "sender_id".toList tpReceiverJson rr.staged

/-- `active_receiver_json`. -/
def activeReceiverJson (rr : ReceiverResources) : Text :=
  endpointJson "sender_id".toList tpReceiverJson rr.active

/-! ## Reading it back -/

/-- A string, empty for `null`. -/
def Ptree.getNullable? (t : Ptree) : Option Text := some (nullable t.data)

def SenderTp.decode? (t : Ptree) : Option SenderTp := do
  let sourceIp ← (t.at? ["source_ip".toList]).bind Ptree.getText?
  let destinationIp ← (t.at? ["destination_ip".toList]).bind Ptree.getText?
  let sourcePort ← (t.at? ["source_port".toList]).bind Ptree.getUInt16?
  let destinationPort ← (t.at? ["destination_port".toList]).bind Ptree.getUInt16?
  let rtpEnabled ← (t.at? ["rtp_enabled".toList]).bind Ptree.getBool?
  pure { sourceIp, destinationIp, sourcePort, destinationPort, rtpEnabled }

def ReceiverTp.decode? (t : Ptree) : Option ReceiverTp := do
  let interfaceIp ← (t.at? ["interface_ip".toList]).bind Ptree.getText?
  let multicastIp ← (t.at? ["multicast_ip".toList]).bind Ptree.getNullable?
  let destinationPort ← (t.at? ["destination_port".toList]).bind Ptree.getUInt16?
  let sourceIp ← (t.at? ["source_ip".toList]).bind Ptree.getText?
  let rtpEnabled ← (t.at? ["rtp_enabled".toList]).bind Ptree.getBool?
  pure { interfaceIp, multicastIp, destinationPort, sourceIp, rtpEnabled }

/-- An activation; its deadline is not shown. -/
def Is05Activation.decode? (t : Ptree) : Option Is05Activation := do
  let mode ← (t.at? ["mode".toList]).bind Ptree.getNullable?
  let requestedTime ← (t.at? ["requested_time".toList]).bind Ptree.getNullable?
  let activationTime ← (t.at? ["activation_time".toList]).bind Ptree.getNullable?
  pure { mode, requestedTime, activationTime }

namespace Endpoint
variable {τ : Type}

def decode? (peerKey : Text) (leg : Ptree → Option τ) (t : Ptree) : Option (Endpoint τ) := do
  let masterEnable ← (t.at? ["master_enable".toList]).bind Ptree.getBool?
  let peerId ← (t.at? [peerKey]).bind Ptree.getNullable?
  let act ← (t.at? ["activation".toList]).bind Is05Activation.decode?
  let tp ← (t.at? ["transport_params".toList]).bind fun c => (c.children.map Prod.snd).mapM leg
  pure { masterEnable, peerId, act, tp }

/-- What a half shows: all of it but the deadline. -/
def shown (ep : Endpoint τ) : Endpoint τ := { ep with act := { ep.act with deadlineNs := -1 } }

/-- A text is a JSON text, and is read back as what a half shows. -/
def DecodesTo (peerKey : Text) (leg : Ptree → Option τ) (t : Text) (ep : Endpoint τ) : Prop :=
  (Json.read t).bind (decode? peerKey leg) = some ep.shown

end Endpoint

/-! ## What the texts are the texts of -/

def quotedValue (t : Text) : JsonValue := if t = [] then .null else .string t

def SenderTp.members (tp : SenderTp) : List (Text × JsonValue) :=
  [("source_ip".toList, .string tp.sourceIp), ("destination_ip".toList, .string tp.destinationIp),
    ("source_port".toList, .number (.natural tp.sourcePort.toNat)),
    ("destination_port".toList, .number (.natural tp.destinationPort.toNat)),
    ("rtp_enabled".toList, .bool tp.rtpEnabled)]

def ReceiverTp.members (tp : ReceiverTp) : List (Text × JsonValue) :=
  [("interface_ip".toList, .string tp.interfaceIp), ("multicast_ip".toList, quotedValue tp.multicastIp),
    ("destination_port".toList, .number (.natural tp.destinationPort.toNat)),
    ("source_ip".toList, .string tp.sourceIp), ("rtp_enabled".toList, .bool tp.rtpEnabled)]

def Is05Activation.members (act : Is05Activation) : List (Text × JsonValue) :=
  [("mode".toList, quotedValue act.mode), ("requested_time".toList, quotedValue act.requestedTime),
    ("activation_time".toList, quotedValue act.activationTime)]

def SenderTp.value (tp : SenderTp) : JsonValue := .object tp.members

def ReceiverTp.value (tp : ReceiverTp) : JsonValue := .object tp.members

def Is05Activation.value (act : Is05Activation) : JsonValue := .object act.members

def Endpoint.members {τ : Type} (peerKey : Text) (leg : τ → JsonValue) (ep : Endpoint τ) :
    List (Text × JsonValue) :=
  [("master_enable".toList, .bool ep.masterEnable), (peerKey, quotedValue ep.peerId),
    ("activation".toList, ep.act.value), ("transport_params".toList, .array (ep.tp.map leg))]

/-- What a half is shown as. -/
def Endpoint.value {τ : Type} (peerKey : Text) (leg : τ → JsonValue) (ep : Endpoint τ) : JsonValue :=
  .object (ep.members peerKey leg)

theorem text_bool (b : Bool) : (JsonValue.bool b).text = boolText b := by cases b <;> rfl

theorem text_quotedValue (t : Text) : (quotedValue t).text = quotedOrNull t := by
  rw [quotedValue, quotedOrNull]
  split <;> rfl

theorem text_number (n : ℕ) : (JsonValue.number (.natural n)).text = ofNat n := by
  simp [JsonValue.text, JsonNumber.literal, JsonNumber.natural]

theorem text_string (t : Text) : (JsonValue.string t).text = inQuotes t := rfl

theorem text_array (es : List JsonValue) : (JsonValue.array es).text =
    '[' :: ", ".toList.intercalate (es.map JsonValue.text) ++ [']'] := by
  rw [JsonValue.text, JsonValue.elementTexts_eq]

theorem text_object (ms : List (Text × JsonValue)) :
    (JsonValue.object ms).text = inBraces (ms.map fun m => (m.1, m.2.text)) := by
  rw [JsonValue.text, JsonValue.memberTexts_eq, inBraces, List.map_map]
  rfl

theorem text_senderTp (tp : SenderTp) : tp.value.text = tpSenderJson tp := by
  simp only [SenderTp.value, SenderTp.members, text_object, List.map_cons, List.map_nil, text_string, text_number, text_bool,
    tpSenderJson]

theorem text_receiverTp (tp : ReceiverTp) : tp.value.text = tpReceiverJson tp := by
  simp only [ReceiverTp.value, ReceiverTp.members, text_object, List.map_cons, List.map_nil, text_string, text_quotedValue,
    text_number, text_bool, tpReceiverJson]

theorem text_activation (act : Is05Activation) : act.value.text = activationJson act := by
  simp only [Is05Activation.value, Is05Activation.members, text_object, List.map_cons, List.map_nil, text_quotedValue, activationJson]

/-- **A half is shown as the text of its value.** -/
theorem text_endpoint {τ : Type} {peerKey : Text} {leg : τ → JsonValue} {tpJson : τ → Text}
    (hleg : ∀ tp, (leg tp).text = tpJson tp) (ep : Endpoint τ) :
    (ep.value peerKey leg).text = endpointJson peerKey tpJson ep := by
  have hlegs : (ep.tp.map leg).map JsonValue.text = ep.tp.map tpJson := by
    rw [List.map_map]
    exact List.map_congr_left fun tp _ => hleg tp
  simp only [Endpoint.value, Endpoint.members, text_object, List.map_cons, List.map_nil, text_quotedValue, text_bool,
    text_activation, text_array, hlegs, endpointJson]

/-! ## A half without anything to escape -/

/-- A member of an object with different names is found under its name. -/
theorem read_member {α : Type} {ms : List (Text × JsonValue)} (hkeys : (ms.map Prod.fst).Nodup) {key : Text}
    {v : JsonValue} (hkey : key ≠ []) (hmem : (key, v) ∈ ms) (f : Ptree → Option α) :
    ((JsonValue.object ms).ptree.at? [key]).bind f = f v.ptree := by
  have hfind : ms.find? (fun m => m.1 == key) = some (key, v) := by
    induction ms with
    | nil => cases hmem
    | cons m ms ih =>
        rw [List.map_cons, List.nodup_cons] at hkeys
        rcases List.mem_cons.mp hmem with rfl | hmem
        · exact List.find?_cons_of_pos (by simp)
        · have hne : m.1 ≠ key := by
            rintro rfl
            exact hkeys.1 (List.mem_map.mpr ⟨_, hmem, rfl⟩)
          rw [List.find?_cons_of_neg (by simpa using hne)]
          exact ih hkeys.2 hmem
  rw [JsonValue.at?_ptree _ (by simpa using hkey), JsonValue.at?, JsonValue.member?, hfind]
  rfl

theorem getUInt16?_number (p : UInt16) :
    (JsonValue.number (.natural p.toNat)).ptree.getUInt16? = some p := by
  have hp := p.toNat_lt
  rw [JsonValue.ptree, Ptree.getUInt16?, Ptree.data_leaf]
  simp [JsonNumber.literal, JsonNumber.natural, extractUnsigned_ofNat (show p.toNat ≤ 65535 by omega)]

theorem getBool?_bool (b : Bool) : (JsonValue.bool b).ptree.getBool? = some b := by
  cases b <;> decide

theorem getText?_string (t : Text) : (JsonValue.string t).ptree.getText? = some t := rfl

theorem getNullable?_quotedValue {t : Text} (ht : t ≠ "null".toList) :
    (quotedValue t).ptree.getNullable? = some t := by
  rw [quotedValue]
  split
  · rename_i hempty
    rw [hempty]
    rfl
  · exact congrArg some (nullable_of_ne ht)


theorem SenderTp.decode?_value (tp : SenderTp) : SenderTp.decode? tp.value.ptree = some tp := by
  have hkeys : (tp.members.map Prod.fst).Nodup := by
    show (["source_ip".toList, "destination_ip".toList, "source_port".toList, "destination_port".toList,
      "rtp_enabled".toList] : List Text).Nodup
    decide
  have h1 := (read_member hkeys (by decide) (.head _) Ptree.getText?).trans (getText?_string tp.sourceIp)
  have h2 := (read_member hkeys (by decide) (.tail _ (.head _)) Ptree.getText?).trans
    (getText?_string tp.destinationIp)
  have h3 := (read_member hkeys (by decide) (.tail _ (.tail _ (.head _))) Ptree.getUInt16?).trans
    (getUInt16?_number tp.sourcePort)
  have h4 := (read_member hkeys (by decide) (.tail _ (.tail _ (.tail _ (.head _)))) Ptree.getUInt16?).trans
    (getUInt16?_number tp.destinationPort)
  have h5 := (read_member hkeys (by decide) (.tail _ (.tail _ (.tail _ (.tail _ (.head _))))) Ptree.getBool?).trans
    (getBool?_bool tp.rtpEnabled)
  simp only [SenderTp.decode?, SenderTp.value, h1, h2, h3, h4, h5, Option.bind_eq_bind, Option.bind_some,
    Option.pure_def]

/-- A text that `null` clears can stand in a JSON string as it is, and is not taken for `null`. -/
def PlainSetting (t : Text) : Prop := PlainText t ∧ t ≠ "null".toList

/-- The texts of a leg of a sender need no escape. -/
structure SenderTp.Plain (tp : SenderTp) : Prop where
  sourceIp : PlainText tp.sourceIp
  destinationIp : PlainText tp.destinationIp

/-- The texts of a leg of a receiver need no escape. -/
structure ReceiverTp.Plain (tp : ReceiverTp) : Prop where
  interfaceIp : PlainText tp.interfaceIp
  multicastIp : PlainSetting tp.multicastIp
  sourceIp : PlainText tp.sourceIp

/-- The texts of an activation need no escape. -/
structure Is05Activation.Plain (act : Is05Activation) : Prop where
  mode : PlainSetting act.mode
  requestedTime : PlainSetting act.requestedTime
  activationTime : PlainSetting act.activationTime

/-- The texts of a half need no escape. -/
structure Endpoint.Plain {τ : Type} (leg : τ → Prop) (ep : Endpoint τ) : Prop where
  peerId : PlainSetting ep.peerId
  act : ep.act.Plain
  tp : ∀ tp ∈ ep.tp, leg tp

theorem ReceiverTp.decode?_value {tp : ReceiverTp} (H : tp.Plain) :
    ReceiverTp.decode? tp.value.ptree = some tp := by
  have hkeys : (tp.members.map Prod.fst).Nodup := by
    show (["interface_ip".toList, "multicast_ip".toList, "destination_port".toList, "source_ip".toList,
      "rtp_enabled".toList] : List Text).Nodup
    decide
  have h1 := (read_member hkeys (by decide) (.head _) Ptree.getText?).trans (getText?_string tp.interfaceIp)
  have h2 := (read_member hkeys (by decide) (.tail _ (.head _)) Ptree.getNullable?).trans
    (getNullable?_quotedValue H.multicastIp.2)
  have h3 := (read_member hkeys (by decide) (.tail _ (.tail _ (.head _))) Ptree.getUInt16?).trans
    (getUInt16?_number tp.destinationPort)
  have h4 := (read_member hkeys (by decide) (.tail _ (.tail _ (.tail _ (.head _)))) Ptree.getText?).trans
    (getText?_string tp.sourceIp)
  have h5 := (read_member hkeys (by decide) (.tail _ (.tail _ (.tail _ (.tail _ (.head _))))) Ptree.getBool?).trans
    (getBool?_bool tp.rtpEnabled)
  simp only [ReceiverTp.decode?, ReceiverTp.value, h1, h2, h3, h4, h5, Option.bind_eq_bind, Option.bind_some,
    Option.pure_def]

theorem Is05Activation.decode?_value {act : Is05Activation} (H : act.Plain) :
    Is05Activation.decode? act.value.ptree = some { act with deadlineNs := -1 } := by
  have hkeys : (act.members.map Prod.fst).Nodup := by
    show (["mode".toList, "requested_time".toList, "activation_time".toList] : List Text).Nodup
    decide
  have h1 := (read_member hkeys (by decide) (.head _) Ptree.getNullable?).trans (getNullable?_quotedValue H.mode.2)
  have h2 := (read_member hkeys (by decide) (.tail _ (.head _)) Ptree.getNullable?).trans
    (getNullable?_quotedValue H.requestedTime.2)
  have h3 := (read_member hkeys (by decide) (.tail _ (.tail _ (.head _))) Ptree.getNullable?).trans
    (getNullable?_quotedValue H.activationTime.2)
  simp only [Is05Activation.decode?, Is05Activation.value, h1, h2, h3, Option.bind_eq_bind, Option.bind_some,
    Option.pure_def]

/-- Legs that are read back one by one are read back together. -/
theorem mapM_decode {τ : Type} {value : τ → JsonValue} {decode : Ptree → Option τ} {tps : List τ}
    (h : ∀ tp ∈ tps, decode (value tp).ptree = some tp) :
    ((JsonValue.array (tps.map value)).ptree.children.map Prod.snd).mapM decode = some tps := by
  have hes : (JsonValue.array (tps.map value)).elements? = some (tps.map value) := rfl
  rw [JsonValue.children_elements hes, List.map_map]
  clear hes
  induction tps with
  | nil => rfl
  | cons tp tps ih =>
      rw [List.map_cons, List.mapM_cons, Function.comp_apply, h tp List.mem_cons_self,
        ih fun tp' htp => h tp' (List.mem_cons_of_mem _ htp)]
      rfl

/-- A key of the peer's id that is no other key of a half. -/
def PeerKey (peerKey : Text) : Prop :=
  peerKey ≠ [] ∧ PlainText peerKey ∧
    (["master_enable".toList, peerKey, "activation".toList, "transport_params".toList]).Nodup

/-- What a half shows is read back from its value. -/
theorem Endpoint.decode?_value {τ : Type} {peerKey : Text} (hpeer : PeerKey peerKey) {P : τ → Prop}
    {value : τ → JsonValue} {decode : Ptree → Option τ} {ep : Endpoint τ} (H : ep.Plain P)
    (hleg : ∀ tp, P tp → decode (value tp).ptree = some tp) :
    Endpoint.decode? peerKey decode (ep.value peerKey value).ptree = some ep.shown := by
  have hkeys : ((ep.members peerKey value).map Prod.fst).Nodup := hpeer.2.2
  have h1 := (read_member hkeys (by decide) (.head _) Ptree.getBool?).trans (getBool?_bool ep.masterEnable)
  have h2 := (read_member hkeys hpeer.1 (.tail _ (.head _)) Ptree.getNullable?).trans
    (getNullable?_quotedValue H.peerId.2)
  have h3 := (read_member hkeys (by decide) (.tail _ (.tail _ (.head _))) Is05Activation.decode?).trans
    (Is05Activation.decode?_value H.act)
  have h4 := (read_member hkeys (by decide) (.tail _ (.tail _ (.tail _ (.head _))))
    fun c => (c.children.map Prod.snd).mapM decode).trans (mapM_decode fun tp htp => hleg tp (H.tp tp htp))
  simp only [Endpoint.decode?, Endpoint.value, h1, h2, h3, h4, Option.bind_eq_bind, Option.bind_some,
    Option.pure_def, Endpoint.shown]

theorem plain_string {t : Text} (ht : PlainText t) : (JsonValue.string t).Plain := .string ht.1 ht.2

theorem plain_quotedValue {t : Text} (ht : PlainText t) : (quotedValue t).Plain := by
  rw [quotedValue]
  split
  · exact .null
  · exact plain_string ht

/-- An object is plain if its names and its values are. -/
theorem plain_object {ms : List (Text × JsonValue)} (hkeys : ∀ key ∈ ms.map Prod.fst, PlainText key)
    (h : ∀ v ∈ ms.map Prod.snd, v.Plain) : (JsonValue.object ms).Plain :=
  .object (fun _ hm => hkeys _ (List.mem_map_of_mem hm)) fun _ hm => h _ (List.mem_map_of_mem hm)

theorem SenderTp.plain_value {tp : SenderTp} (H : tp.Plain) : tp.value.Plain := by
  refine plain_object ?_ ?_
  · show ∀ key ∈ ["source_ip".toList, "destination_ip".toList, "source_port".toList, "destination_port".toList,
      "rtp_enabled".toList], PlainText key
    decide
  · simp only [SenderTp.members, List.map_cons, List.map_nil, List.forall_mem_cons]
    exact ⟨plain_string H.sourceIp, plain_string H.destinationIp, .number _, .number _, .bool _, by simp⟩

theorem ReceiverTp.plain_value {tp : ReceiverTp} (H : tp.Plain) : tp.value.Plain := by
  refine plain_object ?_ ?_
  · show ∀ key ∈ ["interface_ip".toList, "multicast_ip".toList, "destination_port".toList, "source_ip".toList,
      "rtp_enabled".toList], PlainText key
    decide
  · simp only [ReceiverTp.members, List.map_cons, List.map_nil, List.forall_mem_cons]
    exact ⟨plain_string H.interfaceIp, plain_quotedValue H.multicastIp.1, .number _, plain_string H.sourceIp,
      .bool _, by simp⟩

theorem Is05Activation.plain_value {act : Is05Activation} (H : act.Plain) : act.value.Plain := by
  refine plain_object ?_ ?_
  · show ∀ key ∈ ["mode".toList, "requested_time".toList, "activation_time".toList], PlainText key
    decide
  · simp only [Is05Activation.members, List.map_cons, List.map_nil, List.forall_mem_cons]
    exact ⟨plain_quotedValue H.mode.1, plain_quotedValue H.requestedTime.1,
      plain_quotedValue H.activationTime.1, by simp⟩

theorem Endpoint.plain_value {τ : Type} {peerKey : Text} (hpeer : PeerKey peerKey) {P : τ → Prop}
    {value : τ → JsonValue} {ep : Endpoint τ} (H : ep.Plain P) (hleg : ∀ tp, P tp → (value tp).Plain) :
    (ep.value peerKey value).Plain := by
  refine plain_object ?_ ?_
  · have hkeys : ∀ key ∈ ["master_enable".toList, "activation".toList, "transport_params".toList],
        PlainText key := by decide
    simp only [Endpoint.members, List.map_cons, List.map_nil, List.forall_mem_cons] at hkeys ⊢
    exact ⟨hkeys.1, hpeer.2.1, hkeys.2⟩
  · simp only [Endpoint.members, List.map_cons, List.map_nil, List.forall_mem_cons]
    refine ⟨.bool _, plain_quotedValue H.peerId.1, Is05Activation.plain_value H.act, .array fun v hv => ?_, by simp⟩
    obtain ⟨tp, htp, rfl⟩ := List.mem_map.mp hv
    exact hleg tp (H.tp tp htp)

/-- **A half without anything to escape is read back from its text.** -/
theorem Endpoint.decodesTo_of_plain {τ : Type} {peerKey : Text} (hpeer : PeerKey peerKey) {P : τ → Prop}
    {value : τ → JsonValue} {tpJson : τ → Text} {decode : Ptree → Option τ}
    (htext : ∀ tp, (value tp).text = tpJson tp)
    (hplain : ∀ tp, P tp → (value tp).Plain) (hread : ∀ tp, P tp → decode (value tp).ptree = some tp)
    {ep : Endpoint τ} (H : ep.Plain P) : ep.DecodesTo peerKey decode (endpointJson peerKey tpJson ep) := by
  rw [Endpoint.DecodesTo, ← text_endpoint htext, (Endpoint.plain_value hpeer H hplain).read_text,
    Option.bind_some]
  exact Endpoint.decode?_value hpeer H hread

/-- **A sender without anything to escape is read back.** -/
theorem decodesTo_sender {ep : Endpoint SenderTp} (H : ep.Plain SenderTp.Plain) :
    ep.DecodesTo "receiver_id".toList SenderTp.decode? (endpointJson "receiver_id".toList tpSenderJson ep) :=
  Endpoint.decodesTo_of_plain ⟨by decide, by decide, by decide⟩ text_senderTp (fun _ => SenderTp.plain_value)
    (fun tp _ => tp.decode?_value) H

/-- **A receiver without anything to escape is read back.** -/
theorem decodesTo_receiver {ep : Endpoint ReceiverTp} (H : ep.Plain ReceiverTp.Plain) :
    ep.DecodesTo "sender_id".toList ReceiverTp.decode? (endpointJson "sender_id".toList tpReceiverJson ep) :=
  Endpoint.decodesTo_of_plain ⟨by decide, by decide, by decide⟩ text_receiverTp
    (fun _ => ReceiverTp.plain_value) (fun _ => ReceiverTp.decode?_value) H

end Aes67Daemon
