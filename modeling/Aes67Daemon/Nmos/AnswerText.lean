import Aes67Daemon.Nmos.AutoReset
import Aes67Daemon.Nmos.ShownState

/-!
# The text of an answer

The answers of the control protocol are spliced from texts: of the object model, which are
numbers, constants and roles, and of the state, which are put between quotes as they are.
Where the texts of the state need no escape, an answer is JSON.

## Main definitions

* `PlainValue` — the text of a JSON value in which nothing is escaped.
* `NmosManager.spliced` — the texts of the state that an answer is spliced from.
* `NmosManager.plainValue_is12Command` — the value of an answer is JSON.
* `read_responses` — the message with the answers is JSON, and what it is read as.
-/
namespace Aes67Daemon

open Text

/-- The text of a JSON value in which nothing is escaped. -/
def PlainValue (t : Text) : Prop := ∃ v : JsonValue, v.Plain ∧ v.text = t

namespace PlainValue

theorem null : PlainValue "null".toList := ⟨.null, .null, rfl⟩

theorem bool (b : Bool) : PlainValue (boolText b) := ⟨.bool b, .bool b, by cases b <;> rfl⟩

theorem nat (n : ℕ) : PlainValue (ofNat n) :=
  ⟨.number (.natural n), .number n, by simp [JsonValue.text, JsonNumber.literal, JsonNumber.natural]⟩

theorem int (z : ℤ) : PlainValue (Json.printInt z) := by
  unfold Json.printInt
  split
  · exact ⟨.number (.negated z.natAbs), .negated z.natAbs, by simp [JsonValue.text, JsonNumber.literal, JsonNumber.negated]⟩
  · exact nat z.natAbs

theorem string {t : Text} (ht : PlainText t) : PlainValue (inQuotes t) := ⟨.string t, .string ht.1 ht.2, rfl⟩

theorem values {ts : List Text} (h : ∀ t ∈ ts, PlainValue t) :
    ∃ vs : List JsonValue, (∀ v ∈ vs, v.Plain) ∧ vs.map JsonValue.text = ts := by
  induction ts with
  | nil => exact ⟨[], by simp, rfl⟩
  | cons t ts ih =>
      obtain ⟨ht, hts⟩ := List.forall_mem_cons.mp h
      obtain ⟨v, hv, htext⟩ := ht
      obtain ⟨vs, hvs, htexts⟩ := ih hts
      exact ⟨v :: vs, List.forall_mem_cons.mpr ⟨hv, hvs⟩, by rw [List.map_cons, htext, htexts]⟩

theorem array {ts : List Text} (h : ∀ t ∈ ts, PlainValue t) : PlainValue ('[' :: commaSeparated ts ++ [']']) := by
  obtain ⟨vs, hvs, rfl⟩ := values h
  exact ⟨.array vs, .array hvs, by rw [JsonValue.text, JsonValue.elementTexts_eq]; rfl⟩

theorem object {ms : List (Text × Text)} (h : ∀ m ∈ ms, PlainText m.1 ∧ PlainValue m.2) :
    PlainValue ('{' :: commaSeparated (ms.map Json.memberText) ++ ['}']) := by
  suffices H : ∃ vs : List (Text × JsonValue), (∀ v ∈ vs, PlainText v.1 ∧ v.2.Plain) ∧
      vs.map (fun v => (v.1, v.2.text)) = ms by
    obtain ⟨vs, hvs, rfl⟩ := H
    refine ⟨.object vs, .object (fun v hv => (hvs v hv).1) fun v hv => (hvs v hv).2, ?_⟩
    rw [JsonValue.text, JsonValue.memberTexts_eq, List.map_map]
    rfl
  induction ms with
  | nil => exact ⟨[], by simp, rfl⟩
  | cons m ms ih =>
      obtain ⟨⟨hkey, v, hv, htext⟩, hms⟩ := List.forall_mem_cons.mp h
      obtain ⟨vs, hvs, hmap⟩ := ih hms
      exact ⟨(m.1, v) :: vs, List.forall_mem_cons.mpr ⟨⟨hkey, hv⟩, hvs⟩, by rw [List.map_cons, hmap, htext]⟩

end PlainValue

/-! ## The object model -/

theorem plainText_printInt (z : ℤ) : PlainText (Json.printInt z) := by
  unfold Json.printInt
  split
  · exact plainText_cons (by decide) (plainText_ofNat _)
  · exact plainText_ofNat _

theorem plainText_literal {s : String} {t : Text} (hs : s = .ofList t) (ht : PlainText t) : PlainText s.toList := by
  rw [hs, String.toList_ofList]
  exact ht

/-- The keys of the objects in the answers. -/
def answerKeys : List String :=
  ["level", "index", "oid", "role", "classId", "id", "name", "typeName", "isReadOnly", "isNullable", "isSequence",
    "properties", "methods", "resourceType", "organizationId", "website", "key", "revisionLevel", "brandName", "uuid",
    "description", "generic", "deviceSpecificDetails", "status", "value", "errorMessage"]

theorem plainText_answerKeys : ∀ key ∈ answerKeys, PlainText key.toList := by
  unfold answerKeys
  -- one key of the list at a time
  repeat first
    | exact List.forall_mem_nil _
    | refine List.forall_mem_cons.mpr ⟨plainText_literal rfl (by decide), ?_⟩

theorem plainText_keys {keys : List String} (hkeys : keys ⊆ answerKeys) : ∀ key ∈ keys, PlainText key.toList :=
  fun key hkey => plainText_answerKeys key (hkeys hkey)

/-- The text of an object with these members. -/
def objectJson (ms : List (String × Text)) : Text :=
  '{' :: commaSeparated (ms.map fun m => Json.memberText (m.1.toList, m.2)) ++ ['}']

theorem plainValue_objectJson {ms : List (String × Text)} (keys : List String) (hms : ms.map Prod.fst = keys)
    (hkeys : ∀ key ∈ keys, PlainText key.toList) (h : ∀ v ∈ ms.map Prod.snd, PlainValue v) :
    PlainValue (objectJson ms) := by
  have hparts : ∀ m ∈ ms.map fun m => (m.1.toList, m.2), PlainText m.1 ∧ PlainValue m.2 := by
    intro m hm
    obtain ⟨m', hm', rfl⟩ := List.mem_map.mp hm
    exact ⟨hkeys _ (hms ▸ List.mem_map_of_mem hm'), h _ (List.mem_map_of_mem hm')⟩
  have hobject := PlainValue.object hparts
  rw [List.map_map] at hobject
  exact hobject

theorem plainValue_ints (ns : List ℤ) : PlainValue ('[' :: commaSeparated (ns.map Json.printInt) ++ [']']) := by
  refine PlainValue.array fun t ht => ?_
  obtain ⟨n, -, rfl⟩ := List.mem_map.mp ht
  exact PlainValue.int n

theorem plainValue_elementId (level index : ℤ) : PlainValue (elementIdJson level index) := by
  have htext : elementIdJson level index =
      objectJson [("level", Json.printInt level), ("index", Json.printInt index)] := by
    unfold elementIdJson
    generalize Json.printInt level = l
    generalize Json.printInt index = i
    simp [objectJson, commaSeparated, Json.memberText, List.intercalate, List.intersperse]
  rw [htext]
  refine plainValue_objectJson ["level", "index"] rfl (plainText_keys (by simp [answerKeys])) ?_
  simpa using ⟨PlainValue.int level, PlainValue.int index⟩

theorem plainValue_member {m : NcMemberDescriptor} (hrole : PlainText m.role) : PlainValue m.json := by
  have htext : m.json = objectJson [("oid", Json.printInt m.oid), ("role", inQuotes m.role),
      ("classId", '[' :: commaSeparated (m.classId.map Json.printInt) ++ [']'])] := by
    unfold NcMemberDescriptor.json
    generalize Json.printInt m.oid = o
    generalize inQuotes m.role = r
    generalize commaSeparated (m.classId.map Json.printInt) = c
    simp [objectJson, commaSeparated, Json.memberText, List.intercalate, List.intersperse]
  rw [htext]
  refine plainValue_objectJson ["oid", "role", "classId"] rfl (plainText_keys (by simp [answerKeys])) ?_
  simpa using ⟨PlainValue.int m.oid, PlainValue.string hrole, plainValue_ints m.classId⟩

/-- What is told about a property needs no escape. -/
def NcPropertyDescriptor.IsPlain (p : NcPropertyDescriptor) : Prop :=
  0 ≤ p.level ∧ 0 ≤ p.index ∧ PlainText p.name.toList ∧ PlainText p.typeName.toList

instance (p : NcPropertyDescriptor) : Decidable p.IsPlain := inferInstanceAs (Decidable (_ ∧ _ ∧ _ ∧ _))

/-- What is told about a method needs no escape. -/
def NcMethodDescriptor.IsPlain (m : NcMethodDescriptor) : Prop :=
  0 ≤ m.level ∧ 0 ≤ m.index ∧ PlainText m.name.toList

instance (m : NcMethodDescriptor) : Decidable m.IsPlain := inferInstanceAs (Decidable (_ ∧ _ ∧ _))

theorem plainValue_property {p : NcPropertyDescriptor} (hp : p.IsPlain) : PlainValue p.json := by
  obtain ⟨-, -, hname, htype⟩ := hp
  have htext : p.json = objectJson [("id", elementIdJson p.level p.index), ("name", inQuotes p.name.toList),
      ("typeName", inQuotes p.typeName.toList), ("isReadOnly", boolText p.isReadOnly),
      ("isNullable", boolText p.isNullable), ("isSequence", boolText p.isSequence)] := by
    unfold NcPropertyDescriptor.json
    generalize elementIdJson p.level p.index = i
    generalize inQuotes p.name.toList = n
    generalize inQuotes p.typeName.toList = t
    generalize boolText p.isReadOnly = r
    generalize boolText p.isNullable = u
    generalize boolText p.isSequence = q
    simp [objectJson, commaSeparated, Json.memberText, List.intercalate, List.intersperse]
  rw [htext]
  refine plainValue_objectJson ["id", "name", "typeName", "isReadOnly", "isNullable", "isSequence"] rfl
    (plainText_keys (by simp [answerKeys])) ?_
  simpa using ⟨plainValue_elementId _ _, PlainValue.string hname, PlainValue.string htype, PlainValue.bool _,
    PlainValue.bool _, PlainValue.bool _⟩

theorem plainValue_method {m : NcMethodDescriptor} (hm : m.IsPlain) : PlainValue m.json := by
  obtain ⟨-, -, hname⟩ := hm
  have htext : m.json = objectJson [("id", elementIdJson m.level m.index), ("name", inQuotes m.name.toList)] := by
    unfold NcMethodDescriptor.json
    generalize elementIdJson m.level m.index = i
    generalize inQuotes m.name.toList = n
    simp [objectJson, commaSeparated, Json.memberText, List.intercalate, List.intersperse]
  rw [htext]
  refine plainValue_objectJson ["id", "name"] rfl (plainText_keys (by simp [answerKeys])) ?_
  simpa using ⟨plainValue_elementId _ _, PlainValue.string hname⟩

/-- What is told about a class needs no escape. -/
structure NcClassDescriptor.IsPlain (d : NcClassDescriptor) : Prop where
  classId : ∀ n ∈ d.classId, 0 ≤ n
  name : PlainText d.name.toList
  properties : ∀ p ∈ d.properties, p.IsPlain
  methods : ∀ m ∈ d.methods, m.IsPlain

theorem plainValue_class {d : NcClassDescriptor} (hd : d.IsPlain) : PlainValue d.json := by
  have htext : d.json = objectJson [("classId", '[' :: commaSeparated (d.classId.map Json.printInt) ++ [']']),
      ("name", inQuotes d.name.toList),
      ("properties", '[' :: commaSeparated (d.properties.map NcPropertyDescriptor.json) ++ [']']),
      ("methods", '[' :: commaSeparated (d.methods.map NcMethodDescriptor.json) ++ [']'])] := by
    unfold NcClassDescriptor.json
    generalize commaSeparated (d.classId.map Json.printInt) = c
    generalize inQuotes d.name.toList = n
    generalize commaSeparated (d.properties.map NcPropertyDescriptor.json) = p
    generalize commaSeparated (d.methods.map NcMethodDescriptor.json) = m
    simp [objectJson, commaSeparated, Json.memberText, List.intercalate, List.intersperse]
  have hproperties : ∀ t ∈ d.properties.map NcPropertyDescriptor.json, PlainValue t := by
    intro t ht
    obtain ⟨p, hp, rfl⟩ := List.mem_map.mp ht
    exact plainValue_property (hd.properties p hp)
  have hmethods : ∀ t ∈ d.methods.map NcMethodDescriptor.json, PlainValue t := by
    intro t ht
    obtain ⟨m, hm, rfl⟩ := List.mem_map.mp ht
    exact plainValue_method (hd.methods m hm)
  rw [htext]
  refine plainValue_objectJson ["classId", "name", "properties", "methods"] rfl
    (plainText_keys (by simp [answerKeys])) ?_
  simpa using ⟨plainValue_ints d.classId, PlainValue.string hd.name, PlainValue.array hproperties, PlainValue.array hmethods⟩

theorem NcPropertyDescriptor.isPlain_mk {level index : ℤ} {name typeName : String} {isReadOnly isNullable isSequence : Bool}
    {t u : Text} (hlevel : 0 ≤ level) (hindex : 0 ≤ index) (hname : name = .ofList t) (ht : PlainText t)
    (htype : typeName = .ofList u) (hu : PlainText u) :
    NcPropertyDescriptor.IsPlain ⟨level, index, name, typeName, isReadOnly, isNullable, isSequence⟩ :=
  ⟨hlevel, hindex, plainText_literal hname ht, plainText_literal htype hu⟩

theorem NcMethodDescriptor.isPlain_mk {level index : ℤ} {name : String} {t : Text} (hlevel : 0 ≤ level)
    (hindex : 0 ≤ index) (hname : name = .ofList t) (ht : PlainText t) :
    NcMethodDescriptor.IsPlain ⟨level, index, name⟩ :=
  ⟨hlevel, hindex, plainText_literal hname ht⟩

theorem isPlain_ncpClassDescriptor {classId : List ℤ} {d : NcClassDescriptor}
    (hd : ncpClassDescriptor classId = some d) : d.IsPlain := by
  rw [ncpClassDescriptor] at hd
  repeat' split at hd
  all_goals first
    | (rename_i hclass
       obtain rfl := Option.some.inj hd
       subst hclass
       refine ⟨by decide, plainText_literal rfl (by decide), ?_, ?_⟩)
    | cases hd
  -- one property or method of a class at a time
  all_goals
    repeat first
      | exact List.forall_mem_nil _
      | refine List.forall_mem_cons.mpr ⟨NcPropertyDescriptor.isPlain_mk (by decide) (by decide) rfl (by decide) rfl (by decide), ?_⟩
      | refine List.forall_mem_cons.mpr ⟨NcMethodDescriptor.isPlain_mk (by decide) (by decide) rfl (by decide), ?_⟩

theorem plainValue_members (s : NmosManager) : PlainValue s.ncpMemberDescriptorsJson := by
  refine PlainValue.array fun t ht => ?_
  obtain ⟨m, hm, rfl⟩ := List.mem_map.mp ht
  rw [NmosManager.ncpMemberDescriptors] at hm
  obtain rfl | hm := List.mem_cons.mp hm
  · exact plainValue_member (plainText_literal rfl (by decide))
  obtain rfl | hm := List.mem_cons.mp hm
  · exact plainValue_member (plainText_literal rfl (by decide))
  obtain ⟨⟨k, id⟩, -, rfl⟩ := List.mem_map.mp hm
  cases k with
  | sink =>
      have hrole : PlainText "ReceiverMonitor".toList := plainText_literal rfl (by decide)
      exact plainValue_member (hrole.append (plainText_ofNat _))
  | source =>
      have hrole : PlainText "SenderMonitor".toList := plainText_literal rfl (by decide)
      exact plainValue_member (hrole.append (plainText_ofNat _))

/-! ## What is taken from the state -/

/-- The texts in the message of `ncp_sync_status`. -/
def syncTexts (h : NmosHost) (e : MonitorEnv) : List Text :=
  if e.pcm.available then []
  else if h.host.config.isDualLeg ∧ e.ptp.status = "locked".toList ∧ e.ptp.legsAligned = false then
    [e.ptp.leg0Gmid, e.ptp.leg1Gmid]
  else if e.ptp.status = "locked".toList then []
  else [e.ptp.status]

/-- The text in `sync_source_id`. -/
def sourceIdTexts (e : MonitorEnv) : List Text :=
  if e.sourcePcm.available && e.sourcePcm.locked then [e.sourcePcm.gmidDash]
  else if e.sourcePtp.status = "locked".toList then [e.sourcePtp.gmid]
  else []

/-- The texts in a property of a monitor. -/
def monitorTexts (h : NmosHost) (e : MonitorEnv) (resourceId : Text) (active : Bool) (id : ℤ × ℤ) : List Text :=
  if id = (1, 7) then [resourceId]
  else if active ∧ id = (4, 8) then syncTexts h e
  else if active ∧ id = (4, 10) then sourceIdTexts e
  else []

/-- The texts in a property of the device manager. -/
def deviceManagerTexts (h : NmosHost) (id : ℤ × ℤ) : List Text :=
  if id = (3, 3) then [h.nmosLabel, h.nodeId] else if id = (3, 4) then [h.nodeId] else []

namespace NmosManager

/-- The id of a receiver or sender, and whether it is enabled. -/
def resource? (s : NmosManager) : Kind → UInt8 → Option (Text × Bool)
  | .sink, id => (s.receivers.find? id).map fun rr => (rr.receiverId, rr.active.masterEnable)
  | .source, id => (s.senders.find? id).map fun sr => (sr.senderId, sr.active.masterEnable)

/-- The texts of the state that the answer to a command is spliced from. -/
def spliced (h : NmosHost) (e : MonitorEnv) (s : NmosManager) (c : Is12Command) : List Text :=
  if c.mlevel = 1 ∧ c.mindex = 1 then
    if c.oid = kDeviceManagerOid then deviceManagerTexts h c.propertyId
    else
      match (monitorAt c.oid).bind fun monitor => s.resource? monitor.1 monitor.2 with
      | some resource => monitorTexts h e resource.1 resource.2 c.propertyId
      | none => []
  else []

end NmosManager

/-! ## Properties -/

variable {h : NmosHost} {e : MonitorEnv}

theorem plainValue_saying {status : Health} {message : String} (hm : PlainText message.toList) :
    PlainValue (status.saying message).2 :=
  PlainValue.string hm

theorem plainValue_linkStatus : PlainValue (ncpLinkStatus h e).2 := by
  unfold ncpLinkStatus
  repeat' split
  all_goals first
    | exact PlainValue.null
    | exact plainValue_saying (plainText_literal rfl (by decide))

theorem plainValue_connectionStatus (s : SinkStreamStatus) : PlainValue (connectionStatus s).2 := by
  simp only [connectionStatus]
  repeat' split
  all_goals first
    | exact PlainValue.null
    | exact plainValue_saying (plainText_literal rfl (by decide))

theorem plainValue_streamStatus (s : SinkStreamStatus) : PlainValue (streamStatus s).2 := by
  unfold streamStatus
  repeat' split
  all_goals first
    | exact PlainValue.null
    | exact plainValue_saying (plainText_literal rfl (by decide))

theorem plainValue_transmissionStatus (s : SourceStreamStatus) : PlainValue (transmissionStatus s).2 := by
  unfold transmissionStatus
  repeat' split
  all_goals first
    | exact PlainValue.null
    | exact plainValue_saying (plainText_literal rfl (by decide))

theorem plainValue_essenceStatus (s : SourceStreamStatus) : PlainValue (essenceStatus s).2 := by
  unfold essenceStatus
  split <;> exact PlainValue.null

theorem plainValue_syncStatus (htexts : ∀ t ∈ syncTexts h e, PlainText t) : PlainValue (ncpSyncStatus h e).2 := by
  have hptp : PlainText "PTP ".toList := plainText_literal rfl (by decide)
  unfold syncTexts at htexts
  unfold ncpSyncStatus
  split
  · split
    · exact PlainValue.null
    · have hword : PlainText (if e.pcm.locking then "locking" else "unlocked").toList := by
        split <;> exact plainText_literal rfl (by decide)
      have hoffset : PlainText ", offset ".toList := plainText_literal rfl (by decide)
      have hunit : PlainText "ns".toList := plainText_literal rfl (by decide)
      exact PlainValue.string ((((hptp.append hword).append hoffset).append (plainText_printInt _)).append hunit)
  · rename_i hpcm
    rw [if_neg hpcm] at htexts
    split
    · rename_i hlegs
      rw [if_pos hlegs] at htexts
      have hred : PlainText "Red and Blue legs are locked to different grandmasters (red: ".toList := plainText_literal rfl (by decide)
      have hblue : PlainText ", blue: ".toList := plainText_literal rfl (by decide)
      have hclose : PlainText ")".toList := plainText_literal rfl (by decide)
      obtain ⟨h0, h1⟩ : PlainText e.ptp.leg0Gmid ∧ PlainText e.ptp.leg1Gmid := by simpa using htexts
      exact PlainValue.string ((((hred.append h0).append hblue).append h1).append hclose)
    · rename_i hlegs
      rw [if_neg hlegs] at htexts
      split
      · split
        · refine plainValue_saying ?_
          split <;> exact plainText_literal rfl (by decide)
        · exact PlainValue.null
      · rename_i hlocked
        rw [if_neg hlocked] at htexts
        exact PlainValue.string (hptp.append (htexts _ List.mem_cons_self))

/-- One character in ASCII for another does not matter. -/
theorem plainText_colonToDashMac {t : Text} (ht : PlainText t) : PlainText (colonToDashMac t) := by
  refine ⟨fun c hc => ?_, ?_⟩
  · obtain ⟨d, hd, rfl⟩ := List.mem_map.mp hc
    split
    · decide
    · exact ht.1 d hd
  · have hsame : ∀ n t, Json.isUtf8From n (colonToDashMac t) = Json.isUtf8From n t := by
      intro n t
      induction t generalizing n with
      | nil => rfl
      | cons c t ih =>
          rw [colonToDashMac, List.map_cons, ← colonToDashMac]
          by_cases hcolon : c = ':'
          · subst hcolon
            cases n with
            | zero => exact ih 0
            | succ n => rfl
          · rw [if_neg hcolon]
            cases n with
            | zero =>
                rw [Json.isUtf8From, Json.isUtf8From]
                split
                · exact ih _
                · rfl
            | succ n => rw [Json.isUtf8From, Json.isUtf8From, ih]
    rw [Json.isUtf8, hsame]
    exact ht.2

theorem plainValue_syncSourceId (htexts : ∀ t ∈ sourceIdTexts e, PlainText t) : PlainValue (syncSourceId e) := by
  unfold sourceIdTexts at htexts
  unfold syncSourceId
  split
  · rename_i hpcm
    rw [if_pos hpcm] at htexts
    exact PlainValue.string (htexts _ List.mem_cons_self)
  · rename_i hpcm
    rw [if_neg hpcm] at htexts
    split
    · rename_i hlocked
      rw [if_pos hlocked] at htexts
      exact PlainValue.string (plainText_colonToDashMac (htexts _ List.mem_cons_self))
    · exact PlainValue.null

/-- The texts of a reading are those of values. -/
structure MonitorReading.IsPlain (r : MonitorReading) (id : ℤ × ℤ) : Prop where
  link : PlainValue r.link.2
  secondary : PlainValue r.secondary.2
  sync : id = (4, 8) → PlainValue r.sync.2
  tertiary : PlainValue r.tertiary.2
  syncSourceId : id = (4, 10) → PlainValue r.syncSourceId

theorem MonitorReading.isPlain_inactive (id : ℤ × ℤ) : MonitorReading.IsPlain {} id :=
  ⟨PlainValue.null, PlainValue.null, fun _ => PlainValue.null, PlainValue.null, fun _ => PlainValue.null⟩

theorem isPlain_receiverReading {resourceId : Text} {active : Bool} {id : ℤ × ℤ}
    (htexts : ∀ t ∈ monitorTexts h e resourceId active id, PlainText t) :
    (receiverReading h e active).IsPlain id := by
  unfold receiverReading
  split
  · rename_i hactive
    refine ⟨plainValue_linkStatus, plainValue_connectionStatus _, ?_, plainValue_streamStatus _, ?_⟩
    · rintro rfl
      exact plainValue_syncStatus (by simpa [monitorTexts, hactive] using htexts)
    · rintro rfl
      exact plainValue_syncSourceId (by simpa [monitorTexts, hactive] using htexts)
  · exact MonitorReading.isPlain_inactive id

theorem isPlain_senderReading {resourceId : Text} {active : Bool} {id : ℤ × ℤ}
    (htexts : ∀ t ∈ monitorTexts h e resourceId active id, PlainText t) :
    (senderReading h e active).IsPlain id := by
  unfold senderReading
  split
  · rename_i hactive
    refine ⟨plainValue_linkStatus, plainValue_transmissionStatus _, ?_, plainValue_essenceStatus _, ?_⟩
    · rintro rfl
      exact plainValue_syncStatus (by simpa [monitorTexts, hactive] using htexts)
    · rintro rfl
      exact plainValue_syncSourceId (by simpa [monitorTexts, hactive] using htexts)
  · exact MonitorReading.isPlain_inactive id

theorem plainValue_monitorProps {type : String} {resourceId : Text} {active : Bool} {r : MonitorReading}
    {c : NcMonitorCounters} {p : NcPropEntry} (hp : p ∈ monitorProps type resourceId active r c)
    (htype : PlainText type.toList) (hid : (p.level, p.index) = (1, 7) → PlainText resourceId)
    (hr : r.IsPlain (p.level, p.index)) : PlainValue p.jsonValue := by
  simp only [monitorProps, List.mem_cons, List.not_mem_nil, or_false] at hp
  rcases hp with rfl | rfl | rfl | rfl | rfl | rfl | rfl | rfl | rfl | rfl | rfl | rfl | rfl | rfl | rfl | rfl | rfl
  · have hobject : PlainValue (objectJson [("resourceType", inQuotes type.toList), ("id", inQuotes resourceId)]) := by
      refine plainValue_objectJson ["resourceType", "id"] rfl (plainText_keys (by simp [answerKeys])) ?_
      simpa using ⟨PlainValue.string htype, PlainValue.string (hid rfl)⟩
    have htext : "[\x7b\"resourceType\": ".toList ++ inQuotes type.toList ++ ", \"id\": ".toList ++
        inQuotes resourceId ++ "\x7d]".toList =
        '[' :: commaSeparated [objectJson [("resourceType", inQuotes type.toList), ("id", inQuotes resourceId)]] ++ [']'] := by
      generalize inQuotes type.toList = t
      generalize inQuotes resourceId = i
      simp [objectJson, commaSeparated, Json.memberText, List.intercalate, List.intersperse]
    exact htext ▸ PlainValue.array (by simpa using hobject)
  all_goals first
    | exact PlainValue.nat _
    | exact PlainValue.int _
    | exact PlainValue.null
    | exact hr.link
    | exact hr.secondary
    | exact hr.sync rfl
    | exact hr.tertiary
    | exact hr.syncSourceId rfl
    | exact PlainValue.bool _

theorem plainValue_deviceManagerProps {p : NcPropEntry} (hp : p ∈ ncpDeviceManagerProps h)
    (htexts : ∀ t ∈ deviceManagerTexts h (p.level, p.index), PlainText t) : PlainValue p.jsonValue := by
  have hversion : PlainText "v1.0.0".toList := plainText_literal rfl (by decide)
  have hname : PlainText "aes67-linux-daemon".toList := plainText_literal rfl (by decide)
  have hwebsite : PlainText "https://github.com/bondagit/aes67-linux-daemon".toList := plainText_literal rfl (by decide)
  have hrevision : PlainText "1.0".toList := plainText_literal rfl (by decide)
  have hdescription : PlainText "AES67 Linux Daemon".toList := plainText_literal rfl (by decide)
  simp only [ncpDeviceManagerProps, List.mem_cons, List.not_mem_nil, or_false] at hp
  rcases hp with rfl | rfl | rfl | rfl | rfl | rfl | rfl | rfl | rfl | rfl
  · exact PlainValue.string hversion
  · have hobject : PlainValue (objectJson [("name", inQuotes "aes67-linux-daemon".toList),
        ("organizationId", "null".toList),
        ("website", inQuotes "https://github.com/bondagit/aes67-linux-daemon".toList)]) := by
      refine plainValue_objectJson ["name", "organizationId", "website"] rfl (plainText_keys (by simp [answerKeys])) ?_
      simpa only [List.map_cons, List.map_nil, List.forall_mem_cons] using ⟨PlainValue.string hname, PlainValue.null,
        PlainValue.string hwebsite, fun _ hv => absurd hv List.not_mem_nil⟩
    have htext : "\x7b\"name\": \"aes67-linux-daemon\", \"organizationId\": null, ".toList ++
        "\"website\": \"https://github.com/bondagit/aes67-linux-daemon\"\x7d".toList =
        objectJson [("name", inQuotes "aes67-linux-daemon".toList), ("organizationId", "null".toList),
          ("website", inQuotes "https://github.com/bondagit/aes67-linux-daemon".toList)] := by
      simp [objectJson, commaSeparated, Json.memberText, List.intercalate, List.intersperse, inQuotes]
    exact htext ▸ hobject
  · obtain ⟨hlabel, hnode⟩ : PlainText h.nmosLabel ∧ PlainText h.nodeId := by
      simpa [deviceManagerTexts] using htexts
    have hobject : PlainValue (objectJson [("name", inQuotes h.nmosLabel), ("key", inQuotes "aes67-linux-daemon".toList),
        ("revisionLevel", inQuotes "1.0".toList), ("brandName", inQuotes "aes67-linux-daemon".toList),
        ("uuid", inQuotes h.nodeId), ("description", inQuotes "AES67 Linux Daemon".toList)]) := by
      refine plainValue_objectJson ["name", "key", "revisionLevel", "brandName", "uuid", "description"] rfl
        (plainText_keys (by simp [answerKeys])) ?_
      simpa only [List.map_cons, List.map_nil, List.forall_mem_cons] using ⟨PlainValue.string hlabel,
        PlainValue.string hname, PlainValue.string hrevision, PlainValue.string hname, PlainValue.string hnode,
        PlainValue.string hdescription, fun _ hv => absurd hv List.not_mem_nil⟩
    have htext : "\x7b\"name\": ".toList ++ inQuotes h.nmosLabel ++ ", \"key\": \"aes67-linux-daemon\"".toList ++
        ", \"revisionLevel\": \"1.0\", \"brandName\": \"aes67-linux-daemon\"".toList ++ ", \"uuid\": ".toList ++
        inQuotes h.nodeId ++ ", \"description\": \"AES67 Linux Daemon\"\x7d".toList =
        objectJson [("name", inQuotes h.nmosLabel), ("key", inQuotes "aes67-linux-daemon".toList),
          ("revisionLevel", inQuotes "1.0".toList), ("brandName", inQuotes "aes67-linux-daemon".toList),
          ("uuid", inQuotes h.nodeId), ("description", inQuotes "AES67 Linux Daemon".toList)] := by
      generalize inQuotes h.nmosLabel = l
      generalize inQuotes h.nodeId = n
      simp [objectJson, commaSeparated, Json.memberText, List.intercalate, List.intersperse, inQuotes]
    exact htext ▸ hobject
  · exact PlainValue.string (htexts _ List.mem_cons_self)
  · exact PlainValue.null
  · exact PlainValue.null
  · exact PlainValue.null
  · have hobject : PlainValue (objectJson [("generic", ofNat 1), ("deviceSpecificDetails", "null".toList)]) := by
      refine plainValue_objectJson ["generic", "deviceSpecificDetails"] rfl (plainText_keys (by simp [answerKeys])) ?_
      simpa only [List.map_cons, List.map_nil, List.forall_mem_cons] using ⟨PlainValue.nat 1, PlainValue.null,
        fun _ hv => absurd hv List.not_mem_nil⟩
    have htext : "\x7b\"generic\": 1, \"deviceSpecificDetails\": null\x7d".toList =
        objectJson [("generic", ofNat 1), ("deviceSpecificDetails", "null".toList)] := by
      have hone : ofNat 1 = ['1'] := rfl
      simp [hone, objectJson, commaSeparated, Json.memberText, List.intercalate, List.intersperse]
    exact htext ▸ hobject
  · exact PlainValue.nat 0
  · exact PlainValue.null

/-! ## Answers -/

/-- The texts of a result need no escape. -/
structure Is12Result.IsPlain (r : Is12Result) : Prop where
  value : PlainValue r.valueJson
  errorMessage : PlainText r.errorMessage

namespace NmosManager
variable {s : NmosManager} {c : Is12Command} {m m' : MonitorCounters}

theorem isPlain_error {status : ℕ} {message : String} (hmessage : PlainText message.toList) :
    Is12Result.IsPlain { status := status, errorMessage := message.toList } :=
  ⟨PlainValue.null, hmessage⟩

theorem isPlain_is12Get {props : List NcPropEntry} {id : ℤ × ℤ}
    (hprops : ∀ p ∈ props, (p.level, p.index) = id → PlainValue p.jsonValue) : (is12Get props id).IsPlain := by
  unfold is12Get
  split
  · rename_i p hfind
    have hid : p.level = id.1 ∧ p.index = id.2 := by simpa using List.find?_some hfind
    exact ⟨hprops p (List.mem_of_find?_eq_some hfind) (Prod.ext hid.1 hid.2), plainText_nil⟩
  · split
    · exact isPlain_error (plainText_literal rfl (by decide))
    · exact isPlain_error (plainText_literal rfl (by decide))

theorem isPlain_packetCounters (known : Bool) : (is12PacketCounters known).IsPlain := by
  unfold is12PacketCounters
  split
  · exact ⟨PlainValue.array (List.forall_mem_nil _), plainText_nil⟩
  · exact isPlain_error (plainText_literal rfl (by decide))

theorem plainValue_ncpMonitorProps {k : Kind} {id : UInt8} {p : NcPropEntry}
    (hp : p ∈ (s.ncpMonitorProps h e k id m).1)
    (htexts : ∀ resource, s.resource? k id = some resource →
      ∀ t ∈ monitorTexts h e resource.1 resource.2 (p.level, p.index), PlainText t) : PlainValue p.jsonValue := by
  have hid : ∀ resourceId active, (∀ t ∈ monitorTexts h e resourceId active (p.level, p.index), PlainText t) →
      (p.level, p.index) = (1, 7) → PlainText resourceId := by
    intro resourceId active hplain heq
    exact hplain _ (by rw [monitorTexts, if_pos heq]; exact List.mem_cons_self)
  cases k with
  | sink =>
      rw [ncpMonitorProps, ncpReceiverMonitorProps] at hp
      split at hp
      · cases hp
      · rename_i rr hfind
        have hplain := htexts (rr.receiverId, rr.active.masterEnable) (by rw [resource?, hfind]; rfl)
        exact plainValue_monitorProps hp (plainText_literal rfl (by decide)) (hid _ _ hplain)
          (isPlain_receiverReading hplain)
  | source =>
      rw [ncpMonitorProps, ncpSenderMonitorProps] at hp
      split at hp
      · cases hp
      · rename_i sr hfind
        have hplain := htexts (sr.senderId, sr.active.masterEnable) (by rw [resource?, hfind]; rfl)
        exact plainValue_monitorProps hp (plainText_literal rfl (by decide)) (hid _ _ hplain)
          (isPlain_senderReading hplain)

/-- What a Get finds is a value. -/
theorem plainValue_ncpProps (hlevel : c.mlevel = 1) (hindex : c.mindex = 1)
    (hplain : ∀ t ∈ s.spliced h e c, PlainText t) {p : NcPropEntry} (hp : p ∈ (s.ncpProps h e c.oid m).1)
    (hid : (p.level, p.index) = c.propertyId) : PlainValue p.jsonValue := by
  rw [spliced, if_pos ⟨hlevel, hindex⟩] at hplain
  by_cases hmanager : c.oid = kDeviceManagerOid
  · rw [if_pos hmanager, ← hid] at hplain
    rw [ncpProps, if_pos hmanager] at hp
    exact plainValue_deviceManagerProps hp hplain
  · rw [if_neg hmanager] at hplain
    cases hat : monitorAt c.oid with
    | none =>
        have hnone : s.ncpProps h e c.oid m = ([], m) := by
          rw [ncpProps, if_neg hmanager]
          rw [monitorAt] at hat
          cases hsink : monitorOf .sink c.oid with
          | some id =>
            rw [hsink] at hat
            cases hat
          | none =>
            rw [hsink] at hat
            rw [Option.map_eq_none_iff.mp hat]
        rw [hnone] at hp
        cases hp
    | some monitor =>
        rw [ncpProps_monitor hat] at hp
        refine plainValue_ncpMonitorProps hp fun resource hresource => ?_
        rw [hat, Option.bind_some, hresource, ← hid] at hplain
        exact hplain

/-- **The value of an answer is JSON.** -/
theorem isPlain_is12Command {r : Is12Result} (hs : s.is12Command h e c m = some (r, m'))
    (hplain : ∀ t ∈ s.spliced h e c, PlainText t) : r.IsPlain := by
  rw [is12Command] at hs
  split at hs
  · obtain ⟨rfl, -⟩ := Prod.mk.inj (Option.some.inj hs)
    exact ⟨plainValue_members s, plainText_nil⟩
  split at hs
  · obtain ⟨classId, -, heq⟩ := Option.map_eq_some_iff.mp hs
    obtain ⟨rfl, -⟩ := Prod.mk.inj heq
    split
    · rename_i d hd
      have hclass := (Option.ite_none_left_eq_some.mp hd).2
      exact ⟨plainValue_class (isPlain_ncpClassDescriptor hclass), plainText_nil⟩
    · exact isPlain_error (plainText_literal rfl (by decide))
  split at hs
  · rename_i hget
    obtain ⟨rfl, -⟩ := Prod.mk.inj (Option.some.inj hs)
    exact isPlain_is12Get fun p hp hid => plainValue_ncpProps hget.1 hget.2 hplain hp hid
  split at hs
  · split at hs
    · obtain ⟨rfl, -⟩ := Prod.mk.inj (Option.some.inj hs)
      exact ⟨PlainValue.null, plainText_nil⟩
    · obtain ⟨rfl, -⟩ := Prod.mk.inj (Option.some.inj hs)
      exact isPlain_error (plainText_literal rfl (by decide))
  split at hs
  · obtain ⟨rfl, -⟩ := Prod.mk.inj (Option.some.inj hs)
    exact isPlain_packetCounters _
  split at hs
  · obtain ⟨rfl, -⟩ := Prod.mk.inj (Option.some.inj hs)
    exact isPlain_packetCounters _
  · obtain ⟨rfl, -⟩ := Prod.mk.inj (Option.some.inj hs)
    exact isPlain_error (plainText_literal rfl (by decide))

end NmosManager

/-! ## The message with the answers -/

theorem forall_mem_two {α : Type*} {P : α → Prop} {a b : α} : (∀ x ∈ [a, b], P x) ↔ P a ∧ P b := by simp

/-- What a response is read as. -/
def responseTree (handle : ℤ) (result : Ptree) : Ptree :=
  .node [] [("handle".toList, .leaf (Json.printInt handle)), ("result".toList, result)]

theorem PlainValue.reads {t : Text} (ht : PlainValue t) : ∃ tree, Json.Reads t tree ∧ Json.isUtf8 t = true := by
  obtain ⟨v, hv, rfl⟩ := ht
  exact ⟨v.ptree, hv.reads_text, hv.isUtf8_text⟩

theorem plainValue_result {r : Is12Result} (hr : r.IsPlain) : PlainValue (objectJson [("status", ofNat r.status),
    ("value", r.valueJson),
    ("errorMessage", if r.errorMessage = [] then "null".toList else inQuotes r.errorMessage)]) := by
  refine plainValue_objectJson ["status", "value", "errorMessage"] rfl (plainText_keys (by simp [answerKeys])) ?_
  have herror : PlainValue (if r.errorMessage = [] then "null".toList else inQuotes r.errorMessage) := by
    split
    · exact PlainValue.null
    · exact PlainValue.string hr.errorMessage
  simpa using ⟨PlainValue.nat _, hr.value, herror⟩

theorem reads_response (handle : ℤ) {r : Is12Result} (hr : r.IsPlain) : ∃ result,
    Json.Reads (responseJson handle r) (responseTree handle result) ∧ Json.isUtf8 (responseJson handle r) = true := by
  obtain ⟨result, hreads, hutf8⟩ := (plainValue_result hr).reads
  have htext : responseJson handle r = Json.objectText [("handle".toList, Json.printInt handle,
      .leaf (Json.printInt handle)), ("result".toList, objectJson [("status", ofNat r.status), ("value", r.valueJson),
      ("errorMessage", if r.errorMessage = [] then "null".toList else inQuotes r.errorMessage)], result)] := by
    unfold responseJson
    generalize (if r.errorMessage = [] then "null".toList else inQuotes r.errorMessage) = message
    generalize Json.printInt handle = handle
    generalize ofNat r.status = status
    generalize r.valueJson = value
    simp [Json.objectText, objectJson, commaSeparated, Json.memberText, List.intercalate, List.intersperse]
  have hhandle : PlainText "handle".toList := plainText_literal rfl (by decide)
  have hresult : PlainText "result".toList := plainText_literal rfl (by decide)
  refine ⟨result, ?_, ?_⟩
  · rw [htext]
    exact Json.reads_objectText _ (forall_mem_two.mpr ⟨⟨hhandle.1, Json.reads_int handle⟩, hresult.1, hreads⟩)
  · rw [htext]
    exact Json.isUtf8_objectText _ (forall_mem_two.mpr ⟨⟨hhandle.2, isUtf8_printInt handle⟩, hresult.2, hutf8⟩)

theorem reads_each {results : List (ℤ × Is12Result)} (hresults : ∀ r ∈ results, r.2.IsPlain) :
    ∃ parts : List (Text × Ptree), parts.map Prod.fst = (results.map fun r => responseJson r.1 r.2) ∧
      List.Forall₂ (fun r tree => ∃ result, tree = responseTree r.1 result) results (parts.map Prod.snd) ∧
      ∀ part ∈ parts, Json.Reads part.1 part.2 ∧ Json.isUtf8 part.1 = true := by
  induction results with
  | nil => exact ⟨[], rfl, .nil, by simp⟩
  | cons r results ih =>
      obtain ⟨hr, hresults⟩ := List.forall_mem_cons.mp hresults
      obtain ⟨result, hreads, hutf8⟩ := reads_response r.1 hr
      obtain ⟨parts, htexts, htrees, hparts⟩ := ih hresults
      refine ⟨(responseJson r.1 r.2, responseTree r.1 result) :: parts, ?_, .cons ⟨result, rfl⟩ htrees,
        List.forall_mem_cons.mpr ⟨⟨hreads, hutf8⟩, hparts⟩⟩
      rw [List.map_cons, htexts, List.map_cons]

theorem responsesText_eq (responses : Text) (tree : Ptree) :
    "\x7b\"messageType\": 1, \"responses\": [".toList ++ responses ++ "]\x7d".toList =
      Json.objectText [("messageType".toList, ['1'], .leaf ['1']), ("responses".toList, '[' :: responses ++ [']'], tree)] := by
  simp [Json.objectText, Json.memberText, List.intercalate, List.intersperse]

theorem read_objectText {ms : List (Text × Text × Ptree)}
    (h : ∀ m ∈ ms, PlainText m.1 ∧ Json.Reads m.2.1 m.2.2 ∧ Json.isUtf8 m.2.1 = true) :
    Json.read (Json.objectText ms) = some (.node [] (ms.map fun m => (m.1, m.2.2))) := by
  have hread := Json.read_eq (w := []) (Json.reads_objectText ms fun m hm => ⟨(h m hm).1.1, (h m hm).2.1⟩)
    (Json.isUtf8_objectText ms fun m hm => ⟨(h m hm).1.2, (h m hm).2.2⟩) (by simp)
  rwa [List.append_nil] at hread

theorem read_responsesText {parts : List (Text × Ptree)}
    (hparts : ∀ part ∈ parts, Json.Reads part.1 part.2 ∧ Json.isUtf8 part.1 = true) :
    Json.read (Json.objectText [("messageType".toList, ['1'], .leaf ['1']), ("responses".toList,
        '[' :: commaSeparated (parts.map Prod.fst) ++ [']'], .node [] (parts.map fun part => ([], part.2)))]) =
      some (.node [] [("messageType".toList, .leaf ['1']),
        ("responses".toList, .node [] (parts.map fun part => ([], part.2)))]) := by
  have hnone : ∀ c ∈ ([] : Text), Json.isWs c = true := by simp
  have hone : ∀ c ∈ [' '], Json.isWs c = true := by simp [Json.isWs]
  have harray : Json.Reads ('[' :: commaSeparated (parts.map Prod.fst) ++ [']'])
      (.node [] (parts.map fun part => ([], part.2))) := by
    have hreads := Json.reads_array hnone hone hnone fun part hpart => (hparts part hpart).1
    rw [List.append_nil] at hreads
    exact hreads
  have helements : Json.isUtf8 (commaSeparated (parts.map Prod.fst)) = true :=
    Json.isUtf8_intercalate rfl fun t ht => by
      obtain ⟨part, hpart, rfl⟩ := List.mem_map.mp ht
      exact (hparts part hpart).2
  have hutf8 : Json.isUtf8 ('[' :: commaSeparated (parts.map Prod.fst) ++ [']']) = true :=
    Json.isUtf8_append (Json.isUtf8_append (t := ['[']) rfl helements) rfl
  have htype : PlainText "messageType".toList := plainText_literal rfl (by decide)
  have hresponses : PlainText "responses".toList := plainText_literal rfl (by decide)
  exact read_objectText (forall_mem_two.mpr ⟨⟨htype, Json.reads_nat 1, rfl⟩, hresponses, harray, hutf8⟩)

/-- **The message with the answers is JSON, with one response for each.** -/
theorem read_responses {results : List (ℤ × Is12Result)} (hresults : ∀ r ∈ results, r.2.IsPlain) :
    ∃ trees, List.Forall₂ (fun r tree => ∃ result, tree = responseTree r.1 result) results trees ∧
      Json.read (Is12Message.responses results).json = some (.node [] [("messageType".toList, .leaf ['1']),
        ("responses".toList, .node [] (trees.map fun tree => ([], tree)))]) := by
  obtain ⟨parts, htexts, htrees, hparts⟩ := reads_each hresults
  refine ⟨parts.map Prod.snd, htrees, ?_⟩
  have hread := read_responsesText hparts
  rw [← responsesText_eq, htexts] at hread
  rw [List.map_map]
  exact hread

end Aes67Daemon
