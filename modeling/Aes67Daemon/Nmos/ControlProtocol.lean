import Aes67Daemon.Nmos.Monitors

/-!
# The control protocol

The messages of `nmos_is12.cpp`: the members of the root block, the descriptors of the
classes, and the chain of tests that dispatches a command by its oid and method.  An
answer is kept apart from its text.  Boost's JSON reader is a parameter; it makes a
property tree of a message, and where a value that has to be an integer is none, an
exception leaves the handler and the result is `none`.

## Main definitions

* `NmosManager.ncpMemberDescriptors`, `ncpClassDescriptor` — what is told about objects.
* `Is12Command`, `NmosManager.is12Command` — the answer to a command.
* `Is12Message`, `NmosManager.handleIs12Message` — the answer to a message.
-/
namespace Aes67Daemon

open Text

/-- Texts in a row, with a comma and a space between. -/
def commaSeparated (ts : List Text) : Text := ", ".toList.intercalate ts

/-! ## The object model -/

/-- A member of the root block. -/
structure NcMemberDescriptor where
  oid : ℤ
  role : Text
  classId : List ℤ
  deriving DecidableEq

def NcMemberDescriptor.json (m : NcMemberDescriptor) : Text :=
  "\x7b\"oid\": ".toList ++ Json.printInt m.oid ++ ", \"role\": ".toList ++ inQuotes m.role ++
    ", \"classId\": [".toList ++ commaSeparated (m.classId.map Json.printInt) ++ "]\x7d".toList

/-- The member for the monitor of a stream. -/
def monitorMember (k : Kind) (id : UInt8) : NcMemberDescriptor :=
  match k with
  | .sink => ⟨monitorOid .sink id, "ReceiverMonitor".toList ++ ofNat id.toNat, [1, 2, 2, 1]⟩
  | .source => ⟨monitorOid .source id, "SenderMonitor".toList ++ ofNat id.toNat, [1, 2, 2, 2]⟩

/-- The monitors there are, as the notify worker and the root block list them. -/
def NmosManager.monitors (s : NmosManager) : List (Kind × UInt8) :=
  (s.receivers.entries.map fun e => (Kind.sink, e.1)) ++ s.senders.entries.map fun e => (Kind.source, e.1)

/-- The members of the root block. -/
def NmosManager.ncpMemberDescriptors (s : NmosManager) : List NcMemberDescriptor :=
  ⟨kDeviceManagerOid, "DeviceManager".toList, [1, 3, 1]⟩ :: ⟨kClassManagerOid, "ClassManager".toList, [1, 3, 2]⟩ ::
    s.monitors.map fun m => monitorMember m.1 m.2

/-- `ncp_member_descriptors_json`. -/
def NmosManager.ncpMemberDescriptorsJson (s : NmosManager) : Text :=
  '[' :: commaSeparated (s.ncpMemberDescriptors.map NcMemberDescriptor.json) ++ [']']

/-- What `json_prop_descriptor` is given. -/
structure NcPropertyDescriptor where
  level : ℤ
  index : ℤ
  name : String
  typeName : String
  isReadOnly : Bool
  isNullable : Bool
  isSequence : Bool

/-- What `json_method_descriptor` is given. -/
structure NcMethodDescriptor where
  level : ℤ
  index : ℤ
  name : String

/-- The text of an id. -/
def elementIdJson (level index : ℤ) : Text :=
  "\x7b\"level\": ".toList ++ Json.printInt level ++ ", \"index\": ".toList ++ Json.printInt index ++ ['}']

/-- `json_prop_descriptor`. -/
def NcPropertyDescriptor.json (p : NcPropertyDescriptor) : Text :=
  "\x7b\"id\": ".toList ++ elementIdJson p.level p.index ++ ", \"name\": ".toList ++ inQuotes p.name.toList ++
    ", \"typeName\": ".toList ++ inQuotes p.typeName.toList ++ ", \"isReadOnly\": ".toList ++ boolText p.isReadOnly ++
    ", \"isNullable\": ".toList ++ boolText p.isNullable ++ ", \"isSequence\": ".toList ++ boolText p.isSequence ++ ['}']

/-- `json_method_descriptor`. -/
def NcMethodDescriptor.json (m : NcMethodDescriptor) : Text :=
  "\x7b\"id\": ".toList ++ elementIdJson m.level m.index ++ ", \"name\": ".toList ++ inQuotes m.name.toList ++ ['}']

/-- A class descriptor. -/
structure NcClassDescriptor where
  classId : List ℤ
  name : String
  properties : List NcPropertyDescriptor := []
  methods : List NcMethodDescriptor := []

def NcClassDescriptor.json (d : NcClassDescriptor) : Text :=
  "\x7b\"classId\": [".toList ++ commaSeparated (d.classId.map Json.printInt) ++ "], \"name\": ".toList ++
    inQuotes d.name.toList ++ ", \"properties\": [".toList ++ commaSeparated (d.properties.map NcPropertyDescriptor.json) ++
    "], \"methods\": [".toList ++ commaSeparated (d.methods.map NcMethodDescriptor.json) ++ "]\x7d".toList

/-- The properties of `NcStatusMonitor`. -/
def statusMonitorProperties : List NcPropertyDescriptor :=
  [.mk 3 1 "overallStatus" "NcOverallStatus" true false false,
    .mk 3 2 "overallStatusMessage" "NcString" true true false]

/-- The properties of `NcDeviceManager`. -/
def deviceManagerProperties : List NcPropertyDescriptor :=
  [.mk 3 1 "ncVersion" "NcString" true false false,
    .mk 3 2 "manufacturer" "NcManufacturer" true false false,
    .mk 3 3 "product" "NcProduct" true false false,
    .mk 3 4 "serialNumber" "NcString" true false false,
    .mk 3 5 "userInventoryCode" "NcString" true true false,
    .mk 3 6 "deviceName" "NcString" true true false,
    .mk 3 7 "deviceRole" "NcString" true true false,
    .mk 3 8 "operationalState" "NcDeviceOperationalState" true false false,
    .mk 3 9 "resetCause" "NcResetCause" true false false,
    .mk 3 10 "message" "NcString" true true false]

/-- The properties of `NcReceiverMonitor`. -/
def receiverMonitorProperties : List NcPropertyDescriptor :=
  [.mk 1 7 "touchpoints" "NcTouchpoint" true true true,
    .mk 3 1 "overallStatus" "NcOverallStatus" true false false,
    .mk 3 2 "overallStatusMessage" "NcString" true true false,
    .mk 4 1 "linkStatus" "NcLinkStatus" true false false,
    .mk 4 2 "linkStatusMessage" "NcString" true true false,
    .mk 4 3 "linkStatusTransitionCounter" "NcUint32" true false false,
    .mk 4 4 "connectionStatus" "NcConnectionStatus" true false false,
    .mk 4 5 "connectionStatusMessage" "NcString" true true false,
    .mk 4 6 "connectionStatusTransitionCounter" "NcUint32" true false false,
    .mk 4 7 "externalSynchronizationStatus" "NcSynchronizationStatus" true false false,
    .mk 4 8 "externalSynchronizationStatusMessage" "NcString" true true false,
    .mk 4 9 "externalSynchronizationStatusTransitionCounter" "NcUint32" true false false,
    .mk 4 10 "synchronizationSourceId" "NcString" true true false,
    .mk 4 11 "streamStatus" "NcStreamStatus" true false false,
    .mk 4 12 "streamStatusMessage" "NcString" true true false,
    .mk 4 13 "streamStatusTransitionCounter" "NcUint32" true false false,
    .mk 4 14 "autoResetCountersAndMessages" "NcBoolean" false false false]

/-- The properties of `NcSenderMonitor`. -/
def senderMonitorProperties : List NcPropertyDescriptor :=
  [.mk 1 7 "touchpoints" "NcTouchpoint" true true true,
    .mk 3 1 "overallStatus" "NcOverallStatus" true false false,
    .mk 3 2 "overallStatusMessage" "NcString" true true false,
    .mk 4 1 "linkStatus" "NcLinkStatus" true false false,
    .mk 4 2 "linkStatusMessage" "NcString" true true false,
    .mk 4 3 "linkStatusTransitionCounter" "NcUint32" true false false,
    .mk 4 4 "transmissionStatus" "NcTransmissionStatus" true false false,
    .mk 4 5 "transmissionStatusMessage" "NcString" true true false,
    .mk 4 6 "transmissionStatusTransitionCounter" "NcUint32" true false false,
    .mk 4 7 "externalSynchronizationStatus" "NcSynchronizationStatus" true false false,
    .mk 4 8 "externalSynchronizationStatusMessage" "NcString" true true false,
    .mk 4 9 "externalSynchronizationStatusTransitionCounter" "NcUint32" true false false,
    .mk 4 10 "synchronizationSourceId" "NcString" true true false,
    .mk 4 11 "essenceStatus" "NcEssenceStatus" true false false,
    .mk 4 12 "essenceStatusMessage" "NcString" true true false,
    .mk 4 13 "essenceStatusTransitionCounter" "NcUint32" true false false,
    .mk 4 14 "autoResetCountersAndMessages" "NcBoolean" false false false]

/-- `ncp_class_descriptor_json`. -/
def ncpClassDescriptor (classId : List ℤ) : Option NcClassDescriptor :=
  if classId = [1, 1] then
    some { classId := classId, name := "NcBlock", methods := [⟨2, 1, "GetMemberDescriptors"⟩] }
  else if classId = [1, 3, 2] then
    some { classId := classId, name := "NcClassManager", methods := [⟨3, 1, "GetControlClass"⟩] }
  else if classId = [1, 2, 2] then
    some { classId := classId, name := "NcStatusMonitor", properties := statusMonitorProperties }
  else if classId = [1, 3, 1] then
    some { classId := classId, name := "NcDeviceManager", properties := deviceManagerProperties }
  else if classId = [1, 2, 2, 1] then
    some
      { classId := classId
        name := "NcReceiverMonitor"
        properties := receiverMonitorProperties
        methods := [⟨4, 1, "GetLostPacketCounters"⟩, ⟨4, 2, "GetLatePacketCounters"⟩] }
  else if classId = [1, 2, 2, 2] then
    some
      { classId := classId
        name := "NcSenderMonitor"
        properties := senderMonitorProperties
        methods := [⟨4, 1, "GetTransmissionErrorCounters"⟩] }
  else none

/-! ## Commands -/

/-- What the handler takes from a command. -/
structure Is12Command where
  handle : ℤ
  oid : ℤ
  mlevel : ℤ
  mindex : ℤ
  args : Option Ptree

/-- The integer at a path of a tree, or zero. -/
def Ptree.intAt (t : Ptree) (path : List String) : ℤ :=
  ((t.at? (path.map String.toList)).bind getInt?).getD 0

/-- Take a command apart. -/
def Is12Command.ofTree (cmd : Ptree) : Is12Command :=
  { handle := cmd.intAt ["handle"]
    oid := ((cmd.child? "oid".toList).bind Ptree.getLong?).getD 0
    mlevel := cmd.intAt ["methodId", "level"]
    mindex := cmd.intAt ["methodId", "index"]
    args := cmd.child? "arguments".toList }

namespace Is12Command

/-- The `classId` in the arguments; `none` when an element is no integer. -/
def classId (c : Is12Command) : Option (List ℤ) :=
  match c.args.bind fun args => args.child? "classId".toList with
  | none => some []
  | some cid => cid.children.mapM fun v => v.2.getInt?

/-- The level and index of the property in the arguments. -/
def propertyId (c : Is12Command) : ℤ × ℤ :=
  match c.args with
  | some args => (args.intAt ["id", "level"], args.intAt ["id", "index"])
  | none => (0, 0)

/-- The `value` in the arguments. -/
def value (c : Is12Command) : Bool :=
  ((c.args.bind fun args => args.child? "value".toList).bind Ptree.getBool?).getD true

end Is12Command

/-- The result of a command. -/
structure Is12Result where
  status : ℕ
  valueJson : Text := "null".toList
  errorMessage : Text := []
  deriving DecidableEq

/-- The stream a monitor with this oid would be about. -/
def monitorOf (k : Kind) (oid : ℤ) : Option UInt8 :=
  let base := monitorOid k 0
  if base ≤ oid ∧ oid < base + 64 then some (UInt8.ofNat (oid - base).toNat) else none

namespace NmosManager

/-- The properties of the object with an oid, and the counters after it. -/
def ncpProps (h : NmosHost) (e : MonitorEnv) (s : NmosManager) (oid : ℤ) (m : MonitorCounters) :
    List NcPropEntry × MonitorCounters :=
  if oid = kDeviceManagerOid then (ncpDeviceManagerProps h, m)
  else
    match monitorOf .sink oid with
    | some id => s.ncpReceiverMonitorProps h e id m
    | none =>
      match monitorOf .source oid with
      | some id => s.ncpSenderMonitorProps h e id m
      | none => ([], m)

/-- `NcObject.Get`. -/
def is12Get (props : List NcPropEntry) (id : ℤ × ℤ) : Is12Result :=
  match props.find? fun p => p.level = id.1 ∧ p.index = id.2 with
  | some p => { status := 200, valueJson := p.jsonValue }
  | none =>
    if props.isEmpty then { status := 404, errorMessage := "Unknown oid".toList }
    else { status := 501, errorMessage := "PropertyNotImplemented".toList }

/-- The counters of packets, of which there are none. -/
def is12PacketCounters (known : Bool) : Is12Result :=
  if known then { status := 200, valueJson := "[]".toList }
  else { status := 404, errorMessage := "Unknown oid".toList }

/-- The answer to a command, and the counters after it. -/
def is12Command (h : NmosHost) (e : MonitorEnv) (s : NmosManager) (c : Is12Command) (m : MonitorCounters) :
    Option (Is12Result × MonitorCounters) :=
  if c.oid = kRootBlockOid ∧ c.mlevel = 2 ∧ c.mindex = 1 then
    some ({ status := 200, valueJson := s.ncpMemberDescriptorsJson }, m)
  else if c.oid = kClassManagerOid ∧ c.mlevel = 3 ∧ c.mindex = 1 then
    c.classId.map fun classId =>
      (match if classId = [] then none else ncpClassDescriptor classId with
        | some d => { status := 200, valueJson := d.json }
        | none => { status := 404, errorMessage := "Unknown classId".toList }, m)
  else if c.mlevel = 1 ∧ c.mindex = 1 then
    some ((s.ncpProps h e c.oid m).map (is12Get · c.propertyId) id)
  else if c.mlevel = 1 ∧ c.mindex = 2 then
    if ((monitorOf .sink c.oid).isSome ∨ (monitorOf .source c.oid).isSome) ∧ c.propertyId = (4, 14) then
      some ({ status := 200 }, m.insert c.oid { m.at c.oid with autoReset := c.value })
    else some ({ status := 405, errorMessage := "PropertyReadOnly".toList }, m)
  else
    match if c.mlevel = 4 ∧ (c.mindex = 1 ∨ c.mindex = 2) then monitorOf .sink c.oid else none with
    | some id => some (is12PacketCounters (s.receivers.contains id), m)
    | none =>
      match if c.mlevel = 4 ∧ c.mindex = 1 then monitorOf .source c.oid else none with
      | some id => some (is12PacketCounters (s.senders.contains id), m)
      | none => some ({ status := 501, errorMessage := "MethodNotImplemented".toList }, m)

/-- The answers to commands one after another, each with what it is told. -/
def is12Commands (h : NmosHost) (s : NmosManager) : (ℕ → MonitorEnv) → List Is12Command → MonitorCounters →
    Option (List (ℤ × Is12Result) × MonitorCounters)
  | _, [], m => some ([], m)
  | envs, c :: cs, m => do
    let (result, m) ← s.is12Command h (envs 0) c m
    let (results, m) ← s.is12Commands h (fun n => envs (n + 1)) cs m
    pure ((c.handle, result) :: results, m)

end NmosManager

/-! ## Messages -/

/-- What the server sends. -/
inductive Is12Message
  | responses (results : List (ℤ × Is12Result))
  | subscriptions (oids : List ℤ)
  | notification (oid : ℤ) (property : NcPropEntry)
  deriving DecidableEq

/-- The text of a response. -/
def responseJson (handle : ℤ) (r : Is12Result) : Text :=
  "\x7b\"handle\": ".toList ++ Json.printInt handle ++ ", \"result\": \x7b\"status\": ".toList ++ ofNat r.status ++
    ", \"value\": ".toList ++ r.valueJson ++ ", \"errorMessage\": ".toList ++
    (if r.errorMessage = [] then "null".toList else inQuotes r.errorMessage) ++ "\x7d\x7d".toList

/-- The text that is sent. -/
def Is12Message.json : Is12Message → Text
  | responses results =>
    "\x7b\"messageType\": 1, \"responses\": [".toList ++
      commaSeparated (results.map fun r => responseJson r.1 r.2) ++ "]\x7d".toList
  | subscriptions oids =>
    "\x7b\"messageType\": 4, \"subscriptions\": [".toList ++ commaSeparated (oids.map Json.printInt) ++ "]\x7d".toList
  | notification oid p =>
    "\x7b\"messageType\": 2, \"notifications\": [\x7b\"oid\": ".toList ++ Json.printInt oid ++
      ", \"eventId\": \x7b\"level\": 1, \"index\": 1\x7d, \"eventData\": \x7b\"propertyId\": ".toList ++
      elementIdJson p.level p.index ++ ", \"changeType\": 0, \"value\": ".toList ++ p.jsonValue ++
      ", \"sequenceItemIndex\": null\x7d\x7d]\x7d".toList

/-- `Is12Session`.  Nothing is taken from the outbox here. -/
structure Is12Session where
  outbox : List Is12Message := []
  subscribed : SortedMap ℤ Unit := .empty

/-- A message is queued. -/
def Is12Session.push (session : Is12Session) (msg : Is12Message) : Is12Session :=
  { session with outbox := session.outbox ++ [msg] }

/-- `handle_is12_message`: the session and the counters after it. -/
def NmosManager.handleIs12Message (h : NmosHost) (envs : ℕ → MonitorEnv) (readJson : Text → Option Ptree)
    (s : NmosManager) (msg : Text) (session : Is12Session) (m : MonitorCounters) :
    Option (Is12Session × MonitorCounters) :=
  match readJson msg with
  | none => some (session, m)
  | some pt =>
    let messageType := ((pt.child? "messageType".toList).bind Ptree.getInt?).getD (-1)
    if messageType = 0 then
      match pt.child? "commands".toList with
      | none => some (session, m)
      | some commands =>
        (s.is12Commands h envs (commands.children.map fun c => .ofTree c.2) m).map fun r =>
          (session.push (.responses r.1), r.2)
    else if messageType = 3 then
      let subs := ((pt.child? "subscriptions".toList).map Ptree.children).getD []
      (subs.mapM fun v : Text × Ptree => v.2.getLong?).map fun oids =>
        let newSubs := oids.foldl (fun subs oid => subs.insert oid ()) SortedMap.empty
        ({ session with subscribed := newSubs }.push (.subscriptions (newSubs.entries.map Prod.fst)), m)
    else some (session, m)

end Aes67Daemon
