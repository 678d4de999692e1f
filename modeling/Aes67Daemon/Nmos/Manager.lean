import Aes67Daemon.Nmos.Resources
import Aes67Daemon.Session.Events

/-!
# The NMOS manager

The state of `NmosManager` and its critical sections, as `nmos_manager.cpp`
computes them.  A function here is what one thread does while it holds a lock, or
one call of the session manager; the functions the source composes of them follow
at the end, for a thread that is not interrupted.

The session manager is part of the state: the observers only queue what they are
told.  So is the registry, which accepts every request and never expires.  The
body of a PATCH is what `get_optional` finds in it.

## Main definitions

* `NmosManager` — the members, the session manager and the registry.
* `patchSenderStaged`, `patchReceiverStaged` — a PATCH of the staged half.
* `promoteSender`, `promoteReceiver`, `writeSender`, `writeReceiver`, ... — the
  critical sections.
* `applySenderActivation`, `applyReceiverActivation`, `fullRegistration` — the
  functions composed of them.
-/
namespace Aes67Daemon

open Text

/-- What the outside world answers during a step of the NMOS manager. -/
structure NmosEnv where
  env : Env := {}
  /-- `steady_clock::now()`, in nanoseconds. -/
  now : ℕ := 0
  /-- `system_clock::now()`, in nanoseconds. -/
  systemNow : ℕ := 0
  /-- `effective_registry_address`. -/
  registryAddress : Text := []
  /-- `effective_registry_query_port`. -/
  registryQueryPort : UInt16 := 0

/-- Nanoseconds in a second. -/
def nanosPerSec : ℕ := 1000000000

/-- `make_version`. -/
def NmosEnv.makeVersion (e : NmosEnv) : Text :=
  ofNat (e.systemNow / nanosPerSec) ++ ':' :: ofNat (e.systemNow % nanosPerSec)

/-! ## The registry -/

/-- The types of resources in the registry; the node is left out. -/
inductive DocType
  | device
  | source
  | flow
  | sender
  | receiver
  deriving DecidableEq

/-- A resource as the registry and the Node API have it. -/
inductive Doc
  | device (doc : DeviceDoc)
  | source (doc : SourceDoc)
  | flow (doc : FlowDoc)
  | sender (doc : SenderDoc)
  | receiver (doc : ReceiverDoc)
  deriving DecidableEq

namespace Doc

def type : Doc → DocType
  | .device _ => .device
  | .source _ => .source
  | .flow _ => .flow
  | .sender _ => .sender
  | .receiver _ => .receiver

def id : Doc → Text
  | .device doc => doc.id
  | .source doc => doc.id
  | .flow doc => doc.id
  | .sender doc => doc.id
  | .receiver doc => doc.id

/-- A resource without its version. -/
def content : Doc → Doc
  | .device doc => .device { doc with version := [] }
  | .source doc => .source { doc with version := [] }
  | .flow doc => .flow { doc with version := [] }
  | .sender doc => .sender { doc with version := [] }
  | .receiver doc => .receiver { doc with version := [] }

end Doc

/-- The resources of a registry, by type and id. -/
abbrev Registry := DocType → SortedMap Text Doc

namespace Registry

/-- A POST of `register_resource`. -/
def post (r : Registry) (doc : Doc) : Registry :=
  Function.update r doc.type ((r doc.type).insert doc.id doc)

/-- A DELETE of `unregister_resource`. -/
def delete (r : Registry) (type : DocType) (id : Text) : Registry :=
  Function.update r type ((r type).erase id)

end Registry

/-! ## The body of a PATCH -/

/-- What `get_optional` finds in the body of a PATCH; without the array
`transport_params` there are no legs. -/
structure Patch (π : Type) where
  masterEnable : Option Bool := none
  /-- `receiver_id` of a sender, `sender_id` of a receiver. -/
  peerId : Option Text := none
  mode : Option Text := none
  requestedTime : Option Text := none
  legs : List π := []

/-- What is found in a leg of a sender. -/
structure SenderTpPatch where
  sourceIp : Option Text := none
  destinationIp : Option Text := none
  sourcePort : Option UInt16 := none
  destinationPort : Option UInt16 := none
  rtpEnabled : Option Bool := none

/-- What is found in a leg of a receiver. -/
structure ReceiverTpPatch where
  interfaceIp : Option Text := none
  multicastIp : Option Text := none
  destinationPort : Option UInt16 := none
  sourceIp : Option Text := none
  rtpEnabled : Option Bool := none

/-- `(*v == "null") ? "" : *v`: the JSON reader makes a text of `null`. -/
def nullable (t : Text) : Text := if t = "null".toList then [] else t

/-- Merge the legs one by one, up to the legs there are. -/
def mergeLegs {τ π : Type} (f : τ → π → τ) : List τ → List π → List τ
  | tp :: tps, p :: ps => f tp p :: mergeLegs f tps ps
  | tps, _ => tps

def SenderTp.patched (tp : SenderTp) (p : SenderTpPatch) : SenderTp :=
  { sourceIp := p.sourceIp.getD tp.sourceIp
    destinationIp := p.destinationIp.getD tp.destinationIp
    sourcePort := p.sourcePort.getD tp.sourcePort
    destinationPort := p.destinationPort.getD tp.destinationPort
    rtpEnabled := p.rtpEnabled.getD tp.rtpEnabled }

def ReceiverTp.patched (tp : ReceiverTp) (p : ReceiverTpPatch) : ReceiverTp :=
  { interfaceIp := p.interfaceIp.getD tp.interfaceIp
    multicastIp := (p.multicastIp.map nullable).getD tp.multicastIp
    destinationPort := p.destinationPort.getD tp.destinationPort
    sourceIp := p.sourceIp.getD tp.sourceIp
    rtpEnabled := p.rtpEnabled.getD tp.rtpEnabled }

/-- The staged half after a PATCH, before the activation is looked at. -/
def Endpoint.patched {τ π : Type} (f : τ → π → τ) (ep : Endpoint τ) (p : Patch π) : Endpoint τ :=
  { masterEnable := p.masterEnable.getD ep.masterEnable
    peerId := (p.peerId.map nullable).getD ep.peerId
    act := { ep.act with
      mode := (p.mode.map nullable).getD ep.act.mode
      requestedTime := (p.requestedTime.map nullable).getD ep.act.requestedTime }
    tp := mergeLegs f ep.tp p.legs }

/-! ## Activations -/

/-- The value of a 64-bit integer after an overflow. -/
def wrap64 (z : ℤ) : ℤ := z.bmod (2 ^ 64)

namespace Is05Activation

def immediate (act : Is05Activation) : Bool := act.mode == "activate_immediate".toList

def relative (act : Is05Activation) : Bool := act.mode == "activate_scheduled_relative".toList

def absolute (act : Is05Activation) : Bool := act.mode == "activate_scheduled_absolute".toList

def scheduled (act : Is05Activation) : Bool := act.relative || act.absolute

/-- The two numbers of `requested_time`; `none` when `stoll` throws. -/
def requestedSpan (act : Is05Activation) : Option (ℤ × ℤ) :=
  match breakAt ':' act.requestedTime with
  | some (secs, nanos) =>
    match stoll secs, stoll nanos with
    | some s, some n => some (s, n)
    | _, _ => none
  | none => (stoll act.requestedTime).map fun s => (s, 0)

/-- The deadline of a scheduled activation.  An absolute time is not looked at. -/
def deadline (act : Is05Activation) (now : ℕ) : ℤ :=
  let fallback := wrap64 (now + nanosPerSec)
  if act.relative && act.requestedTime != [] then
    match act.requestedSpan with
    | some (s, n) => wrap64 (now + s * nanosPerSec + n)
    | none => fallback
  else fallback

/-- The activation when it starts or is scheduled. -/
def begun (act : Is05Activation) (e : NmosEnv) : Is05Activation :=
  if act.immediate then { act with activationTime := e.makeVersion }
  else if act.scheduled then { act with deadlineNs := act.deadline e.now }
  else act

end Is05Activation

/-- `PendingActivation`. -/
structure PendingActivation where
  kind : Kind
  daemonId : UInt8
  deadlineNs : ℤ
  deriving DecidableEq

/-- `NmosManager::Event`. -/
inductive NmosEvent
  | added (k : Kind) (id : UInt8)
  | removed (k : Kind) (id : UInt8)
  | registryUpdated
  | registryLost
  deriving DecidableEq

/-- What the observers make of a notification. -/
def NmosEvent.ofNotification : Notification → Option NmosEvent
  | .addSource id _ _ => some (.added .source id)
  | .removeSource id _ => some (.removed .source id)
  | .updateSource _ _ _ => none
  | .addSink id _ => some (.added .sink id)
  | .removeSink id _ => some (.removed .sink id)

/-- The members of `NmosManager`, with the session manager and the registry. -/
structure NmosManager where
  sm : SessionManager
  deviceJson : DeviceDoc := {}
  senders : SortedMap UInt8 SenderResources := .empty
  receivers : SortedMap UInt8 ReceiverResources := .empty
  preservedActiveSenderIds : SortedMap UInt8 Text := .empty
  pendingActivations : List PendingActivation := []
  /-- `pending_events_`, first in first out. -/
  pendingEvents : List NmosEvent := []
  secInterfaceIpStr : Text := []
  /-- Whether `init` has started the server. -/
  serving : Bool := false
  registry : Registry := fun _ => .empty

/-- The local variables of `apply_receiver_activation`. -/
structure ReceiverActivation where
  masterEnable : Bool
  senderId : Text
  tp : List ReceiverTp
  activationTime : Text
  mode : Text

/-- The snapshot of the staged half. -/
def ReceiverResources.snapshot (rr : ReceiverResources) : ReceiverActivation :=
  { masterEnable := rr.staged.masterEnable
    senderId := rr.staged.peerId
    tp := rr.staged.tp
    activationTime := rr.staged.act.activationTime
    mode := rr.staged.act.mode }

namespace ReceiverActivation

/-- `tp = build_receiver_tp_from_sdp(sdp)`. -/
def withTp (a : ReceiverActivation) (tp : List ReceiverTp) : ReceiverActivation := { a with tp := tp }

/-- Whether the activation needs the SDP of a sender. -/
def connects (a : ReceiverActivation) : Bool := a.masterEnable && a.senderId != []

/-- The sender after the activation. -/
def activeSenderId (a : ReceiverActivation) : Text := if a.masterEnable then a.senderId else []

/-- Whether the sink is added again. -/
def changesSink (a : ReceiverActivation) (sdp : Text) : Bool :=
  a.masterEnable && sdp != [] || !a.masterEnable

/-- The sink that is added again. -/
def target (a : ReceiverActivation) (sdp : Text) (sink : StreamSink) : StreamSink :=
  if a.masterEnable then { sink with useSdp := true, sdp := sdp, source := [] }
  else { sink with useSdp := false, sdp := [], source := [] }

end ReceiverActivation

/-- The active half after an activation. -/
def ReceiverResources.promoted (rr : ReceiverResources) (a : ReceiverActivation) : ReceiverResources :=
  { rr with active :=
      { masterEnable := a.masterEnable
        peerId := a.activeSenderId
        act := { rr.active.act with mode := a.mode, activationTime := a.activationTime }
        tp := a.tp } }

/-! ## The SDP of a remote sender -/

/-- `trim_http`: host, port and path of a URL. -/
def trimHttp (url : Text) : Text × UInt16 × Text :=
  let after := if url.take 7 = "http://".toList then url.drop 7 else url
  let hostPort := after.takeWhile (· ≠ '/')
  let path := if '/' ∈ after then after.dropWhile (· ≠ '/') else ['/']
  match breakAt ':' hostPort with
  | some (host, port) => (host, ((stoi port).map UInt16.ofInt).getD 80, path)
  | none => (hostPort, 80, path)

namespace NmosEnv

/-- `httplib::Client::Get`, with a host and a path as C strings. -/
def get (e : NmosEnv) (host : Text) (port : UInt16) (path : Text) : Option (ℕ × Text) :=
  e.env.httpGet (upToNul host) port.toNat (upToNul path)

/-- The `manifest_href` the registry has for a sender, empty if none. -/
def manifestHref (e : NmosEnv) (senderUuid : Text) : Text :=
  match e.get e.registryAddress e.registryQueryPort
      ("/x-nmos/query/v1.3/senders/".toList ++ senderUuid) with
  | some (200, body) =>
    let key := "\"manifest_href\":\"".toList
    match seek key body with
    | some pos => ((breakAt '"' (pos.drop key.length)).map Prod.fst).getD []
    | none => []
  | _ => []

/-- `fetch_remote_sender_sdp`. -/
def fetchRemoteSenderSdp (e : NmosEnv) (senderUuid : Text) : Text :=
  let href := e.manifestHref senderUuid
  if href = [] then []
  else
    let (host, port, path) := trimHttp href
    match e.get host port path with
    | some (status, body) => if status = 200 ∨ status = 206 then body else []
    | none => []

end NmosEnv

namespace NmosManager

/-! ## The session manager -/

/-- The observers hear what the session manager tells them. -/
def hear (s : NmosManager) (sm : SessionManager) : NmosManager :=
  { s with
    sm := sm
    pendingEvents := s.pendingEvents ++ (s.sm.told sm).filterMap NmosEvent.ofNotification }

/-- `session_manager_->add_sink`. -/
def addSink (h : NmosHost) (e : NmosEnv) (sink : StreamSink) (s : NmosManager) : NmosManager :=
  s.hear (s.sm.addSink h.host e.env sink).2

/-- `session_manager_->get_source_sdp`, empty for a source that is not in use. -/
def sourceSdp (h : NmosHost) (e : NmosEnv) (id : UInt8) (s : NmosManager) : Text :=
  (s.sm.getSourceSdpOf h.host e.env id.toUInt32).getD []

/-! ## PATCH -/

/-- The staged activation of a sender or a receiver. -/
def stagedAct? (k : Kind) (id : UInt8) (s : NmosManager) : Option Is05Activation :=
  match k with
  | .source => (s.senders.find? id).map fun sr => sr.staged.act
  | .sink => (s.receivers.find? id).map fun rr => rr.staged.act

/-- Change the staged activation of a sender or a receiver, if there is one. -/
def modifyStagedAct (k : Kind) (id : UInt8) (f : Is05Activation → Is05Activation) (s : NmosManager) :
    NmosManager :=
  match k with
  | .source => { s with senders := s.senders.modify id fun sr =>
      { sr with staged := { sr.staged with act := f sr.staged.act } } }
  | .sink => { s with receivers := s.receivers.modify id fun rr =>
      { rr with staged := { rr.staged with act := f rr.staged.act } } }

/-- Queue a scheduled activation. -/
def schedule (e : NmosEnv) (k : Kind) (id : UInt8) (act : Is05Activation) (s : NmosManager) :
    NmosManager :=
  if act.scheduled then
    { s with pendingActivations := s.pendingActivations ++
        [{ kind := k, daemonId := id, deadlineNs := act.deadline e.now }] }
  else s

/-- `patch_sender_staged` up to the activation: the error, or the staged half that
is shown. -/
def patchSenderStaged (e : NmosEnv) (id : UInt8) (body : Except Text (Patch SenderTpPatch))
    (s : NmosManager) : Except Text (Endpoint SenderTp) × NmosManager :=
  match body with
  | .error err => (.error err, s)
  | .ok p =>
    match s.senders.find? id with
    | none => (.error "not found".toList, s)
    | some sr =>
      let staged := sr.staged.patched SenderTp.patched p
      (.ok staged, schedule e .source id staged.act { s with
        senders := s.senders.insert id
          { sr with staged := { staged with act := staged.act.begun e } } })

/-- `patch_receiver_staged` up to the activation. -/
def patchReceiverStaged (e : NmosEnv) (id : UInt8) (body : Except Text (Patch ReceiverTpPatch))
    (s : NmosManager) : Except Text (Endpoint ReceiverTp) × NmosManager :=
  match body with
  | .error err => (.error err, s)
  | .ok p =>
    match s.receivers.find? id with
    | none => (.error "not found".toList, s)
    | some rr =>
      let staged := rr.staged.patched ReceiverTp.patched p
      (.ok staged, schedule e .sink id staged.act { s with
        receivers := s.receivers.insert id
          { rr with staged := { staged with act := staged.act.begun e } } })

/-- `staged_act = {}`. -/
def resetStaged (k : Kind) (id : UInt8) (s : NmosManager) : NmosManager :=
  s.modifyStagedAct k id fun _ => {}

/-! ## Activations -/

/-- The first critical section of `apply_sender_activation`. -/
def promoteSender (id : UInt8) (s : NmosManager) : NmosManager :=
  { s with senders := s.senders.modify id fun sr => { sr with active := sr.staged } }

/-- The second critical section of `apply_sender_activation`. -/
def rebuildSender (h : NmosHost) (e : NmosEnv) (id : UInt8) (src : StreamSource) (s : NmosManager) :
    NmosManager :=
  { s with senders := s.senders.modify id fun sr =>
      { sr with senderJson :=
          h.buildSenderJson e.makeVersion src sr.flowId sr.senderId sr.active.peerId } }

/-- The local sender with an id, if there is one. -/
def findLocalSender (s : NmosManager) (senderId : Text) : Option UInt8 :=
  (s.senders.entries.find? fun p => p.2.senderId = senderId).map Prod.fst

/-- The SDP of a sender, local or remote. -/
def resolveSdp (h : NmosHost) (e : NmosEnv) (senderId : Text) (s : NmosManager) : Text :=
  match s.findLocalSender senderId with
  | some id => s.sourceSdp h e id
  | none => e.fetchRemoteSenderSdp senderId

/-- The transport parameters an SDP gives a receiver. -/
def receiverTp (h : NmosHost) (sdp : Text) (s : NmosManager) : List ReceiverTp :=
  buildReceiverTpFromSdp h.host.config s.secInterfaceIpStr sdp

/-- The promotion in `apply_receiver_activation`. -/
def promoteReceiver (id : UInt8) (a : ReceiverActivation) (s : NmosManager) : NmosManager :=
  { s with
    receivers := s.receivers.modify id fun rr => rr.promoted a
    preservedActiveSenderIds :=
      if s.receivers.contains id then s.preservedActiveSenderIds.insert id a.activeSenderId
      else s.preservedActiveSenderIds }

/-- The last critical section of `apply_receiver_activation`. -/
def storeSink (id : UInt8) (sink : StreamSink) (s : NmosManager) : NmosManager :=
  { s with receivers := s.receivers.modify id fun rr => { rr with sink := sink } }

/-- The pending activations that are due, and the state without them. -/
def takeDue (now : ℕ) (s : NmosManager) : List PendingActivation × NmosManager :=
  (s.pendingActivations.filter fun pa => pa.deadlineNs ≤ now,
    { s with pendingActivations := s.pendingActivations.filter fun pa => (now : ℤ) < pa.deadlineNs })

/-- `staged_act.activation_time = make_version()`. -/
def stamp (e : NmosEnv) (k : Kind) (id : UInt8) (s : NmosManager) : NmosManager :=
  s.modifyStagedAct k id fun act => { act with activationTime := e.makeVersion }

/-! ## Registration -/

/-- `rebuild_device_json_locked`. -/
def rebuildDeviceJson (h : NmosHost) (e : NmosEnv) (s : NmosManager) : NmosManager :=
  { s with
    deviceJson := h.buildDeviceJson e.makeVersion (s.senders.entries.map fun p => p.2.senderId)
      (s.receivers.entries.map fun p => p.2.receiverId) }

/-- `build_sender_tp`; the SDP is only asked for when there are two legs. -/
def senderTp (h : NmosHost) (e : NmosEnv) (src : StreamSource) (s : NmosManager) : List SenderTp :=
  h.buildSenderTp s.secInterfaceIpStr src
    (if h.host.config.isDualLeg then s.sourceSdp h e src.id else [])

/-- The critical section of `register_source_local`. -/
def writeSender (h : NmosHost) (e : NmosEnv) (id : UInt8) (src : StreamSource) (tp : List SenderTp)
    (s : NmosManager) : NmosManager :=
  let sourceId := h.makeResourceUuid "source".toList id
  let flowId := h.makeResourceUuid "flow".toList id
  let senderId := h.makeResourceUuid "sender".toList id
  let sr := (s.senders.find? id).getD {}
  rebuildDeviceJson h e { s with
    senders := s.senders.insert id { sr with
      sourceId := sourceId
      flowId := flowId
      senderId := senderId
      sourceJson := h.buildSourceJson e.makeVersion src sourceId
      flowJson := h.buildFlowJson e.makeVersion src sourceId flowId
      senderJson := h.buildSenderJson e.makeVersion src flowId senderId []
      staged := { sr.staged with masterEnable := src.enabled, tp := tp }
      active := { sr.active with masterEnable := src.enabled, tp := tp } } }

/-- The transport parameters of `register_sink_local`. -/
def sinkTp (h : NmosHost) (sink : StreamSink) (s : NmosManager) : List ReceiverTp :=
  if sink.connected then s.receiverTp h sink.sdp else h.idleReceiverTp s.secInterfaceIpStr

/-- The critical section of `register_sink_local`. -/
def writeReceiver (h : NmosHost) (e : NmosEnv) (id : UInt8) (sink : StreamSink) (tp : List ReceiverTp)
    (s : NmosManager) : NmosManager :=
  let rr := (s.receivers.find? id).getD {}
  rebuildDeviceJson h e { s with
    receivers := s.receivers.insert id { rr with
      receiverId := h.makeResourceUuid "receiver".toList id
      sink := sink
      staged := { rr.staged with masterEnable := sink.connected, tp := tp }
      active := { rr.active with
        masterEnable := sink.connected
        peerId := (s.preservedActiveSenderIds.find? id).getD []
        tp := tp } }
    preservedActiveSenderIds := s.preservedActiveSenderIds.erase id }

/-- The critical section of `unregister_source`. -/
def eraseSender (h : NmosHost) (e : NmosEnv) (id : UInt8) (s : NmosManager) : NmosManager :=
  rebuildDeviceJson h e { s with senders := s.senders.erase id }

/-- The critical section of `unregister_sink`. -/
def eraseReceiver (h : NmosHost) (e : NmosEnv) (id : UInt8) (s : NmosManager) : NmosManager :=
  rebuildDeviceJson h e { s with receivers := s.receivers.erase id }

/-- `build_receiver_json` of the resources of a receiver. -/
def receiverJson (h : NmosHost) (e : NmosEnv) (rr : ReceiverResources) : ReceiverDoc :=
  h.buildReceiverJson e.makeVersion rr.sink rr.receiverId rr.active.peerId

/-- The resources of a sender. -/
def senderDocs (sr : SenderResources) : List Doc :=
  [.source sr.sourceJson, .flow sr.flowJson, .sender sr.senderJson]

/-- Everything the Node API serves, in the order of `full_registration`. -/
def docs (h : NmosHost) (e : NmosEnv) (s : NmosManager) : List Doc :=
  .device s.deviceJson :: (s.senders.entries.flatMap fun p => senderDocs p.2) ++
    s.receivers.entries.map fun p => .receiver (receiverJson h e p.2)

/-- `register_resource`. -/
def registerResource (doc : Doc) (s : NmosManager) : NmosManager :=
  { s with registry := s.registry.post doc }

/-- `unregister_resource`. -/
def unregisterResource (type : DocType) (id : Text) (s : NmosManager) : NmosManager :=
  { s with registry := s.registry.delete type id }

/-! ## Without interruption -/

/-- `apply_sender_activation`. -/
def applySenderActivation (h : NmosHost) (e : NmosEnv) (id : UInt8) (s : NmosManager) : NmosManager :=
  if s.senders.contains id then
    let s := s.promoteSender id
    match s.sm.getSource id with
    | some src => s.rebuildSender h e id src
    | none => s
  else s

/-- The part of `apply_receiver_activation` from the promotion on. -/
def enactReceiver (h : NmosHost) (e : NmosEnv) (id : UInt8) (a : ReceiverActivation) (sdp : Text)
    (s : NmosManager) : NmosManager :=
  let s := s.promoteReceiver id a
  let s :=
    if a.changesSink sdp then
      match s.sm.getSink id with
      | some sink => s.addSink h e (a.target sdp sink)
      | none => s
    else s
  match s.sm.getSink id with
  | some sink => s.storeSink id sink
  | none => s

/-- `apply_receiver_activation`. -/
def applyReceiverActivation (h : NmosHost) (e : NmosEnv) (id : UInt8) (s : NmosManager) : NmosManager :=
  match s.receivers.find? id with
  | none => s
  | some rr =>
    let a := rr.snapshot
    if a.connects then
      let sdp := s.resolveSdp h e a.senderId
      if sdp = [] then s
      else if (seek "m=audio".toList sdp).isNone then s
      else s.enactReceiver h e id (a.withTp (s.receiverTp h sdp)) sdp
    else s.enactReceiver h e id a []

/-- `register_source_local`. -/
def registerSourceLocal (h : NmosHost) (e : NmosEnv) (s : NmosManager) (id : UInt8) : NmosManager :=
  match s.sm.getSource id with
  | some src => s.writeSender h e id src (s.senderTp h e src)
  | none => s

/-- `register_sink_local`. -/
def registerSinkLocal (h : NmosHost) (e : NmosEnv) (s : NmosManager) (id : UInt8) : NmosManager :=
  match s.sm.getSink id with
  | some sink => s.writeReceiver h e id sink (s.sinkTp h sink)
  | none => s

/-- `full_registration`. -/
def fullRegistration (h : NmosHost) (e : NmosEnv) (s : NmosManager) : NmosManager :=
  let s := (s.sm.getSources.map StreamSource.id).foldl (registerSourceLocal h e) s
  let s := (s.sm.getSinks.map StreamSink.id).foldl (registerSinkLocal h e) s
  (s.docs h e).foldl (fun s doc => s.registerResource doc) s

end NmosManager
end Aes67Daemon
