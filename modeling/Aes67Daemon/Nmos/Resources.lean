import Aes67Daemon.Nmos.Receiver
import Aes67Daemon.Session.Streams

/-!
# NMOS resources

The records of `nmos_manager.hpp` and the functions that build them.  The IS-04
resources are JSON texts with fixed words around a few values; here a resource
is the record of its values.  `build_node_json` is left out: the node is pushed to
the registry and never compared with anything.

The resources of a sender and of a receiver have two halves, staged and active,
with the same fields; each half is an `Endpoint`.

## Main definitions

* `NmosHost` — what stays fixed while an NMOS manager lives.
* `DeviceDoc`, `SourceDoc`, `FlowDoc`, `SenderDoc`, `ReceiverDoc` — IS-04 resources.
* `NmosHost.buildSourceJson`, ..., `buildSenderTp` — the builders.
* `SenderResources`, `ReceiverResources` — what the manager keeps of a stream.
-/
namespace Aes67Daemon

open Text

/-- What stays fixed while an NMOS manager lives. -/
structure NmosHost where
  host : Host := {}
  /-- `make_uuid5` of a namespace and a name. -/
  makeUuid5 : Text → Text → Text := fun ns name => ns ++ '/' :: name
  /-- `get_system_hostname`. -/
  hostname : Text := []
  nmosLabel : Text := []
  nmosNodePort : UInt16 := 3212
  /-- `config_->get_sample_rate`. -/
  sampleRate : UInt32 := 48000
  /-- `get_interface_name(0)`. -/
  interfaceName0 : Text := []
  is08Enabled : Bool := false
  is12Enabled : Bool := false

/-! ## IS-04 -/

structure DeviceDoc where
  id : Text := []
  version : Text := []
  label : Text := []
  nodeId : Text := []
  senders : List Text := []
  receivers : List Text := []
  /-- The `href` and the `type` of the controls. -/
  controls : List (Text × Text) := []
  deriving DecidableEq

structure SourceDoc where
  id : Text := []
  version : Text := []
  label : Text := []
  /-- The tag `aes67-daemon:source-id`. -/
  sourceTag : UInt8 := 0
  deviceId : Text := []
  grainRate : UInt32 × UInt32 := (0, 0)
  channels : List Text := []
  deriving DecidableEq

structure FlowDoc where
  id : Text := []
  version : Text := []
  label : Text := []
  grainRate : UInt32 × UInt32 := (0, 0)
  sourceId : Text := []
  deviceId : Text := []
  mediaType : Text := []
  sampleRate : UInt32 := 0
  bitDepth : ℕ := 0
  channels : List Text := []
  deriving DecidableEq

structure SenderDoc where
  id : Text := []
  version : Text := []
  label : Text := []
  flowId : Text := []
  transport : Text := []
  deviceId : Text := []
  manifestHref : Text := []
  interfaceBindings : List Text := []
  /-- `subscription.receiver_id`; the empty text is shown as `null`. -/
  receiverId : Text := []
  /-- `subscription.active`. -/
  active : Bool := false
  deriving DecidableEq

structure ReceiverDoc where
  id : Text := []
  version : Text := []
  label : Text := []
  /-- The tag `aes67-daemon:sink-id`. -/
  sinkTag : UInt8 := 0
  deviceId : Text := []
  interfaceBindings : List Text := []
  /-- The largest channel count of the constraint set. -/
  channelCount : ℕ := 0
  sampleRate : UInt32 := 0
  /-- The packet times of the constraint set. -/
  packetTimes : List Text := []
  /-- `subscription.sender_id`; the empty text is shown as `null`. -/
  senderId : Text := []
  /-- `subscription.active`. -/
  active : Bool := false
  deriving DecidableEq

/-- `make_nmos_label`: channels are counted from one. -/
def makeNmosLabel (hostname : Text) (map : List UInt8) : Text :=
  match map.head?, map.getLast? with
  | some first, some last =>
    hostname ++ " ALSA ".toList ++ ofNat (first.toNat + 1) ++ '-' :: ofNat (last.toNat + 1)
  | _, _ => hostname ++ " ALSA".toList

/-- The labels of `make_channels_json`. -/
def channelLabels (map : List UInt8) : List Text :=
  if map.length = 2 then ["Left".toList, "Right".toList]
  else (List.range map.length).map fun i => "Ch".toList ++ ofNat (i + 1)

/-- `codec_to_nmos`. -/
def codecToNmos (codec : Text) : Text × ℕ :=
  if codec = "L16".toList then ("audio/L16".toList, 16)
  else if codec = "AM824".toList then ("audio/AM824".toList, 32)
  else ("audio/L24".toList, 24)

/-- The AES67 packet times, as they are printed and in eighths of a millisecond. -/
def aes67Ptimes : List (Text × ℕ) :=
  [("0.125".toList, 1), ("0.25".toList, 2), ("1".toList, 8), ("4".toList, 32)]

/-- The namespace of `init`, of names in the DNS. -/
def dnsNamespace : Text := "6ba7b810-9dad-11d1-80b4-00c04fd430c8".toList

namespace NmosHost

/-- `node_id_`. -/
def nodeId (h : NmosHost) : Text := h.makeUuid5 dnsNamespace h.host.config.nodeId

/-- `device_id_`. -/
def deviceId (h : NmosHost) : Text := h.makeUuid5 h.nodeId "device".toList

/-- `make_resource_uuid`. -/
def makeResourceUuid (h : NmosHost) (type : Text) (id : UInt8) : Text :=
  h.makeUuid5 h.nodeId (type ++ '-' :: ofNat id.toNat)

/-- The address and the port of the node in a URL. -/
def authority (h : NmosHost) : Text :=
  h.host.config.ipAddrStr ++ ':' :: ofNat h.nmosNodePort.toNat

/-- The names of the interfaces, in `interface_bindings`. -/
def interfaceBindings (h : NmosHost) : List Text :=
  h.interfaceName0 :: if h.host.config.isDualLeg then [h.host.config.interfaceName1] else []

/-- The controls of the device. -/
def controls (h : NmosHost) : List (Text × Text) :=
  [("http://".toList ++ h.authority ++ "/x-nmos/connection/v1.1/".toList,
      "urn:x-nmos:control:sr-ctrl/v1.1".toList),
    ("http://".toList ++ h.authority ++ "/x-manifest/".toList,
      "urn:x-nmos:control:manifest-base/v1.0".toList)] ++
  (if h.is12Enabled then
    [("ws://".toList ++ h.authority ++ "/x-nmos/ncp/v1.0/".toList,
      "urn:x-nmos:control:ncp/v1.0".toList)] else []) ++
  (if h.is08Enabled then
    [("http://".toList ++ h.authority ++ "/x-nmos/channelmapping/v1.0/".toList,
      "urn:x-nmos:control:cm-ctrl/v1.0".toList)] else [])

/-- The text `rebuild_device_json_locked` makes of the ids. -/
def buildDeviceJson (h : NmosHost) (version : Text) (senders receivers : List Text) : DeviceDoc :=
  { id := h.deviceId
    version := version
    label := h.nmosLabel ++ " Device".toList
    nodeId := h.nodeId
    senders := senders
    receivers := receivers
    controls := h.controls }

/-- The denominator of a grain rate. -/
def packetSamples (src : StreamSource) : UInt32 :=
  if 0 < src.maxSamplesPerPacket then src.maxSamplesPerPacket else 48

/-- `build_source_json`. -/
def buildSourceJson (h : NmosHost) (version : Text) (src : StreamSource) (sourceId : Text) :
    SourceDoc :=
  { id := sourceId
    version := version
    label := makeNmosLabel h.hostname src.map
    sourceTag := src.id
    deviceId := h.deviceId
    grainRate := (h.sampleRate, packetSamples src)
    channels := channelLabels src.map }

/-- `build_flow_json`. -/
def buildFlowJson (h : NmosHost) (version : Text) (src : StreamSource) (sourceId flowId : Text) :
    FlowDoc :=
  { id := flowId
    version := version
    label := makeNmosLabel h.hostname src.map
    grainRate := (h.sampleRate, packetSamples src)
    sourceId := sourceId
    deviceId := h.deviceId
    mediaType := (codecToNmos src.codec).1
    sampleRate := h.sampleRate
    bitDepth := (codecToNmos src.codec).2
    channels := channelLabels src.map }

/-- `build_sender_json`. -/
def buildSenderJson (h : NmosHost) (version : Text) (src : StreamSource)
    (flowId senderId activeReceiverId : Text) : SenderDoc :=
  { id := senderId
    version := version
    label := makeNmosLabel h.hostname src.map
    flowId := flowId
    transport :=
      if isMulticast src.address then "urn:x-nmos:transport:rtp.mcast".toList
      else "urn:x-nmos:transport:rtp.ucast".toList
    deviceId := h.deviceId
    manifestHref := "http://".toList ++ h.authority ++ "/x-manifest/senders/".toList ++ senderId ++
      "/manifest".toList
    interfaceBindings := h.interfaceBindings
    receiverId := activeReceiverId
    active := src.enabled }

/-- `build_receiver_json`.  A packet time is offered when it is a whole number of
samples and no more than a tick. -/
def buildReceiverJson (h : NmosHost) (version : Text) (sink : StreamSink)
    (receiverId activeSenderId : Text) : ReceiverDoc :=
  { id := receiverId
    version := version
    label := makeNmosLabel h.hostname sink.map
    sinkTag := sink.id
    deviceId := h.deviceId
    interfaceBindings := h.interfaceBindings
    channelCount := if sink.map = [] then 8 else sink.map.length
    sampleRate := h.sampleRate
    packetTimes := (aes67Ptimes.filter fun p => p.2 * h.sampleRate.toNat % 8000 = 0 ∧
      p.2 * h.sampleRate.toNat / 8000 ≤ h.host.config.maxTicFrameSize.toNat).map Prod.fst
    senderId := activeSenderId
    active := activeSenderId != [] }

end NmosHost

/-! ## IS-05 -/

/-- `Is05Activation`; the empty text is `null`. -/
structure Is05Activation where
  mode : Text := []
  requestedTime : Text := []
  activationTime : Text := []
  /-- Nanoseconds of the steady clock; `-1` when nothing is scheduled. -/
  deadlineNs : ℤ := -1
  deriving DecidableEq

/-- `SenderTp`. -/
structure SenderTp where
  sourceIp : Text := []
  destinationIp : Text := []
  sourcePort : UInt16 := 5004
  destinationPort : UInt16 := 5004
  rtpEnabled : Bool := false
  deriving DecidableEq

/-- One half of the resources of a stream, staged or active: `master_enable`, the
id of the peer (empty for `null`), the activation and the transport parameters. -/
structure Endpoint (τ : Type) where
  masterEnable : Bool
  peerId : Text := []
  act : Is05Activation := {}
  tp : List τ := []
  deriving DecidableEq

/-- `SenderResources`; the peer is the receiver. -/
structure SenderResources where
  sourceId : Text := []
  flowId : Text := []
  senderId : Text := []
  sourceJson : SourceDoc := {}
  flowJson : FlowDoc := {}
  senderJson : SenderDoc := {}
  staged : Endpoint SenderTp := { masterEnable := true }
  active : Endpoint SenderTp := { masterEnable := true }
  deriving DecidableEq

/-- `ReceiverResources`; the peer is the sender. -/
structure ReceiverResources where
  receiverId : Text := []
  sink : StreamSink := {}
  staged : Endpoint ReceiverTp := { masterEnable := false }
  active : Endpoint ReceiverTp := { masterEnable := false }
  deriving DecidableEq

namespace NmosHost

/-- `build_sender_tp`, with the SDP `get_source_sdp` returns, empty for a source
that is not in use. -/
def buildSenderTp (h : NmosHost) (secInterfaceIpStr : Text) (src : StreamSource) (sdp : Text) :
    List SenderTp :=
  { sourceIp := h.host.config.ipAddrStr
    destinationIp := src.address
    sourcePort := h.host.config.rtpPort
    destinationPort := h.host.config.rtpPort
    rtpEnabled := src.enabled } ::
    if h.host.config.isDualLeg then
      [if sdpHasDup sdp then
        { sourceIp := secInterfaceIpStr
          destinationIp := sdpConnectionIp sdp 1
          sourcePort := sdpMediaPort sdp 1
          destinationPort := sdpMediaPort sdp 1
          rtpEnabled := src.enabled }
      else
        { sourceIp := secInterfaceIpStr
          destinationIp := src.address
          sourcePort := h.host.config.rtpPortSec
          destinationPort := h.host.config.rtpPortSec
          rtpEnabled := src.enabled }]
    else []

/-- The transport parameters of a sink that is not connected. -/
def idleReceiverTp (h : NmosHost) (secInterfaceIpStr : Text) : List ReceiverTp :=
  { interfaceIp := h.host.config.ipAddrStr } ::
    if h.host.config.isDualLeg then [{ interfaceIp := secInterfaceIpStr }] else []

end NmosHost

/-- A sink with an SDP of its own, as `register_sink_local` decides it. -/
def StreamSink.connected (sink : StreamSink) : Bool := sink.useSdp && sink.sdp != []

end Aes67Daemon
