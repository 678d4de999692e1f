import Aes67Daemon.Lib.Ptree
import Aes67Daemon.Nmos.Manager

/-!
# Receiver and sender monitors

The objects of the device model of `nmos_is12.cpp` and their properties.  The values of a
monitor are worked out when they are asked for, from the state of the receiver or sender
and from what the outside world says of links, clocks and streams; only the transition
counters are kept.  A value is text that can be spliced into a JSON document.

An update of the counters and the reading of them after it are one step here;
`MonitorThreads` takes them apart.

## Main definitions

* `MonitorEnv` — what a computation is told.
* `NcMonitorCounters`, `updateMonitorCounters` — the transition counters.
* `ncpReceiverMonitorProps`, `ncpSenderMonitorProps`, `ncpDeviceManagerProps` — the
  properties.
-/
namespace Aes67Daemon

open Text

/-! ## Statuses -/

/-- The values that the statuses of BCP-008 have in common. -/
inductive Health
  | inactive
  | healthy
  | partiallyHealthy
  | unhealthy
  deriving DecidableEq

/-- The value on the wire. -/
def Health.code : Health → ℕ
  | inactive => 0
  | healthy => 1
  | partiallyHealthy => 2
  | unhealthy => 3

/-- `PtpSyncInfo`. -/
structure PtpSyncInfo where
  available : Bool := false
  locked : Bool := false
  locking : Bool := false
  gmidDash : Text := []
  offsetNs : ℤ := 0

/-- `SinkStreamStatus`. -/
structure SinkStreamStatus where
  isRtpSeqIdError : Bool := false
  isRtpSsrcError : Bool := false
  isRtpPayloadTypeError : Bool := false
  isRtpSacError : Bool := false
  isReceivingRtpPacket : Bool := false
  isSomeMuted : Bool := false
  isAllMuted : Bool := false
  leg2Present : Bool := false
  leg2IsReceivingRtpPacket : Bool := false

/-- `SourceStreamStatus`. -/
structure SourceStreamStatus where
  isTransmitting : Bool := false
  isUnderrun : Bool := false
  leg2Present : Bool := false
  leg2IsTransmitting : Bool := false

/-- What a computation is told by the outside world. -/
structure MonitorEnv where
  /-- `get_interface_link_up` of the two interfaces. -/
  link0Up : Bool := true
  link1Up : Bool := true
  /-- `get_ptp_clock_manager_sync` and `get_ptp_status`. -/
  pcm : PtpSyncInfo := {}
  ptp : PTPStatus := {}
  /-- The same, asked again for the id of the source. -/
  sourcePcm : PtpSyncInfo := {}
  sourcePtp : PTPStatus := {}
  /-- `get_sink_status` and `get_source_status`. -/
  sinkStatus : SinkStreamStatus := {}
  sourceStatus : SourceStreamStatus := {}

/-- `colon_to_dash_mac`. -/
def colonToDashMac (mac : Text) : Text := mac.map fun c => if c = ':' then '-' else c

/-- A status and its message. -/
abbrev HealthMessage := Health × Text

/-- A status without a message. -/
def Health.silent (status : Health) : HealthMessage := (status, "null".toList)

/-- A status with a message. -/
def Health.saying (status : Health) (message : String) : HealthMessage := (status, inQuotes message.toList)

/-- `ncp_sync_status`. -/
def ncpSyncStatus (h : NmosHost) (e : MonitorEnv) : HealthMessage :=
  if e.pcm.available then
    if e.pcm.locked then Health.healthy.silent
    else
      (if e.pcm.locking then .partiallyHealthy else .unhealthy,
        inQuotes ("PTP ".toList ++ (if e.pcm.locking then "locking" else "unlocked").toList ++ ", offset ".toList ++
          Json.printInt e.pcm.offsetNs ++ "ns".toList))
  else if h.host.config.isDualLeg ∧ e.ptp.status = "locked".toList ∧ e.ptp.legsAligned = false then
    (.partiallyHealthy, inQuotes ("Red and Blue legs are locked to different grandmasters (red: ".toList ++
      e.ptp.leg0Gmid ++ ", blue: ".toList ++ e.ptp.leg1Gmid ++ ")".toList))
  else if e.ptp.status = "locked".toList then
    if h.host.config.isDualLeg then
      Health.healthy.saying (if e.ptp.activeLeg = 0 then "Locked via primary (red) leg"
        else "Locked via secondary (blue) leg")
    else Health.healthy.silent
  else
    (if e.ptp.status = "locking".toList then .partiallyHealthy else .unhealthy,
      inQuotes ("PTP ".toList ++ e.ptp.status))

/-- `ncp_link_status`. -/
def ncpLinkStatus (h : NmosHost) (e : MonitorEnv) : HealthMessage :=
  if h.host.config.isDualLeg then
    match e.link0Up, e.link1Up with
    | true, true => Health.healthy.silent
    | true, false => Health.partiallyHealthy.saying "Secondary (blue) interface link down"
    | false, true => Health.partiallyHealthy.saying "Primary (red) interface link down"
    | false, false => Health.unhealthy.saying "Both interface links down"
  else if e.link0Up then Health.healthy.silent
  else Health.unhealthy.saying "Interface link down"

/-- `connection_status` of a receiver. -/
def connectionStatus (s : SinkStreamStatus) : HealthMessage :=
  let leg0Errs := s.isRtpSeqIdError || s.isRtpSsrcError || s.isRtpPayloadTypeError || s.isRtpSacError
  if s.leg2Present then
    match s.isReceivingRtpPacket, s.leg2IsReceivingRtpPacket with
    | true, true =>
      if leg0Errs then Health.partiallyHealthy.saying "RTP stream errors detected on primary (red) leg"
      else Health.healthy.silent
    | true, false => Health.partiallyHealthy.saying "Receiving on primary (red) leg only"
    | false, true => Health.partiallyHealthy.saying "Receiving on secondary (blue) leg only"
    | false, false => Health.unhealthy.saying "Not receiving RTP packets on either leg"
  else if !s.isReceivingRtpPacket then Health.unhealthy.saying "Not receiving RTP packets"
  else if leg0Errs then Health.partiallyHealthy.saying "RTP stream errors detected"
  else Health.healthy.silent

/-- `stream_status` of a receiver. -/
def streamStatus (s : SinkStreamStatus) : HealthMessage :=
  if s.isAllMuted then Health.unhealthy.saying "All channels muted"
  else if s.isSomeMuted then Health.partiallyHealthy.saying "Some channels muted"
  else Health.healthy.silent

/-- `transmission_status` of a sender. -/
def transmissionStatus (s : SourceStreamStatus) : HealthMessage :=
  if s.leg2Present then
    match s.isTransmitting, s.leg2IsTransmitting with
    | true, true =>
      if s.isUnderrun then Health.partiallyHealthy.saying "Buffer underrun detected on primary (red) leg"
      else Health.healthy.silent
    | true, false => Health.partiallyHealthy.saying "Transmitting on primary (red) leg only"
    | false, true => Health.partiallyHealthy.saying "Transmitting on secondary (blue) leg only"
    | false, false => Health.unhealthy.saying "Not transmitting RTP packets on either leg"
  else if !s.isTransmitting then Health.unhealthy.saying "Not transmitting RTP packets"
  else if s.isUnderrun then Health.partiallyHealthy.saying "Buffer underrun detected"
  else Health.healthy.silent

/-- `essence_status` of a sender. -/
def essenceStatus (s : SourceStreamStatus) : HealthMessage :=
  if s.isTransmitting then Health.healthy.silent else Health.unhealthy.silent

/-- `sync_source_id`. -/
def syncSourceId (e : MonitorEnv) : Text :=
  if e.sourcePcm.available && e.sourcePcm.locked then inQuotes e.sourcePcm.gmidDash
  else if e.sourcePtp.status = "locked".toList then inQuotes (colonToDashMac e.sourcePtp.gmid)
  else "null".toList

/-- The statuses of a monitor, before they are written down: `secondary` is the connection
or transmission status, `tertiary` the stream or essence status. -/
structure MonitorReading where
  link : HealthMessage := Health.inactive.silent
  secondary : HealthMessage := Health.inactive.silent
  sync : HealthMessage := Health.inactive.silent
  tertiary : HealthMessage := Health.inactive.silent
  syncSourceId : Text := "null".toList

/-- The statuses of a receiver. -/
def receiverReading (h : NmosHost) (e : MonitorEnv) (active : Bool) : MonitorReading :=
  if active then
    { link := ncpLinkStatus h e
      secondary := connectionStatus e.sinkStatus
      sync := ncpSyncStatus h e
      tertiary := streamStatus e.sinkStatus
      syncSourceId := syncSourceId e }
  else {}

/-- The statuses of a sender. -/
def senderReading (h : NmosHost) (e : MonitorEnv) (active : Bool) : MonitorReading :=
  if active then
    { link := ncpLinkStatus h e
      secondary := transmissionStatus e.sourceStatus
      sync := ncpSyncStatus h e
      tertiary := essenceStatus e.sourceStatus
      syncSourceId := syncSourceId e }
  else {}

/-- The overall status. -/
def MonitorReading.overall (r : MonitorReading) (active : Bool) : ℕ :=
  if active then max (max r.link.1.code r.secondary.1.code) (max r.sync.1.code r.tertiary.1.code)
  else Health.inactive.code

/-! ## Counters -/

/-- `NcMonitorCounters`; a status that was never observed is `none`, and a counter is an `int`. -/
structure NcMonitorCounters where
  linkStatus : Option Health := none
  secondaryStatus : Option Health := none
  syncStatus : Option Health := none
  tertiaryStatus : Option Health := none
  linkTransitions : Int32 := 0
  secondaryTransitions : Int32 := 0
  syncTransitions : Int32 := 0
  tertiaryTransitions : Int32 := 0
  autoReset : Bool := true

/-- A counter after an observation. -/
def transitions (last : Option Health) (status : Health) (n : Int32) : Int32 :=
  if last ≠ none ∧ last ≠ some status then n + 1 else n

/-- The counters after an observation. -/
def NcMonitorCounters.observe (r : MonitorReading) (c : NcMonitorCounters) : NcMonitorCounters :=
  { c with
    linkTransitions := transitions c.linkStatus r.link.1 c.linkTransitions
    secondaryTransitions := transitions c.secondaryStatus r.secondary.1 c.secondaryTransitions
    syncTransitions := transitions c.syncStatus r.sync.1 c.syncTransitions
    tertiaryTransitions := transitions c.tertiaryStatus r.tertiary.1 c.tertiaryTransitions
    linkStatus := some r.link.1
    secondaryStatus := some r.secondary.1
    syncStatus := some r.sync.1
    tertiaryStatus := some r.tertiary.1 }

/-- `monitor_counters_`. -/
abbrev MonitorCounters := SortedMap ℤ NcMonitorCounters

/-- `monitor_counters_[oid]`. -/
def MonitorCounters.at (oid : ℤ) (m : MonitorCounters) : NcMonitorCounters := (m.find? oid).getD {}

/-- `update_monitor_counters`. -/
def updateMonitorCounters (oid : ℤ) (r : MonitorReading) (m : MonitorCounters) : MonitorCounters :=
  m.insert oid ((m.at oid).observe r)

/-! ## Properties -/

/-- `NcPropEntry`. -/
structure NcPropEntry where
  level : ℤ
  index : ℤ
  jsonValue : Text
  deriving DecidableEq

def kRootBlockOid : ℤ := 1
def kDeviceManagerOid : ℤ := 2
def kClassManagerOid : ℤ := 3
def kReceiverMonitorOidBase : ℤ := 100
def kSenderMonitorOidBase : ℤ := 200

/-- The oid of the monitor of a stream: a receiver's for a sink, a sender's for a source. -/
def monitorOid (k : Kind) (id : UInt8) : ℤ :=
  (match k with
    | .source => kSenderMonitorOidBase
    | .sink => kReceiverMonitorOidBase) + id.toNat

/-- The properties of a monitor. -/
def monitorProps (resourceType : String) (resourceId : Text) (active : Bool) (r : MonitorReading)
    (c : NcMonitorCounters) : List NcPropEntry :=
  [⟨1, 7, "[\x7b\"resourceType\": ".toList ++ inQuotes resourceType.toList ++ ", \"id\": ".toList ++
      inQuotes resourceId ++ "\x7d]".toList⟩,
    ⟨3, 1, ofNat (r.overall active)⟩,
    ⟨3, 2, "null".toList⟩,
    ⟨4, 1, ofNat r.link.1.code⟩,
    ⟨4, 2, r.link.2⟩,
    ⟨4, 3, Json.printInt c.linkTransitions.toInt⟩,
    ⟨4, 4, ofNat r.secondary.1.code⟩,
    ⟨4, 5, r.secondary.2⟩,
    ⟨4, 6, Json.printInt c.secondaryTransitions.toInt⟩,
    ⟨4, 7, ofNat r.sync.1.code⟩,
    ⟨4, 8, r.sync.2⟩,
    ⟨4, 9, Json.printInt c.syncTransitions.toInt⟩,
    ⟨4, 10, r.syncSourceId⟩,
    ⟨4, 11, ofNat r.tertiary.1.code⟩,
    ⟨4, 12, r.tertiary.2⟩,
    ⟨4, 13, Json.printInt c.tertiaryTransitions.toInt⟩,
    ⟨4, 14, (if c.autoReset then "true" else "false").toList⟩]

namespace NmosManager

/-- `ncp_receiver_monitor_props`: the properties, and the counters after it. -/
def ncpReceiverMonitorProps (h : NmosHost) (e : MonitorEnv) (s : NmosManager) (sinkId : UInt8)
    (m : MonitorCounters) : List NcPropEntry × MonitorCounters :=
  match s.receivers.find? sinkId with
  | none => ([], m)
  | some rr =>
    let active := rr.active.masterEnable
    let r := receiverReading h e active
    let m' := updateMonitorCounters (monitorOid .sink sinkId) r m
    (monitorProps "receiver" rr.receiverId active r (m'.at (monitorOid .sink sinkId)), m')

/-- `ncp_sender_monitor_props`. -/
def ncpSenderMonitorProps (h : NmosHost) (e : MonitorEnv) (s : NmosManager) (sourceId : UInt8)
    (m : MonitorCounters) : List NcPropEntry × MonitorCounters :=
  match s.senders.find? sourceId with
  | none => ([], m)
  | some sr =>
    let active := sr.active.masterEnable
    let r := senderReading h e active
    let m' := updateMonitorCounters (monitorOid .source sourceId) r m
    (monitorProps "sender" sr.senderId active r (m'.at (monitorOid .source sourceId)), m')

/-- The properties of the monitor of a stream. -/
def ncpMonitorProps (h : NmosHost) (e : MonitorEnv) (s : NmosManager) :
    Kind → UInt8 → MonitorCounters → List NcPropEntry × MonitorCounters
  | .source => s.ncpSenderMonitorProps h e
  | .sink => s.ncpReceiverMonitorProps h e

end NmosManager

/-- `ncp_device_manager_props`. -/
def ncpDeviceManagerProps (h : NmosHost) : List NcPropEntry :=
  let manufacturer := "\x7b\"name\": \"aes67-linux-daemon\", \"organizationId\": null, ".toList ++
    "\"website\": \"https://github.com/bondagit/aes67-linux-daemon\"\x7d".toList
  let product := "\x7b\"name\": ".toList ++ inQuotes h.nmosLabel ++ ", \"key\": \"aes67-linux-daemon\"".toList ++
    ", \"revisionLevel\": \"1.0\", \"brandName\": \"aes67-linux-daemon\"".toList ++ ", \"uuid\": ".toList ++
    inQuotes h.nodeId ++ ", \"description\": \"AES67 Linux Daemon\"\x7d".toList
  [⟨3, 1, "\"v1.0.0\"".toList⟩,
    ⟨3, 2, manufacturer⟩,
    ⟨3, 3, product⟩,
    ⟨3, 4, inQuotes h.nodeId⟩,
    ⟨3, 5, "null".toList⟩,
    ⟨3, 6, "null".toList⟩,
    ⟨3, 7, "null".toList⟩,
    ⟨3, 8, "\x7b\"generic\": 1, \"deviceSpecificDetails\": null\x7d".toList⟩,
    ⟨3, 9, "0".toList⟩,
    ⟨3, 10, "null".toList⟩]

end Aes67Daemon
