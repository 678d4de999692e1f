import Aes67Daemon.Net.Url
import Aes67Daemon.Session.Driver
import Aes67Daemon.Session.Sdp

/-!
# The session manager

The state of `SessionManager` and the operations on its streams, as
`session_manager.cpp` computes them: `addSource`, `removeSource`, `addSink` and
`removeSink`, with every exit.  Each takes the `Env` of the call and returns how
the call ends and the state after it.

`addSource` uses an iterator that may be past the end of `sources_`.
Dereferencing it has no defined outcome, and there the result is `none`.  A
channel map that does not fit into the routing array of the driver's record
is copied past its end; there the call ends with `outOfBounds`.

## Main definitions

* `SessionManager` — the members, the driver included.
* `SessionManager.addSource`, `removeSource`, `addSink`, `removeSink`.
* `SessionManager.getSources`, `getSinks` — the streams as the REST API shows them.
-/
namespace Aes67Daemon

open Text

/-- What the registered observers are told. -/
inductive Notification
  | addSource (id : UInt8) (name sdp : Text)
  | removeSource (id : UInt8) (name : Text)
  | updateSource (id : UInt8) (name sdp : Text)
  | addSink (id : UInt8) (name : Text)
  | removeSink (id : UInt8) (name : Text)
  deriving DecidableEq

/-- The members of `SessionManager`. -/
structure SessionManager where
  sources : SortedMap UInt8 StreamInfo := .empty
  sourceNames : SortedMap Text UInt8 := .empty
  sinks : SortedMap UInt8 StreamInfo := .empty
  sinkNames : SortedMap Text UInt8 := .empty
  /-- `announced_sources_`: source address, session id and version by hash. -/
  announcedSources : SortedMap UInt32 (UInt32 × UInt32 × UInt32) := .empty
  deletedSourcesCount : SortedMap UInt32 ℕ := .empty
  ptp : Ptp := {}
  igmp : Legs Igmp := ⟨{}, {}⟩
  gSessionVersion : UInt32 := 0
  driver : Driver := {}
  /-- The number of `update_source` observers. -/
  updateSourceObservers : ℕ := 0
  /-- What the observers were told, newest first. -/
  notifications : List Notification := []
  /-- The local `sample_rate` of `worker`. -/
  workerSampleRate : UInt32 := 0

namespace SessionManager

/-- Tell the observers. -/
def notify (s : SessionManager) (n : Notification) : SessionManager :=
  { s with notifications := n :: s.notifications }

/-- What a session manager told its observers to become another, oldest first. -/
def told (s s' : SessionManager) : List Notification :=
  (s'.notifications.take (s'.notifications.length - s.notifications.length)).reverse

/-! ## Helpers shared by sources and sinks -/

/-- Join the groups of a stream; the second leg only along with the first.  The
texts are printed addresses, so nothing throws. -/
def joinLegs (host : Host) (env : Env) (info : StreamInfo) (igmp : Legs Igmp) : Legs Igmp :=
  if Address.inMulticast info.stream.leg0.ui32DestIP then
    { leg0 := igmp.leg0.joined (env.joinOk 0) host.config.ipAddrStr
        (Address.toText info.stream.leg0.ui32DestIP)
      leg1 :=
        if info.st20227Enabled then
          igmp.leg1.joined (env.joinOk 1) (ipText (env.secondaryIp host))
            (Address.toText info.stream.leg1.ui32DestIP)
        else igmp.leg1 }
  else igmp

/-- Leave the groups of a stream. -/
def leaveLegs (host : Host) (env : Env) (info : StreamInfo) (igmp : Legs Igmp) : Legs Igmp :=
  if Address.inMulticast info.stream.leg0.ui32DestIP then
    { leg0 := igmp.leg0.left (env.leaveOk 0) host.config.ipAddrStr
        (Address.toText info.stream.leg0.ui32DestIP)
      leg1 :=
        if info.st20227Enabled then
          igmp.leg1.left (env.leaveOk 1) (ipText (env.secondaryIp host))
            (Address.toText info.stream.leg1.ui32DestIP)
        else igmp.leg1 }
  else igmp

/-- `(void)remove_rtp_stream` of the legs of a stored stream. -/
def dropLegs (env : Env) (info : StreamInfo) (d : Driver) : Driver :=
  let d := (d.removeRtpStream env.replies.dropFirst info.handle.leg0).2
  if info.st20227Enabled then
    (d.removeRtpStream env.replies.dropSecond info.handle.leg1).2 else d

/-- The checked removal of the legs: the second is only tried after the first. -/
def removeLegs (env : Env) (info : StreamInfo) (d : Driver) : Option ErrorCode × Driver :=
  let (ret, d) := d.removeRtpStream env.replies.dropFirst info.handle.leg0
  if ret.isNone ∧ info.st20227Enabled then
    d.removeRtpStream env.replies.dropSecond info.handle.leg1 else (ret, d)

/-- `IN_MULTICAST` decides the destination MAC, else the host is asked for. -/
def retrieveMac (env : Env) (ip : UInt32) : Option Mac :=
  -- one look and three retries
  (List.range 4).findSome? fun n => env.arpCache n ip

/-! ## Sources -/

/-- The destination of a source: the given address, or the default base plus the id. -/
def sourceDestIP (host : Host) (source : StreamSource) : UInt32 :=
  (Address.ofText source.address).getD (host.config.mcastBase + source.id.toUInt32)

/-- The destination of the secondary leg. -/
def sourceDestIPSec (host : Host) (source : StreamSource) : UInt32 :=
  (Address.ofText source.addressSec).getD (host.config.mcastBaseSec + source.id.toUInt32)

/-- The primary leg of a source; `none` when the MAC cannot be retrieved. -/
def sourceStream (host : Host) (env : Env) (source : StreamSource) (sampleRate : UInt32) :
    Option TRTPStreamInfo :=
  let destIP := sourceDestIP host source
  let stream : TRTPStreamInfo :=
    { bSource := true
      uiId := source.id.toUInt32
      cName := cStr host.nameSize source.name
      ucDSCP := source.dscp
      byPayloadType := source.payloadType
      byWordLength := getCodecWordLength source.codec
      byNbOfChannels := UInt8.ofNat source.map.length
      cCodec := cStr host.codecSize source.codec
      ui32MaxSamplesPerPacket := source.maxSamplesPerPacket
      ui32SamplingRate := sampleRate
      ui32RTCPSrcIP := host.config.ipAddr
      ui32SrcIP := host.config.ipAddr
      ui32DestIP := destIP
      usSrcPort := host.config.rtpPort
      usDestPort := host.config.rtpPort
      ui32SSRC := UInt32.ofNat (env.rand % 65536)
      aui32Routing := source.map.map UInt8.toUInt32 }
  if Address.inMulticast destIP then
    some { stream with ui8DestMAC := Address.mcastMacAddr destIP, byTTL := source.ttl }
  else (retrieveMac env destIP).map fun mac => { stream with ui8DestMAC := mac, byTTL := 64 }

/-- What `add_source` prepares before it takes the lock. -/
def sourceInfo (host : Host) (source : StreamSource) (stream : TRTPStreamInfo)
    (gSessionVersion : UInt32) : StreamInfo :=
  { stream := ⟨stream, {}⟩
    refclkPtpTraceable := source.refclkPtpTraceable
    enabled := source.enabled
    io := source.io
    sessionId := host.config.sessionId source.id
    sessionVersion := host.config.sessionId source.id + gSessionVersion }

/-- The secondary leg of a source, on an interface with the address `ip`. -/
def sourceStreamSec (host : Host) (source : StreamSource) (ip : UInt32)
    (stream : TRTPStreamInfo) : TRTPStreamInfo :=
  let destIP := sourceDestIPSec host source
  { stream with
    ui32DestIP := destIP
    ui32RTCPSrcIP := ip
    ui32SrcIP := ip
    uiIfPortId := 1
    usSrcPort := host.config.rtpPortSec
    usDestPort := host.config.rtpPortSec
    byTTL := if Address.inMulticast destIP then stream.byTTL else 64 }

/-- `on_add_source`. -/
def onAddSource (host : Host) (env : Env) (source : StreamSource) (info : StreamInfo)
    (s : SessionManager) : SessionManager :=
  let s := s.notify (.addSource source.id source.name
    (getSourceSdp host env s.ptp s.driver.sampleRate info))
  { s with
    igmp := joinLegs host env info s.igmp
    sourceNames := s.sourceNames.insert source.name source.id }

/-- `on_remove_source`. -/
def onRemoveSource (host : Host) (env : Env) (info : StreamInfo) (s : SessionManager) :
    SessionManager :=
  let s := s.notify (.removeSource info.stream.leg0.uiId.toUInt8 info.stream.leg0.cName)
  { s with
    igmp := leaveLegs host env info s.igmp
    sourceNames := s.sourceNames.erase info.stream.leg0.cName }

/-- `sources_[id] = info`. -/
def setSource (id : UInt8) (info : StreamInfo) (s : SessionManager) : SessionManager :=
  { s with sources := s.sources.insert id info }

/-- `sources_.erase(id)`. -/
def eraseSource (id : UInt8) (s : SessionManager) : SessionManager :=
  { s with sources := s.sources.erase id }

/-- The rest of `add_source` once the previous stream is gone: register the legs
and store the source.  `it` is what the iterator refers to, `none` past the end. -/
def registerSource (host : Host) (env : Env) (source : StreamSource) (info : StreamInfo)
    (it : Option StreamInfo) (s : SessionManager) : Option (Ret × SessionManager) :=
  if info.enabled then
    match s.driver.addRtpStream env.replies.addFirst info.stream.leg0 with
    | (.error e, d) =>
      let s := { s with driver := d }
      some (.error e, if it.isSome then s.eraseSource source.id else s)
    | (.ok h0, d) =>
      let s := { s with driver := d }
      let info := { info with handle.leg0 := h0, st20227Enabled := false }
      let secondary := if source.useSecondary then env.secondaryIp host else none
      match secondary with
      | none => some (.ok, (s.onAddSource host env source info).setSource source.id info)
      | some ip =>
        let info := { info with stream.leg1 := sourceStreamSec host source ip info.stream.leg0 }
        match s.driver.addRtpStream env.replies.addSecond info.stream.leg1 with
        | (.error e, d) =>
          match it with
          -- `(*it).second.handle[0]` with `it == sources_.end()`
          | none => none
          | some old =>
            let d := (d.removeRtpStream env.replies.rollback old.handle.leg0).2
            some (.error e, { s with driver := d }.eraseSource source.id)
        | (.ok h1, d) =>
          let s := { s with driver := d }
          let info := { info with handle.leg1 := h1, st20227Enabled := true }
          some (.ok, (s.onAddSource host env source info).setSource source.id info)
  else some (.ok, s.setSource source.id info)

/-- Release a stored source that is replaced. -/
def dropSource (host : Host) (env : Env) (old : StreamInfo) (s : SessionManager) :
    SessionManager :=
  if old.enabled then
    { s with driver := dropLegs env old s.driver }.onRemoveSource host env old
  else s

/-- `add_source`. -/
def addSource (host : Host) (env : Env) (source : StreamSource) (s : SessionManager) :
    Option (Ret × SessionManager) :=
  if streamIdMax < source.id.toNat then some (.error .invalidStreamId, s)
  -- `std::copy` into `m_aui32Routing`
  else if host.routingSize < source.map.length then some (.outOfBounds, s)
  else
    match sourceStream host env source s.driver.sampleRate with
    | none => some (.error .cannotRetrieveMac, s)
    | some stream =>
      let info := sourceInfo host source stream s.gSessionVersion
      let s := { s with gSessionVersion := s.gSessionVersion + 1 }
      match s.sources.find? source.id with
      | some old => registerSource host env source info (some old) (s.dropSource host env old)
      | none =>
        if s.sourceNames.contains source.name then some (.error .streamNameInUse, s)
        else registerSource host env source info none s

/-- `remove_source`. -/
def removeSource (host : Host) (env : Env) (id : UInt32) (s : SessionManager) :
    Ret × SessionManager :=
  if streamIdMax < id.toNat then (.error .invalidStreamId, s)
  else
    match s.sources.find? id.toUInt8 with
    | none => (.error .streamIdNotInUse, s)
    | some info =>
      if info.enabled then
        match removeLegs env info s.driver with
        | (some e, d) => (.error e, { s with driver := d })
        | (none, d) =>
          (.ok, ({ s with driver := d }.onRemoveSource host env info).eraseSource id.toUInt8)
      else (.ok, s.eraseSource id.toUInt8)

/-! ## Sinks -/

/-- What `add_sink` prepares before it looks at the SDP. -/
def sinkInfo (host : Host) (sink : StreamSink) : StreamInfo :=
  let stream : TRTPStreamInfo :=
    { bSource := false
      uiId := sink.id.toUInt32
      cName := cStr host.nameSize sink.name
      byNbOfChannels := UInt8.ofNat sink.map.length
      aui32Routing := sink.map.map UInt8.toUInt32
      ui32PlayOutDelay := sink.delay
      ui32RTCPSrcIP := host.config.ipAddr }
  { stream := ⟨stream, stream⟩
    ignoreRefclkGmid := sink.ignoreRefclkGmid
    io := sink.io }

/-- The SDP behind the URL of a sink. -/
def fetchSdp (host : Host) (env : Env) (url : Text) : Except Ret Text :=
  match parseUrl (host.decodeUrl url) with
  | none => .error .thrown
  | some u =>
    if !u.ok then .error (.error .invalidUrl)
    else if toLower u.protocol = "http".toList then
      match env.httpGet u.host (if atoi u.port = 0 then 80 else atoi u.port) u.path with
      | some (200, body) => .ok body
      | _ => .error (.error .cannotRetrieveSdp)
    else if toLower u.protocol = "rtsp".toList then
      match env.rtspDescribe u.path u.host u.port with
      | some sdp => .ok sdp
      | none => .error (.error .cannotRetrieveSdp)
    else .error (.error .invalidUrl)

/-- The SDP of a sink: its own, or the one behind its URL. -/
def sinkSdpText (host : Host) (env : Env) (sink : StreamSink) : Except Ret Text :=
  if sink.useSdp then .ok sink.sdp else fetchSdp host env sink.source

/-- The frame size and the MAC of one leg.  The multicast MAC is the one of the
first leg for both. -/
def sinkLeg (host : Host) (leg0 stream : TRTPStreamInfo) : TRTPStreamInfo :=
  let frameSize := leg0.ui32MaxSamplesPerPacket
  { stream with
    ui32FrameSize := if frameSize = 0 then host.config.maxTicFrameSize else frameSize
    ui8DestMAC :=
      if Address.inMulticast stream.ui32DestIP then Address.mcastMacAddr leg0.ui32DestIP
      else host.config.macAddr }

/-- What `add_sink` has prepared when it takes the lock. -/
def preparedSink (host : Host) (env : Env) (ptp : Ptp) (sink : StreamSink) :
    Except Ret StreamInfo :=
  -- `std::copy` into `m_aui32Routing`
  if host.routingSize < sink.map.length then .error .outOfBounds
  else
    match sinkSdpText host env sink with
    | .error r => .error r
    | .ok sdp =>
      match parseSdp host ptp sdp (sinkInfo host sink) with
      | .error _ => .error (.error .cannotParseSdp)
      | .ok info =>
        let leg0 := info.stream.leg0
        .ok { info with
          sinkSdp := sdp
          sinkSource := sink.source
          sinkUseSdp := true
          stream := ⟨sinkLeg host leg0 leg0,
            if info.st20227Enabled then sinkLeg host leg0 info.stream.leg1 else info.stream.leg1⟩ }

/-- The secondary leg of a sink, on an interface with the address `ip`. -/
def sinkStreamSec (host : Host) (env : Env) (ip : UInt32) (stream : TRTPStreamInfo) :
    TRTPStreamInfo :=
  let mac := if Address.inMulticast stream.ui32DestIP then none
    else env.interfaceMac host.config.interfaceName1
  { stream with
    ui32RTCPSrcIP := ip
    uiIfPortId := 1
    ui8DestMAC := mac.getD stream.ui8DestMAC }

/-- `on_add_sink`. -/
def onAddSink (host : Host) (env : Env) (sink : StreamSink) (info : StreamInfo)
    (s : SessionManager) : SessionManager :=
  let s := s.notify (.addSink sink.id sink.name)
  { s with
    igmp := joinLegs host env info s.igmp
    sinkNames := s.sinkNames.insert sink.name sink.id }

/-- `on_remove_sink`. -/
def onRemoveSink (host : Host) (env : Env) (info : StreamInfo) (s : SessionManager) :
    SessionManager :=
  let s := s.notify (.removeSink info.stream.leg0.uiId.toUInt8 info.stream.leg0.cName)
  { s with
    igmp := leaveLegs host env info s.igmp
    sinkNames := s.sinkNames.erase info.stream.leg0.cName }

/-- `sinks_[id] = info`. -/
def setSink (id : UInt8) (info : StreamInfo) (s : SessionManager) : SessionManager :=
  { s with sinks := s.sinks.insert id info }

/-- `sinks_.erase(id)`. -/
def eraseSink (id : UInt8) (s : SessionManager) : SessionManager :=
  { s with sinks := s.sinks.erase id }

/-- The rest of `add_sink` once the previous stream is gone. -/
def registerSink (host : Host) (env : Env) (sink : StreamSink) (info : StreamInfo)
    (it : Option StreamInfo) (s : SessionManager) : Ret × SessionManager :=
  match s.driver.addRtpStream env.replies.addFirst info.stream.leg0 with
  | (.error e, d) =>
    let s := { s with driver := d }
    (.error e, if it.isSome then s.eraseSink sink.id else s)
  | (.ok h0, d) =>
    let s := { s with driver := d }
    let info := { info with handle.leg0 := h0 }
    let secondary := if info.st20227Enabled then env.secondaryIp host else none
    match secondary with
    | none =>
      let info := { info with st20227Enabled := false }
      (.ok, (s.onAddSink host env sink info).setSink sink.id info)
    | some ip =>
      let info := { info with stream.leg1 := sinkStreamSec host env ip info.stream.leg1 }
      match s.driver.addRtpStream env.replies.addSecond info.stream.leg1 with
      | (.error e, d) =>
        let d := (d.removeRtpStream env.replies.rollback h0).2
        let s := { s with driver := d }
        (.error e, if it.isSome then s.eraseSink sink.id else s)
      | (.ok h1, d) =>
        let s := { s with driver := d }
        let info := { info with handle.leg1 := h1 }
        (.ok, (s.onAddSink host env sink info).setSink sink.id info)

/-- Release a stored sink that is replaced. -/
def dropSink (host : Host) (env : Env) (old : StreamInfo) (s : SessionManager) :
    SessionManager :=
  { s with driver := dropLegs env old s.driver }.onRemoveSink host env old

/-- `add_sink`. -/
def addSink (host : Host) (env : Env) (sink : StreamSink) (s : SessionManager) :
    Ret × SessionManager :=
  if streamIdMax < sink.id.toNat then (.error .invalidStreamId, s)
  else
    match preparedSink host env s.ptp sink with
    | .error r => (r, s)
    | .ok info =>
      match s.sinks.find? sink.id with
      | some old => registerSink host env sink info (some old) (s.dropSink host env old)
      | none =>
        if s.sinkNames.contains sink.name then (.error .streamNameInUse, s)
        else registerSink host env sink info none s

/-- `remove_sink`. -/
def removeSink (host : Host) (env : Env) (id : UInt32) (s : SessionManager) :
    Ret × SessionManager :=
  if streamIdMax < id.toNat then (.error .streamIdInUse, s)
  else
    match s.sinks.find? id.toUInt8 with
    | none => (.error .streamIdNotInUse, s)
    | some info =>
      match removeLegs env info s.driver with
      | (some e, d) => (.error e, { s with driver := d })
      | (none, d) => (.ok, ({ s with driver := d }.onRemoveSink host env info).eraseSink id.toUInt8)

/-! ## What the REST API shows -/

/-- The channel map read back from the driver's record. -/
def channelMap (stream : TRTPStreamInfo) : List UInt8 :=
  (stream.aui32Routing.take stream.byNbOfChannels.toNat).map UInt32.toUInt8

/-- `get_source_`. -/
def getSource_ (id : UInt8) (info : StreamInfo) : StreamSource :=
  { id := id
    enabled := info.enabled
    name := info.stream.leg0.cName
    io := info.io
    maxSamplesPerPacket := info.stream.leg0.ui32MaxSamplesPerPacket
    codec := info.stream.leg0.cCodec
    address := Address.toText info.stream.leg0.ui32DestIP
    addressSec :=
      if info.st20227Enabled then Address.toText info.stream.leg1.ui32DestIP else []
    useSecondary := info.st20227Enabled
    ttl := info.stream.leg0.byTTL
    payloadType := info.stream.leg0.byPayloadType
    dscp := info.stream.leg0.ucDSCP
    refclkPtpTraceable := info.refclkPtpTraceable
    map := channelMap info.stream.leg0 }

/-- `get_sink_`. -/
def getSink_ (id : UInt8) (info : StreamInfo) : StreamSink :=
  { id := id
    name := info.stream.leg0.cName
    io := info.io
    useSdp := info.sinkUseSdp
    source := info.sinkSource
    sdp := info.sinkSdp
    delay := info.stream.leg0.ui32PlayOutDelay
    ignoreRefclkGmid := info.ignoreRefclkGmid
    map := channelMap info.stream.leg0 }

/-- `get_sources`. -/
def getSources (s : SessionManager) : List StreamSource :=
  s.sources.entries.map fun e => getSource_ e.1 e.2

/-- `get_sinks`. -/
def getSinks (s : SessionManager) : List StreamSink :=
  s.sinks.entries.map fun e => getSink_ e.1 e.2

theorem nodup_getSources (s : SessionManager) : (s.getSources.map StreamSource.id).Nodup := by
  rw [getSources, List.map_map]
  exact s.sources.keys_nodup

theorem nodup_getSinks (s : SessionManager) : (s.getSinks.map StreamSink.id).Nodup := by
  rw [getSinks, List.map_map]
  exact s.sinks.keys_nodup

/-- `get_source`. -/
def getSource (s : SessionManager) (id : UInt8) : Option StreamSource :=
  (s.sources.find? id).map (getSource_ id)

/-- `get_sink`. -/
def getSink (s : SessionManager) (id : UInt8) : Option StreamSink :=
  (s.sinks.find? id).map (getSink_ id)

/-- `get_source_id`; `stream_id_max + 1` when no source has the name. -/
def getSourceId (s : SessionManager) (name : Text) : UInt8 :=
  (s.sourceNames.find? name).getD (UInt8.ofNat (streamIdMax + 1))

/-- `get_sink_id`. -/
def getSinkId (s : SessionManager) (name : Text) : UInt8 :=
  (s.sinkNames.find? name).getD (UInt8.ofNat (streamIdMax + 1))

/-- `get_source_sdp`. -/
def getSourceSdpOf (host : Host) (env : Env) (s : SessionManager) (id : UInt32) : Option Text :=
  (s.sources.find? id.toUInt8).map (getSourceSdp host env s.ptp s.driver.sampleRate)

/-- A constructed session manager. -/
def create (host : Host) : SessionManager :=
  { ptp := { config := { domain := host.config.ptpDomain, dscp := host.config.ptpDscp } } }

end SessionManager

/-! ## Requests -/

/-- A call, with what the outside world answers during it. -/
inductive Request
  | addSource (env : Env) (source : StreamSource)
  | removeSource (env : Env) (id : UInt32)
  | addSink (env : Env) (sink : StreamSink)
  | removeSink (env : Env) (id : UInt32)

/-- The answers of the outside world during a call. -/
def Request.env : Request → Env
  | .addSource env _ | .removeSource env _ | .addSink env _ | .removeSink env _ => env

namespace SessionManager

/-- Serve one request; `none` when its outcome is not defined. -/
def serve (host : Host) (s : SessionManager) : Request → Option (Ret × SessionManager)
  | .addSource env source => s.addSource host env source
  | .removeSource env id => some (s.removeSource host env id)
  | .addSink env sink => some (s.addSink host env sink)
  | .removeSink env id => some (s.removeSink host env id)

/-- The state after one request. -/
def step (host : Host) (s : SessionManager) (r : Request) : Option SessionManager :=
  (s.serve host r).map Prod.snd

end SessionManager
end Aes67Daemon
