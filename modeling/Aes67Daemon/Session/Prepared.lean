import Aes67Daemon.Session.Books

/-!
# What requests prepare

The record a request prepares carries the identity of the stream: its id, its
name as the driver's buffer holds it, and, leg by leg, the port it uses.
Registering the stream changes none of this.

## Main definitions

* `TRTPStreamInfo.slot` — which leg of which stream a registered record is.
* `prepared_slot`, `prepared_name` — what a prepared record says.
-/
namespace Aes67Daemon

open Text

/-- One leg of one stream. -/
structure Slot where
  kind : Kind
  id : UInt8
  leg : Fin 2
  deriving DecidableEq

/-- The leg a registered record stands for. -/
def TRTPStreamInfo.slot (s : TRTPStreamInfo) : Slot :=
  { kind := if s.bSource then .source else .sink
    id := s.uiId.toUInt8
    leg := if s.uiIfPortId = 0 then 0 else 1 }

namespace SessionManager
variable {host : Host} {env : Env}

/-- What is left of a prepared sink when its SDP is taken away. -/
theorem preparedSink_eq_ok {ptp : Ptp} {sink : StreamSink} {info : StreamInfo}
    (h : preparedSink host env ptp sink = .ok info) :
    sink.map.length ≤ host.routingSize ∧ ∃ sdp parsed, sinkSdpText host env sink = .ok sdp ∧
      parseSdp host ptp sdp (sinkInfo host sink) = .ok parsed ∧
      info = { parsed with
        sinkSdp := sdp
        sinkSource := sink.source
        sinkUseSdp := true
        stream := ⟨sinkLeg host parsed.stream.leg0 parsed.stream.leg0,
          if parsed.st20227Enabled then sinkLeg host parsed.stream.leg0 parsed.stream.leg1
          else parsed.stream.leg1⟩ } := by
  unfold preparedSink at h
  split at h
  · cases h
  rename_i hmap
  split at h
  · cases h
  · rename_i sdp hsdp
    split at h
    · cases h
    · rename_i parsed hparsed
      exact ⟨not_lt.mp hmap, sdp, parsed, hsdp, hparsed, (Except.ok.inj h).symm⟩

/-- The legs of a prepared sink still say what `add_sink` wrote first. -/
theorem preparedSink_legs {ptp : Ptp} {sink : StreamSink} {info : StreamInfo}
    (h : preparedSink host env ptp sink = .ok info) (s : TRTPStreamInfo)
    (hs : s = info.stream.leg0 ∨ s = info.stream.leg1) :
    s.bSource = false ∧ s.uiId = sink.id.toUInt32 ∧ s.cName = cStr host.nameSize sink.name ∧
      s.uiIfPortId = 0 := by
  obtain ⟨-, sdp, parsed, -, hparsed, rfl⟩ := preparedSink_eq_ok h
  have hkeep := undescribed_parseSdp hparsed
  have h0 : parsed.stream.leg0.undescribed = (sinkInfo host sink).stream.leg0.undescribed :=
    congrArg (fun i => i.stream.leg0) hkeep
  have h1 : parsed.stream.leg1.undescribed = (sinkInfo host sink).stream.leg1.undescribed :=
    congrArg (fun i => i.stream.leg1) hkeep
  have hfields : ∀ leg : TRTPStreamInfo,
      leg.undescribed = (sinkInfo host sink).stream.leg0.undescribed →
      leg.bSource = false ∧ leg.uiId = sink.id.toUInt32 ∧ leg.cName = cStr host.nameSize sink.name ∧
        leg.uiIfPortId = 0 := by
    intro leg hleg
    exact ⟨congrArg TRTPStreamInfo.bSource hleg, congrArg TRTPStreamInfo.uiId hleg,
      congrArg TRTPStreamInfo.cName hleg, congrArg TRTPStreamInfo.uiIfPortId hleg⟩
  rcases hs with rfl | rfl
  · exact hfields parsed.stream.leg0 h0
  · dsimp only
    split
    · exact hfields parsed.stream.leg1 h1
    · exact hfields parsed.stream.leg1 h1

/-- The primary leg of a source says what `add_source` wrote. -/
theorem sourceStream_fields {source : StreamSource} {rate : UInt32} {stream : TRTPStreamInfo}
    (h : sourceStream host env source rate = some stream) :
    stream.bSource = true ∧ stream.uiId = source.id.toUInt32 ∧
      stream.cName = cStr host.nameSize source.name ∧ stream.uiIfPortId = 0 ∧
      stream.ui32DestIP = sourceDestIP host source := by
  unfold sourceStream at h
  simp only at h
  split at h
  · cases h
    exact ⟨rfl, rfl, rfl, rfl, rfl⟩
  · obtain ⟨mac, -, rfl⟩ := Option.map_eq_some_iff.mp h
    exact ⟨rfl, rfl, rfl, rfl, rfl⟩

/-- Only the two adding requests prepare a record. -/
theorem prepared_cases {s : SessionManager} {r : Request} {info : StreamInfo}
    (h : r.prepared host s = some info) :
    (∃ env source stream, r = .addSource env source ∧
      (source.id.toNat ≤ streamIdMax ∧ source.map.length ≤ host.routingSize) ∧
      sourceStream host env source s.driver.sampleRate = some stream ∧
      info = sourceInfo host source stream s.gSessionVersion) ∨
    (∃ env sink, r = .addSink env sink ∧ sink.id.toNat ≤ streamIdMax ∧
      preparedSink host env s.ptp sink = .ok info) := by
  cases r with
  | addSource env source =>
      simp only [Request.prepared, Option.ite_none_left_eq_some, Option.map_eq_some_iff] at h
      obtain ⟨hid, stream, hstream, rfl⟩ := h
      rw [not_or, not_lt, not_lt] at hid
      exact .inl ⟨env, source, stream, rfl, hid, hstream, rfl⟩
  | addSink env sink =>
      simp only [Request.prepared, Option.ite_none_left_eq_some] at h
      obtain ⟨hid, hp⟩ := h
      exact .inr ⟨env, sink, rfl, not_lt.mp hid, Parsed.toOption_eq_some.mp hp⟩
  | removeSource env id => cases h
  | removeSink env id => cases h

/-- **A prepared record names its primary leg.** -/
theorem prepared_slot {s : SessionManager} {r : Request} {info : StreamInfo}
    (h : r.prepared host s = some info) : info.stream.leg0.slot = ⟨r.kind, r.id, 0⟩ := by
  rcases prepared_cases h with ⟨env, source, stream, rfl, -, hstream, rfl⟩ | ⟨env, sink, rfl, -, hp⟩
  · obtain ⟨hb, hid, -, hport, -⟩ := sourceStream_fields hstream
    simp [TRTPStreamInfo.slot, sourceInfo, hb, hid, hport, Request.kind, Request.id]
  · obtain ⟨hb, hid, -, hport⟩ := preparedSink_legs hp _ (.inl rfl)
    simp [TRTPStreamInfo.slot, hb, hid, hport, Request.kind, Request.id]

/-- The secondary leg a request registers is the second of the same stream. -/
theorem secondLeg_slot {s : SessionManager} {r : Request} {info : StreamInfo}
    {leg1 : TRTPStreamInfo} (h : r.prepared host s = some info)
    (hleg1 : r.secondLeg host info = some leg1) : leg1.slot = ⟨r.kind, r.id, 1⟩ := by
  rcases prepared_cases h with ⟨env, source, stream, rfl, -, hstream, rfl⟩ | ⟨env, sink, rfl, -, hp⟩
  · obtain ⟨hb, hid, -, -, -⟩ := sourceStream_fields hstream
    obtain ⟨ip, -, rfl⟩ := Option.map_eq_some_iff.mp hleg1
    simp [TRTPStreamInfo.slot, sourceStreamSec, sourceInfo, hb, hid, Request.kind, Request.id]
  · obtain ⟨hb, hid, -, -⟩ := preparedSink_legs hp _ (.inr rfl)
    obtain ⟨ip, -, rfl⟩ := Option.map_eq_some_iff.mp hleg1
    simp [TRTPStreamInfo.slot, sinkStreamSec, hb, hid, Request.kind, Request.id]

/-- A prepared record carries the requested name, as far as the buffer holds it. -/
theorem prepared_name {s : SessionManager} {r : Request} {info : StreamInfo}
    (h : r.prepared host s = some info) :
    info.stream.leg0.cName = cStr host.nameSize r.name := by
  rcases prepared_cases h with ⟨env, source, stream, rfl, -, hstream, rfl⟩ | ⟨env, sink, rfl, -, hp⟩
  · exact (sourceStream_fields hstream).2.2.1
  · exact (preparedSink_legs hp _ (.inl rfl)).2.2.1

/-- A source with a multicast address that is not enabled is stored. -/
theorem addSource_disabled {s : SessionManager} {source : StreamSource} {ip : UInt32}
    (hid : source.id.toNat ≤ streamIdMax) (hmap : source.map.length ≤ host.routingSize)
    (haddress : Address.ofText source.address = some ip) (hmcast : Address.inMulticast ip = true)
    (hdisabled : source.enabled = false) (hnone : s.sources.find? source.id = none)
    (hname : s.sourceNames.contains source.name = false) :
    ∃ info s', s.addSource host env source = some (.ok, s') ∧ s'.sources.find? source.id = some info := by
  have hdest : sourceDestIP host source = ip := by rw [sourceDestIP, haddress, Option.getD_some]
  obtain ⟨stream, hstream⟩ : ∃ stream, sourceStream host env source s.driver.sampleRate = some stream := by
    rw [sourceStream, hdest]
    exact ⟨_, if_pos hmcast⟩
  rw [addSource, if_neg (not_lt.mpr hid), if_neg (not_lt.mpr hmap), hstream]
  simp only [hnone, hname, Bool.false_eq_true, if_false, registerSource, sourceInfo, hdisabled]
  exact ⟨_, _, rfl, SortedMap.find?_insert_self _ _ _⟩

end SessionManager

/-! ## Sample requests -/

/-- A host with a secondary interface. -/
def redundantHost : Host := { config := { interfaceName1 := "eth1".toList } }

/-- A call during which every interface has the address `ip`, and the driver
replies `first` and `second` to the registration of the legs. -/
def Env.answering (ip : Option UInt32) (first second : Except ErrorCode Handle) : Env :=
  { replies := { addFirst := first, addSecond := second }, interfaceIp := fun _ => ip }

/-- A stereo source in use. -/
def stereoSource (id : UInt8) (name : Text) : StreamSource :=
  { id := id, enabled := true, name := name, codec := "L16".toList, maxSamplesPerPacket := 48
    map := [0, 1] }

/-- A stereo sink that listens to the stream of an SDP. -/
def stereoSink (id : UInt8) (name sdp : Text) : StreamSink :=
  { id := id, name := name, useSdp := true, sdp := sdp, map := [0, 1] }

/-- The SDP of a stream with two legs. -/
def redundantSdp (ip0 ip1 : Text) : Text := unlines [
  "v=0".toList, "o=- 1 1 IN IP4 10.0.0.9".toList, "s=a".toList, "t=0 0".toList,
  "a=group:DUP 1 2".toList,
  "m=audio 5004 RTP/AVP 98".toList, "c=IN IP4 ".toList ++ ip0, "a=rtpmap:98 L16/48000/2".toList,
  "m=audio 5006 RTP/AVP 98".toList, "c=IN IP4 ".toList ++ ip1, "a=rtpmap:98 L16/48000/2".toList ]

end Aes67Daemon
