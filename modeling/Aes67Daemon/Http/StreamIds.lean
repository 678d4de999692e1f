import Aes67Daemon.Net.UrlForm
import Aes67Daemon.Rtsp.ByName
import Aes67Daemon.Session.StreamList

/-!
# Stream ids in requests

The routes of the HTTP server that take the id of a stream from the URL, and the path by which
a source is described over RTSP.  An id is a text of digits that `std::stoi` reads; from there
it is narrowed to 32 bits for some of the operations of the session manager, which compare it
with `stream_id_max`, and to 8 bits for others, which do not, or compare it afterwards.

What the driver and the streamer answer is left open.

## Main definitions

* `StreamRoute`, `SessionManager.serveApi` — the routes, and what they do.
* `SessionManager.Refused` — a request is refused.
* `refused_iff` — which ids out of range are refused.
-/
namespace Aes67Daemon

open Text

/-! ## Errors -/

/-- The value of an error code in its enumeration. -/
def ErrorCode.value : ErrorCode → ℕ
  | invalidStreamId => 40
  | streamIdInUse => 41
  | streamIdNotInUse => 42
  | invalidUrl => 43
  | cannotRetrieveSdp => 44
  | cannotParseSdp => 45
  | streamNameInUse => 46
  | cannotRetrieveMac => 47
  | driver code => code

/-- Whether a code is one of the daemon's. -/
def isDaemonErr (value : ℕ) : Bool := 40 ≤ value

/-- `message` of the two categories. -/
def errorMessage : ℕ → String
  | 10 => "unhandled error code"
  | 11 => "invalid data size"
  | 12 => "invalid value specified"
  | 13 => "command failed"
  | 14 => "command not found"
  | 15 => "unknown command"
  | 16 => "invalid daemon response"
  | 17 => "invalid daemon response"
  | 40 => "invalid stream id"
  | 41 => "stream id is in use"
  | 42 => "stream not in use"
  | 43 => "invalid URL"
  | 44 => "cannot retrieve SDP"
  | 45 => "cannot parse SDP"
  | 46 => "stream name is in use"
  | 47 => "cannot retrieve MAC address for IP"
  | 48 => "sink channel not captured"
  | 49 => "not enough samples buffered, retry later"
  | 50 => "not running, check PTP lock"
  | 60 => "send data size too big"
  | 61 => "failed to send command to driver"
  | 62 => "failed to send event response to driver"
  | 63 => "failed to receive response from driver"
  | 64 => "failed to receive event from driver"
  | 65 => "unexpected driver command response code"
  | value => if isDaemonErr value then "(unrecognized daemon error)" else "(unrecognized driver error)"

/-- `get_http_error_status`. -/
def httpErrorStatus (value : ℕ) : ℕ :=
  if isDaemonErr value ∧ value < 60 then 400 else if value = 13 then 400 else 500

/-- `get_http_error_message`. -/
def httpErrorMessage (value : ℕ) : Text :=
  '(' :: (if isDaemonErr value then "daemon" else "driver").toList ++ ") ".toList ++ (errorMessage value).toList

/-! ## Surroundings -/

/-- What the HTTP server reads besides. -/
structure ApiHost extends RtspHost where
  /-- `_USE_STREAMER_`. -/
  useStreamer : Bool := true
  /-- `get_streamer_enabled`. -/
  streamerEnabled : Bool := false
  /-- The text of the exception that a body throws. -/
  jsonError : Text → Text := fun _ => []

/-- `TRTP_stream_status`. -/
structure RtpStreamStatus where
  flags : UInt32 := 0
  sinkMinTime : Int32 := 0

/-- `StreamerInfo`. -/
structure StreamerInfo where
  status : UInt8 := 0
  fileDuration : UInt16 := 0
  filesNum : UInt8 := 0
  playerBufferFilesNum : UInt8 := 0
  channels : UInt8 := 0
  startFileId : UInt8 := 0
  currentFileId : UInt8 := 0
  rate : UInt32 := 0
  format : Text := []
  deriving DecidableEq

/-- What `get_stream` fetches. -/
structure StreamFile where
  body : Text := []
  fileCount : UInt32 := 0
  currentFileId : UInt8 := 0
  startFileId : UInt8 := 0

/-- What the driver and the streamer answer during a request; the streamer's error codes are
values, zero for success. -/
structure ApiEnv extends Env where
  /-- `get_rtp_stream_status`. -/
  rtpStreamStatus : Handle → Except ErrorCode RtpStreamStatus := fun _ => .ok {}
  /-- `Streamer::get_info`. -/
  getInfo : StreamSink → ℕ × StreamerInfo := fun _ => (0, {})
  /-- `Streamer::live_stream_init`. -/
  liveStreamInit : StreamSink → ℕ := fun _ => 0
  /-- `Streamer::get_stream`. -/
  getStream : StreamSink → UInt8 → ℕ × StreamFile := fun _ _ => (0, {})

/-! ## Replies -/

/-- What `get_sink_status` and `get_source_status` report: the status of the first leg and, where
there is a second one, its status if it can be retrieved. -/
structure LegStatuses where
  leg0 : RtpStreamStatus
  leg1 : Option (Option RtpStreamStatus)

/-- A reply. -/
inductive ApiReply
  | error (status : ℕ) (message : Text)
  /-- A success without content. -/
  | done
  | sdp (sdp : Text)
  | status (statuses : LegStatuses)
  | info (info : StreamerInfo)
  /-- The live stream of a sink. -/
  | live (sink : StreamSink)
  | file (file : StreamFile)
  /-- The response of the RTSP server. -/
  | rtsp (answer : Answer)

namespace ApiReply

/-- `set_error` with an error code. -/
def ofCode (value : ℕ) (message : Text) : ApiReply :=
  .error (httpErrorStatus value) (message ++ " : ".toList ++ httpErrorMessage value)

/-- The reply to a request that changes a stream; `none` when there is no telling. -/
def ofRet (message : Text) : Ret → Option ApiReply
  | .ok => some .done
  | .error e => some (ofCode e.value message)
  -- an exception other than `std::runtime_error` leaves the handler
  | .thrown => some (.error 500 [])
  | .outOfBounds => none

/-- The request failed, and nothing but its id is in the reply.  The streamer's info has a
status for that: not enabled, an invalid sink, or one that cannot be retrieved. -/
def refuses : ApiReply → Bool
  | .error _ _ => true
  | .info i => 4 ≤ i.status && i == { status := i.status }
  | .rtsp (.error _ _) => true
  | _ => false

end ApiReply

/-! ## Routes -/

/-- The routes with the id of a stream, and `DESCRIBE` over RTSP. -/
inductive StreamRoute
  | sourceSdp | sinkStatus | sourceStatus | putSource | deleteSource | putSink | deleteSink
  | streamerInfo | streamerStream | streamerFile | describe
  deriving DecidableEq

/-- A request, with its first and second match. -/
structure ApiRequest where
  route : StreamRoute
  id : Text
  body : Text := []
  fileId : Text := []
  /-- The URL of a `DESCRIBE`. -/
  url : Text := []

/-- An id that cannot be converted. -/
def ApiReply.notConverted : ApiReply := .error 400 "failed to convert id".toList

namespace SessionManager

/-- `get_rtp_stream_status` for the legs of a stream. -/
def legStatuses (e : ApiEnv) (info : StreamInfo) : Except ErrorCode LegStatuses :=
  (e.rtpStreamStatus info.handle.leg0).map fun leg0 =>
    { leg0 := leg0
      leg1 := if info.handle.leg1 = 0 then none else some (e.rtpStreamStatus info.handle.leg1).toOption }

/-- `get_sink_status` and `get_source_status`, with the streams of the kind. -/
def getStatus (e : ApiEnv) (id : UInt32) (streams : SortedMap UInt8 StreamInfo) : Except ErrorCode LegStatuses :=
  if streamIdMax < id.toNat then .error .invalidStreamId
  else
    match streams.find? id.toUInt8 with
    | none => .error .streamIdNotInUse
    | some info => legStatuses e info

/-- `GET /api/source/sdp/`. -/
def getSdp (h : ApiHost) (e : ApiEnv) (s : SessionManager) (id : UInt32) : ApiReply :=
  match s.getSourceSdpOf h.toHost e.toEnv id with
  | none => .ofCode ErrorCode.streamIdNotInUse.value ("get source ".toList ++ ofNat id.toNat ++ " failed".toList)
  | some sdp => .sdp sdp

/-- `GET /api/sink/status/` and `GET /api/source/status/`. -/
def getStatusOf (e : ApiEnv) (kind : String) (id : UInt32) (streams : SortedMap UInt8 StreamInfo) : ApiReply :=
  match getStatus e id streams with
  | .error code =>
    .ofCode code.value ("failed to get ".toList ++ kind.toList ++ ' ' :: ofNat id.toNat ++ " status".toList)
  | .ok statuses => .status statuses

/-- `PUT /api/source/`. -/
def putSource (h : ApiHost) (e : ApiEnv) (r : ApiRequest) (s : SessionManager) : Option (ApiReply × SessionManager) :=
  match jsonToSource h.readJson r.id r.body with
  | none => some (.error 400 (h.jsonError r.body), s)
  | some source => (s.addSource h.toHost e.toEnv source).bind fun p =>
    (ApiReply.ofRet ("failed to add source ".toList ++ ofNat source.id.toNat) p.1).map fun reply => (reply, p.2)

/-- `PUT /api/sink/`. -/
def putSink (h : ApiHost) (e : ApiEnv) (r : ApiRequest) (s : SessionManager) : Option (ApiReply × SessionManager) :=
  match jsonToSink h.readJson r.id r.body with
  | none => some (.error 400 (h.jsonError r.body), s)
  | some sink =>
    let p := s.addSink h.toHost e.toEnv sink
    (ApiReply.ofRet ("failed to add sink ".toList ++ ofNat sink.id.toNat) p.1).map fun reply => (reply, p.2)

/-- The status of the streamer's info, from the code of `get_info`. -/
def infoStatus (value : ℕ) : UInt8 :=
  if value = 50 then 1 else if value = 48 then 2 else if value = 49 then 3 else 0

/-- `GET /api/streamer/info/`. -/
def getStreamerInfo (h : ApiHost) (e : ApiEnv) (r : ApiRequest) (s : SessionManager) : ApiReply :=
  if !h.streamerEnabled then .info { status := 4 }
  else
    match stoi r.id with
    | none => .info { status := 5 }
    | some id =>
      match s.getSink (UInt8.ofInt id) with
      | none => .info { status := 6 }
      | some sink =>
        let (value, info) := e.getInfo sink
        .info { info with status := infoStatus value }

/-- `GET /api/streamer/stream/` of a sink, with what is done with the sink. -/
def withSink (id : UInt8) (s : SessionManager) (f : StreamSink → ApiReply) : ApiReply :=
  match s.getSink id with
  | none =>
    .ofCode ErrorCode.streamIdNotInUse.value ("failed to retrieve sink ".toList ++ ofNat id.toNat)
  | some sink => f sink

/-- `GET /api/streamer/stream/`. -/
def getLive (h : ApiHost) (e : ApiEnv) (r : ApiRequest) (s : SessionManager) : ApiReply :=
  if !h.useStreamer then .error 400 "streamer support not compiled-in".toList
  else if !h.streamerEnabled then .error 400 "streamer not enabled".toList
  else
    match stoi r.id with
    | none => .notConverted
    | some id => s.withSink (UInt8.ofInt id) fun sink =>
      let value := e.liveStreamInit sink
      if value = 0 then .live sink
      else .ofCode value ("failed to init streamer ".toList ++ ofNat (UInt8.ofInt id).toNat)

/-- `GET /api/streamer/stream/` with a file. -/
def getFile (h : ApiHost) (e : ApiEnv) (r : ApiRequest) (s : SessionManager) : ApiReply :=
  if !h.useStreamer then .error 400 "streamer support not compiled-in".toList
  else if !h.streamerEnabled then .error 400 "streamer not enabled".toList
  else
    match stoi r.id, stoi r.fileId with
    | some id, some fileId => s.withSink (UInt8.ofInt id) fun sink =>
      let (value, file) := e.getStream sink (UInt8.ofInt fileId)
      if value = 0 then .file file
      else .ofCode value ("failed to fetch stream ".toList ++ ofNat (UInt8.ofInt id).toNat)
    | _, _ => .notConverted

/-- A route whose id is converted to 32 bits first. -/
def withId (t : Text) (s : SessionManager) (f : UInt32 → Option (ApiReply × SessionManager)) :
    Option (ApiReply × SessionManager) :=
  match stoi t with
  | none => some (.notConverted, s)
  | some id => f (UInt32.ofInt id)

/-- Serve a request; `none` when its outcome is not defined. -/
def serveApi (h : ApiHost) (e : ApiEnv) (r : ApiRequest) (s : SessionManager) : Option (ApiReply × SessionManager) :=
  match r.route with
  | .sourceSdp => s.withId r.id fun id => some (s.getSdp h e id, s)
  | .sinkStatus => s.withId r.id fun id => some (getStatusOf e "sink" id s.sinks, s)
  | .sourceStatus => s.withId r.id fun id => some (getStatusOf e "source" id s.sources, s)
  | .putSource => s.putSource h e r
  | .deleteSource => s.withId r.id fun id =>
      let p := s.removeSource h.toHost e.toEnv id
      (ApiReply.ofRet ("failed to remove source ".toList ++ ofNat id.toNat) p.1).map fun reply => (reply, p.2)
  | .putSink => s.putSink h e r
  | .deleteSink => s.withId r.id fun id =>
      let p := s.removeSink h.toHost e.toEnv id
      (ApiReply.ofRet ("failed to remove sink ".toList ++ ofNat id.toNat) p.1).map fun reply => (reply, p.2)
  | .streamerInfo =>
      -- without the streamer there is no such route
      some (if h.useStreamer then s.getStreamerInfo h e r else .error 404 [], s)
  | .streamerStream => some (s.getLive h e r, s)
  | .streamerFile => some (s.getFile h e r, s)
  | .describe => (buildResponse h.toRtspHost (s.directory h.toHost e.toEnv) r.url).map fun a => (.rtsp a, s)

/-! ## Refusals -/

/-- A request is refused: it fails, no stream is changed, and the reply tells of none. -/
def Refused (h : ApiHost) (e : ApiEnv) (r : ApiRequest) (s : SessionManager) : Prop :=
  ∃ reply s', s.serveApi h e r = some (reply, s') ∧ reply.refuses = true ∧
    s'.sources = s.sources ∧ s'.sinks = s.sinks

/-- A state that a session manager can get into. -/
def Reachable (host : Host) (s : SessionManager) : Prop :=
  ∃ env now events, run (occur host) (start host env now) events = some s

end SessionManager

/-! ## Ids -/

/-- A text of digits, as a route takes it, and the number it stands for. -/
structure Numeral (t : Text) (n : ℕ) : Prop where
  ne_nil : t ≠ []
  digits : ∀ c ∈ t, c.isDigit = true
  value : digitsValue t = n

/-- The routes that compare the id with `stream_id_max` before they narrow it to 8 bits. -/
def StreamRoute.comparesFirst : StreamRoute → Bool
  | sinkStatus | sourceStatus | deleteSource | deleteSink => true
  | _ => false

section
variable {t : Text} {n : ℕ}

theorem stoi_digits (h : Numeral t n) : stoi t = if n ≤ 2147483647 then some (n : ℤ) else none := by
  have hz : (-2147483648 ≤ (n : ℤ) ∧ (n : ℤ) ≤ 2147483647) = (n ≤ 2147483647) := by
    apply propext
    omega
  simp only [stoi, readInt_digits h.ne_nil h.digits, h.value, Option.bind_some, Bool.false_eq_true, if_false, hz]

theorem toNat_uint8_of_natCast (n : ℕ) : (UInt8.ofInt (n : ℤ)).toNat = n % 256 := by
  have hmod := toNat_uint8_ofInt (n : ℤ)
  omega

theorem toNat_uint32_ofInt (hn : n ≤ 2147483647) : (UInt32.ofInt (n : ℤ)).toNat = n := by
  have hmod : ((n : ℤ) % 2 ^ 32).toNat = n := by omega
  rw [UInt32.ofInt, hmod, UInt32.toNat_ofNat']
  omega

theorem toUInt8_uint32_ofInt (hn : n ≤ 2147483647) : (UInt32.ofInt (n : ℤ)).toUInt8 = UInt8.ofInt (n : ℤ) := by
  apply UInt8.toNat_inj.mp
  rw [UInt32.toNat_toUInt8, toNat_uint32_ofInt hn, toNat_uint8_of_natCast]

end

/-! ## Requests that are refused -/

/-- The id of a source is narrowed from the URL. -/
theorem jsonToSource_id {readJson : Text → Option Ptree} {t js : Text} {source : StreamSource}
    (h : jsonToSource readJson t js = some source) : ∃ z, stoi t = some z ∧ source.id = UInt8.ofInt z := by
  obtain ⟨v, -, h⟩ := Option.bind_eq_some_iff.mp h
  obtain ⟨z, hz, h⟩ := Option.bind_eq_some_iff.mp h
  simp only [Option.bind_eq_bind, Option.bind_eq_some_iff] at h
  obtain ⟨_, -, _, -, _, -, _, -, _, -, _, -, _, -, _, -, _, -, _, -, _, -, h⟩ := h
  obtain rfl := Option.some.inj h
  exact ⟨z, hz, rfl⟩

/-- The id of a sink is narrowed from the URL. -/
theorem jsonToSink_id {readJson : Text → Option Ptree} {t js : Text} {sink : StreamSink}
    (h : jsonToSink readJson t js = some sink) : ∃ z, stoi t = some z ∧ sink.id = UInt8.ofInt z := by
  obtain ⟨v, -, h⟩ := Option.bind_eq_some_iff.mp h
  obtain ⟨z, hz, h⟩ := Option.bind_eq_some_iff.mp h
  simp only [Option.bind_eq_bind, Option.bind_eq_some_iff] at h
  obtain ⟨_, -, _, -, _, -, _, -, _, -, _, -, _, -, _, -, h⟩ := h
  obtain rfl := Option.some.inj h
  exact ⟨z, hz, rfl⟩

namespace SessionManager
variable {h : ApiHost} {e : ApiEnv} {r : ApiRequest} {s : SessionManager}

/-- The URL of a `DESCRIBE` leads to a path with the id. -/
def ById (h : ApiHost) (r : ApiRequest) : Prop :=
  ∃ u, parseUrl (h.decodeUrl r.url) = some u ∧ u.path = "/by-id/".toList ++ r.id

/-- The id of a `DESCRIBE` is narrowed from the path. -/
theorem buildResponse_byId {h : RtspHost} {dir : Directory} {url t : Text} {u : ParsedUrl}
    (hdigits : ∀ c ∈ t, c.isDigit = true) (hu : parseUrl (h.decodeUrl url) = some u)
    (hpath : u.path = "/by-id/".toList ++ t) :
    buildResponse h dir url = some (if u.ok then sourceAnswer dir (((stoi t).map UInt8.ofInt).getD noSource)
      else .error 400 "Bad Request".toList) := by
  have hname : seek ("/by-name/".toList ++ h.config.nodeId ++ [' ']) u.path = none := by
    rw [seek_eq_none_iff, hpath]
    intro hsub
    have hblank : ' ' ∈ "/by-id/".toList ++ t := hsub.subset (by simp)
    rcases List.mem_append.mp hblank with hmem | hmem
    · exact absurd hmem (by decide)
    · exact absurd (hdigits _ hmem) (by decide)
  have hid : (seek "/by-id/".toList u.path).isSome = true := by
    rw [hpath, seek_of_isPrefix (List.prefix_append _ _)]
    rfl
  have hdrop : u.path.drop 7 = t := by
    rw [hpath]
    rfl
  rw [buildResponse, hu, Option.map_some]
  refine congrArg some ?_
  dsimp only
  rw [hname, hid, hdrop]
  cases u.ok <;> cases stoi t <;> rfl

theorem sourceAnswer_absent {dir : Directory} {id : UInt8} (hnone : dir.sourceSdp id = none) :
    sourceAnswer dir id = .error 404 "Not found".toList := by
  unfold sourceAnswer
  rw [hnone]
  exact ite_self _

theorem getSdp_absent {id : UInt32} (hnone : s.sources.find? id.toUInt8 = none) :
    (s.getSdp h e id).refuses = true := by
  rw [getSdp, getSourceSdpOf, hnone]
  rfl

theorem getStatusOf_outOfRange {kind : String} {id : UInt32} {streams : SortedMap UInt8 StreamInfo}
    (hid : streamIdMax < id.toNat) : (getStatusOf e kind id streams).refuses = true := by
  rw [getStatusOf, getStatus, if_pos hid]
  rfl

theorem withSink_absent {id : UInt8} {f : StreamSink → ApiReply} (hnone : s.getSink id = none) :
    (s.withSink id f).refuses = true := by
  rw [withSink, hnone]
  rfl

/-- **An id that `std::stoi` does not take is refused.** -/
theorem refused_of_stoi (hdigits : ∀ c ∈ r.id, c.isDigit = true) (hstoi : stoi r.id = none)
    (hurl : r.route = .describe → ById h r) : s.Refused h e r := by
  cases hroute : r.route with
  | sourceSdp | sinkStatus | sourceStatus | deleteSource | deleteSink =>
    exact ⟨_, s, by simp only [serveApi, hroute, withId, hstoi]; rfl, rfl, rfl, rfl⟩
  | putSource =>
    have hnone : jsonToSource h.readJson r.id r.body = none := by
      by_contra hsome
      obtain ⟨source, hsome⟩ := Option.ne_none_iff_exists'.mp hsome
      obtain ⟨z, hz, -⟩ := jsonToSource_id hsome
      rw [hstoi] at hz
      cases hz
    exact ⟨_, s, by simp only [serveApi, hroute, putSource, hnone]; rfl, rfl, rfl, rfl⟩
  | putSink =>
    have hnone : jsonToSink h.readJson r.id r.body = none := by
      by_contra hsome
      obtain ⟨sink, hsome⟩ := Option.ne_none_iff_exists'.mp hsome
      obtain ⟨z, hz, -⟩ := jsonToSink_id hsome
      rw [hstoi] at hz
      cases hz
    exact ⟨_, s, by simp only [serveApi, hroute, putSink, hnone]; rfl, rfl, rfl, rfl⟩
  | streamerInfo =>
    refine ⟨_, s, by simp only [serveApi, hroute]; rfl, ?_, rfl, rfl⟩
    rw [getStreamerInfo, hstoi]
    split
    · split <;> rfl
    · rfl
  | streamerStream =>
    refine ⟨_, s, by simp only [serveApi, hroute]; rfl, ?_, rfl, rfl⟩
    rw [getLive, hstoi]
    split
    · rfl
    · split <;> rfl
  | streamerFile =>
    refine ⟨_, s, by simp only [serveApi, hroute]; rfl, ?_, rfl, rfl⟩
    rw [getFile, hstoi]
    split
    · rfl
    · split <;> rfl
  | describe =>
    obtain ⟨u, hu, hpath⟩ := hurl hroute
    refine ⟨_, s, by simp only [serveApi, hroute, buildResponse_byId hdigits hu hpath, hstoi]; rfl, ?_, rfl, rfl⟩
    cases u.ok <;> rfl

/-- **An id is refused where it is compared with `stream_id_max` first.** -/
theorem refused_of_comparesFirst {z : ℤ} (hstoi : stoi r.id = some z) (hid : streamIdMax < (UInt32.ofInt z).toNat)
    (hroute : r.route.comparesFirst = true) : s.Refused h e r := by
  cases hr : r.route with
  | sinkStatus | sourceStatus =>
    refine ⟨_, s, by simp only [serveApi, hr, withId, hstoi]; rfl, getStatusOf_outOfRange hid, rfl, rfl⟩
  | deleteSource =>
    refine ⟨_, s, by simp only [serveApi, hr, withId, hstoi, removeSource, if_pos hid]; rfl, rfl, rfl, rfl⟩
  | deleteSink =>
    refine ⟨_, s, by simp only [serveApi, hr, withId, hstoi, removeSink, if_pos hid]; rfl, rfl, rfl, rfl⟩
  | _ =>
    rw [hr] at hroute
    cases hroute

/-- **An id that is out of range when it has been narrowed is refused.** -/
theorem refused_of_narrowed {z : ℤ} (hs : s.InRange) (hdigits : ∀ c ∈ r.id, c.isDigit = true)
    (hstoi : stoi r.id = some z) (hid : streamIdMax < (UInt8.ofInt z).toNat)
    (hsame : (UInt32.ofInt z).toUInt8 = UInt8.ofInt z) (hroute : r.route.comparesFirst = false)
    (hurl : r.route = .describe → ById h r) : s.Refused h e r := by
  have habsent : ∀ k, (s.books.table k).find? (UInt8.ofInt z) = none := by
    intro k
    by_contra hsome
    obtain ⟨info, hsome⟩ := Option.ne_none_iff_exists'.mp hsome
    exact absurd (hs k _ info hsome) (not_le.mpr hid)
  have hsource : s.sources.find? (UInt8.ofInt z) = none := habsent .source
  have hsink : s.getSink (UInt8.ofInt z) = none := by
    rw [getSink, show s.sinks.find? (UInt8.ofInt z) = none from habsent .sink]
    rfl
  cases hr : r.route with
  | sourceSdp =>
    refine ⟨_, s, by simp only [serveApi, hr, withId, hstoi]; rfl, getSdp_absent ?_, rfl, rfl⟩
    rw [hsame]
    exact hsource
  | putSource =>
    cases hbody : jsonToSource h.readJson r.id r.body with
    | none => exact ⟨_, s, by simp only [serveApi, hr, putSource, hbody]; rfl, rfl, rfl, rfl⟩
    | some source =>
      obtain ⟨z', hz', hnarrow⟩ := jsonToSource_id hbody
      obtain rfl := Option.some.inj (hstoi.symm.trans hz')
      have hadd : s.addSource h.toHost e.toEnv source = some (.error .invalidStreamId, s) := by
        rw [addSource, hnarrow, if_pos hid]
      exact ⟨_, s, by simp only [serveApi, hr, putSource, hbody, hadd]; rfl, rfl, rfl, rfl⟩
  | putSink =>
    cases hbody : jsonToSink h.readJson r.id r.body with
    | none => exact ⟨_, s, by simp only [serveApi, hr, putSink, hbody]; rfl, rfl, rfl, rfl⟩
    | some sink =>
      obtain ⟨z', hz', hnarrow⟩ := jsonToSink_id hbody
      obtain rfl := Option.some.inj (hstoi.symm.trans hz')
      have hadd : s.addSink h.toHost e.toEnv sink = (.error .invalidStreamId, s) := by
        rw [addSink, hnarrow, if_pos hid]
      exact ⟨_, s, by simp only [serveApi, hr, putSink, hbody, hadd]; rfl, rfl, rfl, rfl⟩
  | streamerInfo =>
    refine ⟨_, s, by simp only [serveApi, hr]; rfl, ?_, rfl, rfl⟩
    rw [getStreamerInfo, hstoi]
    simp only [hsink]
    split
    · split <;> rfl
    · rfl
  | streamerStream =>
    refine ⟨_, s, by simp only [serveApi, hr]; rfl, ?_, rfl, rfl⟩
    rw [getLive, hstoi]
    split
    · rfl
    · split
      · rfl
      · exact withSink_absent hsink
  | streamerFile =>
    refine ⟨_, s, by simp only [serveApi, hr]; rfl, ?_, rfl, rfl⟩
    rw [getFile, hstoi]
    split
    · rfl
    · split
      · rfl
      · cases stoi r.fileId with
        | none => rfl
        | some fileId => exact withSink_absent hsink
  | describe =>
    obtain ⟨u, hu, hpath⟩ := hurl hr
    refine ⟨_, s, by simp only [serveApi, hr, buildResponse_byId hdigits hu hpath, hstoi]; rfl, ?_, rfl, rfl⟩
    have hsdp : (s.directory h.toHost e.toEnv).sourceSdp (UInt8.ofInt z) = none := by
      show s.getSourceSdpOf h.toHost e.toEnv (UInt8.ofInt z).toUInt32 = none
      rw [getSourceSdpOf, UInt8.toUInt8_toUInt32, hsource, Option.map_none]
    rw [Option.map_some, Option.getD_some, sourceAnswer_absent hsdp]
    cases u.ok <;> rfl
  | _ =>
    rw [hr] at hroute
    cases hroute

/-! ## Requests that are not refused -/

section
variable {env : Env} {source : StreamSource} {sink : StreamSink}

/-- A sink with an empty SDP is stored if the driver takes its stream. -/
theorem addSink_empty {host : Host} {handle : Handle} (hid : sink.id.toNat ≤ streamIdMax)
    (hmap : sink.map.length ≤ host.routingSize) (huse : sink.useSdp = true)
    (hsdp : sink.sdp = []) (hreply : env.replies.addFirst = .ok handle) (hfresh : s.driver.fresh handle)
    (hnone : s.sinks.find? sink.id = none) (hname : s.sinkNames.contains sink.name = false) :
    ∃ info s', s.addSink host env sink = (.ok, s') ∧ s'.sinks.find? sink.id = some info := by
  obtain ⟨info, hprep, hsecond⟩ : ∃ info, preparedSink host env s.ptp sink = .ok info ∧
      info.st20227Enabled = false := by
    rw [preparedSink, if_neg (not_lt.mpr hmap), sinkSdpText, if_pos huse, hsdp]
    exact ⟨_, rfl, rfl⟩
  have hadd : s.driver.addRtpStream env.replies.addFirst info.stream.leg0 =
      (.ok handle, s.driver.hold handle info.stream.leg0) := by
    rw [hreply]
    exact if_pos hfresh
  rw [addSink, if_neg (not_lt.mpr hid), hprep]
  simp only [hnone, hname, Bool.false_eq_true, if_false, registerSink, hadd, hsecond]
  exact ⟨_, _, rfl, SortedMap.find?_insert_self _ _ _⟩

end

/-- A request whose reply does not refuse. -/
theorem not_refused_of_reply (reply : ApiReply) (s' : SessionManager) (hserve : s.serveApi h e r = some (reply, s'))
    (hreply : reply.refuses = false) : ¬ s.Refused h e r := by
  rintro ⟨reply', s'', hserve', hreply', -⟩
  obtain ⟨rfl, -⟩ := Prod.mk.inj (Option.some.inj (hserve.symm.trans hserve'))
  rw [hreply] at hreply'
  cases hreply'

/-- A host with a running streamer. -/
def openHost : ApiHost := { streamerEnabled := true }

/-- A driver that takes a stream. -/
def openEnv : ApiEnv := { replies.addFirst := .ok 7 }

/-- Before anything has happened. -/
def untouched : SessionManager := start {} {} 0

theorem reachable_untouched : Reachable {} untouched := ⟨{}, 0, [], rfl⟩

/-- A source without a name, at a multicast address. -/
def plainSource (id : UInt8) : StreamSource := { id := id, address := "239.1.0.1".toList }

/-- A sink without a name, for an empty SDP. -/
def plainSink (id : UInt8) : StreamSink := { id := id, useSdp := true }

theorem addSource_plain {id : UInt8} (hid : id.toNat ≤ streamIdMax) :
    ∃ info s', untouched.addSource {} openEnv.toEnv (plainSource id) = some (.ok, s') ∧
      s'.sources.find? id = some info := by
  have haddress : Address.ofText (plainSource id).address = some 0xef010001 := by
    show Address.ofText "239.1.0.1".toList = some 0xef010001
    decide
  exact addSource_disabled hid (Nat.zero_le _) haddress (by decide) rfl rfl rfl

theorem addSink_plain {id : UInt8} (hid : id.toNat ≤ streamIdMax) :
    ∃ info s', untouched.addSink {} openEnv.toEnv (plainSink id) = (.ok, s') ∧ s'.sinks.find? id = some info :=
  addSink_empty hid (Nat.zero_le _) rfl rfl rfl (by decide) rfl rfl

/-- There is a state with a source. -/
theorem exists_source {id : UInt8} (hid : id.toNat ≤ streamIdMax) :
    ∃ s info, Reachable {} s ∧ s.sources.find? id = some info := by
  obtain ⟨info, s, hadd, hfind⟩ := addSource_plain hid
  refine ⟨s, info, ⟨{}, 0, [.request (.addSource openEnv.toEnv (plainSource id))], ?_⟩, hfind⟩
  have hocc : occur {} untouched (.request (.addSource openEnv.toEnv (plainSource id))) = some s := by
    show (untouched.addSource {} openEnv.toEnv (plainSource id)).map Prod.snd = some s
    rw [hadd, Option.map_some]
  rw [run_cons, show start {} {} 0 = untouched from rfl, hocc, Option.bind_some, run_nil]

/-- There is a state with a sink. -/
theorem exists_sink {id : UInt8} (hid : id.toNat ≤ streamIdMax) :
    ∃ s sink, Reachable {} s ∧ s.getSink id = some sink := by
  obtain ⟨info, s, hadd, hfind⟩ := addSink_plain hid
  refine ⟨s, getSink_ id info, ⟨{}, 0, [.request (.addSink openEnv.toEnv (plainSink id))], ?_⟩, ?_⟩
  · have hocc : occur {} untouched (.request (.addSink openEnv.toEnv (plainSink id))) = some s := by
      show some (untouched.addSink {} openEnv.toEnv (plainSink id)).2 = some s
      rw [hadd]
    rw [run_cons, show start {} {} 0 = untouched from rfl, hocc, Option.bind_some, run_nil]
  · rw [getSink, hfind, Option.map_some]

end SessionManager

namespace SessionManager
variable {t : Text} {z : ℤ}

/-- The URL of a source by its id. -/
def byIdUrl (t : Text) : Text := "rtsp".toList ++ (':' :: '/' :: '/' :: 'h' :: ("/by-id/".toList ++ t))

theorem parseUrl_byIdUrl (hdigits : ∀ c ∈ t, c.isDigit = true) :
    parseUrl (byIdUrl t) = some { ok := true, protocol := "rtsp".toList, host := ['h'], port := [],
                                  path := "/by-id/".toList ++ t } := by
  have hscheme : UrlPlain "rtsp".toList := urlPlain_of_all (by decide)
  have hauthority : Authority ('h' :: ("/by-id/".toList ++ t)) ['h'] [] ("/by-id/".toList ++ t) :=
    ⟨urlPlain_of_all (by decide), [], "/by-id/".toList ++ t, .absent, .present ("by-id/".toList ++ t), rfl⟩
  have hcolon : ':' ∉ 'h' :: ("/by-id/".toList ++ t) := by
    intro hmem
    rcases List.mem_append.mp (show ':' ∈ "h/by-id/".toList ++ t from hmem) with hmem | hmem
    · exact absurd hmem (by decide)
    · exact absurd (hdigits _ hmem) (by decide)
  rw [byIdUrl, parseUrl_scheme hscheme, splitAuthority_eq hauthority fun hslash => hcolon hslash.1]
  rfl

/-- **An id that is in range when it has been narrowed is not refused** where it is not compared first. -/
theorem exists_not_refused (hdigits : ∀ c ∈ t, c.isDigit = true) (hstoi : stoi t = some z)
    (hid : (UInt8.ofInt z).toNat ≤ streamIdMax) (hsame : (UInt32.ofInt z).toUInt8 = UInt8.ofInt z)
    {route : StreamRoute} (hroute : route.comparesFirst = false) :
    ∃ (h : ApiHost) (s : SessionManager) (e : ApiEnv) (r : ApiRequest), Reachable h.toHost s ∧ r.route = route ∧
      r.id = t ∧ (route = .describe → ById h r) ∧ ¬ s.Refused h e r := by
  obtain ⟨s, info, hs, hsource⟩ := exists_source hid
  obtain ⟨s', sink, hs', hsink⟩ := exists_sink hid
  cases route with
  | sourceSdp =>
    refine ⟨openHost, s, openEnv, { route := .sourceSdp, id := t }, hs, rfl, rfl, fun h => absurd h (by decide), ?_⟩
    have hserve : s.serveApi openHost openEnv { route := .sourceSdp, id := t } =
        some (.sdp (getSourceSdp {} openEnv.toEnv s.ptp s.driver.sampleRate info), s) := by
      simp only [serveApi, withId, hstoi, getSdp, getSourceSdpOf, hsame, hsource, Option.map_some]
      rfl
    exact not_refused_of_reply _ _ hserve rfl
  | putSource =>
    obtain ⟨info, s₁, hadd, -⟩ := addSource_plain hid
    have hbody : jsonToSource Json.readRaw t (sourceToJson (plainSource 0)) = some (plainSource (UInt8.ofInt z)) := by
      rw [jsonToSource_sourceToJson (fun _ _ h => h) hstoi]
      rfl
    refine ⟨openHost, untouched, openEnv, { route := .putSource, id := t, body := sourceToJson (plainSource 0) },
      reachable_untouched, rfl, rfl, fun h => absurd h (by decide), ?_⟩
    refine not_refused_of_reply .done s₁ ?_ rfl
    simp only [serveApi, putSource, show openHost.readJson = Json.readRaw from rfl, hbody]
    rw [show openHost.toHost = {} from rfl, hadd]
    rfl
  | putSink =>
    obtain ⟨info, s₁, hadd, -⟩ := addSink_plain hid
    have hbody : jsonToSink Json.readRaw t (sinkToJson (plainSink 0)) = some (plainSink (UInt8.ofInt z)) := by
      rw [jsonToSink_sinkToJson (fun _ _ h => h) hstoi]
      rfl
    refine ⟨openHost, untouched, openEnv, { route := .putSink, id := t, body := sinkToJson (plainSink 0) },
      reachable_untouched, rfl, rfl, fun h => absurd h (by decide), ?_⟩
    refine not_refused_of_reply .done s₁ ?_ rfl
    simp only [serveApi, putSink, show openHost.readJson = Json.readRaw from rfl, hbody]
    rw [show openHost.toHost = {} from rfl, hadd]
    rfl
  | streamerInfo =>
    refine ⟨openHost, s', openEnv, { route := .streamerInfo, id := t }, hs', rfl, rfl,
      fun h => absurd h (by decide), ?_⟩
    refine not_refused_of_reply (.info {}) s' ?_ rfl
    have hinfo : s'.getStreamerInfo openHost openEnv { route := .streamerInfo, id := t } = .info {} := by
      rw [getStreamerInfo, if_neg (by decide), hstoi]
      simp only [hsink]
      rfl
    simp only [serveApi, hinfo]
    rfl
  | streamerStream =>
    refine ⟨openHost, s', openEnv, { route := .streamerStream, id := t }, hs', rfl, rfl,
      fun h => absurd h (by decide), ?_⟩
    refine not_refused_of_reply (.live sink) s' ?_ rfl
    have hlive : s'.getLive openHost openEnv { route := .streamerStream, id := t } = .live sink := by
      rw [getLive, if_neg (by decide), if_neg (by decide), hstoi]
      simp only [withSink, hsink]
      rfl
    simp only [serveApi, hlive]
  | streamerFile =>
    refine ⟨openHost, s', openEnv, { route := .streamerFile, id := t, fileId := ['0'] }, hs', rfl, rfl,
      fun h => absurd h (by decide), ?_⟩
    refine not_refused_of_reply (.file {}) s' ?_ rfl
    have hfile : s'.getFile openHost openEnv { route := .streamerFile, id := t, fileId := ['0'] } = .file {} := by
      rw [getFile, if_neg (by decide), if_neg (by decide), hstoi, show stoi ['0'] = some 0 by decide]
      simp only [withSink, hsink]
      rfl
    simp only [serveApi, hfile]
  | describe =>
    have hu := parseUrl_byIdUrl hdigits
    have hne : UInt8.ofInt z ≠ noSource := by
      intro heq
      rw [heq] at hid
      exact absurd hid (by decide)
    have hsdp : (s.directory {} openEnv.toEnv).sourceSdp (UInt8.ofInt z) =
        some (getSourceSdp {} openEnv.toEnv s.ptp s.driver.sampleRate info) :=
      directory_sourceSdp {} openEnv.toEnv hsource
    refine ⟨openHost, s, openEnv, { route := .describe, id := t, url := byIdUrl t }, hs, rfl, rfl,
      fun _ => ⟨_, hu, rfl⟩, ?_⟩
    have hanswer : buildResponse openHost.toRtspHost (s.directory {} openEnv.toEnv) (byIdUrl t) =
        some (.described (UInt8.ofInt z) (getSourceSdp {} openEnv.toEnv s.ptp s.driver.sampleRate info)) := by
      rw [buildResponse_byId hdigits hu rfl, hstoi, Option.map_some, Option.getD_some, if_pos rfl, sourceAnswer,
        if_pos hne, hsdp]
    refine not_refused_of_reply _ s (by simp only [serveApi]; exact congrArg (Option.map _) hanswer) rfl
  | _ => cases hroute

end SessionManager

/-! ## Ids out of range -/

/-- A route refuses an id, whatever the state, the body and the answers of the outside world. -/
def StreamRoute.Refuses (route : StreamRoute) (t : Text) : Prop :=
  ∀ (h : ApiHost) (s : SessionManager) (e : ApiEnv) (r : ApiRequest), SessionManager.Reachable h.toHost s →
    r.route = route → r.id = t → (route = .describe → SessionManager.ById h r) → s.Refused h e r

/-- **Which ids out of range are refused**: a route refuses an id above `stream_id_max` exactly if it compares the
id before it narrows it, or `std::stoi` does not take the id, or what is left of it in 8 bits is out of range too. -/
theorem refuses_iff (route : StreamRoute) {t : Text} {n : ℕ} (ht : Numeral t n) (hn : streamIdMax < n) :
    route.Refuses t ↔ route.comparesFirst = true ∨ 2147483647 < n ∨ streamIdMax < n % 256 := by
  have hstoi := stoi_digits ht
  constructor
  · intro H
    by_contra hcase
    simp only [not_or, Bool.not_eq_true, not_lt] at hcase
    obtain ⟨hroute, hle, hid⟩ := hcase
    rw [if_pos hle] at hstoi
    obtain ⟨h, s, e, r, hs, hr, hrid, hurl, hno⟩ := SessionManager.exists_not_refused ht.digits hstoi
      (by rw [toNat_uint8_of_natCast]; exact hid) (toUInt8_uint32_ofInt hle) hroute
    exact hno (H h s e r hs hr hrid hurl)
  · rintro hcase h s e r ⟨env, now, events, hrun⟩ rfl rfl hurl
    by_cases hle : n ≤ 2147483647
    · rw [if_pos hle] at hstoi
      by_cases hroute : r.route.comparesFirst = true
      · exact SessionManager.refused_of_comparesFirst hstoi (by rw [toNat_uint32_ofInt hle]; exact hn) hroute
      · have hs : s.InRange := run_keeps (P := fun _ _ => True)
          (fun _ _ _ H _ hs => SessionManager.inRange_occur H hs) (SessionManager.inRange_start now)
          (along_of_forall fun _ _ => trivial) hrun
        have hid : streamIdMax < n % 256 :=
          hcase.resolve_left hroute |>.resolve_left (not_lt.mpr hle)
        exact SessionManager.refused_of_narrowed hs ht.digits hstoi (by rw [toNat_uint8_of_natCast]; exact hid)
          (toUInt8_uint32_ofInt hle) (Bool.eq_false_iff.mpr hroute) hurl
    · rw [if_neg hle] at hstoi
      exact SessionManager.refused_of_stoi ht.digits hstoi hurl

/-- 64 is refused, 319 is taken for 63. -/
theorem refuses_64_not_319 :
    StreamRoute.sourceSdp.Refuses "64".toList ∧ ¬ StreamRoute.sourceSdp.Refuses "319".toList := by
  have hdigits : ∀ t : Text, t.all Char.isDigit = true → ∀ c ∈ t, c.isDigit = true := fun _ => List.all_eq_true.mp
  constructor
  · exact (refuses_iff .sourceSdp ⟨by decide, hdigits _ (by decide), rfl⟩ (by decide)).mpr (by decide)
  · exact mt (refuses_iff .sourceSdp ⟨by decide, hdigits _ (by decide), rfl⟩ (by decide)).mp (by decide)

namespace SessionManager

/-- `PUT /api/source/256`. -/
def put256 : ApiRequest :=
  { route := .putSource, id := "256".toList, body := sourceToJson { plainSource 0 with io := "b".toList } }

/-- `GET /api/source/sdp/256`. -/
def sdp256 : ApiRequest := { route := .sourceSdp, id := "256".toList }

/-- Where there is a source 0, `GET /api/source/sdp/256` shows it, and `PUT /api/source/256` replaces it. -/
theorem id_256_reaches_source_0 :
    ∃ s, run (occur {}) (start {} {} 0) [.request (.addSource openEnv.toEnv (plainSource 0))] = some s ∧
      ¬ s.Refused openHost openEnv sdp256 ∧ ¬ s.Refused openHost openEnv put256 ∧
      (s.getSource 0).map StreamSource.io = some [] ∧
      (s.serveApi openHost openEnv put256).map (fun p => (p.2.getSource 0).map StreamSource.io) =
        some (some "b".toList) := by
  have hcheck : (run (occur {}) (start {} {} 0) [.request (.addSource openEnv.toEnv (plainSource 0))]).map (fun s =>
      (s.serveApi openHost openEnv sdp256).map (fun p => p.1.refuses) == some false &&
      (s.serveApi openHost openEnv put256).map (fun p => p.1.refuses) == some false &&
      (s.getSource 0).map StreamSource.io == some [] &&
      (s.serveApi openHost openEnv put256).map (fun p => (p.2.getSource 0).map StreamSource.io) ==
        some (some "b".toList)) = some true := by
    decide +kernel
  obtain ⟨s, hrun, hcheck⟩ := Option.map_eq_some_iff.mp hcheck
  simp only [Bool.and_eq_true, beq_iff_eq] at hcheck
  obtain ⟨⟨⟨hsdp, hput⟩, hbefore⟩, hafter⟩ := hcheck
  obtain ⟨p, hserve, hreply⟩ := Option.map_eq_some_iff.mp hsdp
  obtain ⟨q, hserve', hreply'⟩ := Option.map_eq_some_iff.mp hput
  exact ⟨s, hrun, not_refused_of_reply _ _ hserve hreply, not_refused_of_reply _ _ hserve' hreply', hbefore, hafter⟩

end SessionManager
end Aes67Daemon
