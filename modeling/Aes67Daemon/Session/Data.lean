import Aes67Daemon.Lib.Binary64
import Aes67Daemon.Lib.JsonText
import Aes67Daemon.Lib.SortedMap
import Aes67Daemon.Net.Address

/-!
# The records of the session manager

The data model of `session_manager.hpp` and of the part of `RTP_stream_info.h`
the session manager fills in, field by field under the source's names (a leading
`m_` is dropped).  What the program finds outside itself is split in two:

* `Host` is what stays fixed while a session manager lives: the configuration it
  reads, the sizes of the arrays in the driver's header, how doubles are rounded, and
  what the libraries read.
* `Env` is what the outside world answers during one call: the driver, the
  network interfaces, the ARP cache, remote servers and the socket options.

`TRTP_stream_info` has an array for the channel map whose length is in the
driver's header; here the map is a list, and a map that is longer is not copied.
-/
namespace Aes67Daemon

open Text

/-- A stream handle of the driver. -/
abbrev Handle := UInt64

/-! ## Streams -/

/-- Legs are numbered from zero. -/
instance neZeroLegs : NeZero 2 := ⟨by decide⟩

/-- One value for each of the `media_max` legs of a stream. -/
structure Legs (α : Type) where
  leg0 : α
  leg1 : α
  deriving DecidableEq

namespace Legs
variable {α : Type}

/-- Index with an `int`; `none` is an access outside the array. -/
def at? (l : Legs α) (i : ℤ) : Option α :=
  if i = 0 then some l.leg0 else if i = 1 then some l.leg1 else none

/-- Change one leg, chosen by an `int`. -/
def modify? (l : Legs α) (i : ℤ) (f : α → α) : Option (Legs α) :=
  if i = 0 then some { l with leg0 := f l.leg0 }
  else if i = 1 then some { l with leg1 := f l.leg1 }
  else none

/-- The leg with a given index. -/
def get (l : Legs α) : Fin 2 → α
  | 0 => l.leg0
  | 1 => l.leg1

end Legs

/-- `TRTP_stream_info`, zeroed by default as `memset` leaves it. -/
structure TRTPStreamInfo where
  bSource : Bool := false
  uiId : UInt32 := 0
  cName : Text := []
  ucDSCP : UInt8 := 0
  uiIfPortId : UInt32 := 0
  byPayloadType : UInt8 := 0
  byWordLength : UInt8 := 0
  byNbOfChannels : UInt8 := 0
  cCodec : Text := []
  ui32MaxSamplesPerPacket : UInt32 := 0
  ui32SamplingRate : UInt32 := 0
  ui32RTCPSrcIP : UInt32 := 0
  ui32SrcIP : UInt32 := 0
  ui32DestIP : UInt32 := 0
  usSrcPort : UInt16 := 0
  usDestPort : UInt16 := 0
  ui32SSRC : UInt32 := 0
  aui32Routing : List UInt32 := []
  ui8DestMAC : Mac := [0, 0, 0, 0, 0, 0]
  byTTL : UInt8 := 0
  ui32PlayOutDelay : UInt32 := 0
  ui32FrameSize : UInt32 := 0
  ui32RTPTimestampOffset : UInt32 := 0
  deriving DecidableEq

/-- `SDPOrigin`, the fields of an `o=` line. -/
structure SDPOrigin where
  username : Text := []
  sessionId : Text := []
  sessionVersion : UInt64 := 0
  networkType : Text := []
  addressType : Text := []
  unicastAddress : Text := []
  deriving DecidableEq

/-- `SDPOrigin::operator==`: the version is not part of the comparison. -/
def SDPOrigin.same (a b : SDPOrigin) : Bool :=
  a.username == b.username && a.sessionId == b.sessionId && a.networkType == b.networkType &&
    a.addressType == b.addressType && a.unicastAddress == b.unicastAddress

/-- `StreamInfo`: what the session manager stores for a source or a sink. -/
structure StreamInfo where
  stream : Legs TRTPStreamInfo := ⟨{}, {}⟩
  handle : Legs Handle := ⟨0, 0⟩
  enabled : Bool := false
  st20227Enabled : Bool := false
  refclkPtpTraceable : Bool := false
  ignoreRefclkGmid : Bool := false
  io : Text := []
  sinkUseSdp : Bool := true
  sinkSource : Text := []
  sinkSdp : Text := []
  sessionId : UInt32 := 0
  sessionVersion : UInt32 := 0
  origin : SDPOrigin := {}
  deriving DecidableEq

/-- `StreamSource`, a source as the REST API presents it. -/
structure StreamSource where
  id : UInt8 := 0
  enabled : Bool := false
  name : Text := []
  io : Text := []
  maxSamplesPerPacket : UInt32 := 0
  codec : Text := []
  address : Text := []
  addressSec : Text := []
  useSecondary : Bool := true
  ttl : UInt8 := 0
  payloadType : UInt8 := 0
  dscp : UInt8 := 0
  refclkPtpTraceable : Bool := false
  map : List UInt8 := []
  deriving DecidableEq

/-- `StreamSink`, a sink as the REST API presents it. -/
structure StreamSink where
  id : UInt8 := 0
  name : Text := []
  io : Text := []
  useSdp : Bool := false
  source : Text := []
  sdp : Text := []
  delay : UInt32 := 0
  ignoreRefclkGmid : Bool := false
  map : List UInt8 := []
  deriving DecidableEq

/-- `RemoteSource`, an entry of the browser, with the fields the sinks are
compared against. -/
structure RemoteSource where
  origin : SDPOrigin := {}
  sdp : Text := []
  deriving DecidableEq

/-- `SessionManager::stream_id_max`. -/
def streamIdMax : ℕ := 63

/-! ## PTP -/

/-- `PTPConfig`. -/
structure PTPConfig where
  domain : UInt8 := 0
  dscp : UInt8 := 0
  deriving DecidableEq

/-- Two lower-case hexadecimal digits, `%02x`. -/
def hexByte (b : ℕ) : Text := [Nat.digitChar (b / 16 % 16), Nat.digitChar (b % 16)]

/-- `format_gmid`: the bytes of the word in memory order, on a little-endian host. -/
def formatGmid (g : UInt64) : Text :=
  ['-'].intercalate ((List.range 8).map fun i => hexByte (g.toNat / 2 ^ (8 * i)))

theorem noGmid_format : ([] : Text) = [] ∨ ∃ g, [] = formatGmid g := .inl rfl

/-- `PTPStatus`.  The grandmaster id is empty until the first status arrives and
then always written by `format_gmid`. -/
structure PTPStatus where
  status : Text := []
  gmid : Text := []
  jitter : Int32 := 0
  activeLeg : UInt8 := 0
  leg0Status : Text := []
  leg1Status : Text := []
  leg0Gmid : Text := []
  leg1Gmid : Text := []
  legsAligned : Bool := true
  gmid_format : gmid = [] ∨ ∃ g, gmid = formatGmid g := by exact noGmid_format

/-- The members `ptp_config_` and `ptp_status_`. -/
structure Ptp where
  config : PTPConfig := {}
  status : PTPStatus := {}

/-! ## Errors -/

/-- The error codes the session manager returns. -/
inductive ErrorCode
  | invalidStreamId
  | streamIdInUse
  | streamIdNotInUse
  | invalidUrl
  | cannotRetrieveSdp
  | cannotParseSdp
  | streamNameInUse
  | cannotRetrieveMac
  /-- A code the driver returned. -/
  | driver (code : ℕ)
  deriving DecidableEq

/-- How a call ends: success, an error code, or an exception that leaves it.  A call that writes
outside an array first has no end that can be told. -/
inductive Ret
  | ok
  | error (e : ErrorCode)
  | thrown
  | outOfBounds
  deriving DecidableEq

/-! ## What is fixed -/

theorem mcastBase_valid : (Address.ofText "239.1.0.1".toList).isSome = true := by decide

/-- The part of `Config` the session manager reads, as `Config::parse` leaves it:
the default bases are valid addresses, and the main loop waits until the first
interface has an address. -/
structure Config where
  ipAddr : UInt32 := 0xc0a80164
  macAddr : Mac := [0, 0, 0, 0, 0, 0]
  /-- `get_interface_name(1)`, empty without a secondary interface. -/
  interfaceName1 : Text := []
  rtpMcastBase : Text := "239.1.0.1".toList
  rtpMcastBaseSec : Text := "239.1.0.1".toList
  rtpPort : UInt16 := 5004
  rtpPortSec : UInt16 := 5004
  maxTicFrameSize : UInt32 := 1024
  customNodeId : Text := []
  ptpDomain : UInt8 := 0
  ptpDscp : UInt8 := 46
  base_valid : (Address.ofText rtpMcastBase).isSome := by first | exact mcastBase_valid | decide
  baseSec_valid : (Address.ofText rtpMcastBaseSec).isSome := by
    first | exact mcastBase_valid | decide

namespace Config

/-- `get_ip_addr_str`; `ip_addr_` and `ip_str_` are set together. -/
def ipAddrStr (c : Config) : Text := Address.toText c.ipAddr

/-- The address of `get_rtp_mcast_base`. -/
def mcastBase (c : Config) : UInt32 := (Address.ofText c.rtpMcastBase).get c.base_valid

/-- The address of `get_rtp_mcast_base_sec`. -/
def mcastBaseSec (c : Config) : UInt32 := (Address.ofText c.rtpMcastBaseSec).get c.baseSec_valid

/-- `get_host_node_id`, with `%08x`. -/
def hostNodeId (c : Config) : Text :=
  let w := Address.htonl c.ipAddr
  let w := (w <<< 16) ||| (w >>> 16)
  "Daemon ".toList ++ [24, 16, 8, 0].flatMap fun i => hexByte (w.toNat / 2 ^ i)

/-- `get_node_id`. -/
def nodeId (c : Config) : Text :=
  if c.customNodeId = [] then c.hostNodeId else c.customNodeId

/-- The session id `add_source` derives from the host address. -/
def sessionId (c : Config) (id : UInt8) : UInt32 :=
  let w := Address.htonl c.ipAddr
  (w <<< 16) + (w >>> 16) + id.toUInt32

end Config

/-- What stays fixed while a session manager lives. -/
structure Host where
  config : Config := {}
  /-- `sizeof TRTP_stream_info::m_cName`, from the driver's header. -/
  nameSize : ℕ := 64
  /-- `sizeof TRTP_stream_info::m_cCodec`, from the driver's header. -/
  codecSize : ℕ := 16
  /-- The length of `TRTP_stream_info::m_aui32Routing`, from the driver's header. -/
  routingSize : ℕ := 64
  /-- The double that an operation with the exact result `x` returns. -/
  double : ℚ → ℚ := roundDouble
  /-- `httplib::detail::decode_url(_, false)`. -/
  decodeUrl : Text → Text := id
  /-- `boost::property_tree::read_json`. -/
  readJson : Text → Option Ptree := Json.readRaw

/-! ## What the outside world answers -/

/-- The answers to the driver commands of one call, by call site. -/
structure Replies where
  /-- `remove_rtp_stream` of the stored primary leg; `none` is success. -/
  dropFirst : Option ErrorCode := none
  /-- `remove_rtp_stream` of the stored secondary leg. -/
  dropSecond : Option ErrorCode := none
  /-- `add_rtp_stream` of the primary leg. -/
  addFirst : Except ErrorCode Handle := .error (.driver 0)
  /-- `add_rtp_stream` of the secondary leg. -/
  addSecond : Except ErrorCode Handle := .error (.driver 0)
  /-- `remove_rtp_stream` after a failed secondary leg. -/
  rollback : Option ErrorCode := none

/-- What the outside world answers during one call. -/
structure Env where
  replies : Replies := {}
  /-- The address of a named interface, if it has one. -/
  interfaceIp : Text → Option UInt32 := fun _ => none
  /-- The hardware address of a named interface, if it can be read. -/
  interfaceMac : Text → Option Mac := fun _ => none
  /-- The n-th look into the ARP cache for an address. -/
  arpCache : ℕ → UInt32 → Option Mac := fun _ _ => none
  /-- The next value of `rand()`. -/
  rand : ℕ := 0
  /-- An HTTP GET for host, port and path: status and body. -/
  httpGet : Text → ℤ → Text → Option (ℕ × Text) := fun _ _ _ => none
  /-- `RtspClient::describe` of path, host and port: the SDP. -/
  rtspDescribe : Text → Text → Text → Option Text := fun _ _ _ => none
  /-- Whether joining a group on a leg's socket succeeds. -/
  joinOk : Fin 2 → Bool := fun _ => true
  /-- Whether leaving a group on a leg's socket succeeds. -/
  leaveOk : Fin 2 → Bool := fun _ => true

/-- `get_interface_ip`: no address for an empty name. -/
def Env.getInterfaceIp (env : Env) (name : Text) : Option UInt32 :=
  if name = [] then none else env.interfaceIp name

/-- The address of the secondary interface. -/
def Env.secondaryIp (env : Env) (host : Host) : Option UInt32 :=
  env.getInterfaceIp host.config.interfaceName1

/-- The second component of `get_interface_ip`: the address as text, empty if none. -/
def ipText (ip : Option UInt32) : Text := (ip.map Address.toText).getD []

@[simp] theorem ipText_none : ipText none = [] := rfl
@[simp] theorem ipText_some (a : UInt32) : ipText (some a) = Address.toText a := rfl

end Aes67Daemon
