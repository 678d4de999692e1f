import Aes67Daemon.Lib.Ptree
import Aes67Daemon.Session.Data

/-!
# Settings

The settings of `config.hpp`, and how `json.cpp` writes them to the configuration file and
reads them from it and from requests.  A setting has a key and a type; a configuration
gives each setting a value of its type.  Texts have lost their undesired characters when
they get into a configuration, which their type says; only the IP address is taken as it
is.

Two switches of the build decide what the getters of two settings return.

## Main definitions

* `Setting`, `Setting.key`, `Setting.type` — the settings.
* `Values`, `defaultValues` — a value for each setting.
* `jsonToConfig`, `configToJson` — reading and writing.
-/
namespace Aes67Daemon

open Text

/-! ## Values -/

/-- A character that `remove_undesired_chars` keeps. -/
def isDesired (c : Char) : Bool := c.isAlphanum || " :~.,_/=%()\r\n\t?#-".toList.contains c

/-- A text without undesired characters. -/
abbrev CleanText := { t : Text // t.all isDesired = true }

/-- `remove_undesired_chars`. -/
def removeUndesiredChars (t : Text) : CleanText := ⟨t.filter isDesired, by simp⟩

/-- A hexadecimal digit, in lower case. -/
def lowerHex (n : ℕ) : Char := Nat.digitChar n

/-- A character as `escape_json` writes it. -/
def escapeJsonChar (c : Char) : Text :=
  if c = '"' then ['\\', '"']
  else if c = '\\' then ['\\', '\\']
  else if c = '\x08' then ['\\', 'b']
  else if c = '\x0c' then ['\\', 'f']
  else if c = '\n' then ['\\', 'n']
  else if c = '\r' then ['\\', 'r']
  else if c = '\t' then ['\\', 't']
  else if c.toNat ≤ 0x1f then ['\\', 'u', '0', '0', lowerHex (c.toNat / 16), lowerHex (c.toNat % 16)]
  else [c]

/-- `escape_json`. -/
def escapeJson (js : Text) : Text := (removeUndesiredChars js).1.flatMap escapeJsonChar

/-- The types of settings. -/
inductive SettingType
  | uint8
  | uint16
  | uint32
  | int
  | bool
  | text
  /-- A text that is taken as it is. -/
  | rawText

namespace SettingType

/-- The values of a type. -/
def Value : SettingType → Type
  | uint8 => UInt8
  | uint16 => UInt16
  | uint32 => UInt32
  | int => Int32
  | bool => Bool
  | text => CleanText
  | rawText => Text

instance : ∀ t : SettingType, DecidableEq t.Value
  | uint8 => inferInstanceAs (DecidableEq UInt8)
  | uint16 => inferInstanceAs (DecidableEq UInt16)
  | uint32 => inferInstanceAs (DecidableEq UInt32)
  | int => inferInstanceAs (DecidableEq Int32)
  | bool => inferInstanceAs (DecidableEq Bool)
  | text => inferInstanceAs (DecidableEq CleanText)
  | rawText => inferInstanceAs (DecidableEq Text)

/-- `get_value` of a node; `none` when it throws. -/
def read : (t : SettingType) → Ptree → Option t.Value
  | uint8, v => v.getUInt8?
  | uint16, v => v.getUInt16?
  | uint32, v => v.getUInt32?
  | int, v => v.getInt?.map Int32.ofInt
  | bool, v => v.getBool?
  | text, v => some (removeUndesiredChars v.data)
  | rawText, v => some v.data

/-- What is written of a value. -/
def json : (t : SettingType) → t.Value → Text
  | uint8, n => ofNat (UInt8.toNat n)
  | uint16, n => ofNat (UInt16.toNat n)
  | uint32, n => ofNat (UInt32.toNat n)
  | int, z => Json.printInt (Int32.toInt z)
  | bool, b => boolText b
  | text, t => inQuotes (escapeJson t.1)
  | rawText, t => inQuotes (escapeJson t)

end SettingType

/-! ## Settings -/

/-- The settings, by the names of their fields. -/
inductive Setting
  | httpPort | rtspPort | httpBaseDir | streamerChannels | alsaChannels | streamerFilesNum
  | streamerFileDuration | streamerPlayerBufferFilesNum | streamerEnabled | logSeverity | interfaceName
  | playoutDelay | ticFrameSizeAt1fs | maxTicFrameSize | sampleRate | rtpMcastBase | rtpMcastBaseSec | rtpPort
  | rtpPortSec | ptpDomain | ptpDscp | sapMcastAddr | sapInterval | mdnsEnabled | statusFile | syslogProto
  | syslogServer | ptpStatusScript | lldpUpdateScript | customNodeId | autoSinksUpdate | nmosEnabled
  | nmosRegistryAddress | nmosRegistryPort | nmosRegistryQueryPort | nmosControlInterface | nmosNodePort
  | nmosLabel | nmosRegistryAutoDiscover | nmosMdnsEnabled | is12Enabled | is08Enabled | ipAddr
  deriving DecidableEq

namespace Setting

/-- The settings in the order in which `json_to_config_` tells their keys apart. -/
def all : List Setting :=
  [httpPort, rtspPort, httpBaseDir, streamerChannels, alsaChannels, streamerFilesNum, streamerFileDuration,
    streamerPlayerBufferFilesNum, streamerEnabled, logSeverity, interfaceName, playoutDelay, ticFrameSizeAt1fs,
    maxTicFrameSize, sampleRate, rtpMcastBase, rtpMcastBaseSec, rtpPort, rtpPortSec, ptpDomain, ptpDscp,
    sapMcastAddr, sapInterval, mdnsEnabled, statusFile, syslogProto, syslogServer, ptpStatusScript,
    lldpUpdateScript, customNodeId, autoSinksUpdate, nmosEnabled, nmosRegistryAddress, nmosRegistryPort,
    nmosRegistryQueryPort, nmosControlInterface, nmosNodePort, nmosLabel, nmosRegistryAutoDiscover,
    nmosMdnsEnabled, is12Enabled, is08Enabled, ipAddr]

/-- The key in a document. -/
def key : Setting → String
  | httpPort => "http_port"
  | rtspPort => "rtsp_port"
  | httpBaseDir => "http_base_dir"
  | streamerChannels => "streamer_channels"
  | alsaChannels => "alsa_channels"
  | streamerFilesNum => "streamer_files_num"
  | streamerFileDuration => "streamer_file_duration"
  | streamerPlayerBufferFilesNum => "streamer_player_buffer_files_num"
  | streamerEnabled => "streamer_enabled"
  | logSeverity => "log_severity"
  | interfaceName => "interface_name"
  | playoutDelay => "playout_delay"
  | ticFrameSizeAt1fs => "tic_frame_size_at_1fs"
  | maxTicFrameSize => "max_tic_frame_size"
  | sampleRate => "sample_rate"
  | rtpMcastBase => "rtp_mcast_base"
  | rtpMcastBaseSec => "rtp_mcast_base_sec"
  | rtpPort => "rtp_port"
  | rtpPortSec => "rtp_port_sec"
  | ptpDomain => "ptp_domain"
  | ptpDscp => "ptp_dscp"
  | sapMcastAddr => "sap_mcast_addr"
  | sapInterval => "sap_interval"
  | mdnsEnabled => "mdns_enabled"
  | statusFile => "status_file"
  | syslogProto => "syslog_proto"
  | syslogServer => "syslog_server"
  | ptpStatusScript => "ptp_status_script"
  | lldpUpdateScript => "lldp_update_script"
  | customNodeId => "custom_node_id"
  | autoSinksUpdate => "auto_sinks_update"
  | nmosEnabled => "nmos_enabled"
  | nmosRegistryAddress => "nmos_registry_address"
  | nmosRegistryPort => "nmos_registry_port"
  | nmosRegistryQueryPort => "nmos_registry_query_port"
  | nmosControlInterface => "nmos_control_interface"
  | nmosNodePort => "nmos_node_port"
  | nmosLabel => "nmos_label"
  | nmosRegistryAutoDiscover => "nmos_registry_autodiscovery"
  | nmosMdnsEnabled => "nmos_mdns_enabled"
  | is12Enabled => "is12_enabled"
  | is08Enabled => "is08_enabled"
  | ipAddr => "ip_addr"

/-- The type of the field. -/
def type : Setting → SettingType
  | streamerChannels | alsaChannels | streamerFilesNum | streamerPlayerBufferFilesNum | ptpDomain | ptpDscp => .uint8
  | httpPort | rtspPort | streamerFileDuration | rtpPort | rtpPortSec | sapInterval | nmosRegistryPort
  | nmosRegistryQueryPort | nmosNodePort => .uint16
  | playoutDelay | ticFrameSizeAt1fs | maxTicFrameSize | sampleRate => .uint32
  | logSeverity => .int
  | streamerEnabled | mdnsEnabled | autoSinksUpdate | nmosEnabled | nmosRegistryAutoDiscover | nmosMdnsEnabled
  | is12Enabled | is08Enabled => .bool
  | ipAddr => .rawText
  | httpBaseDir | interfaceName | rtpMcastBase | rtpMcastBaseSec | sapMcastAddr | statusFile | syslogProto
  | syslogServer | ptpStatusScript | lldpUpdateScript | customNodeId | nmosRegistryAddress | nmosControlInterface
  | nmosLabel => .text

/-- The setting with a key; the other keys are ignored. -/
def ofKey? (key : Text) : Option Setting := all.find? fun k => k.key.toList = key

/-- What is read of a setting: the ports of the servers are read as integers. -/
def read : (k : Setting) → Ptree → Option k.type.Value
  | httpPort, v => v.getInt?.map UInt16.ofInt
  | rtspPort, v => v.getInt?.map UInt16.ofInt
  | k, v => k.type.read v

end Setting

/-- A value for each setting. -/
abbrev Values := (k : Setting) → k.type.Value

/-- A text without undesired characters, as it is written. -/
def clean (s : String) (h : s.toList.all isDesired = true) : CleanText := ⟨s.toList, h⟩

/-- The default base of the multicast addresses. -/
def defaultMcastBase : CleanText := clean "239.1.0.1" (by decide)

/-- The default address of the session announcements. -/
def defaultSapAddr : CleanText := clean "224.2.127.254" (by decide)

/-- The values of a new configuration. -/
def defaultValues : Values
  | .httpPort => (8080 : UInt16)
  | .rtspPort => (8854 : UInt16)
  | .httpBaseDir => clean "../webui/dist" (by decide)
  | .streamerChannels => (8 : UInt8)
  | .alsaChannels => (64 : UInt8)
  | .streamerFilesNum => (8 : UInt8)
  | .streamerFileDuration => (1 : UInt16)
  | .streamerPlayerBufferFilesNum => (1 : UInt8)
  | .streamerEnabled => false
  | .logSeverity => (2 : Int32)
  | .playoutDelay => (0 : UInt32)
  | .ticFrameSizeAt1fs => (48 : UInt32)
  | .maxTicFrameSize => (1024 : UInt32)
  | .sampleRate => (48000 : UInt32)
  | .rtpMcastBase => defaultMcastBase
  | .rtpMcastBaseSec => defaultMcastBase
  | .sapMcastAddr => defaultSapAddr
  | .rtpPort => (5004 : UInt16)
  | .rtpPortSec => (5004 : UInt16)
  | .ptpDomain => (0 : UInt8)
  | .ptpDscp => (46 : UInt8)
  | .sapInterval => (300 : UInt16)
  | .syslogProto => clean "" (by decide)
  | .syslogServer => clean "" (by decide)
  | .statusFile => clean "./status.json" (by decide)
  | .interfaceName => clean "eth0" (by decide)
  | .mdnsEnabled => true
  | .ptpStatusScript => clean "" (by decide)
  | .lldpUpdateScript => clean "" (by decide)
  | .customNodeId => clean "" (by decide)
  | .autoSinksUpdate => true
  | .nmosEnabled => false
  | .nmosRegistryAddress => clean "" (by decide)
  | .nmosRegistryPort => (8010 : UInt16)
  | .nmosRegistryQueryPort => (8010 : UInt16)
  | .nmosNodePort => (3212 : UInt16)
  | .nmosControlInterface => clean "" (by decide)
  | .nmosLabel => clean "AES67 Daemon" (by decide)
  | .nmosRegistryAutoDiscover => true
  | .nmosMdnsEnabled => true
  | .is12Enabled => false
  | .is08Enabled => false
  | .ipAddr => ([] : Text)

/-! ## Configurations -/

theorem defaults_areAddresses : (Address.ofText "239.1.0.1".toList).isSome = true ∧
    (Address.ofText "224.2.127.254".toList).isSome = true := by decide

/-- What is fixed when the daemon is built. -/
structure ConfigHost where
  /-- `_USE_STREAMER_`. -/
  useStreamer : Bool := true
  /-- `_USE_AVAHI_`. -/
  useAvahi : Bool := true
  /-- Whether Boost takes a text for an address; which texts these are depends on its version. -/
  isAddress : Text → Bool := fun t => (Address.ofText t).isSome
  /-- `boost::property_tree::read_json`. -/
  readJson : Text → Option Ptree := Json.readRaw
  isAddress_default : isAddress "239.1.0.1".toList = true ∧ isAddress "224.2.127.254".toList = true := by
    exact defaults_areAddresses

/-- `Config`, less what is only read when the daemon starts. -/
structure DaemonConfig where
  values : Values := defaultValues
  httpAddrStr : Text := []
  macAddrStr : Text := []
  ipAddr : UInt32 := 0
  driverRestart : Bool := true
  daemonRestart : Bool := false

namespace DaemonConfig

/-- The getters. -/
def get (h : ConfigHost) (c : DaemonConfig) : Values
  | .streamerEnabled => h.useStreamer && c.values .streamerEnabled
  | .mdnsEnabled => h.useAvahi && c.values .mdnsEnabled
  | k => c.values k

/-- `get_node_id`. -/
def nodeId (c : DaemonConfig) : Text :=
  if (c.values .customNodeId).1 = [] then Config.hostNodeId { ipAddr := c.ipAddr } else (c.values .customNodeId).1

end DaemonConfig

/-! ## Documents -/

/-- What is written to a document. -/
inductive ConfigKey
  | setting (k : Setting)
  | nodeId
  | macAddr
  deriving DecidableEq

/-- The order in which `config_to_json` writes. -/
def writtenKeys : List ConfigKey :=
  [.setting .httpPort, .setting .rtspPort, .setting .httpBaseDir, .setting .logSeverity, .setting .playoutDelay,
    .setting .ticFrameSizeAt1fs, .setting .maxTicFrameSize, .setting .sampleRate, .setting .rtpMcastBase,
    .setting .rtpMcastBaseSec, .setting .rtpPort, .setting .rtpPortSec, .setting .ptpDomain, .setting .ptpDscp,
    .setting .sapMcastAddr, .setting .sapInterval, .setting .syslogProto, .setting .syslogServer,
    .setting .statusFile, .setting .interfaceName, .setting .mdnsEnabled, .setting .customNodeId, .nodeId,
    .setting .ptpStatusScript, .setting .lldpUpdateScript, .macAddr, .setting .ipAddr, .setting .streamerChannels,
    .setting .alsaChannels, .setting .streamerFilesNum, .setting .streamerFileDuration,
    .setting .streamerPlayerBufferFilesNum, .setting .streamerEnabled, .setting .autoSinksUpdate,
    .setting .nmosEnabled, .setting .nmosRegistryAddress, .setting .nmosRegistryPort,
    .setting .nmosRegistryQueryPort, .setting .nmosControlInterface, .setting .nmosNodePort, .setting .nmosLabel,
    .setting .nmosRegistryAutoDiscover, .setting .nmosMdnsEnabled, .setting .is12Enabled, .setting .is08Enabled]

/-- The text of a setting: the directory is the only text that is not escaped. -/
def Setting.json : (k : Setting) → k.type.Value → Text
  | .httpBaseDir, t => inQuotes t.1
  | k, v => k.type.json v

/-- A key and the text after it. -/
def ConfigKey.member (h : ConfigHost) (c : DaemonConfig) : ConfigKey → Text × Text
  | .setting k => (k.key.toList, k.json (c.get h k))
  | .nodeId => ("node_id".toList, inQuotes (escapeJson c.nodeId))
  | .macAddr => ("mac_addr".toList, inQuotes (escapeJson c.macAddrStr))

/-- `config_to_json`. -/
def configToJson (h : ConfigHost) (c : DaemonConfig) : Text :=
  '{' :: "\n  ".toList ++ ",\n  ".toList.intercalate (writtenKeys.map fun k => Json.memberText (k.member h c)) ++
    "\n\x7d\n".toList

/-- The values after a member has been read; `none` when it throws. -/
def readMember (values : Values) (m : Text × Ptree) : Option Values :=
  match Setting.ofKey? m.1 with
  | some k => (k.read m.2).map (Function.update values k)
  | none => some values

/-- `json_to_config`, starting from some values; `none` when it throws. -/
def jsonToConfig (h : ConfigHost) (js : Text) (values : Values) : Option Values :=
  (h.readJson js).bind fun pt => pt.children.foldlM readMember values

end Aes67Daemon
