import Aes67Daemon.Config.Settings

/-!
# Saving a configuration

`Config::parse` makes the live configuration from the configuration file when the daemon
starts, and two requests of the HTTP server change it: they copy it, change the copy and
have the live configuration save it.  `Config::save` writes the file and takes the values
over when one of the fields differs that the comparison of configurations knows, and works
the two restart flags out from what differs.

## Main definitions

* `DaemonConfig.parse` — the configuration when the daemon starts.
* `DaemonConfig.differs`, `ConfigState.save` — what is saved, and when.
* `ConfigState.postConfig`, `ConfigState.postPtpConfig` — the requests.
-/
namespace Aes67Daemon

open Text

/-! ## Parsing -/

/-- What the outside world answers when a configuration is parsed. -/
structure ParseEnv where
  /-- `get_interface_mac`; empty when there is none. -/
  interfaceMac : Text → Text
  /-- `get_new_interface_ip`. -/
  interfaceIp : Text → Text → UInt32 × Text

/-- A value, or another one in its place. -/
def replaceIf {α : Type} (bad : α → Bool) (default v : α) : α := if bad v then default else v

/-- The values that `parse` takes in place of those out of range. -/
def clamped (h : ConfigHost) (v : Values) : Values
  | .logSeverity => replaceIf (fun n : Int32 => n < 0 || 5 < n) (2 : Int32) (v .logSeverity)
  | .playoutDelay => replaceIf (fun n : UInt32 => 4000 < n) (4000 : UInt32) (v .playoutDelay)
  | .ticFrameSizeAt1fs => tic
  | .maxTicFrameSize => replaceIf (fun n : UInt32 => n < tic || 1024 < n) (1024 : UInt32) (v .maxTicFrameSize)
  | .sampleRate => replaceIf (fun n : UInt32 => n = 0) (48000 : UInt32) (v .sampleRate)
  | .streamerChannels => replaceIf (fun n : UInt8 => n < 2 || 16 < n) (8 : UInt8) (v .streamerChannels)
  | .alsaChannels => replaceIf (fun n : UInt8 => n < 1 || 64 < n) (64 : UInt8) (v .alsaChannels)
  | .streamerFileDuration => replaceIf (fun n : UInt16 => n < 1 || 4 < n) (1 : UInt16) (v .streamerFileDuration)
  | .streamerFilesNum => replaceIf (fun n : UInt8 => n < 4 || 16 < n) (8 : UInt8) (v .streamerFilesNum)
  | .streamerPlayerBufferFilesNum => replaceIf (fun n : UInt8 => n < 1 || 2 < n) (1 : UInt8) (v .streamerPlayerBufferFilesNum)
  | .rtpMcastBase => replaceIf (fun t : CleanText => !h.isAddress t.1) defaultMcastBase (v .rtpMcastBase)
  | .rtpMcastBaseSec => replaceIf (fun t : CleanText => !h.isAddress t.1) defaultMcastBase (v .rtpMcastBaseSec)
  | .sapMcastAddr => replaceIf (fun t : CleanText => !h.isAddress t.1) defaultSapAddr (v .sapMcastAddr)
  | .ptpDomain => replaceIf (fun n : UInt8 => 127 < n) (0 : UInt8) (v .ptpDomain)
  | k => v k
where
  /-- The frame size, with which the maximal one is compared. -/
  tic : UInt32 := replaceIf (fun n => n = 0 || 192 < n) 192 (v .ticFrameSizeAt1fs)

/-- Erase the blanks from a text. -/
def eraseBlanks (t : CleanText) : CleanText :=
  ⟨t.1.filter (· ≠ ' '), List.all_eq_true.mpr fun _ hc => List.all_eq_true.mp t.2 _ (List.mem_of_mem_filter hc)⟩

namespace DaemonConfig

/-- `Config::parse`; `none` for a null pointer. -/
def parse (h : ConfigHost) (e : ParseEnv) (file : Option Text) (driverRestart : Bool) : Option DaemonConfig :=
  file.bind fun js => (jsonToConfig h js defaultValues).bind fun values =>
    let values := clamped h values
    let interfaceName := eraseBlanks (values .interfaceName)
    let interface0 := interfaceName.1.takeWhile (· ≠ ',')
    let macStr := e.interfaceMac interface0
    if macStr = [] then none
    else
      let ip := e.interfaceIp interface0 (values .ipAddr)
      some
        { values := Function.update (Function.update values .interfaceName interfaceName) .ipAddr ip.2
          macAddrStr := macStr
          ipAddr := ip.1
          daemonRestart := false
          driverRestart := driverRestart }

/-- **What a parsed configuration is.** -/
theorem parse_cases {h : ConfigHost} {e : ParseEnv} {js : Text} {driverRestart : Bool} {c : DaemonConfig}
    (hparse : parse h e (some js) driverRestart = some c) :
    ∃ values ip, jsonToConfig h js defaultValues = some values ∧
      c.values = Function.update (Function.update (clamped h values) .interfaceName
        (eraseBlanks (clamped h values .interfaceName))) .ipAddr ip ∧
      c.daemonRestart = false ∧ c.driverRestart = driverRestart := by
  rw [parse, Option.bind_some] at hparse
  obtain ⟨values, hvalues, hparse⟩ := Option.bind_eq_some_iff.mp hparse
  simp only [Option.ite_none_left_eq_some, Option.some.injEq] at hparse
  obtain ⟨-, rfl⟩ := hparse
  exact ⟨values, _, hvalues, rfl, rfl, rfl⟩

/-! ## Saving -/

/-- The settings that `operator!=` compares. -/
def comparedSettings : List Setting :=
  [.httpPort, .rtspPort, .httpBaseDir, .streamerChannels, .alsaChannels, .streamerFilesNum, .streamerFileDuration,
    .streamerPlayerBufferFilesNum, .streamerEnabled, .logSeverity, .playoutDelay, .ticFrameSizeAt1fs,
    .maxTicFrameSize, .sampleRate, .rtpMcastBase, .rtpMcastBaseSec, .sapMcastAddr, .rtpPort, .rtpPortSec,
    .ptpDomain, .ptpDscp, .sapInterval, .syslogProto, .syslogServer, .statusFile, .interfaceName, .mdnsEnabled,
    .autoSinksUpdate, .customNodeId, .nmosEnabled, .nmosRegistryAddress, .nmosRegistryPort, .nmosNodePort,
    .nmosLabel, .nmosRegistryAutoDiscover, .nmosMdnsEnabled, .is12Enabled, .is08Enabled]

/-- The settings after whose change the driver has to be restarted. -/
def driverSettings : List Setting := [.ticFrameSizeAt1fs, .maxTicFrameSize, .interfaceName]

/-- The settings after whose change the daemon has to be restarted. -/
def daemonSettings : List Setting :=
  [.httpPort, .rtspPort, .httpBaseDir, .rtpMcastBase, .rtpMcastBaseSec, .sapMcastAddr, .rtpPort, .rtpPortSec,
    .statusFile, .mdnsEnabled, .customNodeId, .streamerChannels, .streamerFileDuration, .streamerFilesNum,
    .streamerPlayerBufferFilesNum, .streamerEnabled, .nmosEnabled, .nmosRegistryAddress, .nmosRegistryPort,
    .nmosRegistryQueryPort, .nmosControlInterface, .nmosNodePort, .nmosLabel, .is12Enabled, .is08Enabled]

/-- One of some settings is another one in two configurations. -/
def changed (h : ConfigHost) (ks : List Setting) (a b : DaemonConfig) : Bool := ks.any fun k => a.get h k ≠ b.get h k

/-- `operator!=`. -/
def differs (h : ConfigHost) (a b : DaemonConfig) : Bool :=
  a.httpAddrStr ≠ b.httpAddrStr || changed h comparedSettings a b

/-- The live configuration after `config` has been taken over. -/
def takeOver (h : ConfigHost) (live config : DaemonConfig) : DaemonConfig :=
  -- the whole object is assigned, with the flag for the driver that `config` was copied with
  let driverRestart := changed h driverSettings live config
  let daemonRestart := driverRestart || changed h daemonSettings live config
  { config with daemonRestart := daemonRestart }

end DaemonConfig

/-- The live configuration and the configuration file. -/
structure ConfigState where
  live : DaemonConfig
  file : Text

/-- How a request is answered. -/
inductive ConfigReply
  | ok
  /-- The body throws. -/
  | badRequest
  | failed (e : ErrorCode)
  | notSaved
  deriving DecidableEq

/-- What the driver answers during a request; `none` is success. -/
structure ConfigReplies where
  playoutDelay : Option ErrorCode := none
  sampleRate : Option ErrorCode := none
  ptp : Option ErrorCode := none
  /-- Whether the configuration file can be opened. -/
  writable : Bool := true

namespace ConfigState

/-- `Config::save`. -/
def save (h : ConfigHost) (writable : Bool) (s : ConfigState) (config : DaemonConfig) : Bool × ConfigState :=
  if s.live.differs h config then
    if writable then (true, { live := s.live.takeOver h config, file := configToJson h config }) else (false, s)
  else (true, s)

/-- A configuration is saved at the end of a request. -/
def saved (h : ConfigHost) (r : ConfigReplies) (s : ConfigState) (config : DaemonConfig) : ConfigReply × ConfigState :=
  let (ok, s) := s.save h r.writable config
  (if ok then .ok else .notSaved, s)

/-- `POST /api/config`. -/
def postConfig (h : ConfigHost) (r : ConfigReplies) (body : Text) (s : ConfigState) : ConfigReply × ConfigState :=
  match jsonToConfig h body s.live.values with
  | none => (.badRequest, s)
  | some values =>
    let config := { s.live with values := values }
    let changed := fun ks => DaemonConfig.changed h ks s.live config
    -- each answer replaces the one before it
    let ret := if changed [.playoutDelay] then r.playoutDelay else none
    let ret := if changed [.sampleRate] then r.sampleRate else ret
    let ret := if changed [.ptpDomain, .ptpDscp] then r.ptp else ret
    match ret with
    | some e => (.failed e, s)
    | none => s.saved h r config

/-- `json_to_ptp_config`; `none` when it throws. -/
def jsonToPtpConfig (h : ConfigHost) (js : Text) : Option PTPConfig := do
  let pt ← h.readJson js
  let domain ← (pt.child? "domain".toList).bind Ptree.getInt?
  let dscp ← (pt.child? "dscp".toList).bind Ptree.getInt?
  pure { domain := UInt8.ofInt domain, dscp := UInt8.ofInt dscp }

/-- `POST /api/ptp/config`. -/
def postPtpConfig (h : ConfigHost) (r : ConfigReplies) (body : Text) (s : ConfigState) : ConfigReply × ConfigState :=
  match jsonToPtpConfig h body with
  | none => (.badRequest, s)
  | some ptp =>
    match r.ptp with
    | some e => (.failed e, s)
    | none =>
      let values := Function.update (Function.update s.live.values .ptpDomain ptp.domain) .ptpDscp ptp.dscp
      s.saved h r { s.live with values := values }

end ConfigState

/-- A request. -/
inductive ConfigRequest
  | config (r : ConfigReplies) (body : Text)
  | ptpConfig (r : ConfigReplies) (body : Text)

namespace ConfigState

/-- Serve a request. -/
def serve (h : ConfigHost) (s : ConfigState) : ConfigRequest → ConfigReply × ConfigState
  | .config r body => s.postConfig h r body
  | .ptpConfig r body => s.postPtpConfig h r body

/-- The state after a request that succeeds. -/
def step (h : ConfigHost) (s : ConfigState) (r : ConfigRequest) : Option ConfigState :=
  if (s.serve h r).1 = .ok then some (s.serve h r).2 else none

end ConfigState

/-! ## What a request does -/

namespace ConfigState
variable {h : ConfigHost} {s s' : ConfigState} {r : ConfigRequest}

/-- The configuration that a request wants to be saved. -/
def requested (h : ConfigHost) (s : ConfigState) : ConfigRequest → Option DaemonConfig
  | .config _ body => (jsonToConfig h body s.live.values).map fun values => { s.live with values := values }
  | .ptpConfig _ body => (jsonToPtpConfig h body).map fun ptp =>
    { s.live with
      values := Function.update (Function.update s.live.values .ptpDomain ptp.domain) .ptpDscp ptp.dscp }

/-- The state after a configuration has been saved. -/
def afterSave (h : ConfigHost) (s : ConfigState) (config : DaemonConfig) : ConfigState :=
  if s.live.differs h config then { live := s.live.takeOver h config, file := configToJson h config } else s

theorem saved_ok {r : ConfigReplies} {config : DaemonConfig} (hok : (s.saved h r config).1 = .ok) :
    (s.saved h r config).2 = s.afterSave h config := by
  rw [afterSave]
  by_cases hdiffers : s.live.differs h config = true
  · cases hwritable : r.writable with
    | true => simp [saved, save, hdiffers, hwritable]
    | false => simp [saved, save, hdiffers, hwritable] at hok
  · simp [saved, save, hdiffers]

/-- **A request that succeeds saves what it wants to be saved.** -/
theorem step_cases (hs : s.step h r = some s') :
    ∃ config, s.requested h r = some config ∧ s' = s.afterSave h config := by
  rw [step] at hs
  split at hs
  · rename_i hok
    obtain rfl := Option.some.inj hs
    cases r with
    | config r body =>
        simp only [serve, postConfig] at hok ⊢
        cases hvalues : jsonToConfig h body s.live.values with
        | none =>
            simp only [hvalues] at hok
            cases hok
        | some values =>
            refine ⟨{ s.live with values := values }, by rw [requested, hvalues]; rfl, ?_⟩
            simp only [hvalues] at hok ⊢
            split at hok
            · cases hok
            · exact saved_ok hok
    | ptpConfig r body =>
        simp only [serve, postPtpConfig] at hok ⊢
        cases hptp : jsonToPtpConfig h body with
        | none =>
            simp only [hptp] at hok
            cases hok
        | some ptp =>
            refine ⟨_, by rw [requested, hptp]; rfl, ?_⟩
            simp only [hptp] at hok ⊢
            split at hok
            · cases hok
            · exact saved_ok hok
  · cases hs

end ConfigState

/-- What the command line sets in a configuration that was parsed. -/
structure CommandLine where
  httpAddr : Option Text := none
  httpPort : Option ℤ := none

/-- The configuration with which the daemon runs. -/
def DaemonConfig.overridden (line : CommandLine) (c : DaemonConfig) : DaemonConfig :=
  { c with
    httpAddrStr := line.httpAddr.getD c.httpAddrStr
    values := match line.httpPort with
      | some port => Function.update c.values .httpPort (UInt16.ofInt port)
      | none => c.values }

end Aes67Daemon
