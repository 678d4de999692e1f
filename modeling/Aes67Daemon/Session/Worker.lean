import Aes67Daemon.Session.Streams

/-!
# The worker and the clock

What reaches the session manager besides the requests on streams: `init`, the
PTP configuration, the sample rate the driver announces, and the periodic look
at the PTP status in `worker`, which tells the sources when the grandmaster or
the sample rate has changed.

## Main definitions

* `SessionManager.init` — the start of the worker.
* `SessionManager.setPtpConfig`, `setSampleRate`, `ptpTick` — the events.
* `SessionManager.onUpdateSources` — `on_update_sources`.
-/
namespace Aes67Daemon

open Text

/-- `ptp_primary_mcast_addr`. -/
def ptpPrimaryMcastAddr : Text := "224.0.1.129".toList

/-- `ptp_pdelay_mcast_addr`. -/
def ptpPdelayMcastAddr : Text := "224.0.1.107".toList

/-- `EPTPLockStatus`. -/
inductive PtpLockStatus
  | unlocked
  | locking
  | locked
  deriving DecidableEq

/-- The name of a lock status. -/
def PtpLockStatus.toText : PtpLockStatus → Text
  | .unlocked => "unlocked".toList
  | .locking => "locking".toList
  | .locked => "locked".toList

/-- `TPTPStatus`, what the driver reports about the clock. -/
structure TPTPStatus where
  ui64GMID : UInt64 := 0
  nPTPLockStatus : PtpLockStatus := .unlocked
  i32ClockJitter : Int32 := 0
  ui8ActivePTPNic : UInt8 := 0
  ui64LegGMID : Legs UInt64 := ⟨0, 0⟩
  nLegLockStatus : Legs PtpLockStatus := ⟨.unlocked, .unlocked⟩

/-- The status `worker` makes of a report. -/
def PTPStatus.ofReport (r : TPTPStatus) : PTPStatus :=
  { status := r.nPTPLockStatus.toText
    gmid := formatGmid r.ui64GMID
    jitter := r.i32ClockJitter
    activeLeg := r.ui8ActivePTPNic
    leg0Status := r.nLegLockStatus.leg0.toText
    leg1Status := r.nLegLockStatus.leg1.toText
    leg0Gmid := formatGmid r.ui64LegGMID.leg0
    leg1Gmid := formatGmid r.ui64LegGMID.leg1
    legsAligned := !(r.nLegLockStatus.leg0 == .locked && r.nLegLockStatus.leg1 == .locked &&
      formatGmid r.ui64LegGMID.leg0 != formatGmid r.ui64LegGMID.leg1)
    gmid_format := .inr ⟨_, rfl⟩ }

namespace SessionManager

/-- `init`, at `now` seconds since the epoch, and the first lines of `worker`. -/
def init (host : Host) (env : Env) (now : ℕ) (s : SessionManager) : SessionManager :=
  { s with
    gSessionVersion := UInt32.ofNat now
    workerSampleRate := s.driver.sampleRate
    igmp :=
      { leg0 := s.igmp.leg0.joined (env.joinOk 0) host.config.ipAddrStr ptpPrimaryMcastAddr
        leg1 :=
          if host.config.interfaceName1 = [] then s.igmp.leg1
          else s.igmp.leg1.joined (env.joinOk 1) (ipText (env.secondaryIp host))
            ptpPrimaryMcastAddr } }

/-- `set_ptp_config`, with the driver's reply. -/
def setPtpConfig (reply : Option ErrorCode) (config : PTPConfig) (s : SessionManager) :
    Ret × SessionManager :=
  match reply with
  | some e => (.error e, s)
  | none => (.ok, { s with ptp.config := config })

/-- The event `MT_ALSA_Msg_SetSampleRate`. -/
def setSampleRate (rate : UInt32) (s : SessionManager) : SessionManager :=
  { s with driver.sampleRate := rate }

/-- A source after `n` observers were told of an update. -/
def bump (n : ℕ) (info : StreamInfo) : StreamInfo :=
  { info with sessionVersion := info.sessionVersion + UInt32.ofNat n }

/-- `on_update_sources`: each observer of each source gets a version of its own. -/
def onUpdateSources (host : Host) (env : Env) (s : SessionManager) : SessionManager :=
  let told := s.sources.entries.flatMap fun e =>
    (List.range s.updateSourceObservers).map fun i =>
      Notification.updateSource e.1 e.2.stream.leg0.cName
        (getSourceSdp host env s.ptp s.driver.sampleRate (bump (i + 1) e.2))
  { s with
    sources := s.sources.mapVal fun _ info => bump s.updateSourceObservers info
    notifications := told.reverse ++ s.notifications
    gSessionVersion := s.gSessionVersion + 1 }

/-- The PTP part of the loop in `worker`; `none` when the driver does not
answer.  `on_ptp_status_changed` and `set_sample_rate` only send commands. -/
def ptpTick (host : Host) (env : Env) (report : Option TPTPStatus) (s : SessionManager) :
    SessionManager :=
  match report with
  | none => s
  | some r =>
    let status := PTPStatus.ofReport r
    let changedGmid := s.ptp.status.gmid != status.gmid
    let s := { s with ptp.status := status }
    if changedGmid || s.workerSampleRate != s.driver.sampleRate then
      { s with workerSampleRate := s.driver.sampleRate }.onUpdateSources host env
    else s

end SessionManager
end Aes67Daemon
