import Aes67Daemon.Config.Save
import Aes67Daemon.Lib.Run

/-!
# Restart flags

The main loop looks at the restart flags once a second, and by then several requests may
have been served.  Each of them works the flag for the daemon out from what it changes
itself; the flag for the driver is overwritten with the copy that the request has made of
it.  So a restart that is pending is forgotten when a request follows that needs none, and
the driver is never restarted when it would not have been anyway.

## Main definitions

* `RestartLog` — the state, and what its requests have changed.
* `RestartLog.Right` — the flags say what has been changed.
* `RestartLog.KeepsFlags` — a request that leaves them right.
* `RestartLog.flags_right_iff` — the flags are right all along exactly when every request
  leaves them right.
-/
namespace Aes67Daemon

namespace DaemonConfig
variable {h : ConfigHost} {live config : DaemonConfig}

theorem get_takeOver : (live.takeOver h config).get h = config.get h := by
  funext k
  cases k <;> rfl

theorem changed_takeOver (ks : List Setting) :
    changed h ks live (live.takeOver h config) = changed h ks live config := by
  rw [changed, changed, get_takeOver]

theorem changed_self (ks : List Setting) : changed h ks live live = false := by simp [changed]

/-- A field that needs a restart of the daemon is another one. -/
def changesDaemon (h : ConfigHost) (a b : DaemonConfig) : Bool := changed h driverSettings a b || changed h daemonSettings a b

end DaemonConfig

open DaemonConfig

/-- The state, and what has been changed since the start. -/
structure RestartLog where
  state : ConfigState
  /-- A setting that needs a restart of the daemon has been changed. -/
  daemonNeeded : Bool := false
  /-- The driver had to be restarted from the start, or a setting of it has been changed. -/
  driverNeeded : Bool

namespace RestartLog
variable {h : ConfigHost} {τ τ' : RestartLog} {r : ConfigRequest}

/-- The log when the daemon starts with a configuration. -/
def start (config : DaemonConfig) (file : Text) : RestartLog :=
  { state := ⟨config, file⟩, driverNeeded := config.driverRestart }

/-- A request that succeeds; what it changes is read off the live configuration. -/
def step (h : ConfigHost) (τ : RestartLog) (r : ConfigRequest) : Option RestartLog :=
  (τ.state.step h r).map fun s =>
    { state := s
      daemonNeeded := τ.daemonNeeded || changesDaemon h τ.state.live s.live
      driverNeeded := τ.driverNeeded || changed h driverSettings τ.state.live s.live }

/-- The flags say what has been changed. -/
structure Right (τ : RestartLog) : Prop where
  daemon : τ.state.live.daemonRestart = τ.daemonNeeded
  driver : τ.state.live.driverRestart = τ.driverNeeded

/-- A request that leaves the flags right: it changes a setting of the driver only if the
driver is to be restarted anyway, and where a restart of the daemon is pending, it needs
one too or saves nothing. -/
def KeepsFlags (h : ConfigHost) (τ : RestartLog) (r : ConfigRequest) : Prop :=
  (τ.state.step h r).isSome → ∀ config, τ.state.requested h r = some config →
    τ.state.live.differs h config = true →
      (changed h driverSettings τ.state.live config = true → τ.state.live.driverRestart = true) ∧
      (τ.state.live.daemonRestart = true → changesDaemon h τ.state.live config = true)

theorem right_step (H : τ.Right) (hs : τ.step h r = some τ') : τ'.Right ↔ τ.KeepsFlags h r := by
  obtain ⟨s, hstep, rfl⟩ := Option.map_eq_some_iff.mp hs
  obtain ⟨config, hconfig, rfl⟩ := ConfigState.step_cases hstep
  have hguard : τ.KeepsFlags h r ↔ (τ.state.live.differs h config = true →
      (changed h driverSettings τ.state.live config = true → τ.state.live.driverRestart = true) ∧
      (τ.state.live.daemonRestart = true → changesDaemon h τ.state.live config = true)) := by
    rw [KeepsFlags, hstep, hconfig]
    simp
  rw [hguard, ConfigState.afterSave]
  by_cases hdiffers : τ.state.live.differs h config = true
  · have hflag : config.driverRestart = τ.state.live.driverRestart := by
      cases r with
      | config r body | ptpConfig r body =>
          obtain ⟨_, -, rfl⟩ := Option.map_eq_some_iff.mp hconfig
          rfl
    have hdaemon : changesDaemon h τ.state.live (τ.state.live.takeOver h config) =
        changesDaemon h τ.state.live config := by
      rw [changesDaemon, changesDaemon, changed_takeOver, changed_takeOver]
    simp only [hdiffers, if_true, changed_takeOver, hdaemon, forall_const]
    have htaken : (τ.state.live.takeOver h config).daemonRestart = changesDaemon h τ.state.live config := rfl
    have hkept : (τ.state.live.takeOver h config).driverRestart = config.driverRestart := rfl
    rw [H.driver, H.daemon]
    constructor
    · intro hright
      have hd := hright.driver
      have hm := hright.daemon
      simp only [htaken, hkept, hflag, H.driver] at hd hm
      constructor
      · intro hchanged
        rw [hchanged, Bool.or_true] at hd
        exact hd
      · intro hpending
        rw [hpending, Bool.true_or] at hm
        exact hm
    · rintro ⟨hd, hm⟩
      refine ⟨?_, ?_⟩
      · simp only [htaken]
        cases hpending : τ.daemonNeeded with
        | true => rw [hm hpending, Bool.true_or]
        | false => rw [Bool.false_or]
      · simp only [hkept, hflag, H.driver]
        cases hchanged : changed h driverSettings τ.state.live config with
        | true => rw [hd hchanged, Bool.true_or]
        | false => rw [Bool.or_false]
  · simp only [hdiffers, Bool.false_eq_true, if_false, false_implies, iff_true]
    refine ⟨?_, ?_⟩
    · simp [H.daemon, changesDaemon, changed_self]
    · simp [H.driver, changed_self]

/-- **The flags are right all along exactly when every request leaves them right.** -/
theorem flags_right_iff {e : ParseEnv} {file : Text} {driverRestart : Bool} {config : DaemonConfig}
    (hparse : DaemonConfig.parse h e (some file) driverRestart = some config) (line : CommandLine)
    (requests : List ConfigRequest) :
    (∀ n τ, run (step h) (start (config.overridden line) file) (requests.take n) = some τ → τ.Right) ↔
      Along (step h) (KeepsFlags h) (start (config.overridden line) file) requests := by
  have hstart : (start (config.overridden line) file).Right := by
    obtain ⟨values, ip, -, -, hdaemon, -⟩ := parse_cases hparse
    exact ⟨hdaemon, rfl⟩
  refine always_iff (fun _ _ _ H hs => right_step H hs) (fun τ r _ hs => ?_) hstart
  intro hsome
  rw [Option.map_eq_none_iff.mp hs] at hsome
  cases hsome

/-! ### Sample runs -/

/-- There is one interface. -/
def oneInterface : ParseEnv :=
  { interfaceMac := fun _ => "01:02:03:04:05:06".toList, interfaceIp := fun _ _ => (0x0a000001, "10.0.0.1".toList) }

/-- A request that gives one setting a number. -/
def setNumber (k : Setting) (n : ℕ) : ConfigRequest :=
  .config {} ("\x7b\"".toList ++ k.key.toList ++ "\": ".toList ++ Text.ofNat n ++ ['}'])

/-- The log after requests to a daemon that has started with an empty file. -/
def sampleLog (requests : List ConfigRequest) : Option RestartLog :=
  (DaemonConfig.parse {} oneInterface (some "\x7b\x7d".toList) true).bind fun config =>
    run (step {}) (start (config.overridden {}) "\x7b\x7d".toList) requests

/-- The HTTP port is changed, and then another setting that needs a restart. -/
theorem flags_right_sole : ∃ config τ, DaemonConfig.parse {} oneInterface (some "\x7b\x7d".toList) true = some config ∧
    run (step {}) (start (config.overridden {}) "\x7b\x7d".toList) [setNumber .httpPort 8081, setNumber .rtpPort 6000] =
      some τ ∧ τ.daemonNeeded = true ∧
    ((∀ n τ, run (step {}) (start (config.overridden {}) "\x7b\x7d".toList)
        ([setNumber .httpPort 8081, setNumber .rtpPort 6000].take n) = some τ → τ.Right) ↔
      Along (step {}) (KeepsFlags {}) (start (config.overridden {}) "\x7b\x7d".toList)
        [setNumber .httpPort 8081, setNumber .rtpPort 6000]) := by
  have hrun : (sampleLog [setNumber .httpPort 8081, setNumber .rtpPort 6000]).map daemonNeeded = some true := by
    decide +kernel
  obtain ⟨τ, hτ, hneeded⟩ := Option.map_eq_some_iff.mp hrun
  obtain ⟨config, hparse, hrun⟩ := Option.bind_eq_some_iff.mp hτ
  exact ⟨config, τ, hparse, hrun, hneeded, flags_right_iff hparse {} _⟩

/-- The HTTP port is changed, and then a setting that needs no restart: nobody restarts the daemon. -/
theorem restart_forgotten : ∃ config τ, DaemonConfig.parse {} oneInterface (some "\x7b\x7d".toList) true = some config ∧
    run (step {}) (start (config.overridden {}) "\x7b\x7d".toList) [setNumber .httpPort 8081, setNumber .logSeverity 3] =
      some τ ∧ τ.daemonNeeded = true ∧ τ.state.live.daemonRestart = false ∧ ¬ τ.Right := by
  have hrun : (sampleLog [setNumber .httpPort 8081, setNumber .logSeverity 3]).map
      (fun τ => (τ.daemonNeeded, τ.state.live.daemonRestart)) = some (true, false) := by decide +kernel
  obtain ⟨τ, hτ, hflags⟩ := Option.map_eq_some_iff.mp hrun
  obtain ⟨config, hparse, hrun⟩ := Option.bind_eq_some_iff.mp hτ
  obtain ⟨hneeded, hrestart⟩ := Prod.mk.inj hflags
  refine ⟨config, τ, hparse, hrun, hneeded, hrestart, fun hright => ?_⟩
  have hsame := hright.daemon
  rw [hneeded, hrestart] at hsame
  cases hsame

end RestartLog
end Aes67Daemon
