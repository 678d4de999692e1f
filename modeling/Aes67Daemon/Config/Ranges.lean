import Aes67Daemon.Config.Reread
import Aes67Daemon.Config.Restart

/-!
# Ranges of the settings

`Config::parse` brings the settings into their ranges when the daemon starts, in memory
only.  The requests that change them afterwards take any value that can be read, and write
it to the file.

## Main definitions

* `InRange` — the ranges that `parse` establishes.
* `ConfigState.Ranged` — the live configuration and the file are in range.
* `ConfigState.AsksInRange` — a request that changes nothing or leads to values in range.
* `ConfigState.ranged_iff` — everything stays in range exactly when the file is in range at
  the start and all requests are such requests.
-/
namespace Aes67Daemon

open Text

/-- The ranges of the settings. -/
structure InRange (h : ConfigHost) (v : Values) : Prop where
  playoutDelay : UInt32.toNat (v .playoutDelay) ≤ 4000
  tic : 1 ≤ UInt32.toNat (v .ticFrameSizeAt1fs) ∧ UInt32.toNat (v .ticFrameSizeAt1fs) ≤ 192
  maxTic : UInt32.toNat (v .ticFrameSizeAt1fs) ≤ UInt32.toNat (v .maxTicFrameSize) ∧
    UInt32.toNat (v .maxTicFrameSize) ≤ 1024
  sampleRate : 0 < UInt32.toNat (v .sampleRate)
  streamerChannels : 2 ≤ UInt8.toNat (v .streamerChannels) ∧ UInt8.toNat (v .streamerChannels) ≤ 16
  alsaChannels : 1 ≤ UInt8.toNat (v .alsaChannels) ∧ UInt8.toNat (v .alsaChannels) ≤ 64
  streamerFileDuration : 1 ≤ UInt16.toNat (v .streamerFileDuration) ∧ UInt16.toNat (v .streamerFileDuration) ≤ 4
  streamerFilesNum : 4 ≤ UInt8.toNat (v .streamerFilesNum) ∧ UInt8.toNat (v .streamerFilesNum) ≤ 16
  streamerPlayerBufferFilesNum : 1 ≤ UInt8.toNat (v .streamerPlayerBufferFilesNum) ∧
    UInt8.toNat (v .streamerPlayerBufferFilesNum) ≤ 2
  rtpMcastBase : h.isAddress (v .rtpMcastBase).1 = true
  rtpMcastBaseSec : h.isAddress (v .rtpMcastBaseSec).1 = true
  sapMcastAddr : h.isAddress (v .sapMcastAddr).1 = true
  ptpDomain : UInt8.toNat (v .ptpDomain) ≤ 127
  logSeverity : 0 ≤ Int32.toInt (v .logSeverity) ∧ Int32.toInt (v .logSeverity) ≤ 5

/-- What holds of the value in place of a bad one and of every other value. -/
theorem replaceIf_keeps {α : Type} {bad : α → Bool} {P : α → Prop} {default v : α} (hdefault : P default)
    (hgood : bad v = false → P v) : P (replaceIf bad default v) := by
  rw [replaceIf]
  split
  · exact hdefault
  · rename_i hbad
    exact hgood (Bool.eq_false_iff.mpr hbad)

section
variable {h : ConfigHost}

/-! The values of each type in place of those out of a range. -/

theorem replaced_octet (low high : UInt8) {default v : UInt8}
    (hdefault : low.toNat ≤ default.toNat ∧ default.toNat ≤ high.toNat) :
    low.toNat ≤ (replaceIf (fun n => n < low || high < n) default v).toNat ∧
      (replaceIf (fun n => n < low || high < n) default v).toNat ≤ high.toNat := by
  refine replaceIf_keeps (P := fun n : UInt8 => low.toNat ≤ n.toNat ∧ n.toNat ≤ high.toNat) hdefault fun hbad => ?_
  simp only [Bool.or_eq_false_iff, decide_eq_false_iff_not, UInt8.not_lt, UInt8.le_iff_toNat_le] at hbad
  exact hbad

theorem replaced_octet_le (high : UInt8) {default v : UInt8} (hdefault : default.toNat ≤ high.toNat) :
    (replaceIf (fun n => high < n) default v).toNat ≤ high.toNat := by
  refine replaceIf_keeps (P := fun n : UInt8 => n.toNat ≤ high.toNat) hdefault fun hbad => ?_
  simpa [UInt8.le_iff_toNat_le] using hbad

theorem replaced_duration (v : UInt16) : 1 ≤ (replaceIf (fun n => n < 1 || 4 < n) 1 v).toNat ∧
    (replaceIf (fun n => n < 1 || 4 < n) 1 v).toNat ≤ 4 := by
  refine replaceIf_keeps (P := fun n : UInt16 => 1 ≤ n.toNat ∧ n.toNat ≤ 4) (by decide) fun hbad => ?_
  simp only [Bool.or_eq_false_iff, decide_eq_false_iff_not, UInt16.not_lt, UInt16.le_iff_toNat_le] at hbad
  exact hbad

theorem replaced_word (low high : UInt32) {default v : UInt32}
    (hdefault : low.toNat ≤ default.toNat ∧ default.toNat ≤ high.toNat) :
    low.toNat ≤ (replaceIf (fun n => n < low || high < n) default v).toNat ∧
      (replaceIf (fun n => n < low || high < n) default v).toNat ≤ high.toNat := by
  refine replaceIf_keeps (P := fun n : UInt32 => low.toNat ≤ n.toNat ∧ n.toNat ≤ high.toNat) hdefault fun hbad => ?_
  simp only [Bool.or_eq_false_iff, decide_eq_false_iff_not, UInt32.not_lt, UInt32.le_iff_toNat_le] at hbad
  exact hbad

theorem replaced_word_le (high : UInt32) {default v : UInt32} (hdefault : default.toNat ≤ high.toNat) :
    (replaceIf (fun n => high < n) default v).toNat ≤ high.toNat := by
  refine replaceIf_keeps (P := fun n : UInt32 => n.toNat ≤ high.toNat) hdefault fun hbad => ?_
  simpa [UInt32.le_iff_toNat_le] using hbad

theorem replaced_zero {default v : UInt32} (hdefault : 0 < default.toNat) :
    0 < (replaceIf (fun n => n = 0) default v).toNat := by
  refine replaceIf_keeps (P := fun n : UInt32 => 0 < n.toNat) hdefault fun hbad => ?_
  rw [decide_eq_false_iff_not] at hbad
  exact Nat.pos_of_ne_zero fun hnat => hbad (UInt32.toNat_inj.mp hnat)

theorem replaced_severity (v : Int32) : 0 ≤ (replaceIf (fun n => n < 0 || 5 < n) 2 v).toInt ∧
    (replaceIf (fun n => n < 0 || 5 < n) 2 v).toInt ≤ 5 := by
  refine replaceIf_keeps (P := fun z : Int32 => 0 ≤ z.toInt ∧ z.toInt ≤ 5) (by decide) fun hbad => ?_
  simp only [Bool.or_eq_false_iff, decide_eq_false_iff_not, Int32.not_lt, Int32.le_iff_toInt_le] at hbad
  exact hbad

theorem replaced_address {default v : CleanText} (hdefault : h.isAddress default.1 = true) :
    h.isAddress (replaceIf (fun t : CleanText => !h.isAddress t.1) default v).1 = true :=
  replaceIf_keeps (P := fun t : CleanText => h.isAddress t.1 = true) hdefault fun hbad => by simpa using hbad

theorem clamped_tic (v : Values) : 1 ≤ (clamped.tic v).toNat ∧ (clamped.tic v).toNat ≤ 192 := by
  have hrange : ∀ n : UInt32, 1 ≤ (replaceIf (fun n => n = 0 || 192 < n) 192 n).toNat ∧
      (replaceIf (fun n => n = 0 || 192 < n) 192 n).toNat ≤ 192 := by
    intro n
    refine replaceIf_keeps (P := fun n : UInt32 => 1 ≤ n.toNat ∧ n.toNat ≤ 192) (by decide) fun hbad => ?_
    simp only [Bool.or_eq_false_iff, decide_eq_false_iff_not, UInt32.not_lt, UInt32.le_iff_toNat_le] at hbad
    obtain ⟨hzero, hle⟩ := hbad
    exact ⟨Nat.one_le_iff_ne_zero.mpr fun hnat => hzero (UInt32.toNat_inj.mp hnat), hle⟩
  exact hrange _

/-- **The values that `parse` takes are in range.** -/
theorem clamped_inRange (v : Values) : InRange h (clamped h v) where
  playoutDelay := replaced_word_le 4000 (by decide)
  tic := clamped_tic v
  maxTic := replaced_word (clamped.tic v) 1024 ⟨le_trans (clamped_tic v).2 (by decide), by decide⟩
  sampleRate := replaced_zero (by decide)
  streamerChannels := replaced_octet 2 16 (by decide)
  alsaChannels := replaced_octet 1 64 (by decide)
  streamerFileDuration := replaced_duration _
  streamerFilesNum := replaced_octet 4 16 (by decide)
  streamerPlayerBufferFilesNum := replaced_octet 1 2 (by decide)
  rtpMcastBase := replaced_address h.isAddress_default.1
  rtpMcastBaseSec := replaced_address h.isAddress_default.1
  sapMcastAddr := replaced_address h.isAddress_default.2
  ptpDomain := replaced_octet_le 127 (by decide)
  logSeverity := replaced_severity _

/-- The ranges look at some settings only. -/
theorem InRange.congr {v v' : Values} (H : InRange h v) (hsame : ∀ k ∉ [Setting.interfaceName, .ipAddr, .httpPort], v' k = v k) :
    InRange h v' := by
  have hmem : ∀ k ∉ [Setting.interfaceName, .ipAddr, .httpPort], v k = v' k := fun k hk => (hsame k hk).symm
  constructor
  · exact hmem .playoutDelay (by decide) ▸ H.playoutDelay
  · exact hmem .ticFrameSizeAt1fs (by decide) ▸ H.tic
  · exact hmem .ticFrameSizeAt1fs (by decide) ▸ hmem .maxTicFrameSize (by decide) ▸ H.maxTic
  · exact hmem .sampleRate (by decide) ▸ H.sampleRate
  · exact hmem .streamerChannels (by decide) ▸ H.streamerChannels
  · exact hmem .alsaChannels (by decide) ▸ H.alsaChannels
  · exact hmem .streamerFileDuration (by decide) ▸ H.streamerFileDuration
  · exact hmem .streamerFilesNum (by decide) ▸ H.streamerFilesNum
  · exact hmem .streamerPlayerBufferFilesNum (by decide) ▸ H.streamerPlayerBufferFilesNum
  · exact hmem .rtpMcastBase (by decide) ▸ H.rtpMcastBase
  · exact hmem .rtpMcastBaseSec (by decide) ▸ H.rtpMcastBaseSec
  · exact hmem .sapMcastAddr (by decide) ▸ H.sapMcastAddr
  · exact hmem .ptpDomain (by decide) ▸ H.ptpDomain
  · exact hmem .logSeverity (by decide) ▸ H.logSeverity

/-- What is written is in range exactly when what is there is. -/
theorem inRange_reread {c : DaemonConfig} : InRange h (fun k => k.type.reread (c.get h k)) ↔ InRange h c.values :=
  ⟨fun H => ⟨H.playoutDelay, H.tic, H.maxTic, H.sampleRate, H.streamerChannels, H.alsaChannels,
      H.streamerFileDuration, H.streamerFilesNum, H.streamerPlayerBufferFilesNum, H.rtpMcastBase, H.rtpMcastBaseSec,
      H.sapMcastAddr, H.ptpDomain, H.logSeverity⟩,
    fun H => ⟨H.playoutDelay, H.tic, H.maxTic, H.sampleRate, H.streamerChannels, H.alsaChannels,
      H.streamerFileDuration, H.streamerFilesNum, H.streamerPlayerBufferFilesNum, H.rtpMcastBase, H.rtpMcastBaseSec,
      H.sapMcastAddr, H.ptpDomain, H.logSeverity⟩⟩

/-- What the file gives is in range. -/
def FileInRange (h : ConfigHost) (file : Text) : Prop := ∀ values, jsonToConfig h file defaultValues = some values → InRange h values

namespace ConfigState
variable {s s' : ConfigState} {r : ConfigRequest}

/-- The live configuration and the file are in range. -/
structure Ranged (h : ConfigHost) (s : ConfigState) : Prop where
  live : InRange h s.live.values
  file : FileInRange h s.file

/-- A request that changes nothing or leads to values in range. -/
def AsksInRange (h : ConfigHost) (s : ConfigState) (r : ConfigRequest) : Prop :=
  (s.step h r).isSome → ∀ config, s.requested h r = some config → s.live.differs h config = true → InRange h config.values

theorem ranged_step (hreader : ∀ t tree, Json.readRaw t = some tree → h.readJson t = some tree) (H : s.Ranged h) (hs : s.step h r = some s') : s'.Ranged h ↔ s.AsksInRange h r := by
  obtain ⟨config, hconfig, rfl⟩ := step_cases hs
  have hguard : s.AsksInRange h r ↔ (s.live.differs h config = true → InRange h config.values) := by
    rw [AsksInRange, hs, hconfig]
    simp
  rw [hguard, afterSave]
  by_cases hdiffers : s.live.differs h config = true
  · rw [if_pos hdiffers, forall_prop_of_true hdiffers]
    constructor
    · intro hranged
      exact hranged.live
    · intro hrange
      refine ⟨hrange, fun values hvalues => ?_⟩
      rw [jsonToConfig_configToJson hreader, Option.some.injEq] at hvalues
      subst hvalues
      exact inRange_reread.mpr hrange
  · rw [if_neg hdiffers]
    exact iff_of_true H fun hyes => absurd hyes hdiffers

/-- **Everything stays in range exactly when the file is in range at the start and every
request changes nothing or leads to values in range.** -/
theorem ranged_iff (hreader : ∀ t tree, Json.readRaw t = some tree → h.readJson t = some tree) {e : ParseEnv} {file : Text} {driverRestart : Bool} {config : DaemonConfig}
    (hparse : DaemonConfig.parse h e (some file) driverRestart = some config) (line : CommandLine)
    (requests : List ConfigRequest) :
    (∀ n s, run (step h) ⟨config.overridden line, file⟩ (requests.take n) = some s → s.Ranged h) ↔
      FileInRange h file ∧ Along (step h) (AsksInRange h) ⟨config.overridden line, file⟩ requests := by
  obtain ⟨values, ip, hvalues, hc, -, -⟩ := DaemonConfig.parse_cases hparse
  have hlive : InRange h (config.overridden line).values := by
    refine (clamped_inRange (h := h) values).congr fun k hk => ?_
    simp only [List.mem_cons, List.not_mem_nil, or_false, not_or] at hk
    obtain ⟨hname, hip, hport⟩ := hk
    have hparsed : config.values k = clamped h values k :=
      (congrFun hc k).trans ((Function.update_of_ne hip _ _).trans (Function.update_of_ne hname _ _))
    obtain ⟨addr, port⟩ := line
    cases port with
    | none => exact hparsed
    | some port => exact (Function.update_of_ne hport _ _).trans hparsed
  have halways : FileInRange h file →
      ((∀ n s, run (step h) ⟨config.overridden line, file⟩ (requests.take n) = some s → s.Ranged h) ↔
        Along (step h) (AsksInRange h) ⟨config.overridden line, file⟩ requests) := by
    intro hfile
    refine always_iff (fun _ _ _ H hs => ranged_step hreader H hs) (fun s r _ hs => ?_) ⟨hlive, hfile⟩
    intro hsome
    rw [hs] at hsome
    cases hsome
  constructor
  · intro hall
    have hfile := (hall 0 _ rfl).file
    exact ⟨hfile, (halways hfile).mp hall⟩
  · rintro ⟨hfile, halong⟩
    exact (halways hfile).mpr halong

/-! ### Sample runs -/

/-- A request for a frame size in range and for one of zero. -/
theorem ranged_sole : ∃ config s, DaemonConfig.parse {} RestartLog.oneInterface (some "\x7b\x7d".toList) true = some config ∧
    run (step {}) ⟨config.overridden {}, "\x7b\x7d".toList⟩ [RestartLog.setNumber .ticFrameSizeAt1fs 64] = some s ∧
    ((∀ n s, run (step {}) ⟨config.overridden {}, "\x7b\x7d".toList⟩
        ([RestartLog.setNumber .ticFrameSizeAt1fs 64].take n) = some s → s.Ranged {}) ↔
      FileInRange {} "\x7b\x7d".toList ∧
        Along (step {}) (AsksInRange {}) ⟨config.overridden {}, "\x7b\x7d".toList⟩
          [RestartLog.setNumber .ticFrameSizeAt1fs 64]) := by
  have hrun : ((DaemonConfig.parse {} RestartLog.oneInterface (some "\x7b\x7d".toList) true).bind fun config =>
      run (step {}) ⟨config.overridden {}, "\x7b\x7d".toList⟩ [RestartLog.setNumber .ticFrameSizeAt1fs 64]).isSome = true := by
    decide +kernel
  obtain ⟨s, hs⟩ := Option.isSome_iff_exists.mp hrun
  obtain ⟨config, hparse, hrun⟩ := Option.bind_eq_some_iff.mp hs
  exact ⟨config, s, hparse, hrun, ranged_iff (fun _ _ hread => hread) hparse {} _⟩

/-- A request sets the frame size to zero, in memory and in the file. -/
theorem frame_size_zero : ∃ config s, DaemonConfig.parse {} RestartLog.oneInterface (some "\x7b\x7d".toList) true = some config ∧
    FileInRange {} "\x7b\x7d".toList ∧
    run (step {}) ⟨config.overridden {}, "\x7b\x7d".toList⟩ [RestartLog.setNumber .ticFrameSizeAt1fs 0] = some s ∧
    UInt32.toNat (s.live.values .ticFrameSizeAt1fs) = 0 ∧ ¬ s.Ranged {} := by
  have hrun : ((DaemonConfig.parse {} RestartLog.oneInterface (some "\x7b\x7d".toList) true).bind fun config =>
      run (step {}) ⟨config.overridden {}, "\x7b\x7d".toList⟩ [RestartLog.setNumber .ticFrameSizeAt1fs 0]).map
        (fun s => UInt32.toNat (s.live.values .ticFrameSizeAt1fs)) = some 0 := by decide +kernel
  obtain ⟨s, hs, hzero⟩ := Option.map_eq_some_iff.mp hrun
  obtain ⟨config, hparse, hrun⟩ := Option.bind_eq_some_iff.mp hs
  refine ⟨config, s, hparse, fun values hvalues => ?_, hrun, hzero, fun hranged => ?_⟩
  · obtain rfl : defaultValues = values := Option.some.inj hvalues
    constructor <;> decide
  · have htic := hranged.live.tic.1
    rw [hzero] at htic
    exact absurd htic (by decide)

end ConfigState
end
end Aes67Daemon
