import Aes67Daemon.Session.Prepared

/-!
# What requests leave alone

Requests on streams touch the books, the version counter and the log of
notifications.  The clock, the sample rate, the announced hashes and the
registered observers stay as they are.

## Main definitions

* `SessionManager.Outside` — what requests leave alone.
* `serve_outside` — they do, and when they count a version.
-/
namespace Aes67Daemon

open Text

/-- The members requests on streams do not change. -/
structure SessionManager.Outside where
  announcedSources : SortedMap UInt32 (UInt32 × UInt32 × UInt32)
  deletedSourcesCount : SortedMap UInt32 ℕ
  ptp : Ptp
  sampleRate : UInt32
  updateSourceObservers : ℕ
  workerSampleRate : UInt32

namespace SessionManager

/-- What requests on streams leave alone. -/
def outside (s : SessionManager) : Outside :=
  { announcedSources := s.announcedSources
    deletedSourcesCount := s.deletedSourcesCount
    ptp := s.ptp
    sampleRate := s.driver.sampleRate
    updateSourceObservers := s.updateSourceObservers
    workerSampleRate := s.workerSampleRate }

variable {host : Host} {env : Env} {s s' : SessionManager} {ret : Ret}

@[simp] theorem sampleRate_hold (d : Driver) (h : Handle) (info : TRTPStreamInfo) :
    (d.hold h info).sampleRate = d.sampleRate := rfl

@[simp] theorem sampleRate_dropLegs (info : StreamInfo) (d : Driver) :
    (dropLegs env info d).sampleRate = d.sampleRate := by
  simp only [dropLegs]
  split <;> simp

theorem sampleRate_removeLegs (env : Env) (info : StreamInfo) (d : Driver) :
    (removeLegs env info d).2.sampleRate = d.sampleRate := by
  simp only [removeLegs]
  split <;> simp

/-- The driver is looked at for its sample rate only. -/
theorem outside_of_sampleRate {d : Driver} (h : d.sampleRate = s.driver.sampleRate) :
    ({ s with driver := d } : SessionManager).outside = s.outside := by
  simp only [outside, h]

theorem outside_dropSource (old : StreamInfo) :
    (s.dropSource host env old).outside = s.outside ∧
      (s.dropSource host env old).gSessionVersion = s.gSessionVersion := by
  simp only [dropSource]
  split <;> simp [outside, onRemoveSource, notify]

theorem outside_registerSource {source : StreamSource} {info : StreamInfo}
    {it : Option StreamInfo} (h : registerSource host env source info it s = some (ret, s')) :
    s'.outside = s.outside ∧ s'.gSessionVersion = s.gSessionVersion := by
  cases registerSource_cases h with
  | placed | single | dual => exact ⟨rfl, rfl⟩
  | refused => split <;> exact ⟨rfl, rfl⟩
  | @undone _ h0 _ old =>
      have hrate := (Driver.sampleRate_removeRtpStream (s.driver.hold h0 info.stream.leg0)
        env.replies.rollback old.handle.leg0).trans (sampleRate_hold ..)
      exact ⟨outside_of_sampleRate hrate, rfl⟩

theorem outside_registerSink {sink : StreamSink} {info : StreamInfo} {it : Option StreamInfo}
    (h : registerSink host env sink info it s = (ret, s')) :
    s'.outside = s.outside ∧ s'.gSessionVersion = s.gSessionVersion := by
  cases registerSink_cases h with
  | single | dual => exact ⟨rfl, rfl⟩
  | refused => split <;> exact ⟨rfl, rfl⟩
  | @undone _ h0 _ _ _ _ _ _ hundo =>
      subst hundo
      have hrate := (Driver.sampleRate_removeRtpStream (s.driver.hold h0 info.stream.leg0)
        env.replies.rollback h0).trans (sampleRate_hold ..)
      split <;> exact ⟨outside_of_sampleRate hrate, rfl⟩

/-- `add_source` counts a version when it prepares a record, even if the name is then
found to be in use. -/
theorem outside_addSource {source : StreamSource} (h : s.addSource host env source = some (ret, s')) :
    s'.outside = s.outside ∧ s'.gSessionVersion =
      if ((Request.addSource env source).prepared host s).isSome then s.gSessionVersion + 1
      else s.gSessionVersion := by
  simp only [addSource] at h
  split at h
  · rename_i hid
    simp only [Option.some.injEq, Prod.mk.injEq] at h
    obtain ⟨-, rfl⟩ := h
    exact ⟨rfl, by simp [Request.prepared, hid]⟩
  split at h
  · rename_i hmap
    simp only [Option.some.injEq, Prod.mk.injEq] at h
    obtain ⟨-, rfl⟩ := h
    exact ⟨rfl, by simp [Request.prepared, hmap]⟩
  · rename_i hid hmap
    split at h
    · rename_i hmac
      simp only [Option.some.injEq, Prod.mk.injEq] at h
      obtain ⟨-, rfl⟩ := h
      exact ⟨rfl, by simp [Request.prepared, hmac]⟩
    · rename_i stream hstream
      rw [if_pos (by simp [Request.prepared, hid, hmap, hstream])]
      split at h
      · obtain ⟨hout, hver⟩ := outside_registerSource h
        rw [hout, hver, (outside_dropSource _).1, (outside_dropSource _).2]
        exact ⟨rfl, rfl⟩
      · split at h
        · simp only [Option.some.injEq, Prod.mk.injEq] at h
          obtain ⟨-, rfl⟩ := h
          exact ⟨rfl, rfl⟩
        · obtain ⟨hout, hver⟩ := outside_registerSource h
          rw [hout, hver]
          exact ⟨rfl, rfl⟩

variable (host env s) in
theorem outside_removeSource (id : UInt32) :
    (s.removeSource host env id).2.outside = s.outside ∧
      (s.removeSource host env id).2.gSessionVersion = s.gSessionVersion := by
  rw [removeSource]
  split
  · exact ⟨rfl, rfl⟩
  · split
    · exact ⟨rfl, rfl⟩
    · rename_i old _
      have hrate := sampleRate_removeLegs env old s.driver
      split
      · split
        all_goals
          rename_i hd
          rw [hd] at hrate
          exact ⟨outside_of_sampleRate hrate, rfl⟩
      · exact ⟨rfl, rfl⟩

variable (host env s) in
theorem outside_addSink (sink : StreamSink) :
    (s.addSink host env sink).2.outside = s.outside ∧
      (s.addSink host env sink).2.gSessionVersion = s.gSessionVersion := by
  rw [addSink]
  split
  · exact ⟨rfl, rfl⟩
  · split
    · exact ⟨rfl, rfl⟩
    · split
      · rename_i old _
        have hdrop : (s.dropSink host env old).outside = s.outside ∧
            (s.dropSink host env old).gSessionVersion = s.gSessionVersion :=
          ⟨outside_of_sampleRate (sampleRate_dropLegs old s.driver), rfl⟩
        obtain ⟨hout, hver⟩ := outside_registerSink rfl
        exact ⟨hout.trans hdrop.1, hver.trans hdrop.2⟩
      · split
        · exact ⟨rfl, rfl⟩
        · exact outside_registerSink rfl

variable (host env s) in
theorem outside_removeSink (id : UInt32) :
    (s.removeSink host env id).2.outside = s.outside ∧
      (s.removeSink host env id).2.gSessionVersion = s.gSessionVersion := by
  rw [removeSink]
  split
  · exact ⟨rfl, rfl⟩
  · split
    · exact ⟨rfl, rfl⟩
    · rename_i old _
      have hrate := sampleRate_removeLegs env old s.driver
      split
      all_goals
        rename_i hd
        rw [hd] at hrate
        exact ⟨outside_of_sampleRate hrate, rfl⟩

/-- **The requests on streams** leave the rest alone; those on sources count a version
when they prepare a record. -/
theorem serve_outside {r : Request} (h : s.serve host r = some (ret, s')) :
    s'.outside = s.outside ∧ s'.gSessionVersion =
      if r.kind = .source ∧ (r.prepared host s).isSome then s.gSessionVersion + 1
      else s.gSessionVersion := by
  cases r with
  | addSource env source =>
      obtain ⟨hout, hver⟩ := outside_addSource h
      exact ⟨hout, hver.trans (if_congr (and_iff_right rfl).symm rfl rfl)⟩
  | removeSource env id =>
      obtain rfl := congrArg Prod.snd (Option.some.inj h)
      obtain ⟨hout, hver⟩ := outside_removeSource host env s id
      exact ⟨hout, hver.trans (if_neg (by simp [Request.prepared])).symm⟩
  | addSink env sink =>
      obtain rfl := congrArg Prod.snd (Option.some.inj h)
      obtain ⟨hout, hver⟩ := outside_addSink host env s sink
      exact ⟨hout, hver.trans (if_neg (by simp [Request.kind])).symm⟩
  | removeSink env id =>
      obtain rfl := congrArg Prod.snd (Option.some.inj h)
      obtain ⟨hout, hver⟩ := outside_removeSink host env s id
      exact ⟨hout, hver.trans (if_neg (by simp [Request.prepared])).symm⟩

end SessionManager
end Aes67Daemon
