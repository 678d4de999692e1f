import Aes67Daemon.Browser.Store
import Aes67Daemon.Lib.Run
import Aes67Daemon.Session.SinkUpdate

/-!
# From the browser to the sinks

`update_sinks` runs on the worker of the session manager, the browser on its own.
It reads the second of the last change, then the sources, brings the sinks up to
date and remembers the second it has read.  Events may come in between: what
`update_sinks` does is three steps here, and the only thing that tells it of an
event is that the second is another one than the last time.

## Main definitions

* `Handover`, `Handover.step` — the two components, step by step.
* `Handover.Timely` — an event that stores a description comes in a second that is
  seen to be new.
* `handover_settles` — when events have stopped, one more `update_sinks` is enough.
-/
namespace Aes67Daemon

open Text

/-- Where a running `update_sinks` is. -/
inductive UpdatePhase
  | idle
  /-- It has read `last_update`. -/
  | stamped (lastUpdate : ℕ)
  /-- It has read the sources as well. -/
  | listed (lastUpdate : ℕ) (sources : List RemoteEntry)
  deriving DecidableEq

/-- A browser and the session manager that follows it. -/
structure Handover where
  browser : Browser := {}
  manager : SessionManager
  /-- `last_sink_update_`. -/
  lastSinkUpdate : ℕ := 0
  phase : UpdatePhase := .idle
  /-- The steady clock at the last event. -/
  clock : ℕ := 0

/-- What one of the two components does next. -/
inductive HandoverStep
  | event (e : BrowserEvent)
  | readStamp
  | readSources
  /-- The sinks are added again, each with what the outside world answers. -/
  | apply (envs : List Env)

/-- The instant at which an event is entered into `last_update_`. -/
def BrowserEvent.clock : BrowserEvent → ℕ
  | .sap now _ | .sweep _ now | .change now _ _ _ _ | .remove now _ _ => now

namespace SessionManager

/-- `add_sink` of every sink in a list; `none` when one fails. -/
def reAdd (host : Host) : List Env → List StreamSink → SessionManager → Option SessionManager
  | _, [], s => some s
  | [], _ :: _, _ => none
  | env :: envs, sink :: sinks, s =>
    match s.addSink host env sink with
    | (.ok, s') => reAdd host envs sinks s'
    | _ => none

end SessionManager

namespace Handover

/-- One step.  The steady clock does not go back, and every `add_sink` succeeds. -/
def step (host : Host) (sapInterval : UInt16) (h : Handover) : HandoverStep → Option Handover
  | .event e =>
    if h.clock ≤ e.clock then
      some { h with browser := h.browser.occur sapInterval e, clock := e.clock }
    else none
  | .readStamp =>
    match h.phase with
    | .idle =>
      let lastUpdate := h.browser.lastUpdate
      if lastUpdate ≠ 0 ∧ h.lastSinkUpdate ≠ lastUpdate then
        some { h with phase := .stamped lastUpdate }
      else some h
    | _ => none
  | .readSources =>
    match h.phase with
    | .stamped lastUpdate =>
      some { h with phase := .listed lastUpdate (h.browser.getRemoteSources "all".toList) }
    | _ => none
  | .apply envs =>
    match h.phase with
    | .listed lastUpdate sources =>
      (h.manager.reAdd host envs
        (h.manager.getUpdatedSinks (sources.map RemoteEntry.toRemoteSource))).map fun s =>
          { h with manager := s, lastSinkUpdate := lastUpdate, phase := .idle }
    | _ => none

/-- What `get_updated_sinks` selects among the sources of the browser. -/
def updated (h : Handover) : List StreamSink :=
  h.manager.getUpdatedSinks ((h.browser.getRemoteSources "all".toList).map RemoteEntry.toRemoteSource)

end Handover

/-- `parse_sdp` reads the origin that `sdp_get_origin` reads, if that has a session. -/
def OriginsAgree (host : Host) (sdp : Text) : Prop :=
  (sdpGetOrigin sdp).sessionId ≠ [] → ∀ ptp base info, parseSdp host ptp sdp base = .ok info →
    info.origin = sdpGetOrigin sdp

/-- An event puts a description into the store. -/
def BrowserEvent.Stores (b : Browser) (sdp : Text) : BrowserEvent → Prop
  | .sap _ m =>
    m.isAnnounce = true ∧ b.sources.find? (sapId m.addr m.msgIdHash) = none ∧ m.sdp = sdp
  | .change _ _ _ _ sdp' => sdp' = sdp
  | _ => False

/-- The second that the next look at `last_update_` is compared with, if no look at the
sources is still to come. -/
def Handover.seen (h : Handover) : Option ℕ :=
  match h.phase with
  | .idle => some h.lastSinkUpdate
  | .stamped _ => none
  | .listed lastUpdate _ => some lastUpdate

/-- An event that stores a description comes in another second than the one that the
next `update_sinks` compares with, and the two readers agree about its origin. -/
def Handover.Timely (host : Host) (h : Handover) : HandoverStep → Prop
  | .event e => ∀ sdp, e.Stores h.browser sdp →
      h.seen ≠ some (seconds e.clock) ∧ OriginsAgree host sdp
  | _ => True

/-! ## Events -/

namespace Browser
variable {sapInterval : UInt16} {b : Browser}

/-- A description after an event was there, or the event has stored it. -/
theorem source_of_occur {e : BrowserEvent} {it' : RemoteEntry}
    (h : it' ∈ (b.occur sapInterval e).sources.entries) :
    (∃ it ∈ b.sources.entries, it.toRemoteSource = it'.toRemoteSource) ∨
      ∃ sdp, e.Stores b sdp ∧ it'.toRemoteSource = ⟨sdpGetOrigin sdp, sdp⟩ := by
  cases e with
  | sap now m =>
      simp only [occur, onSapMessage] at h
      split at h
      · rename_i hfind
        split at h
        · rename_i hann
          rcases Keyed.mem_of_mem_insert h with h | rfl
          · exact .inl ⟨it', h, rfl⟩
          · exact .inr ⟨m.sdp, ⟨hann, hfind, rfl⟩, rfl⟩
        · exact .inl ⟨it', h, rfl⟩
      · rename_i it hfind
        split at h
        · split at h
          · rcases Keyed.mem_of_mem_replace h with h | rfl
            · exact .inl ⟨it', h, rfl⟩
            · exact .inl ⟨it, (Keyed.find?_eq_some.mp hfind).1, rfl⟩
          · exact .inl ⟨it', h, rfl⟩
        · exact .inl ⟨it', (Keyed.mem_erase.mp h).1, rfl⟩
  | sweep offset now => exact .inl ⟨it', (Keyed.mem_eraseIf.mp h).1, rfl⟩
  | change now name domain address sdp =>
      simp only [occur, onChangeRtspSource] at h
      split at h
      · rcases Keyed.mem_of_mem_replace h with h | rfl
        · exact .inl ⟨it', h, rfl⟩
        · exact .inr ⟨sdp, rfl, rfl⟩
      · rcases Keyed.mem_of_mem_insert h with h | rfl
        · exact .inl ⟨it', h, rfl⟩
        · exact .inr ⟨sdp, rfl, rfl⟩
  | remove now name domain =>
      simp only [occur, onRemoveRtspSource] at h
      split at h
      · exact .inl ⟨it', (Keyed.mem_erase.mp h).1, rfl⟩
      · exact .inl ⟨it', h, rfl⟩

/-- An event enters its second into `last_update_`, or stores nothing. -/
theorem lastUpdate_occur (b : Browser) (e : BrowserEvent) :
    (b.occur sapInterval e).lastUpdate = seconds e.clock ∨
      (b.occur sapInterval e).lastUpdate = b.lastUpdate ∧ ∀ sdp, ¬ e.Stores b sdp := by
  cases e with
  | sap now m =>
      left
      simp only [occur, onSapMessage]
      split <;> split <;> try rfl
      split <;> rfl
  | sweep offset now =>
      simp only [occur, sweep]
      split
      · exact .inl rfl
      · exact .inr ⟨rfl, fun _ h => h⟩
  | change now name domain address sdp => exact .inl rfl
  | remove now name domain =>
      simp only [occur, onRemoveRtspSource]
      split
      · exact .inl rfl
      · exact .inr ⟨rfl, fun _ h => h⟩

theorem mem_getRemoteSources_all {it : RemoteEntry} :
    it ∈ b.getRemoteSources "all".toList ↔ it ∈ b.sources.entries := by
  simp [getRemoteSources]

end Browser

/-! ## The sinks -/

namespace SessionManager
variable {host : Host} {s s' : SessionManager}

theorem readded_of_reAdd {envs : List Env} {sinks : List StreamSink}
    (h : s.reAdd host envs sinks = some s') : ReAdded host s sinks s' := by
  induction sinks generalizing envs s with
  | nil =>
      obtain rfl : s = s' := by simpa only [reAdd, Option.some.injEq] using h
      exact .nil s
  | cons sink sinks ih =>
      cases envs with
      | nil => cases h
      | cons env envs =>
          rw [reAdd] at h
          split at h
          · rename_i s₁ hok
            exact .cons hok (ih h)
          · cases h

theorem sinksParsed_readded {sinks : List StreamSink} (h : ReAdded host s sinks s')
    (H : s.SinksParsed host) : s'.SinksParsed host := by
  induction h with
  | nil s => exact H
  | @cons s s₁ s' env sink sinks hok _ ih =>
      have hocc : s.occur host (.request (.addSink env sink)) = some s₁ := by
        simp [occur, step, serve, hok]
      exact ih (sinksParsed_occur H hocc)

/-- The sources the browser stores: the origin is the one of the SDP, and `parse_sdp`
reads it as well. -/
def Agreed (host : Host) (sources : List RemoteSource) : Prop :=
  ∀ r ∈ sources, r.origin = sdpGetOrigin r.sdp ∧ OriginsAgree host r.sdp

/-- Sources without a session are passed over. -/
theorem getUpdatedSinks_filter (s : SessionManager) (sources : List RemoteSource) :
    s.getUpdatedSinks (sources.filter fun r => r.origin.sessionId ≠ []) =
      s.getUpdatedSinks sources := by
  refine List.filterMap_congr fun e _ => ?_
  have hskip : ∀ best, (sources.filter fun r => r.origin.sessionId ≠ []).foldl
      (updateScan e.2.origin) best = sources.foldl (updateScan e.2.origin) best := by
    intro best
    rw [List.foldl_filter]
    refine List.foldl_ext _ _ _ fun best r _ => ?_
    by_cases hsid : r.origin.sessionId = [] <;> simp [updateScan, hsid]
  rw [hskip]

theorem readable_of_agreed {sources : List RemoteSource} (hsources : Agreed host sources) :
    ∀ r ∈ sources.filter fun r => r.origin.sessionId ≠ [], r.Readable host := by
  intro r hr
  obtain ⟨hr, hsid⟩ := List.mem_filter.mp hr
  have hsid : r.origin.sessionId ≠ [] := of_decide_eq_true hsid
  obtain ⟨horigin, hagree⟩ := hsources r hr
  exact ⟨horigin, fun h => absurd h hsid, fun _ ptp base info h => by
    rw [horigin] at hsid ⊢
    exact hagree hsid ptp base info h⟩

/-- Nothing is selected when no sink is outdated. -/
theorem getUpdatedSinks_eq_nil_iff (H : s.SinksParsed host) {sources : List RemoteSource}
    (hsources : Agreed host sources) : s.getUpdatedSinks sources = [] ↔
      ∀ id info, s.sinks.find? id = some info → ∀ r ∈ sources, r.origin.sessionId ≠ [] →
        ¬ info.Outdated r := by
  rw [← getUpdatedSinks_filter, getUpdatedSinks_eq H (readable_of_agreed hsources),
    List.filterMap_eq_nil_iff]
  simp only [Option.map_eq_none_iff, StreamInfo.latest_eq_none, List.mem_filter, decide_eq_true_eq,
    Prod.forall, SortedMap.mem_entries, and_imp]

/-- Nothing is selected among fewer sources either. -/
theorem getUpdatedSinks_mono (H : s.SinksParsed host) {sources sources' : List RemoteSource}
    (hsources : Agreed host sources) (hsub : ∀ r ∈ sources', r ∈ sources)
    (h : s.getUpdatedSinks sources = []) : s.getUpdatedSinks sources' = [] := by
  rw [getUpdatedSinks_eq_nil_iff H hsources] at h
  rw [getUpdatedSinks_eq_nil_iff H fun r hr => hsources r (hsub r hr)]
  exact fun id info hf r hr => h id info hf r (hsub r hr)

/-- After the selected sinks were added again, nothing is selected. -/
theorem getUpdatedSinks_reAdd (H : s.SinksParsed host) {sources : List RemoteSource}
    (hsources : Agreed host sources) {envs : List Env}
    (h : s.reAdd host envs (s.getUpdatedSinks sources) = some s') :
    s'.SinksParsed host ∧ s'.getUpdatedSinks sources = [] := by
  have hre := readded_of_reAdd h
  refine ⟨sinksParsed_readded hre H, ?_⟩
  rw [← getUpdatedSinks_filter] at hre ⊢
  exact getUpdatedSinks_readded H (readable_of_agreed hsources) hre

end SessionManager

/-! ## Runs -/

namespace Handover
variable {host : Host} {sapInterval : UInt16} {h h' : Handover}

/-- The sources of the browser, as the sinks are compared with them. -/
def sources (h : Handover) : List RemoteSource :=
  h.browser.sources.entries.map RemoteEntry.toRemoteSource

/-- No sink is outdated. -/
def Settled (h : Handover) : Prop := h.manager.getUpdatedSinks h.sources = []

/-- What the phases guarantee: when nothing is left to read, the sinks are settled, or
will be with what was read, or `last_update_` is later than the second that the next
look at it is compared with. -/
def InPhase (host : Host) (h : Handover) : Prop :=
  match h.phase with
  | .idle => h.lastSinkUpdate ≤ h.browser.lastUpdate ∧
      (h.Settled ∨ h.lastSinkUpdate < h.browser.lastUpdate)
  | .stamped lastUpdate => lastUpdate ≤ h.browser.lastUpdate
  | .listed lastUpdate sources => lastUpdate ≤ h.browser.lastUpdate ∧
      SessionManager.Agreed host (sources.map RemoteEntry.toRemoteSource) ∧
      ((∀ r ∈ h.sources, r ∈ sources.map RemoteEntry.toRemoteSource) ∨
        lastUpdate < h.browser.lastUpdate)

/-- What holds between two steps. -/
structure Inv (host : Host) (h : Handover) : Prop where
  parsed : h.manager.SinksParsed host
  agreed : SessionManager.Agreed host h.sources
  clock : h.browser.lastUpdate ≤ seconds h.clock
  phase : h.InPhase host

/-- The sources after an event were there, or the event has stored them. -/
theorem sources_event {e : BrowserEvent} {r : RemoteSource}
    (hr : r ∈ sources { h with browser := h.browser.occur sapInterval e, clock := e.clock }) :
    r ∈ h.sources ∨ ∃ sdp, e.Stores h.browser sdp ∧ r = ⟨sdpGetOrigin sdp, sdp⟩ := by
  obtain ⟨it', hit', rfl⟩ := List.mem_map.mp hr
  rcases Browser.source_of_occur hit' with ⟨it, hit, heq⟩ | ⟨sdp, hstores, heq⟩
  · exact .inl (heq ▸ List.mem_map_of_mem hit)
  · exact .inr ⟨sdp, hstores, heq⟩

/-- **One event**, if it is timely, keeps the invariant. -/
theorem inv_event (H : h.Inv host) {e : BrowserEvent} (ht : h.Timely host (.event e))
    (hclock : h.clock ≤ e.clock) :
    Inv host { h with browser := h.browser.occur sapInterval e, clock := e.clock } := by
  have hsec : seconds h.clock ≤ seconds e.clock := Nat.div_le_div_right hclock
  have hagreed : SessionManager.Agreed host
      (sources { h with browser := h.browser.occur sapInterval e, clock := e.clock }) := by
    intro r hr
    rcases sources_event hr with hold | ⟨sdp, hstores, rfl⟩
    · exact H.agreed r hold
    · exact ⟨rfl, (ht sdp hstores).2⟩
  have hlater : h.browser.lastUpdate ≤ (h.browser.occur sapInterval e).lastUpdate ∧
      (h.browser.occur sapInterval e).lastUpdate ≤ seconds e.clock := by
    rcases Browser.lastUpdate_occur h.browser e with heq | ⟨heq, -⟩
    · rw [heq]
      exact ⟨H.clock.trans hsec, le_refl _⟩
    · rw [heq]
      exact ⟨le_refl _, H.clock.trans hsec⟩
  -- Either nothing is stored, or the event comes in a second that was not seen.
  have hnews : (∀ r ∈ sources { h with browser := h.browser.occur sapInterval e, clock := e.clock },
        r ∈ h.sources) ∨
      h.seen ≠ some (h.browser.occur sapInterval e).lastUpdate := by
    by_cases hstores : ∃ sdp, e.Stores h.browser sdp
    · obtain ⟨sdp, hstores⟩ := hstores
      rcases Browser.lastUpdate_occur h.browser e with heq | ⟨-, hnone⟩
      · rw [heq]
        exact .inr (ht sdp hstores).1
      · exact absurd hstores (hnone sdp)
    · exact .inl fun r hr => (sources_event hr).resolve_right fun ⟨sdp, h, _⟩ => hstores ⟨sdp, h⟩
  refine ⟨H.parsed, hagreed, hlater.2, ?_⟩
  have hphase := H.phase
  simp only [InPhase] at hphase ⊢
  split at hphase
  · rename_i hidle
    rw [seen, hidle] at hnews
    obtain ⟨hle, hphase⟩ := hphase
    have hle' := hle.trans hlater.1
    refine ⟨hle', ?_⟩
    rcases hnews with hsub | hne
    · rcases hphase with hsettled | hlt
      · exact .inl (SessionManager.getUpdatedSinks_mono H.parsed H.agreed hsub hsettled)
      · exact .inr (lt_of_lt_of_le hlt hlater.1)
    · exact .inr (lt_of_le_of_ne hle' fun heq => hne (congrArg some heq))
  · exact hphase.trans hlater.1
  · rename_i hlisted
    rw [seen, hlisted] at hnews
    obtain ⟨hle, hlist, hphase⟩ := hphase
    have hle' := hle.trans hlater.1
    refine ⟨hle', hlist, ?_⟩
    rcases hnews with hsub | hne
    · rcases hphase with hin | hlt
      · exact .inl fun r hr => hin r (hsub r hr)
      · exact .inr (lt_of_lt_of_le hlt hlater.1)
    · exact .inr (lt_of_le_of_ne hle' fun heq => hne (congrArg some heq))

/-- The sources in the order of `get_remote_sources`. -/
theorem mem_sources_iff {r : RemoteSource} :
    r ∈ (h.browser.getRemoteSources "all".toList).map RemoteEntry.toRemoteSource ↔
      r ∈ h.sources := by
  simp only [sources, List.mem_map, Browser.mem_getRemoteSources_all]

/-- **One step keeps the invariant.** -/
theorem inv_step {st : HandoverStep} (H : h.Inv host) (ht : h.Timely host st)
    (hs : h.step host sapInterval st = some h') : h'.Inv host := by
  have hphase := H.phase
  cases st with
  | event e =>
      simp only [step, Option.ite_none_right_eq_some, Option.some.injEq] at hs
      obtain ⟨hclock, rfl⟩ := hs
      exact inv_event H ht hclock
  | readStamp =>
      simp only [step] at hs
      split at hs
      · split at hs
        · obtain rfl := Option.some.inj hs
          exact ⟨H.parsed, H.agreed, H.clock, le_refl h.browser.lastUpdate⟩
        · obtain rfl := Option.some.inj hs
          exact H
      · cases hs
  | readSources =>
      simp only [step] at hs
      split at hs
      · rename_i lastUpdate hidle
        obtain rfl := Option.some.inj hs
        rw [InPhase, hidle] at hphase
        refine ⟨H.parsed, H.agreed, H.clock, hphase, fun r hr => H.agreed r (mem_sources_iff.mp hr),
          .inl fun r hr => mem_sources_iff.mpr hr⟩
      · cases hs
  | apply envs =>
      simp only [step] at hs
      split at hs
      · rename_i lastUpdate list hlisted
        obtain ⟨s, hre, rfl⟩ := Option.map_eq_some_iff.mp hs
        rw [InPhase, hlisted] at hphase
        obtain ⟨hle, hlist, hphase⟩ := hphase
        obtain ⟨hparsed, hnil⟩ := SessionManager.getUpdatedSinks_reAdd H.parsed hlist hre
        refine ⟨hparsed, H.agreed, H.clock, hle, ?_⟩
        exact hphase.imp_left fun hin => SessionManager.getUpdatedSinks_mono hparsed hlist hin hnil
      · cases hs

/-- The running `update_sinks`, or the last one, has seen every event. -/
def Caught (h : Handover) : Prop :=
  match h.phase with
  | .idle => h.Settled
  | .stamped _ => True
  | .listed _ sources => ∀ r ∈ h.sources, r ∈ sources.map RemoteEntry.toRemoteSource

/-- An `update_sinks` that starts will see every event so far. -/
theorem caught_readStamp (H : h.Inv host) (hs : h.step host sapInterval .readStamp = some h') :
    h'.Caught := by
  have hphase := H.phase
  simp only [step] at hs
  split at hs
  · rename_i hidle
    rw [InPhase, hidle] at hphase
    split at hs
    · obtain rfl := Option.some.inj hs
      trivial
    · rename_i hold
      obtain rfl := Option.some.inj hs
      rw [Caught, hidle]
      exact hphase.2.resolve_right fun hlt => hold ⟨by omega, by omega⟩
  · cases hs

/-- Without events nothing gets out of sight. -/
theorem caught_step {st : HandoverStep} (H : h.Inv host) (hc : h.Caught)
    (hst : ∀ e, st ≠ .event e) (hs : h.step host sapInterval st = some h') : h'.Caught := by
  cases st with
  | event e => exact absurd rfl (hst e)
  | readStamp => exact caught_readStamp H hs
  | readSources =>
      simp only [step] at hs
      split at hs
      · obtain rfl := Option.some.inj hs
        exact fun r hr => mem_sources_iff.mpr hr
      · cases hs
  | apply envs =>
      simp only [step] at hs
      split at hs
      · rename_i lastUpdate list hlisted
        obtain ⟨s, hre, rfl⟩ := Option.map_eq_some_iff.mp hs
        have hphase := H.phase
        rw [InPhase, hlisted] at hphase
        rw [Caught, hlisted] at hc
        obtain ⟨hparsed, hnil⟩ := SessionManager.getUpdatedSinks_reAdd H.parsed hphase.2.1 hre
        exact SessionManager.getUpdatedSinks_mono hparsed hphase.2.1 hc hnil
      · cases hs

/-- **No change of the browser is missed**: in every interleaving of browser events and
executions of `update_sinks`, from every state of the session manager, in which each
event that stores a description is timely, no sink is outdated any more when events
have stopped and one more `update_sinks` has run. -/
theorem handover_settles (host : Host) (sapInterval : UInt16) (env₀ : Env) (now : ℕ)
    {es : List Event} {s : SessionManager}
    (hs : run (SessionManager.occur host) (SessionManager.start host env₀ now) es = some s)
    {before last : List HandoverStep}
    (hrun : run (step host sapInterval) { manager := s } (before ++ .readStamp :: last) = some h)
    (hlast : ∀ st ∈ last, ∀ e, st ≠ .event e) (hidle : h.phase = .idle)
    (htimely : Along (step host sapInterval) (Timely host) { manager := s }
      (before ++ .readStamp :: last)) : h.updated = [] := by
  have hparsed : s.SinksParsed host := run_keeps (P := fun _ _ => True)
    (fun _ _ _ hinv _ => SessionManager.sinksParsed_occur hinv)
    (SessionManager.sinksParsed_start env₀ now) (along_of_forall fun _ _ => trivial) hs
  have hempty : (s.getUpdatedSinks []) = [] := List.filterMap_eq_nil_iff.mpr fun _ _ => rfl
  have hstart : Inv host { manager := s } :=
    ⟨hparsed, nofun, Nat.zero_le _, Nat.le_refl 0, .inl hempty⟩
  rw [run_append] at hrun
  obtain ⟨h₁, hrun₁, hrun⟩ := Option.bind_eq_some_iff.mp hrun
  have H₁ : Inv host h₁ := run_keeps (fun _ _ _ => inv_step) hstart htimely.left hrun₁
  rw [run_cons] at hrun
  obtain ⟨h₂, hstep, hrun⟩ := Option.bind_eq_some_iff.mp hrun
  have htimely₁ : Timely host h₁ .readStamp := trivial
  have H₂ : Inv host h₂ := inv_step H₁ htimely₁ hstep
  have hcaught := run_keeps (J := fun t : Handover => t.Inv host ∧ t.Caught)
    (P := fun _ st => ∀ e, st ≠ HandoverStep.event e) (fun t st t' ⟨H, hc⟩ hst ht =>
      ⟨inv_step H (by cases st <;> first | exact absurd rfl (hst _) | trivial) ht,
        caught_step H hc hst ht⟩)
    ⟨H₂, caught_readStamp H₁ hstep⟩ (along_of_forall hlast) hrun
  obtain ⟨H, hc⟩ := hcaught
  rw [Caught, hidle] at hc
  exact SessionManager.getUpdatedSinks_mono H.parsed H.agreed (fun r hr => mem_sources_iff.mp hr) hc

/-- A session manager with a sink that listens to the first version of a stream. -/
def listener : Option SessionManager :=
  run (SessionManager.occur {}) (SessionManager.start {} {} 0)
    [.request (.addSink (.answering none (.ok 7) (.error (.driver 1)))
      (stereoSink 1 "a".toList (SessionManager.versionSdp "1".toList)))]

/-- The announcement of the second version. -/
def secondVersion (now : ℕ) : HandoverStep :=
  .event (.sap now { isAnnounce := true, msgIdHash := 1, addr := 1
                     sdp := SessionManager.versionSdp "2".toList })

/-- `update_sinks`, without events in between. -/
def updateSteps (envs : List Env) : List HandoverStep := [.readStamp, .readSources, .apply envs]

/-- The sink follows an announcement in the first second. -/
theorem handover_settles_version : ∃ s h, listener = some s ∧
    run (step {} 300) { manager := s } (secondVersion 1500000000 ::
      updateSteps [.answering none (.ok 8) (.error (.driver 1))]) = some h ∧ h.updated = [] := by
  have hrun : (listener.bind fun s => (run (step {} 300) { manager := s }
      (secondVersion 1500000000 :: updateSteps [.answering none (.ok 8) (.error (.driver 1))])).map
        fun h => h.phase) = some .idle := by decide +kernel
  obtain ⟨s, hs, hrun⟩ := Option.bind_eq_some_iff.mp hrun
  obtain ⟨h, hh, hidle⟩ := Option.map_eq_some_iff.mp hrun
  have hsplit : run (step {} 300) { manager := s } ([secondVersion 1500000000] ++ .readStamp ::
      [.readSources, .apply [.answering none (.ok 8) (.error (.driver 1))]]) = some h := hh
  refine ⟨s, h, hs, hh, handover_settles {} 300 {} 0 hs hsplit (by simp) hidle ?_⟩
  refine ⟨fun sdp hstores => ⟨?_, ?_⟩, fun _ _ => ⟨trivial, fun _ _ => ⟨trivial, fun _ _ =>
    ⟨trivial, fun _ _ => trivial⟩⟩⟩⟩
  · change some 0 ≠ some (seconds 1500000000)
    decide
  · obtain ⟨-, -, rfl⟩ := hstores
    exact SessionManager.announced_versionSdp.readable {} |>.agrees

/-- An announcement in the same second as the one before the last `update_sinks`: the
next `update_sinks` does not look at it. -/
theorem handover_missed : ∃ s h, listener = some s ∧
    run (step {} 300) { manager := s }
      (.event (.sap 1100000000 ⟨true, 2, 2, []⟩) :: updateSteps [] ++
        [secondVersion 1500000000, .readStamp]) = some h ∧ h.phase = .idle ∧ h.updated ≠ [] := by
  have hrun : (listener.bind fun s => (run (step {} 300) { manager := s }
      (.event (.sap 1100000000 ⟨true, 2, 2, []⟩) :: updateSteps [] ++
        [secondVersion 1500000000, .readStamp])).map fun h =>
          (decide (h.phase = .idle), decide (h.updated = []))) = some (true, false) := by
    decide +kernel
  obtain ⟨s, hs, hrun⟩ := Option.bind_eq_some_iff.mp hrun
  obtain ⟨h, hh, hend⟩ := Option.map_eq_some_iff.mp hrun
  obtain ⟨hidle, hupdated⟩ := Prod.mk.inj hend
  exact ⟨s, h, hs, hh, of_decide_eq_true hidle, of_decide_eq_false hupdated⟩

end Handover
end Aes67Daemon
