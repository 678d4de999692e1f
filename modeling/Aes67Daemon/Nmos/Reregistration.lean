import Aes67Daemon.Nmos.Activation

/-!
# Registration a second time

`full_registration` runs whenever a registry is found and registers every stream
again.  The local registration of a stream writes both halves of its resources from
what the session manager says, and takes the active sender of a receiver from a
side map that a registration empties.

## Main definitions

* `NmosManager.Undisturbed` — the staged and active halves are as before.
* `NmosManager.UpToDate` — they already say what a registration writes.
-/
namespace Aes67Daemon

open Text

/-- Both halves of the resources of a sender. -/
def SenderResources.halves (sr : SenderResources) : Endpoint SenderTp × Endpoint SenderTp :=
  (sr.staged, sr.active)

/-- Both halves of the resources of a receiver. -/
def ReceiverResources.halves (rr : ReceiverResources) : Endpoint ReceiverTp × Endpoint ReceiverTp :=
  (rr.staged, rr.active)

namespace NmosManager
variable {h : NmosHost} {e : NmosEnv} {s s' : NmosManager} {id : UInt8}

/-- The staged and the active half of every sender and receiver are as before. -/
structure Undisturbed (s s' : NmosManager) : Prop where
  senders : ∀ id sr, s.senders.find? id = some sr →
    (s'.senders.find? id).map SenderResources.halves = some sr.halves
  receivers : ∀ id rr, s.receivers.find? id = some rr →
    (s'.receivers.find? id).map ReceiverResources.halves = some rr.halves

/-- Both halves of every sender say what its source says now, and both halves of every
receiver what its sink says, with the active sender the side map has, or none. -/
structure UpToDate (h : NmosHost) (e : NmosEnv) (s : NmosManager) : Prop where
  senders : ∀ id sr src, s.senders.find? id = some sr → s.sm.getSource id = some src →
    ∀ ep ∈ [sr.staged, sr.active], ep.masterEnable = src.enabled ∧ ep.tp = s.senderTp h e src
  receivers : ∀ id rr sink, s.receivers.find? id = some rr → s.sm.getSink id = some sink →
    (∀ ep ∈ [rr.staged, rr.active], ep.masterEnable = sink.connected ∧ ep.tp = s.sinkTp h sink) ∧
      rr.active.peerId = (s.preservedActiveSenderIds.find? id).getD []

/-- The senders and the receivers are those of the stored streams. -/
def Mirrors (s : NmosManager) : Prop :=
  s.senders.entries.map Prod.fst = s.sm.sources.entries.map Prod.fst ∧
    s.receivers.entries.map Prod.fst = s.sm.sinks.entries.map Prod.fst

instance (s : NmosManager) : Decidable s.Mirrors := instDecidableAnd

/-! ## What a registration does to one stream -/

/-- Nothing a registration reads of the session manager changes. -/
def SameInputs (s₀ s : NmosManager) : Prop :=
  s.sm = s₀.sm ∧ s.secInterfaceIpStr = s₀.secInterfaceIpStr

theorem sameInputs_registerSourceLocal {s₀ : NmosManager} (H : SameInputs s₀ s) (id : UInt8) :
    SameInputs s₀ (s.registerSourceLocal h e id) := by
  rw [registerSourceLocal]
  split
  · exact H
  · exact H

theorem sameInputs_registerSinkLocal {s₀ : NmosManager} (H : SameInputs s₀ s) (id : UInt8) :
    SameInputs s₀ (s.registerSinkLocal h e id) := by
  rw [registerSinkLocal]
  split
  · exact H
  · exact H

theorem senderTp_congr (H : SameInputs s s') (src : StreamSource) : s'.senderTp h e src = s.senderTp h e src := by
  rw [senderTp, senderTp, sourceSdp, sourceSdp, H.1, H.2]

theorem sinkTp_congr (H : SameInputs s s') (sink : StreamSink) : s'.sinkTp h sink = s.sinkTp h sink := by
  rw [sinkTp, sinkTp, receiverTp, receiverTp, H.2]

/-- The halves of a sender after its registration. -/
def senderWritten (h : NmosHost) (e : NmosEnv) (s : NmosManager) (src : StreamSource)
    (halves : Endpoint SenderTp × Endpoint SenderTp) : Endpoint SenderTp × Endpoint SenderTp :=
  ({ halves.1 with masterEnable := src.enabled, tp := s.senderTp h e src },
    { halves.2 with masterEnable := src.enabled, tp := s.senderTp h e src })

/-- The halves of a receiver after its registration. -/
def receiverWritten (h : NmosHost) (s : NmosManager) (sink : StreamSink) (preserved : Option Text)
    (halves : Endpoint ReceiverTp × Endpoint ReceiverTp) : Endpoint ReceiverTp × Endpoint ReceiverTp :=
  ({ halves.1 with masterEnable := sink.connected, tp := s.sinkTp h sink },
    { halves.2 with masterEnable := sink.connected, peerId := preserved.getD [], tp := s.sinkTp h sink })

/-- What there is of a sender. -/
def senderView (id : UInt8) (s : NmosManager) : Option (Endpoint SenderTp × Endpoint SenderTp) :=
  (s.senders.find? id).map SenderResources.halves

/-- What there is of a receiver, and its entry in the side map. -/
def receiverView (id : UInt8) (s : NmosManager) :
    Option (Endpoint ReceiverTp × Endpoint ReceiverTp) × Option Text :=
  ((s.receivers.find? id).map ReceiverResources.halves, s.preservedActiveSenderIds.find? id)

theorem senderView_registerSourceLocal {s₀ : NmosManager} (H : SameInputs s₀ s) {src : StreamSource}
    (hsrc : s₀.sm.getSource id = some src) : (s.registerSourceLocal h e id).senderView id =
      some (senderWritten h e s₀ src ((s.senderView id).getD (SenderResources.halves {}))) := by
  have htp := senderTp_congr (h := h) (e := e) H src
  rw [registerSourceLocal, H.1, hsrc]
  simp only [senderView, writeSender, rebuildDeviceJson, SortedMap.find?_insert_self, Option.map_some,
    SenderResources.halves, senderWritten, htp]
  cases s.senders.find? id <;> rfl

theorem senderView_registerSourceLocal_of_ne {id' : UInt8} (hne : id' ≠ id) :
    (s.registerSourceLocal h e id').senderView id = s.senderView id := by
  rw [registerSourceLocal]
  split
  · simp only [senderView, writeSender, rebuildDeviceJson, SortedMap.find?_insert_of_ne _ _ (Ne.symm hne)]
  · rfl

theorem receiverView_registerSourceLocal (id' : UInt8) :
    (s.registerSourceLocal h e id').receiverView id = s.receiverView id := by
  rw [registerSourceLocal]
  split <;> rfl

theorem receiverView_registerSinkLocal {s₀ : NmosManager} (H : SameInputs s₀ s) {sink : StreamSink}
    (hsink : s₀.sm.getSink id = some sink) : (s.registerSinkLocal h e id).receiverView id =
      (some (receiverWritten h s₀ sink (s.receiverView id).2
        ((s.receiverView id).1.getD (ReceiverResources.halves {}))), none) := by
  have htp := sinkTp_congr (h := h) H sink
  rw [registerSinkLocal, H.1, hsink]
  simp only [receiverView, writeReceiver, rebuildDeviceJson, SortedMap.find?_insert_self,
    SortedMap.find?_erase_self, Option.map_some, ReceiverResources.halves, receiverWritten, htp]
  cases s.receivers.find? id <;> rfl

theorem receiverView_registerSinkLocal_of_ne {id' : UInt8} (hne : id' ≠ id) :
    (s.registerSinkLocal h e id').receiverView id = s.receiverView id := by
  rw [registerSinkLocal]
  split
  · simp only [receiverView, writeReceiver, rebuildDeviceJson,
      SortedMap.find?_insert_of_ne _ _ (Ne.symm hne), SortedMap.find?_erase_of_ne _ (Ne.symm hne)]
  · rfl

theorem senderView_registerSinkLocal (id' : UInt8) :
    (s.registerSinkLocal h e id').senderView id = s.senderView id := by
  rw [registerSinkLocal]
  split <;> rfl

/-! ## The full registration -/

theorem mem_sourceIds : id ∈ s.sm.getSources.map StreamSource.id ↔ ∃ src, s.sm.getSource id = some src := by
  simp [SessionManager.getSources, SessionManager.getSource, SessionManager.getSource_, SortedMap.mem_entries]

theorem mem_sinkIds : id ∈ s.sm.getSinks.map StreamSink.id ↔ ∃ sink, s.sm.getSink id = some sink := by
  simp [SessionManager.getSinks, SessionManager.getSink, SessionManager.getSink_, SortedMap.mem_entries]

theorem getSource_eq_none (hid : id ∉ s.sm.getSources.map StreamSource.id) : s.sm.getSource id = none := by
  cases hsrc : s.sm.getSource id with
  | none => rfl
  | some src => exact absurd (mem_sourceIds.mpr ⟨src, hsrc⟩) hid

theorem getSink_eq_none (hid : id ∉ s.sm.getSinks.map StreamSink.id) : s.sm.getSink id = none := by
  cases hsink : s.sm.getSink id with
  | none => rfl
  | some sink => exact absurd (mem_sinkIds.mpr ⟨sink, hsink⟩) hid

/-- The state between the sources and the sinks. -/
def sourcesRegistered (h : NmosHost) (e : NmosEnv) (s : NmosManager) : NmosManager :=
  (s.sm.getSources.map StreamSource.id).foldl (registerSourceLocal h e) s

theorem sameInputs_sourcesRegistered : SameInputs s (s.sourcesRegistered h e) :=
  foldl_keeps (J := SameInputs s) (fun _ id H => sameInputs_registerSourceLocal H id) ⟨rfl, rfl⟩ _

/-- The state between the sinks and the registry. -/
def sinksRegistered (h : NmosHost) (e : NmosEnv) (s : NmosManager) : NmosManager :=
  (s.sm.getSinks.map StreamSink.id).foldl (registerSinkLocal h e) (s.sourcesRegistered h e)

theorem fullRegistration_eq : s.fullRegistration h e =
    ((s.sinksRegistered h e).docs h e).foldl (fun s doc => s.registerResource doc)
      (s.sinksRegistered h e) := by
  have hsm : (s.sourcesRegistered h e).sm = s.sm := sameInputs_sourcesRegistered.1
  rw [sinksRegistered, ← hsm]
  rfl

/-- The registry is not looked at. -/
theorem view_fullRegistration {β : Type} {v : NmosManager → β}
    (hv : ∀ s doc, v (registerResource doc s) = v s) :
    v (s.fullRegistration h e) = v (s.sinksRegistered h e) := by
  rw [fullRegistration_eq]
  exact foldl_view (J := fun _ => True) (fun _ _ _ => trivial) (fun s doc _ _ => hv s doc) trivial

/-- What `full_registration` makes of a sender. -/
theorem senderView_fullRegistration (id : UInt8) : (s.fullRegistration h e).senderView id =
    match s.sm.getSource id with
    | some src => some (senderWritten h e s src ((s.senderView id).getD (SenderResources.halves {})))
    | none => s.senderView id := by
  have hsources : (s.sourcesRegistered h e).senderView id =
      match s.sm.getSource id with
      | some src => some (senderWritten h e s src ((s.senderView id).getD (SenderResources.halves {})))
      | none => s.senderView id := by
    by_cases hid : id ∈ s.sm.getSources.map StreamSource.id
    · obtain ⟨src, hsrc⟩ := mem_sourceIds.mp hid
      rw [hsrc]
      exact foldl_once (J := SameInputs s) (v := senderView id)
        (g := fun v => some (senderWritten h e s src (v.getD (SenderResources.halves {}))))
        (fun _ id H => sameInputs_registerSourceLocal H id)
        (fun _ _ _ hne => senderView_registerSourceLocal_of_ne hne)
        (fun _ H => senderView_registerSourceLocal H hsrc) ⟨rfl, rfl⟩ s.sm.nodup_getSources hid
    · rw [getSource_eq_none hid]
      refine foldl_view (J := fun _ => True) (v := senderView id) (fun _ _ _ => trivial) (fun s' a ha _ => ?_) trivial
      refine senderView_registerSourceLocal_of_ne ?_
      rintro rfl
      exact hid ha
  rw [view_fullRegistration (v := senderView id) fun _ _ => rfl, ← hsources]
  exact foldl_view (J := fun _ => True) (v := senderView id) (fun _ _ _ => trivial)
    (fun _ a _ _ => senderView_registerSinkLocal a) trivial

/-- What `full_registration` makes of a receiver. -/
theorem receiverView_fullRegistration (id : UInt8) : (s.fullRegistration h e).receiverView id =
    match s.sm.getSink id with
    | some sink => (some (receiverWritten h s sink (s.receiverView id).2
        ((s.receiverView id).1.getD (ReceiverResources.halves {}))), none)
    | none => s.receiverView id := by
  have hsources : (s.sourcesRegistered h e).receiverView id = s.receiverView id :=
    foldl_view (J := fun _ => True) (v := receiverView id) (fun _ _ _ => trivial)
      (fun _ a _ _ => receiverView_registerSourceLocal a) trivial
  rw [view_fullRegistration (v := receiverView id) fun _ _ => rfl, ← hsources]
  by_cases hid : id ∈ s.sm.getSinks.map StreamSink.id
  · obtain ⟨sink, hsink⟩ := mem_sinkIds.mp hid
    rw [hsink]
    exact foldl_once (J := SameInputs s) (v := receiverView id)
      (g := fun v => (some (receiverWritten h s sink v.2 (v.1.getD (ReceiverResources.halves {}))), none))
      (fun _ id H => sameInputs_registerSinkLocal H id)
      (fun _ _ _ hne => receiverView_registerSinkLocal_of_ne hne)
      (fun _ H => receiverView_registerSinkLocal H hsink) sameInputs_sourcesRegistered s.sm.nodup_getSinks hid
  · rw [getSink_eq_none hid]
    refine foldl_view (J := fun _ => True) (v := receiverView id) (fun _ _ _ => trivial) (fun s' a ha _ => ?_) trivial
    refine receiverView_registerSinkLocal_of_ne ?_
    rintro rfl
    exact hid ha

/-- A half that a registration writes is as before exactly if it says what is written. -/
theorem endpoint_rewritten_iff {τ : Type} {ep : Endpoint τ} {b : Bool} {tp : List τ} :
    ({ ep with masterEnable := b, tp := tp } : Endpoint τ) = ep ↔ ep.masterEnable = b ∧ ep.tp = tp := by
  cases ep
  simp [eq_comm]

/-- The same for the active half of a receiver. -/
theorem endpoint_reconnected_iff {τ : Type} {ep : Endpoint τ} {b : Bool} {peer : Text} {tp : List τ} :
    ({ ep with masterEnable := b, peerId := peer, tp := tp } : Endpoint τ) = ep ↔
      (ep.masterEnable = b ∧ ep.tp = tp) ∧ ep.peerId = peer := by
  cases ep
  simp [eq_comm, and_comm, and_assoc]

/-- **Registering everything again leaves the halves alone exactly if they already say what the
streams do**, the active senders among them. -/
theorem registration_undisturbed (h : NmosHost) (e : NmosEnv) (s : NmosManager) :
    Undisturbed s (s.fullRegistration h e) ↔ s.UpToDate h e := by
  have hsenders : ∀ id sr, s.senders.find? id = some sr →
      (((s.fullRegistration h e).senders.find? id).map SenderResources.halves = some sr.halves ↔
        ∀ src, s.sm.getSource id = some src →
          ∀ ep ∈ [sr.staged, sr.active], ep.masterEnable = src.enabled ∧ ep.tp = s.senderTp h e src) := by
    intro id sr hsr
    have hview : s.senderView id = some sr.halves := by rw [senderView, hsr]; rfl
    change (s.fullRegistration h e).senderView id = some sr.halves ↔ _
    rw [senderView_fullRegistration, hview]
    cases hsrc : s.sm.getSource id with
    | none => simp
    | some src =>
        simp only [Option.getD_some, senderWritten, SenderResources.halves, Option.some.injEq, Prod.mk.injEq,
          endpoint_rewritten_iff, List.forall_mem_cons, List.not_mem_nil, forall_eq', false_imp_iff,
          implies_true, and_true]
  have hreceivers : ∀ id rr, s.receivers.find? id = some rr →
      (((s.fullRegistration h e).receivers.find? id).map ReceiverResources.halves = some rr.halves ↔
        ∀ sink, s.sm.getSink id = some sink →
          (∀ ep ∈ [rr.staged, rr.active], ep.masterEnable = sink.connected ∧ ep.tp = s.sinkTp h sink) ∧
            rr.active.peerId = (s.preservedActiveSenderIds.find? id).getD []) := by
    intro id rr hrr
    have hview : s.receiverView id = (some rr.halves, s.preservedActiveSenderIds.find? id) := by
      rw [receiverView, hrr]; rfl
    change ((s.fullRegistration h e).receiverView id).1 = some rr.halves ↔ _
    rw [receiverView_fullRegistration, hview]
    cases hsink : s.sm.getSink id with
    | none => simp
    | some sink =>
        simp only [Option.getD_some, receiverWritten, ReceiverResources.halves, Option.some.injEq,
          Prod.mk.injEq, List.forall_mem_cons, List.not_mem_nil, forall_eq',
          endpoint_reconnected_iff, false_imp_iff, implies_true, and_true, and_assoc]
  constructor
  · intro H
    exact ⟨fun id sr src hsr hsrc => (hsenders id sr hsr).mp (H.senders id sr hsr) src hsrc,
      fun id rr sink hrr hsink => (hreceivers id rr hrr).mp (H.receivers id rr hrr) sink hsink⟩
  · intro H
    exact ⟨fun id sr hsr => (hsenders id sr hsr).mpr fun src => H.senders id sr src hsr,
      fun id rr hrr => (hreceivers id rr hrr).mpr fun sink => H.receivers id rr sink hrr⟩

/-- A receiver with an active sender has none after `full_registration`. -/
theorem registration_disturbs : ∃ σ : System, σ.Reachable {} ∧ (∀ t, σ.threads.ops t = []) ∧
    σ.nmos.pendingEvents = [] ∧ σ.nmos.Mirrors ∧ ¬ Undisturbed σ.nmos (σ.nmos.fullRegistration {} {}) := by
  obtain ⟨σ, hσ, hdone⟩ := Option.map_eq_some_iff.mp (show (sampleRun {}
    (soleSink (SessionManager.versionSdp "1".toList)).1
      ((soleSink (SessionManager.versionSdp "1".toList)).2 ++ connection "s".toList ++ handling)).map (fun σ =>
      decide (((σ.threads.ops 0).isEmpty ∧ (σ.threads.ops 1).isEmpty) ∧ σ.nmos.pendingEvents.isEmpty ∧
        σ.nmos.Mirrors ∧ (σ.nmos.receivers.find? 1).map (fun rr => rr.active.peerId) = some "s".toList ∧
        ((σ.nmos.fullRegistration {} {}).receivers.find? 1).map (fun rr => rr.active.peerId) = some [])) =
          some true by decide +kernel)
  obtain ⟨⟨hidle0, hidle1⟩, hqueue, hmirrors, hbefore, hafter⟩ := of_decide_eq_true hdone
  obtain ⟨hreach, hquiet⟩ := quiet_sampleRun (n := 2) (by omega) (by decide) hσ
  refine ⟨σ, hreach, hquiet.idle hidle0 hidle1, List.isEmpty_iff.mp hqueue, hmirrors, ?_⟩
  intro H
  obtain ⟨rr, hrr, hpeer⟩ := Option.map_eq_some_iff.mp hbefore
  obtain ⟨rr', hrr', hhalves⟩ := Option.map_eq_some_iff.mp (H.receivers 1 rr hrr)
  have hactive : rr'.active = rr.active := congrArg Prod.snd hhalves
  rw [hrr', Option.map_some, hactive, hpeer] at hafter
  cases hafter

end NmosManager
end Aes67Daemon
