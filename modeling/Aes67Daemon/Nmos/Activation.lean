import Aes67Daemon.Nmos.System
import Aes67Daemon.Session.SinkUpdate

/-!
# What an activation does

An activation copies the staged half of a sender or a receiver to the active half.
That the stream behind it follows is another matter: `apply_sender_activation`
does not call the session manager except to read, and
`apply_receiver_activation` does not look at what `add_sink` returns.

## Main definitions

* `NmosManager.ConnectedTo`, `ActiveKept` — how a connection may end.
* `NmosManager.ConnectionTaken` — when it does end so.
* `NmosManager.Disconnected` — what a disconnection should lead to.
* `NmosManager.SenderAgrees` — `/active`, `/transportfile` and the source agree.
-/
namespace Aes67Daemon

open Text SessionManager

namespace NmosManager
variable {h : NmosHost} {e : NmosEnv} {s : NmosManager} {id : UInt8}

/-! ## What the steps leave alone -/

@[simp] theorem sm_promoteReceiver (a : ReceiverActivation) :
    (s.promoteReceiver id a).sm = s.sm := rfl

@[simp] theorem sm_storeSink (sink : StreamSink) : (s.storeSink id sink).sm = s.sm := rfl

@[simp] theorem sm_addSink (sink : StreamSink) :
    (s.addSink h e sink).sm = (s.sm.addSink h.host e.env sink).2 := rfl

@[simp] theorem receivers_addSink (sink : StreamSink) :
    (s.addSink h e sink).receivers = s.receivers := rfl

@[simp] theorem preserved_addSink (sink : StreamSink) :
    (s.addSink h e sink).preservedActiveSenderIds = s.preservedActiveSenderIds := rfl

@[simp] theorem preserved_storeSink (sink : StreamSink) :
    (s.storeSink id sink).preservedActiveSenderIds = s.preservedActiveSenderIds := rfl

/-- The active half of a receiver. -/
def receiverActive? (s : NmosManager) (id : UInt8) : Option (Endpoint ReceiverTp) :=
  (s.receivers.find? id).map ReceiverResources.active

@[simp] theorem receiverActive?_storeSink (sink : StreamSink) (id' : UInt8) :
    (s.storeSink id sink).receiverActive? id' = s.receiverActive? id' := by
  simp only [receiverActive?, storeSink, SortedMap.find?_modify]
  split
  · rename_i hid
    rw [hid, Option.map_map]
    rfl
  · rfl

/-- The state after `promoteReceiver` and the call of `add_sink`. -/
def reAdded (h : NmosHost) (e : NmosEnv) (id : UInt8) (a : ReceiverActivation) (sdp : Text)
    (s : NmosManager) : NmosManager :=
  if a.changesSink sdp then
    match s.sm.getSink id with
    | some sink => (s.promoteReceiver id a).addSink h e (a.target sdp sink)
    | none => s.promoteReceiver id a
  else s.promoteReceiver id a

/-- Keeping the sink up to date changes neither the session manager nor the active half. -/
theorem enactReceiver_eq (h : NmosHost) (e : NmosEnv) (s : NmosManager) (id : UInt8)
    (a : ReceiverActivation) (sdp : Text) :
    (s.enactReceiver h e id a sdp).sm = (s.reAdded h e id a sdp).sm ∧
      (s.enactReceiver h e id a sdp).receiverActive? id = (s.promoteReceiver id a).receiverActive? id ∧
      (s.enactReceiver h e id a sdp).preservedActiveSenderIds =
        (s.promoteReceiver id a).preservedActiveSenderIds := by
  have hstore : ∀ t : NmosManager,
      (match t.sm.getSink id with | some sink => t.storeSink id sink | none => t).sm = t.sm ∧
      (match t.sm.getSink id with | some sink => t.storeSink id sink | none => t).receiverActive? id =
        t.receiverActive? id ∧
      (match t.sm.getSink id with | some sink => t.storeSink id sink | none => t).preservedActiveSenderIds =
        t.preservedActiveSenderIds := by
    intro t
    cases t.sm.getSink id with
    | none => exact ⟨rfl, rfl, rfl⟩
    | some sink => exact ⟨rfl, receiverActive?_storeSink sink id, rfl⟩
  obtain ⟨hsm, hactive, hpres⟩ := hstore (s.reAdded h e id a sdp)
  have hre : (s.reAdded h e id a sdp).receiverActive? id = (s.promoteReceiver id a).receiverActive? id ∧
      (s.reAdded h e id a sdp).preservedActiveSenderIds =
        (s.promoteReceiver id a).preservedActiveSenderIds := by
    rw [reAdded]
    split
    · split <;> exact ⟨rfl, rfl⟩
    · exact ⟨rfl, rfl⟩
  exact ⟨hsm, hactive.trans hre.1, hpres.trans hre.2⟩

/-! ## Connections -/

/-- The receiver has a sender, and the sink has an SDP. -/
def ConnectedTo (senderId sdp : Text) (id : UInt8) (s : NmosManager) : Prop :=
  (s.receiverActive? id).map Endpoint.peerId = some senderId ∧
    (s.sm.getSink id).map StreamSink.sdp = some sdp

/-- The active half of a receiver, the preserved senders and the sink are as before. -/
def ActiveKept (id : UInt8) (s s' : NmosManager) : Prop :=
  s'.receiverActive? id = s.receiverActive? id ∧
    s'.preservedActiveSenderIds = s.preservedActiveSenderIds ∧
    s'.sm.sinks.find? id = s.sm.sinks.find? id

/-- The receiver is as the promotion would leave it. -/
def AlreadyPromoted (id : UInt8) (a : ReceiverActivation) (s : NmosManager) : Prop :=
  s.receiverActive? id = (s.receivers.find? id).map (fun rr => (rr.promoted a).active) ∧
    s.preservedActiveSenderIds.find? id = some a.activeSenderId

/-- When a connection ends as it should: there is no SDP, or none of an audio stream,
or the session manager takes the SDP, or nothing would change. -/
def ConnectionTaken (h : NmosHost) (e : NmosEnv) (id : UInt8) (a : ReceiverActivation) (sdp : Text)
    (s : NmosManager) : Prop :=
  sdp = [] ∨ (seek "m=audio".toList sdp).isNone ∨
    match s.sm.getSink id with
    | none => s.AlreadyPromoted id a
    | some sink =>
      (∃ info, (Request.addSink e.env (a.target sdp sink)).Registers h.host s.sm info) ∨
        (Request.addSink e.env (a.target sdp sink)).prepared h.host s.sm = none ∧
          (sink.sdp = sdp ∨ s.AlreadyPromoted id a)

instance (senderId sdp : Text) (id : UInt8) (s : NmosManager) :
    Decidable (ConnectedTo senderId sdp id s) := instDecidableAnd

instance (id : UInt8) (s s' : NmosManager) : Decidable (ActiveKept id s s') := instDecidableAnd

theorem receiverActive?_promoteReceiver (a : ReceiverActivation) :
    (s.promoteReceiver id a).receiverActive? id =
      (s.receivers.find? id).map (fun rr => (rr.promoted a).active) := by
  rw [receiverActive?, promoteReceiver, SortedMap.find?_modify_self, Option.map_map]
  rfl

theorem activeKept_enactReceiver {rr : ReceiverResources} (hrr : s.receivers.find? id = some rr)
    (a : ReceiverActivation) (sdp : Text) :
    ActiveKept id s (s.enactReceiver h e id a sdp) ↔ s.AlreadyPromoted id a ∧
      (s.reAdded h e id a sdp).sm.sinks.find? id = s.sm.sinks.find? id := by
  have hid : s.receivers.contains id = true := SortedMap.contains_eq_true.mpr ⟨rr, hrr⟩
  obtain ⟨hsm, hactive, hpres⟩ := enactReceiver_eq h e s id a sdp
  have hins : s.preservedActiveSenderIds.insert id a.activeSenderId = s.preservedActiveSenderIds ↔
      s.preservedActiveSenderIds.find? id = some a.activeSenderId := by
    constructor
    · intro heq
      rw [← heq, SortedMap.find?_insert_self]
    · exact SortedMap.insert_of_find?_some
  rw [ActiveKept, AlreadyPromoted, hsm, hactive, hpres, receiverActive?_promoteReceiver, and_assoc,
    ← hins, promoteReceiver, if_pos hid, eq_comm]

theorem connectedTo_enactReceiver {rr : ReceiverResources} (hrr : s.receivers.find? id = some rr)
    (a : ReceiverActivation) (sdp : Text) :
    (s.enactReceiver h e id a sdp).ConnectedTo a.activeSenderId sdp id ↔
      ((s.reAdded h e id a sdp).sm.getSink id).map StreamSink.sdp = some sdp := by
  obtain ⟨hsm, hactive, -⟩ := enactReceiver_eq h e s id a sdp
  rw [ConnectedTo, hsm, hactive, receiverActive?_promoteReceiver, hrr]
  exact and_iff_right rfl

/-- The sink an activation adds again is the one with its number. -/
theorem target_id (a : ReceiverActivation) (sdp : Text) (sink : StreamSink) :
    (a.target sdp sink).id = sink.id := by
  rw [ReceiverActivation.target]
  split <;> rfl

/-- **When a connection is what the receiver says**: after an activation with a sender the
receiver has that sender and the sink its SDP, or everything is as before, exactly
if the session manager takes the SDP or is not asked. -/
theorem receiver_connection (h : NmosHost) (e : NmosEnv) (s : NmosManager) (id : UInt8)
    (rr : ReceiverResources) (hrr : s.receivers.find? id = some rr)
    (henable : rr.staged.masterEnable = true) (hsender : rr.staged.peerId ≠ []) :
    (s.applyReceiverActivation h e id).ConnectedTo rr.staged.peerId
          (s.resolveSdp h e rr.staged.peerId) id ∨
        ActiveKept id s (s.applyReceiverActivation h e id) ↔
      s.ConnectionTaken h e id
        (rr.snapshot.withTp (s.receiverTp h (s.resolveSdp h e rr.staged.peerId)))
        (s.resolveSdp h e rr.staged.peerId) := by
  have hconnects : rr.snapshot.connects = true := by
    simp [ReceiverActivation.connects, ReceiverResources.snapshot, henable, hsender]
  have hkept : ActiveKept id s s := ⟨rfl, rfl, rfl⟩
  rw [applyReceiverActivation, hrr]
  simp only [hconnects, if_true, show rr.snapshot.senderId = rr.staged.peerId from rfl]
  generalize s.resolveSdp h e rr.staged.peerId = sdp
  by_cases hempty : sdp = []
  · rw [if_pos hempty]
    exact iff_of_true (.inr hkept) (.inl hempty)
  by_cases haudio : (seek "m=audio".toList sdp).isNone
  · rw [if_neg hempty, if_pos haudio]
    exact iff_of_true (.inr hkept) (.inr (.inl haudio))
  rw [if_neg hempty, if_neg haudio]
  generalize ha : rr.snapshot.withTp (s.receiverTp h sdp) = a
  have hactive : a.activeSenderId = rr.staged.peerId := by
    rw [← ha, ReceiverActivation.activeSenderId]
    exact if_pos henable
  have hmaster : a.masterEnable = true := by
    rw [← ha]
    exact henable
  have hchanges : a.changesSink sdp = true := by simp [ReceiverActivation.changesSink, hmaster, hempty]
  rw [← hactive, connectedTo_enactReceiver hrr, activeKept_enactReceiver hrr, reAdded, if_pos hchanges]
  simp only [ConnectionTaken, hempty, haudio, false_or, Bool.false_eq_true]
  cases hsink : s.sm.getSink id with
  | none => simp [hsink]
  | some sink =>
      obtain ⟨old, hold, rfl⟩ := Option.map_eq_some_iff.mp hsink
      have htarget : a.target sdp (getSink_ id old) =
          { getSink_ id old with useSdp := true, sdp := sdp, source := [] } := if_pos hmaster
      simp only [sm_addSink, sm_promoteReceiver, htarget]
      generalize hnew : ({ getSink_ id old with useSdp := true, sdp := sdp, source := [] } : StreamSink) = new
      have hid : new.id = id := by rw [← hnew]; rfl
      have hsdp : new.sdp = sdp := by rw [← hnew]
      have hold' : s.sm.sinks.find? new.id = some old := by rw [hid]; exact hold
      cases hprep : (Request.addSink e.env new).prepared h.host s.sm with
      | none =>
          have hreg : ¬ ∃ info, (Request.addSink e.env new).Registers h.host s.sm info := by
            rintro ⟨info, hreg⟩
            exact absurd (hprep.symm.trans hreg.prepared) (by simp)
          simp [addSink_unprepared hprep, hsink, hreg]
      | some info =>
          by_cases hok : (s.sm.addSink h.host e.env new).1 = .ok
          · have hadd : s.sm.addSink h.host e.env new = (.ok, (s.sm.addSink h.host e.env new).2) :=
              Prod.ext hok rfl
            obtain ⟨⟨stored, hstored, hsdp'⟩, -⟩ := find?_addSink_ok (by rw [← hnew]) hadd
            rw [hid] at hstored
            refine iff_of_true (.inl ?_) (.inl (addSink_ok_iff.mp hok))
            rw [getSink, hstored, Option.map_some, Option.map_some, getSink_, hsdp', hsdp]
          · have hgone := find?_addSink_failed hold' hprep hok
            rw [hid] at hgone
            simp [getSink, hgone, hold, mt addSink_ok_iff.mpr hok]

/-- An environment with a registry that knows one sender, and its SDP. -/
def knowing (sdp : Text) : NmosEnv :=
  { env :=
    { httpGet := fun _ _ path =>
        some (200, if path = "/sdp".toList then sdp else "\"manifest_href\":\"http://n/sdp\"".toList)
      replies := { addFirst := .ok 9 } } }

/-- A request to connect the receiver to a sender, before it is activated. -/
def connecting : List Label :=
  (soleSink (versionSdp "1".toList)).2 ++
    [.start 1 (.patchReceiver 1 (activateNow { masterEnable := some true, peerId := some "s".toList })),
      .turn 1 {}]

/-- A receiver is connected to a sender, ... -/
def connection (senderId : Text) : List Label :=
  [.start 1 (.patchReceiver 1 (activateNow { masterEnable := some true, peerId := some senderId })),
    .turn 1 {}] ++ turns 8 1 (knowing (versionSdp "2".toList))

/-- ... and the worker handles the two events of it. -/
def handling : List Label :=
  .start 0 .nextEvent :: turns 4 0 {} ++ .start 0 .nextEvent :: turns 6 0 {}

/-- A receiver that gets connected. -/
theorem receiver_connection_taken : ∃ (s : NmosManager) (rr : ReceiverResources) (sdp : Text),
    s.receivers.find? 1 = some rr ∧ s.ConnectionTaken {} (knowing (versionSdp "2".toList)) 1
      (rr.snapshot.withTp (s.receiverTp {} sdp)) sdp := by
  obtain ⟨σ, -, hrr, hdone⟩ := reachable_sampleRun {} (soleSink (versionSdp "1".toList)).1 connecting
    (fun σ => (σ.nmos.receivers.find? 1).map (fun rr => (rr.staged.masterEnable, rr.staged.peerId)) =
        some (true, "s".toList) ∧
      (σ.nmos.applyReceiverActivation {} (knowing (versionSdp "2".toList)) 1).ConnectedTo "s".toList
        (σ.nmos.resolveSdp {} (knowing (versionSdp "2".toList)) "s".toList) 1) (by decide +kernel)
  obtain ⟨rr, hrr, hstaged⟩ := Option.map_eq_some_iff.mp hrr
  obtain ⟨henable, hpeer⟩ := Prod.mk.inj hstaged
  rw [← hpeer] at hdone
  exact ⟨σ.nmos, rr, _, hrr,
    (receiver_connection {} (knowing (versionSdp "2".toList)) σ.nmos 1 rr hrr henable
      (by rw [hpeer]; decide)).mp (.inl hdone)⟩

/-- The SDP of a sender that follows another grandmaster. -/
def foreignSdp : Text :=
  versionSdp "2".toList ++ "a=ts-refclk:ptp=IEEE1588-2008:00-00-00-00-00-00-00-01:0\n".toList

/-- The receiver has its new sender, and the sink its old SDP. -/
theorem receiver_connection_lost : ∃ σ rr, System.Reachable {} σ ∧
    σ.nmos.receivers.find? 1 = some rr ∧ rr.staged.masterEnable = true ∧ rr.staged.peerId ≠ [] ∧
    ¬ ((σ.nmos.applyReceiverActivation {} (knowing foreignSdp) 1).ConnectedTo rr.staged.peerId
        (σ.nmos.resolveSdp {} (knowing foreignSdp) rr.staged.peerId) 1 ∨
      ActiveKept 1 σ.nmos (σ.nmos.applyReceiverActivation {} (knowing foreignSdp) 1)) := by
  obtain ⟨σ, hσ, hrr, hlost⟩ := reachable_sampleRun {} (soleSink (versionSdp "1".toList)).1 connecting
    (fun σ => (σ.nmos.receivers.find? 1).map (fun rr => (rr.staged.masterEnable, rr.staged.peerId)) =
        some (true, "s".toList) ∧
      ¬ ((σ.nmos.applyReceiverActivation {} (knowing foreignSdp) 1).ConnectedTo "s".toList
          (σ.nmos.resolveSdp {} (knowing foreignSdp) "s".toList) 1 ∨
        ActiveKept 1 σ.nmos (σ.nmos.applyReceiverActivation {} (knowing foreignSdp) 1)))
    (by decide +kernel)
  obtain ⟨rr, hrr, hstaged⟩ := Option.map_eq_some_iff.mp hrr
  obtain ⟨henable, hpeer⟩ := Prod.mk.inj hstaged
  exact ⟨σ, rr, hσ, hrr, henable, by rw [hpeer]; decide, by rw [hpeer]; exact hlost⟩

/-! ## Disconnections -/

/-- The sink and the receiver are disconnected: no stream of the sink is registered for
what the previous SDP described, `/active` shows no sender, and the sink has no SDP. -/
structure Disconnected (id : UInt8) (s s' : NmosManager) : Prop where
  silent : ∀ old, s.sm.sinks.find? id = some old → (getSink_ id old).connected = true →
    ∀ handle stream, s'.sm.driver.registered.find? handle = some stream →
      stream.slot.kind = .sink → stream.slot.id = id →
        stream.ui32DestIP ≠ old.stream.leg0.ui32DestIP ∧
          (old.st20227Enabled = true → stream.ui32DestIP ≠ old.stream.leg1.ui32DestIP)
  active : (s'.receiverActive? id).map (fun ep => (ep.masterEnable, ep.peerId)) = some (false, [])
  sink : (s'.sm.getSink id).map StreamSink.connected = some false

/-- `add_sink` turns a sink down that has neither an SDP nor a URL. -/
theorem addSink_nothing {sink : StreamSink} (hdecode : h.host.decodeUrl [] = [])
    (huse : sink.useSdp = false) (hsource : sink.source = []) :
    (Request.addSink e.env sink).prepared h.host s.sm = none := by
  have hfetch : fetchSdp h.host e.env [] = .error (.error .invalidUrl) := by
    rw [fetchSdp, hdecode]
    rfl
  rw [Request.prepared, preparedSink, sinkSdpText, huse, hsource, hfetch]
  split
  · rfl
  · split <;> rfl

/-- **When a receiver is disconnected**: after an activation without `master_enable`, exactly
if its sink had no SDP before. -/
theorem receiver_disconnection (h : NmosHost) (e : NmosEnv) (s : NmosManager) (id : UInt8)
    (hdecode : h.host.decodeUrl [] = []) (rr : ReceiverResources)
    (hrr : s.receivers.find? id = some rr) (hdisable : rr.staged.masterEnable = false)
    (sink : StreamSink) (hsink : s.sm.getSink id = some sink) :
    Disconnected id s (s.applyReceiverActivation h e id) ↔ sink.connected = false := by
  have hconnects : rr.snapshot.connects = false := by
    simp [ReceiverActivation.connects, ReceiverResources.snapshot, hdisable]
  have hmaster : rr.snapshot.masterEnable = false := hdisable
  have hchanges : rr.snapshot.changesSink [] = true := by simp [ReceiverActivation.changesSink, hmaster]
  have hpromoted : s.applyReceiverActivation h e id = s.enactReceiver h e id rr.snapshot [] := by
    rw [applyReceiverActivation, hrr]
    simp only [hconnects, Bool.false_eq_true, if_false]
  obtain ⟨hsm, hactive, -⟩ := enactReceiver_eq h e s id rr.snapshot []
  have hkept : (s.enactReceiver h e id rr.snapshot []).sm = s.sm := by
    rw [hsm, reAdded, if_pos hchanges, hsink]
    simp only [sm_addSink, sm_promoteReceiver, ReceiverActivation.target, hmaster, Bool.false_eq_true,
      if_false]
    exact addSink_unprepared (addSink_nothing hdecode rfl rfl)
  have hfinal : ((s.enactReceiver h e id rr.snapshot []).sm.getSink id).map StreamSink.connected =
      some sink.connected := by rw [hkept, hsink, Option.map_some]
  rw [hpromoted]
  constructor
  · intro H
    exact Option.some.inj (hfinal.symm.trans H.sink)
  · intro hno
    refine ⟨?_, ?_, hfinal.trans (congrArg some hno)⟩
    · intro old hold hcon
      rw [getSink, hold, Option.map_some] at hsink
      rw [Option.some.inj hsink, hno] at hcon
      cases hcon
    · rw [hactive, receiverActive?_promoteReceiver, hrr]
      simp [ReceiverResources.promoted, ReceiverActivation.activeSenderId, hmaster]

/-- A request to disconnect the receiver, before it is activated. -/
def disconnecting : List Label :=
  [.start 1 (.patchReceiver 1 (activateNow { masterEnable := some false, peerId := some "null".toList })),
    .turn 1 {}]

/-- A receiver of a sink with an empty SDP. -/
theorem receiver_disconnection_empty : ∃ s : NmosManager,
    Disconnected 1 s (s.applyReceiverActivation {} {} 1) := by
  obtain ⟨σ, -, hrr, hsink⟩ := reachable_sampleRun {} (soleSink []).1
    ((soleSink []).2 ++ disconnecting)
    (fun σ => (σ.nmos.receivers.find? 1).map (fun rr => rr.staged.masterEnable) = some false ∧
      (σ.nmos.sm.getSink 1).map StreamSink.connected = some false) (by decide +kernel)
  obtain ⟨rr, hrr, hdisable⟩ := Option.map_eq_some_iff.mp hrr
  obtain ⟨sink, hsink, hno⟩ := Option.map_eq_some_iff.mp hsink
  exact ⟨σ.nmos, (receiver_disconnection {} {} σ.nmos 1 rfl rr hrr hdisable sink hsink).mpr hno⟩

/-- The receiver has no sender, and the sink still has the SDP it had. -/
theorem receiver_disconnection_lost : ∃ σ rr sink, System.Reachable {} σ ∧
    σ.nmos.receivers.find? 1 = some rr ∧ rr.staged.masterEnable = false ∧
    σ.nmos.sm.getSink 1 = some sink ∧
    ¬ Disconnected 1 σ.nmos (σ.nmos.applyReceiverActivation {} { env := .accepting 9 } 1) := by
  obtain ⟨σ, hσ, hrr, hsink, hlost⟩ := reachable_sampleRun {} (soleSink (versionSdp "1".toList)).1
    ((soleSink (versionSdp "1".toList)).2 ++ disconnecting)
    (fun σ => (σ.nmos.receivers.find? 1).map (fun rr => rr.staged.masterEnable) = some false ∧
      (σ.nmos.sm.getSink 1).isSome = true ∧
      ((σ.nmos.applyReceiverActivation {} { env := .accepting 9 } 1).sm.getSink 1).map
        StreamSink.connected = some true) (by decide +kernel)
  obtain ⟨rr, hrr, hdisable⟩ := Option.map_eq_some_iff.mp hrr
  obtain ⟨sink, hsink⟩ := Option.isSome_iff_exists.mp hsink
  refine ⟨σ, rr, sink, hσ, hrr, hdisable, hsink, ?_⟩
  intro H
  exact absurd (hlost.symm.trans H.sink) (by decide)

/-! ## Senders -/

/-- The handler of `transportfile`; `none` is 404. -/
def transportfile (h : NmosHost) (e : NmosEnv) (id : UInt8) (s : NmosManager) : Option Text :=
  match s.senders.find? id with
  | some sr => if sr.active.masterEnable then s.sm.getSourceSdpOf h.host e.env id.toUInt32 else none
  | none => none

end NmosManager

/-- Whether the legs of a stored source transmit. -/
def StreamInfo.transmits (info : StreamInfo) (leg : Fin 2) : Bool :=
  info.enabled && (leg = 0 || info.st20227Enabled)

/-- The transport parameters agree with a stored source, leg by leg. -/
structure Endpoint.DescribesSource (ep : Endpoint SenderTp) (info : StreamInfo) : Prop where
  enabled : ep.masterEnable = info.enabled
  legs : ∀ (leg : Fin 2) (tp : SenderTp), ep.tp[leg.val]? = some tp →
    tp.rtpEnabled = info.transmits leg ∧ (tp.rtpEnabled = true →
      tp.destinationIp = Address.toText (info.stream.get leg).ui32DestIP ∧
        tp.destinationPort = (info.stream.get leg).usDestPort)

/-- The transport parameters agree with an SDP, leg by leg. -/
def Endpoint.DescribesSdp (ep : Endpoint SenderTp) (sdp : Text) : Prop :=
  ∀ (leg : ℕ) (tp : SenderTp), ep.tp[leg]? = some tp → tp.rtpEnabled = true →
    tp.destinationIp = sdpConnectionIp sdp leg ∧ tp.destinationPort = sdpMediaPort sdp leg

namespace NmosManager
variable {h : NmosHost} {e : NmosEnv} {s : NmosManager} {id : UInt8}

/-- `/active` of a sender agrees with its source and with `/transportfile`. -/
def SenderAgrees (h : NmosHost) (e : NmosEnv) (id : UInt8) (s : NmosManager) : Prop :=
  ∃ sr info, s.senders.find? id = some sr ∧ s.sm.sources.find? id = some info ∧
    sr.active.DescribesSource info ∧ ∀ sdp, s.transportfile h e id = some sdp → sr.active.DescribesSdp sdp

/-- The sender after its activation. -/
theorem find?_applySenderActivation {sr : SenderResources} (hsr : s.senders.find? id = some sr) :
    ∃ sr', (s.applySenderActivation h e id).senders.find? id = some sr' ∧ sr'.active = sr.staged := by
  have hid : s.senders.contains id = true := SortedMap.contains_eq_true.mpr ⟨sr, hsr⟩
  rw [applySenderActivation, if_pos hid]
  have hpromoted : (s.promoteSender id).senders.find? id = some { sr with active := sr.staged } := by
    rw [promoteSender, SortedMap.find?_modify_self, hsr]
    rfl
  cases hsrc : (s.promoteSender id).sm.getSource id with
  | none =>
      simp only [hsrc]
      exact ⟨_, hpromoted, rfl⟩
  | some src =>
      simp only [hsrc, rebuildSender, SortedMap.find?_modify_self, hpromoted]
      exact ⟨_, rfl, rfl⟩

/-- An activation of a sender does not reach the session manager. -/
theorem sm_applySenderActivation : (s.applySenderActivation h e id).sm = s.sm := by
  rw [applySenderActivation]
  split
  · simp only
    split <;> rfl
  · rfl

/-- **When the activation of a sender is what it transmits**: `/active`, `/transportfile` and the
source agree after it exactly if the staged half already said what the source does. -/
theorem sender_activation (h : NmosHost) (e e' : NmosEnv) (s : NmosManager) (id : UInt8)
    (sr : SenderResources) (hsr : s.senders.find? id = some sr) :
    (s.applySenderActivation h e id).SenderAgrees h e' id ↔
      ∃ info, s.sm.sources.find? id = some info ∧ sr.staged.DescribesSource info ∧
        (sr.staged.masterEnable = true →
          sr.staged.DescribesSdp (getSourceSdp h.host e'.env s.sm.ptp s.sm.driver.sampleRate info)) := by
  obtain ⟨sr', hsr', hactive⟩ := find?_applySenderActivation (h := h) (e := e) hsr
  have hfile : ∀ info sdp, s.sm.sources.find? id = some info →
      ((s.applySenderActivation h e id).transportfile h e' id = some sdp ↔
        sr.staged.masterEnable = true ∧
          getSourceSdp h.host e'.env s.sm.ptp s.sm.driver.sampleRate info = sdp) := by
    intro info sdp hinfo
    have hid : id.toUInt32.toUInt8 = id := by simp
    rw [transportfile, hsr']
    simp only [hactive, sm_applySenderActivation, getSourceSdpOf, hid, hinfo, Option.map_some,
      Option.ite_none_right_eq_some, Option.some.injEq]
  constructor
  · rintro ⟨sr'', info, hsr'', hinfo, hsource, hsdp⟩
    obtain rfl := Option.some.inj (hsr'.symm.trans hsr'')
    rw [sm_applySenderActivation] at hinfo
    rw [hactive] at hsource hsdp
    exact ⟨info, hinfo, hsource, fun henable => hsdp _ ((hfile info _ hinfo).mpr ⟨henable, rfl⟩)⟩
  · rintro ⟨info, hinfo, hsource, hsdp⟩
    refine ⟨sr', info, hsr', by rw [sm_applySenderActivation]; exact hinfo, by rw [hactive]; exact hsource, ?_⟩
    intro sdp hserved
    obtain ⟨henable, rfl⟩ := (hfile info sdp hinfo).mp hserved
    rw [hactive]
    exact hsdp henable

/-- A request to stop the sender, before it is activated. -/
def stopping : List Label :=
  [.start 1 (.patchSender 1 (activateNow { masterEnable := some false })), .turn 1 {}]

/-- The sender is off, and the source still transmits. -/
theorem sender_activation_ignored : ∃ σ sr, System.Reachable {} σ ∧
    σ.nmos.senders.find? 1 = some sr ∧
    ¬ (σ.nmos.applySenderActivation {} {} 1).SenderAgrees {} {} 1 := by
  obtain ⟨σ, hσ, hsr, hsource⟩ := reachable_sampleRun {} soleSource.1 (soleSource.2 ++ stopping)
    (fun σ => ((σ.nmos.applySenderActivation {} {} 1).senders.find? 1).map
        (fun sr => sr.active.masterEnable) = some false ∧
      (σ.nmos.senders.find? 1).isSome = true ∧
      ((σ.nmos.applySenderActivation {} {} 1).sm.sources.find? 1).map StreamInfo.enabled = some true)
    (by decide +kernel)
  obtain ⟨sr, hsr'⟩ := Option.isSome_iff_exists.mp hsource.1
  refine ⟨σ, sr, hσ, hsr', ?_⟩
  rintro ⟨sr', info, hfind, hinfo, hagree, -⟩
  rw [hfind] at hsr
  rw [hinfo] at hsource
  rw [Option.map_some, hagree.enabled, Option.some.inj hsource.2] at hsr
  cases hsr

/-- The registration of a source leaves a staged half that agrees with it. -/
theorem sender_activation_idle : ∃ s : NmosManager,
    (s.applySenderActivation {} {} 1).SenderAgrees {} {} 1 := by
  obtain ⟨σ, -, hsr, hinfo⟩ := reachable_sampleRun {} soleSource.1 soleSource.2
    (fun σ => (σ.nmos.senders.find? 1).map (fun sr => sr.staged) = some
        { masterEnable := true
          tp := [{ sourceIp := "192.168.1.100".toList, destinationIp := "239.1.0.2".toList
                   rtpEnabled := true }] } ∧
      (σ.nmos.sm.sources.find? 1).map (fun info => decide (info.enabled = true ∧
        Address.toText info.stream.leg0.ui32DestIP = "239.1.0.2".toList ∧
        info.stream.leg0.usDestPort = 5004 ∧
        sdpConnectionIp (getSourceSdp {} {} σ.nmos.sm.ptp σ.nmos.sm.driver.sampleRate info) 0 =
          "239.1.0.2".toList ∧
        sdpMediaPort (getSourceSdp {} {} σ.nmos.sm.ptp σ.nmos.sm.driver.sampleRate info) 0 = 5004)) =
          some true) (by decide +kernel)
  obtain ⟨sr, hsr, hstaged⟩ := Option.map_eq_some_iff.mp hsr
  obtain ⟨info, hinfo, hfields⟩ := Option.map_eq_some_iff.mp hinfo
  obtain ⟨henabled, hip, hport, hsdpIp, hsdpPort⟩ := of_decide_eq_true hfields
  refine ⟨σ.nmos, (sender_activation {} {} {} σ.nmos 1 sr hsr).mpr ⟨info, hinfo, ⟨?_, ?_⟩, ?_⟩⟩
  · rw [hstaged, henabled]
  · intro leg tp htp
    rw [hstaged] at htp
    match leg, htp with
    | 0, htp =>
        obtain rfl := Option.some.inj htp
        exact ⟨by simp [StreamInfo.transmits, henabled], fun _ => ⟨hip.symm, hport.symm⟩⟩
  · intro _ leg tp htp _
    rw [hstaged] at htp
    match leg, htp with
    | 0, htp =>
        obtain rfl := Option.some.inj htp
        exact ⟨hsdpIp.symm, hsdpPort.symm⟩

end NmosManager
end Aes67Daemon
