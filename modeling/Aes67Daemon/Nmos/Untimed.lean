import Aes67Daemon.Nmos.StagedPatch

/-!
# A PATCH and the clocks

The times that a PATCH leaves in the state are the time of an activation, the deadline of a
scheduled one and the version of a sender.  Nothing is decided by them in a PATCH: two of them
that differ in what the clocks show end in the same state but for these times.

## Main definitions

* `NmosManager.untimed` — the state without the times.
* `NmosEnv.SameButClocks`, `NmosManager.SameButTimes` — what two requests may differ in.
* `NmosManager.SameButTimes.patchSenderStaged`, `NmosManager.SameButTimes.applySenderActivation`, ... — the
  steps of a PATCH keep to it.
-/
namespace Aes67Daemon

/-! ## Without times -/

/-- Two worlds that differ in their clocks. -/
structure NmosEnv.SameButClocks (e e' : NmosEnv) : Prop where
  env : e.env = e'.env
  registryAddress : e.registryAddress = e'.registryAddress
  registryQueryPort : e.registryQueryPort = e'.registryQueryPort

def Is05Activation.untimed (act : Is05Activation) : Is05Activation := { act with activationTime := [], deadlineNs := 0 }

def Endpoint.untimed {τ : Type} (ep : Endpoint τ) : Endpoint τ := { ep with act := ep.act.untimed }

def SenderResources.untimed (sr : SenderResources) : SenderResources :=
  { sr with
    senderJson := { sr.senderJson with version := [] }
    staged := sr.staged.untimed
    active := sr.active.untimed }

def ReceiverResources.untimed (rr : ReceiverResources) : ReceiverResources :=
  { rr with staged := rr.staged.untimed, active := rr.active.untimed }

def ReceiverActivation.untimed (a : ReceiverActivation) : ReceiverActivation := { a with activationTime := [] }

/-- The state without the times of activations and the versions of senders. -/
def NmosManager.untimed (s : NmosManager) : NmosManager :=
  { s with
    senders := s.senders.mapVal fun _ sr => sr.untimed
    receivers := s.receivers.mapVal fun _ rr => rr.untimed
    pendingActivations := s.pendingActivations.map fun pa => { pa with deadlineNs := 0 } }

/-- What begins is marked with times only. -/
theorem Is05Activation.untimed_begun (act : Is05Activation) (e : NmosEnv) : (act.begun e).untimed = act.untimed := by
  unfold begun
  split
  · rfl
  · split <;> rfl

theorem Endpoint.untimed_begun {τ : Type} (ep : Endpoint τ) (e : NmosEnv) :
    ({ ep with act := ep.act.begun e } : Endpoint τ).untimed = ep.untimed :=
  congrArg (fun act => { ep with act := act }) (ep.act.untimed_begun e)

theorem Endpoint.immediate_untimed {τ : Type} {ep ep' : Endpoint τ} (h : ep.untimed = ep'.untimed) :
    ep.act.immediate = ep'.act.immediate :=
  congrArg (fun ep => ep.act.immediate) h

theorem Endpoint.scheduled_untimed {τ : Type} {ep ep' : Endpoint τ} (h : ep.untimed = ep'.untimed) :
    ep.act.scheduled = ep'.act.scheduled :=
  congrArg (fun ep => ep.act.scheduled) h

/-- What is merged into a staged half does not depend on its times. -/
theorem Endpoint.untimed_patched {τ π : Type} (f : τ → π → τ) {ep ep' : Endpoint τ} (h : ep.untimed = ep'.untimed)
    (p : Patch π) : (ep.patched f p).untimed = (ep'.patched f p).untimed :=
  congrArg (fun ep => (ep.patched f p).untimed) h

namespace NmosManager
variable {h : NmosHost} {e e' : NmosEnv} {s t : NmosManager} {id : UInt8}

/-- Two states that differ in times. -/
def SameButTimes (s t : NmosManager) : Prop := s.untimed = t.untimed

theorem SameButTimes.refl (s : NmosManager) : s.SameButTimes s := rfl

theorem find?_untimed_senders (s : NmosManager) (id : UInt8) :
    s.untimed.senders.find? id = (s.senders.find? id).map SenderResources.untimed :=
  SortedMap.find?_mapVal ..

theorem find?_untimed_receivers (s : NmosManager) (id : UInt8) :
    s.untimed.receivers.find? id = (s.receivers.find? id).map ReceiverResources.untimed :=
  SortedMap.find?_mapVal ..

theorem findLocalSender_untimed (s : NmosManager) (uuid : Text) :
    s.untimed.findLocalSender uuid = s.findLocalSender uuid := by
  simp only [findLocalSender, untimed, SortedMap.mapVal, List.find?_map, Option.map_map]
  rfl

theorem findLocalReceiver_untimed (s : NmosManager) (uuid : Text) :
    s.untimed.findLocalReceiver uuid = s.findLocalReceiver uuid := by
  simp only [findLocalReceiver, untimed, SortedMap.mapVal, List.find?_map, Option.map_map]
  rfl

/-- The end of `enactReceiver`: the sink kept up to date. -/
def kept (id : UInt8) (s : NmosManager) : NmosManager :=
  match s.sm.getSink id with
  | some sink => s.storeSink id sink
  | none => s

namespace SameButTimes

variable (H : s.SameButTimes t)
include H

theorem sm : s.sm = t.sm := show s.untimed.sm = t.untimed.sm by rw [H]

theorem secInterfaceIpStr : s.secInterfaceIpStr = t.secInterfaceIpStr :=
  show s.untimed.secInterfaceIpStr = t.untimed.secInterfaceIpStr by rw [H]

theorem sender (id : UInt8) :
    (s.senders.find? id).map SenderResources.untimed = (t.senders.find? id).map SenderResources.untimed := by
  rw [← find?_untimed_senders, ← find?_untimed_senders, H]

theorem receiver (id : UInt8) :
    (s.receivers.find? id).map ReceiverResources.untimed = (t.receivers.find? id).map ReceiverResources.untimed := by
  rw [← find?_untimed_receivers, ← find?_untimed_receivers, H]

theorem findLocalSender (uuid : Text) : s.findLocalSender uuid = t.findLocalSender uuid := by
  rw [← findLocalSender_untimed, H, findLocalSender_untimed]

theorem findLocalReceiver (uuid : Text) : s.findLocalReceiver uuid = t.findLocalReceiver uuid := by
  rw [← findLocalReceiver_untimed, H, findLocalReceiver_untimed]

/-! ## The steps of a PATCH -/

theorem insertSender {sr sr' : SenderResources} (hsr : sr.untimed = sr'.untimed) (id : UInt8) :
    SameButTimes { s with senders := s.senders.insert id sr } { t with senders := t.senders.insert id sr' } := by
  have hinsert : ∀ (s : NmosManager) (sr : SenderResources), untimed { s with senders := s.senders.insert id sr } =
      { s.untimed with senders := s.untimed.senders.insert id sr.untimed } := by
    intro s sr
    simp only [untimed, SortedMap.mapVal_insert]
  rw [SameButTimes, hinsert, hinsert, H, hsr]

theorem insertReceiver {rr rr' : ReceiverResources} (hrr : rr.untimed = rr'.untimed) (id : UInt8) :
    SameButTimes { s with receivers := s.receivers.insert id rr } { t with receivers := t.receivers.insert id rr' } := by
  have hinsert : ∀ (s : NmosManager) (rr : ReceiverResources), untimed { s with receivers := s.receivers.insert id rr } =
      { s.untimed with receivers := s.untimed.receivers.insert id rr.untimed } := by
    intro s rr
    simp only [untimed, SortedMap.mapVal_insert]
  rw [SameButTimes, hinsert, hinsert, H, hrr]

theorem schedule (e e' : NmosEnv) (k : Kind) (id : UInt8) {act act' : Is05Activation}
    (hact : act.scheduled = act'.scheduled) :
    (s.schedule e k id act).SameButTimes (t.schedule e' k id act') := by
  unfold NmosManager.schedule
  rw [hact]
  split
  · have happend : ∀ (s : NmosManager) (pa : PendingActivation),
        untimed { s with pendingActivations := s.pendingActivations ++ [pa] } = { s.untimed with
          pendingActivations := s.untimed.pendingActivations ++ [{ pa with deadlineNs := 0 }] } := by
      intro s pa
      simp only [untimed, List.map_append, List.map_cons, List.map_nil]
    rw [SameButTimes, happend, happend, H]
  · exact H

/-- Two changes of a sender that come to the same but for times. -/
theorem modifySender {g g' f : SenderResources → SenderResources} (hg : ∀ sr, (g sr).untimed = f sr.untimed)
    (hg' : ∀ sr, (g' sr).untimed = f sr.untimed) (id : UInt8) :
    SameButTimes { s with senders := s.senders.modify id g } { t with senders := t.senders.modify id g' } := by
  have hmodify : ∀ (s : NmosManager) {g : SenderResources → SenderResources}, (∀ sr, (g sr).untimed = f sr.untimed) →
      untimed { s with senders := s.senders.modify id g } =
        { s.untimed with senders := s.untimed.senders.modify id f } := by
    intro s g hg
    have hmap := SortedMap.mapVal_modify (f := fun _ sr => SenderResources.untimed sr) (k := id) s.senders hg
    simp only [untimed, hmap]
  rw [SameButTimes, hmodify s hg, hmodify t hg', H]

/-- Two changes of a receiver that come to the same but for times. -/
theorem modifyReceiver {g g' f : ReceiverResources → ReceiverResources} (hg : ∀ rr, (g rr).untimed = f rr.untimed)
    (hg' : ∀ rr, (g' rr).untimed = f rr.untimed) (id : UInt8) :
    SameButTimes { s with receivers := s.receivers.modify id g } { t with receivers := t.receivers.modify id g' } := by
  have hmodify : ∀ (s : NmosManager) {g : ReceiverResources → ReceiverResources},
      (∀ rr, (g rr).untimed = f rr.untimed) →
      untimed { s with receivers := s.receivers.modify id g } =
        { s.untimed with receivers := s.untimed.receivers.modify id f } := by
    intro s g hg
    have hmap := SortedMap.mapVal_modify (f := fun _ rr => ReceiverResources.untimed rr) (k := id) s.receivers hg
    simp only [untimed, hmap]
  rw [SameButTimes, hmodify s hg, hmodify t hg', H]

theorem resetStaged (k : Kind) (id : UInt8) : (s.resetStaged k id).SameButTimes (t.resetStaged k id) := by
  let ended (act : Is05Activation) : Is05Activation := { act with mode := [], requestedTime := [] }
  cases k with
  | source =>
    exact H.modifySender (f := fun sr => { sr with staged := { sr.staged with act := ended sr.staged.act } })
      (fun _ => rfl) (fun _ => rfl) id
  | sink =>
    exact H.modifyReceiver (f := fun rr => { rr with staged := { rr.staged with act := ended rr.staged.act } })
      (fun _ => rfl) (fun _ => rfl) id

/-! ## The activation of a sender -/

theorem promoteSender (id : UInt8) : (s.promoteSender id).SameButTimes (t.promoteSender id) :=
  H.modifySender (f := fun sr => { sr with active := sr.staged }) (fun _ => rfl) (fun _ => rfl) id

theorem rebuildSender (h : NmosHost) (e e' : NmosEnv) (id : UInt8) (src : StreamSource) :
    (s.rebuildSender h e id src).SameButTimes (t.rebuildSender h e' id src) :=
  H.modifySender
    (f := fun sr => { sr with senderJson := h.buildSenderJson [] src sr.flowId sr.senderId sr.active.peerId })
    (fun _ => rfl) (fun _ => rfl) id

theorem containsSender (id : UInt8) : s.senders.contains id = t.senders.contains id := by
  rw [SortedMap.contains, SortedMap.contains, ← Option.isSome_map, H.sender, Option.isSome_map]

theorem containsReceiver (id : UInt8) : s.receivers.contains id = t.receivers.contains id := by
  rw [SortedMap.contains, SortedMap.contains, ← Option.isSome_map, H.receiver, Option.isSome_map]

theorem applySenderActivation (h : NmosHost) (e e' : NmosEnv) (id : UInt8) :
    (s.applySenderActivation h e id).SameButTimes (t.applySenderActivation h e' id) := by
  have hpromoted := H.promoteSender id
  unfold NmosManager.applySenderActivation
  rw [H.containsSender]
  dsimp only
  rw [hpromoted.sm]
  split
  · split
    · exact hpromoted.rebuildSender h e e' id _
    · exact hpromoted
  · exact H

/-! ## The activation of a receiver -/

theorem promoteReceiver {a a' : ReceiverActivation} (ha : a.untimed = a'.untimed) (id : UInt8) :
    (s.promoteReceiver id a).SameButTimes (t.promoteReceiver id a') := by
  have hsender : a.activeSenderId = a'.activeSenderId := congrArg (fun a => a.activeSenderId) ha
  have hpreserved : s.preservedActiveSenderIds = t.preservedActiveSenderIds :=
    show s.untimed.preservedActiveSenderIds = t.untimed.preservedActiveSenderIds by rw [H]
  have hmodified := H.modifyReceiver (f := (·.promoted a.untimed)) (fun rr => (rfl : (rr.promoted a).untimed = _))
    (fun rr => show (rr.promoted a').untimed = _ by rw [ha]; rfl) id
  have hset : ∀ {s t : NmosManager} (ids : SortedMap UInt8 Text), s.SameButTimes t →
      SameButTimes { s with preservedActiveSenderIds := ids } { t with preservedActiveSenderIds := ids } := by
    intro s t ids H
    have hset : ∀ s : NmosManager, untimed { s with preservedActiveSenderIds := ids } =
        { s.untimed with preservedActiveSenderIds := ids } := fun _ => rfl
    rw [SameButTimes, hset, hset, H]
  unfold NmosManager.promoteReceiver
  rw [H.containsReceiver, hpreserved, hsender]
  exact hset _ hmodified

theorem storeSink (id : UInt8) (sink : StreamSink) : (s.storeSink id sink).SameButTimes (t.storeSink id sink) :=
  H.modifyReceiver (f := fun rr => { rr with sink := sink }) (fun _ => rfl) (fun _ => rfl) id

theorem hear (sm : SessionManager) : (s.hear sm).SameButTimes (t.hear sm) := by
  have hhear : ∀ s : NmosManager, (s.hear sm).untimed = s.untimed.hear sm := fun _ => rfl
  rw [SameButTimes, hhear, hhear, H]

theorem addSink (he : e.SameButClocks e') (h : NmosHost) (sink : StreamSink) :
    (s.addSink h e sink).SameButTimes (t.addSink h e' sink) := by
  unfold NmosManager.addSink
  rw [he.env, H.sm]
  exact H.hear _

theorem resolveSdp (he : e.SameButClocks e') (h : NmosHost) (senderId : Text) :
    s.resolveSdp h e senderId = t.resolveSdp h e' senderId := by
  obtain ⟨env, now, systemNow, registryAddress, registryQueryPort⟩ := e
  obtain ⟨rfl, rfl, rfl⟩ := he
  unfold NmosManager.resolveSdp sourceSdp
  rw [H.findLocalSender, H.sm]
  rfl

theorem reAdded (he : e.SameButClocks e') (h : NmosHost) {a a' : ReceiverActivation} (ha : a.untimed = a'.untimed)
    (id : UInt8) (sdp : Text) : (s.reAdded h e id a sdp).SameButTimes (t.reAdded h e' id a' sdp) := by
  have hpromoted := H.promoteReceiver ha id
  have hchanges : a.changesSink sdp = a'.changesSink sdp := congrArg (fun a => a.changesSink sdp) ha
  have htarget : a.target sdp = a'.target sdp := congrArg (fun a => a.target sdp) ha
  unfold NmosManager.reAdded
  rw [hchanges, htarget, H.sm]
  split
  · split
    · exact hpromoted.addSink he h _
    · exact hpromoted
  · exact hpromoted

theorem kept (id : UInt8) : (s.kept id).SameButTimes (t.kept id) := by
  unfold NmosManager.kept
  rw [H.sm]
  split
  · exact H.storeSink id _
  · exact H

theorem enactReceiver (he : e.SameButClocks e') (h : NmosHost) {a a' : ReceiverActivation} (ha : a.untimed = a'.untimed)
    (id : UInt8) (sdp : Text) : (s.enactReceiver h e id a sdp).SameButTimes (t.enactReceiver h e' id a' sdp) := by
  have hadded := H.reAdded he h ha id sdp
  exact hadded.kept id

theorem applyReceiverActivation (he : e.SameButClocks e') (h : NmosHost) (id : UInt8) :
    (s.applyReceiverActivation h e id).SameButTimes (t.applyReceiverActivation h e' id) := by
  have hfound := H.receiver id
  unfold NmosManager.applyReceiverActivation
  cases hs : s.receivers.find? id with
  | none =>
    rw [hs] at hfound
    rw [Option.map_eq_none_iff.mp hfound.symm]
    exact H
  | some rr =>
    rw [hs] at hfound
    obtain ⟨rr', hrr', hsame⟩ := Option.map_eq_some_iff.mp hfound.symm
    have hsnapshot : rr.snapshot.untimed = rr'.snapshot.untimed :=
      congrArg (fun rr => rr.snapshot.untimed) hsame.symm
    have hconnects : rr.snapshot.connects = rr'.snapshot.connects := congrArg (fun a => a.connects) hsnapshot
    have hsender : rr.snapshot.senderId = rr'.snapshot.senderId := congrArg (fun a => a.senderId) hsnapshot
    have htp : ∀ sdp, s.receiverTp h sdp = t.receiverTp h sdp := by
      intro sdp
      rw [receiverTp, receiverTp, H.secInterfaceIpStr]
    have hwith : ∀ tp, (rr.snapshot.withTp tp).untimed = (rr'.snapshot.withTp tp).untimed :=
      fun tp => congrArg (fun a => (a.withTp tp).untimed) hsnapshot
    rw [hrr']
    simp only [hconnects, hsender, H.resolveSdp he h, htp]
    split
    · split
      · exact H
      · split
        · exact H
        · exact H.enactReceiver he h (hwith _) id _
    · exact H.enactReceiver he h hsnapshot id _

/-! ## The staged halves -/

theorem patchSenderStaged (e e' : NmosEnv) (id : UInt8) (body : Except Text (Patch SenderTpPatch)) :
    (s.patchSenderStaged e id body).1.map Endpoint.untimed = (t.patchSenderStaged e' id body).1.map Endpoint.untimed ∧
      (s.patchSenderStaged e id body).2.SameButTimes (t.patchSenderStaged e' id body).2 := by
  have hstored : ∀ (e : NmosEnv) (sr : SenderResources) (staged : Endpoint SenderTp),
      ({ sr with staged := { staged with act := staged.act.begun e } } : SenderResources).untimed =
        { sr.untimed with staged := staged.untimed } :=
    fun e sr staged => congrArg (fun ep => { sr.untimed with staged := ep }) (staged.untimed_begun e)
  have hfound := H.sender id
  unfold NmosManager.patchSenderStaged
  cases body with
  | error err => exact ⟨rfl, H⟩
  | ok p =>
    cases hs : s.senders.find? id with
    | none =>
      rw [hs] at hfound
      simp only [Option.map_eq_none_iff.mp hfound.symm]
      exact ⟨trivial, H⟩
    | some sr =>
      rw [hs] at hfound
      obtain ⟨sr', hsr', hsame⟩ := Option.map_eq_some_iff.mp hfound.symm
      have hstaged := Endpoint.untimed_patched SenderTp.patched (congrArg (fun sr => sr.staged) hsame.symm) p
      simp only [hsr']
      refine ⟨congrArg Except.ok hstaged, (H.insertSender ?_ id).schedule e e' .source id (Endpoint.scheduled_untimed hstaged)⟩
      rw [hstored, hstored, hsame]
      exact congrArg (fun ep => { sr.untimed with staged := ep }) hstaged

theorem patchReceiverStaged (e e' : NmosEnv) (id : UInt8) (body : Except Text (Patch ReceiverTpPatch)) :
    (s.patchReceiverStaged e id body).1.map Endpoint.untimed = (t.patchReceiverStaged e' id body).1.map Endpoint.untimed ∧
      (s.patchReceiverStaged e id body).2.SameButTimes (t.patchReceiverStaged e' id body).2 := by
  have hstored : ∀ (e : NmosEnv) (rr : ReceiverResources) (staged : Endpoint ReceiverTp),
      ({ rr with staged := { staged with act := staged.act.begun e } } : ReceiverResources).untimed =
        { rr.untimed with staged := staged.untimed } :=
    fun e rr staged => congrArg (fun ep => { rr.untimed with staged := ep }) (staged.untimed_begun e)
  have hfound := H.receiver id
  unfold NmosManager.patchReceiverStaged
  cases body with
  | error err => exact ⟨rfl, H⟩
  | ok p =>
    cases hs : s.receivers.find? id with
    | none =>
      rw [hs] at hfound
      simp only [Option.map_eq_none_iff.mp hfound.symm]
      exact ⟨trivial, H⟩
    | some rr =>
      rw [hs] at hfound
      obtain ⟨rr', hrr', hsame⟩ := Option.map_eq_some_iff.mp hfound.symm
      have hstaged := Endpoint.untimed_patched ReceiverTp.patched (congrArg (fun rr => rr.staged) hsame.symm) p
      simp only [hrr']
      refine ⟨congrArg Except.ok hstaged, (H.insertReceiver ?_ id).schedule e e' .sink id (Endpoint.scheduled_untimed hstaged)⟩
      rw [hstored, hstored, hsame]
      exact congrArg (fun ep => { rr.untimed with staged := ep }) hstaged

end SameButTimes
end NmosManager
end Aes67Daemon
