import Aes67Daemon.Nmos.System
import Mathlib.Data.List.Flatten
import Mathlib.Data.List.Nodup

/-!
# References between the resources

IS-04 resources refer to one another by id: the device lists its senders and
receivers, a flow names its source, a sender its flow.  The references are kept in
resources that are built at different times.  Every critical section keeps them
right, whatever it finds in its local variables, so their order does not matter.

## Main definitions

* `NmosManager.resourceIds` — the ids of all the resources of the node.
* `NmosManager.Integrity` — the references lead to the resources they are meant for.
* `NmosManager.Touched` — the states the critical sections lead to, in any order.
-/
namespace Aes67Daemon

open Text

/-- What the resources of a sender refer to: their ids, then the ids in the source, the flow
and the sender. -/
def SenderResources.refs (sr : SenderResources) : List Text :=
  [sr.sourceId, sr.flowId, sr.senderId, sr.sourceJson.id, sr.flowJson.id, sr.flowJson.sourceId,
    sr.senderJson.id, sr.senderJson.flowId]

/-- The references in the resources of the sender with an id. -/
def NmosHost.senderRefs (h : NmosHost) (id : UInt8) : List Text :=
  let sourceId := h.makeResourceUuid "source".toList id
  let flowId := h.makeResourceUuid "flow".toList id
  let senderId := h.makeResourceUuid "sender".toList id
  [sourceId, flowId, senderId, sourceId, flowId, sourceId, senderId, flowId]

namespace NmosManager
variable {h : NmosHost} {e : NmosEnv} {s s' : NmosManager} {id : UInt8}

/-- The ids of all the resources of the node. -/
def resourceIds (h : NmosHost) (s : NmosManager) : List Text :=
  h.nodeId :: s.deviceJson.id ::
    (s.senders.entries.flatMap fun p => [p.2.sourceId, p.2.flowId, p.2.senderId]) ++
      s.receivers.entries.map fun p => p.2.receiverId

/-- The references between the resources. -/
structure Integrity (h : NmosHost) (s : NmosManager) : Prop where
  /-- The device lists the senders and the receivers, ... -/
  senders : s.deviceJson.senders = s.senders.entries.map fun p => p.2.senderId
  receivers : s.deviceJson.receivers = s.receivers.entries.map fun p => p.2.receiverId
  /-- ... and each of them once. -/
  sendersOnce : s.deviceJson.senders.Nodup
  receiversOnce : s.deviceJson.receivers.Nodup
  flow : ∀ id sr, s.senders.find? id = some sr → sr.flowJson.sourceId = sr.sourceId
  sender : ∀ id sr, s.senders.find? id = some sr → sr.senderJson.flowId = sr.flowId
  /-- The resources that are served carry the ids of the entries. -/
  documents : ∀ e, h.nodeId :: (s.docs h e).map Doc.id = s.resourceIds h
  distinct : (s.resourceIds h).Nodup

/-! ## What the critical sections keep -/

/-- Every resource has the id made for it, and refers to the ids of its own entry. -/
structure Sound (h : NmosHost) (s : NmosManager) : Prop where
  device : s.deviceJson.id = h.deviceId
  senders : s.deviceJson.senders = s.senders.entries.map fun p => p.2.senderId
  receivers : s.deviceJson.receivers = s.receivers.entries.map fun p => p.2.receiverId
  refs : ∀ id sr, s.senders.find? id = some sr → sr.refs = h.senderRefs id
  receiverId : ∀ id rr, s.receivers.find? id = some rr →
    rr.receiverId = h.makeResourceUuid "receiver".toList id

theorem senderId_of_refs {sr : SenderResources} (hrefs : sr.refs = h.senderRefs id) :
    sr.senderId = h.makeResourceUuid "sender".toList id := by
  simp only [SenderResources.refs, NmosHost.senderRefs, List.cons.injEq] at hrefs
  exact hrefs.2.2.1

/-- Only the device and the two tables matter. -/
theorem sound_congr (H : s.Sound h) (hdevice : s'.deviceJson = s.deviceJson)
    (hsenders : s'.senders = s.senders) (hreceivers : s'.receivers = s.receivers) : s'.Sound h where
  device := hdevice ▸ H.device
  senders := by rw [hdevice, hsenders]; exact H.senders
  receivers := by rw [hdevice, hreceivers]; exact H.receivers
  refs := by rw [hsenders]; exact H.refs
  receiverId := by rw [hreceivers]; exact H.receiverId

/-- The resources of senders change, and their ids and references do not. -/
theorem sound_senders {m : SortedMap UInt8 SenderResources} (H : s.Sound h)
    (hkeys : ∀ id, m.contains id = s.senders.contains id)
    (hrefs : ∀ id sr, m.find? id = some sr → sr.refs = h.senderRefs id) :
    Sound h { s with senders := m } := by
  refine ⟨H.device, ?_, H.receivers, hrefs, H.receiverId⟩
  exact H.senders.trans (SortedMap.map_entries_congr (fun id => (hkeys id).symm)
    (fun id sr hsr => senderId_of_refs (hrefs id sr hsr))
    fun id sr hsr => senderId_of_refs (H.refs id sr hsr))

/-- The resources of receivers change, and their ids do not. -/
theorem sound_receivers {m : SortedMap UInt8 ReceiverResources} (H : s.Sound h)
    (hkeys : ∀ id, m.contains id = s.receivers.contains id)
    (hid : ∀ id rr, m.find? id = some rr → rr.receiverId = h.makeResourceUuid "receiver".toList id) :
    Sound h { s with receivers := m } := by
  refine ⟨H.device, H.senders, ?_, H.refs, hid⟩
  exact H.receivers.trans (SortedMap.map_entries_congr (fun id => (hkeys id).symm) hid H.receiverId)

theorem sound_modifySender (H : s.Sound h) (f : SenderResources → SenderResources)
    (hf : ∀ sr, sr.refs = h.senderRefs id → (f sr).refs = h.senderRefs id) :
    Sound h { s with senders := s.senders.modify id f } := by
  refine sound_senders H (fun id' => SortedMap.contains_modify ..) fun id' sr hsr => ?_
  rw [SortedMap.find?_modify] at hsr
  split at hsr
  · rename_i hid
    subst hid
    obtain ⟨sr', hsr', rfl⟩ := Option.map_eq_some_iff.mp hsr
    exact hf sr' (H.refs id' sr' hsr')
  · exact H.refs id' sr hsr

theorem sound_modifyReceiver (H : s.Sound h) (f : ReceiverResources → ReceiverResources)
    (hf : ∀ rr, (f rr).receiverId = rr.receiverId) :
    Sound h { s with receivers := s.receivers.modify id f } := by
  refine sound_receivers H (fun id' => SortedMap.contains_modify ..) fun id' rr hrr => ?_
  rw [SortedMap.find?_modify] at hrr
  split at hrr
  · rename_i hid
    subst hid
    obtain ⟨rr', hrr', rfl⟩ := Option.map_eq_some_iff.mp hrr
    exact (hf rr').trans (H.receiverId id' rr' hrr')
  · exact H.receiverId id' rr hrr

theorem sound_modifyStagedAct (H : s.Sound h) (k : Kind) (f : Is05Activation → Is05Activation) :
    (s.modifyStagedAct k id f).Sound h := by
  cases k with
  | source => exact sound_modifySender H _ fun _ hsr => hsr
  | sink => exact sound_modifyReceiver H _ fun _ => rfl

theorem sound_schedule (H : s.Sound h) (k : Kind) (act : Is05Activation) : (s.schedule e k id act).Sound h := by
  rw [schedule]
  split
  · exact sound_congr H rfl rfl rfl
  · exact H

theorem sound_patchSender (H : s.Sound h) (body : Except Text (Patch SenderTpPatch)) :
    (s.patchSenderStaged e id body).2.Sound h := by
  cases body with
  | error err => exact H
  | ok p =>
      rw [patchSenderStaged]
      cases hsr : s.senders.find? id with
      | none => exact H
      | some sr =>
          refine sound_schedule (sound_senders H (fun id' => ?_) fun id' sr' hsr' => ?_) _ _
          · rw [SortedMap.contains_insert, Bool.or_eq_right_iff_imp, decide_eq_true_eq]
            rintro rfl
            exact SortedMap.contains_eq_true.mpr ⟨sr, hsr⟩
          · rw [SortedMap.find?_insert] at hsr'
            split at hsr'
            · rename_i hid
              subst hid
              obtain rfl := Option.some.inj hsr'
              exact H.refs id' sr hsr
            · exact H.refs id' sr' hsr'

theorem sound_patchReceiver (H : s.Sound h) (body : Except Text (Patch ReceiverTpPatch)) :
    (s.patchReceiverStaged e id body).2.Sound h := by
  cases body with
  | error err => exact H
  | ok p =>
      rw [patchReceiverStaged]
      cases hrr : s.receivers.find? id with
      | none => exact H
      | some rr =>
          refine sound_schedule (sound_receivers H (fun id' => ?_) fun id' rr' hrr' => ?_) _ _
          · rw [SortedMap.contains_insert, Bool.or_eq_right_iff_imp, decide_eq_true_eq]
            rintro rfl
            exact SortedMap.contains_eq_true.mpr ⟨rr, hrr⟩
          · rw [SortedMap.find?_insert] at hrr'
            split at hrr'
            · rename_i hid
              subst hid
              obtain rfl := Option.some.inj hrr'
              exact H.receiverId id' rr hrr
            · exact H.receiverId id' rr' hrr'

/-- `rebuild_device_json_locked` lists what is there. -/
theorem sound_rebuildDeviceJson (hrefs : ∀ id sr, s.senders.find? id = some sr → sr.refs = h.senderRefs id)
    (hid : ∀ id rr, s.receivers.find? id = some rr →
      rr.receiverId = h.makeResourceUuid "receiver".toList id) : (s.rebuildDeviceJson h e).Sound h :=
  ⟨rfl, rfl, rfl, hrefs, hid⟩

theorem sound_writeSender (H : s.Sound h) (src : StreamSource) (tp : List SenderTp) :
    (s.writeSender h e id src tp).Sound h := by
  refine sound_rebuildDeviceJson (fun id' sr hsr => ?_) H.receiverId
  rw [SortedMap.find?_insert] at hsr
  split at hsr
  · rename_i hid
    subst hid
    obtain rfl := Option.some.inj hsr
    rfl
  · exact H.refs id' sr hsr

theorem sound_writeReceiver (H : s.Sound h) (sink : StreamSink) (tp : List ReceiverTp) :
    (s.writeReceiver h e id sink tp).Sound h := by
  refine sound_rebuildDeviceJson H.refs fun id' rr hrr => ?_
  rw [SortedMap.find?_insert] at hrr
  split at hrr
  · rename_i hid
    subst hid
    obtain rfl := Option.some.inj hrr
    rfl
  · exact H.receiverId id' rr hrr

theorem sound_eraseSender (H : s.Sound h) : (s.eraseSender h e id).Sound h := by
  refine sound_rebuildDeviceJson (fun id' sr hsr => ?_) H.receiverId
  rw [SortedMap.find?_erase] at hsr
  split at hsr
  · cases hsr
  · exact H.refs id' sr hsr

theorem sound_eraseReceiver (H : s.Sound h) : (s.eraseReceiver h e id).Sound h := by
  refine sound_rebuildDeviceJson H.refs fun id' rr hrr => ?_
  rw [SortedMap.find?_erase] at hrr
  split at hrr
  · cases hrr
  · exact H.receiverId id' rr hrr

/-- The JSON of a sender is built with the ids of its entry. -/
theorem sound_rebuildSender (H : s.Sound h) (src : StreamSource) : (s.rebuildSender h e id src).Sound h := by
  refine sound_modifySender H _ fun sr hsr => ?_
  rw [← hsr]
  simp only [SenderResources.refs, NmosHost.senderRefs, List.cons.injEq] at hsr
  obtain ⟨-, hflow, hsender, -, -, -, hsender', hflow', -⟩ := hsr
  simp only [SenderResources.refs, NmosHost.buildSenderJson, hsender.trans hsender'.symm,
    hflow.trans hflow'.symm]

theorem sound_promoteReceiver (H : s.Sound h) (a : ReceiverActivation) :
    (s.promoteReceiver id a).Sound h :=
  sound_congr (sound_modifyReceiver H (fun rr => rr.promoted a) fun _ => rfl) rfl rfl rfl

/-- **Every critical section keeps the resources sound.** -/
theorem sound_exec (H : s.Sound h) (op : Op) : (op.exec h e s).2.Sound h := by
  cases op with
  | patchSender id body => exact sound_patchSender H body
  | patchReceiver id body => exact sound_patchReceiver H body
  | resetStaged k id => exact sound_modifyStagedAct H k fun _ => {}
  | stamp k id => exact sound_modifyStagedAct H k fun act => { act with activationTime := e.makeVersion }
  | rebuildSender id src => exact sound_rebuildSender H src
  | storeSink id sink => exact sound_modifyReceiver H _ fun _ => rfl
  | writeSender id src tp push => exact sound_writeSender H src tp
  | writeReceiver id sink tp push => exact sound_writeReceiver H sink tp
  | connect | takeDue | register | unregister | startServer => exact sound_congr H rfl rfl rfl
  | promoteSender id =>
      simp only [Op.exec]
      split
      · exact sound_modifySender H _ fun _ hsr => hsr
      · exact H
  | promoteReceiver id a sdp =>
      simp only [Op.exec]
      split
      · exact sound_promoteReceiver H a
      · exact H
  | eraseSender id =>
      simp only [Op.exec]
      split
      · exact sound_eraseSender H
      · exact H
  | eraseReceiver id =>
      simp only [Op.exec]
      split
      · exact sound_eraseReceiver H
      · exact H
  | nextEvent =>
      simp only [Op.exec]
      split
      · exact sound_congr H rfl rfl rfl
      · exact H
  | _ =>
      simp only [Op.exec]
      repeat' split
      all_goals exact H

/-- The states the critical sections lead to, in any order and with any values in the local
variables, while the session manager and the registries do what they like. -/
inductive Touched (h : NmosHost) : NmosManager → Prop
  | init (e : NmosEnv) (sm : SessionManager) : Touched h (rebuildDeviceJson h e { sm := sm })
  | exec {s : NmosManager} (e : NmosEnv) (op : Op) (H : Touched h s) : Touched h (op.exec h e s).2
  | hear {s : NmosManager} (sm : SessionManager) (H : Touched h s) : Touched h (s.hear sm)
  | queue {s : NmosManager} (evs : List NmosEvent) (H : Touched h s) :
      Touched h { s with pendingEvents := evs }

theorem sound_touched (H : s.Touched h) : s.Sound h := by
  induction H with
  | init e sm =>
      refine sound_rebuildDeviceJson (fun id sr hsr => ?_) fun id rr hrr => ?_
      · cases hsr
      · cases hrr
  | exec e op _ ih => exact sound_exec ih op
  | hear sm _ ih => exact sound_congr ih rfl rfl rfl
  | queue evs _ ih => exact sound_congr ih rfl rfl rfl

/-! ## Different resources have different ids -/

/-- The names of the resources, without the namespace: a type and an id. -/
def resourceNames (s : NmosManager) : List (Text × UInt8) :=
  (s.senders.entries.map Prod.fst).flatMap (fun id =>
      [("source".toList, id), ("flow".toList, id), ("sender".toList, id)]) ++
    (s.receivers.entries.map Prod.fst).map fun id => ("receiver".toList, id)

/-- The text `make_resource_uuid` gives to `make_uuid5`. -/
def nameText (p : Text × UInt8) : Text := p.1 ++ '-' :: ofNat p.2.toNat

theorem nodup_resourceNames (s : NmosManager) : s.resourceNames.Nodup := by
  refine List.Nodup.append ?_ ?_ ?_
  · refine List.nodup_flatMap.mpr ⟨fun id _ => by simp, s.senders.keys_nodup.imp fun {id id'} hne => ?_⟩
    intro p hp hp'
    simp only [List.mem_cons, List.not_mem_nil, or_false] at hp hp'
    rcases hp with rfl | rfl | rfl <;> simp_all
  · exact s.receivers.keys_nodup.map fun id id' hp => (Prod.mk.inj hp).2
  · intro p hp hp'
    obtain ⟨id, -, hp⟩ := List.mem_flatMap.mp hp
    obtain ⟨id', -, rfl⟩ := List.mem_map.mp hp'
    simp at hp

theorem not_mem_type {p : Text × UInt8} (hp : p ∈ s.resourceNames) : '-' ∉ p.1 := by
  rcases List.mem_append.mp hp with hp | hp
  · obtain ⟨id, -, hp⟩ := List.mem_flatMap.mp hp
    simp only [List.mem_cons, List.not_mem_nil, or_false] at hp
    rcases hp with rfl | rfl | rfl <;> simp
  · obtain ⟨id, -, rfl⟩ := List.mem_map.mp hp
    simp

/-- The name says the type and the id. -/
theorem nameText_inj {p q : Text × UInt8} (hp : '-' ∉ p.1) (hq : '-' ∉ q.1)
    (h : nameText p = nameText q) : p = q := by
  have hbreak := breakAt_append hp (u := ofNat p.2.toNat)
  rw [show p.1 ++ '-' :: ofNat p.2.toNat = q.1 ++ '-' :: ofNat q.2.toNat from h, breakAt_append hq] at hbreak
  obtain ⟨htype, hid⟩ := Prod.mk.inj (Option.some.inj hbreak)
  have hnat : p.2.toNat = q.2.toNat := by
    rw [← digitsValue_ofNat p.2.toNat, ← hid, digitsValue_ofNat]
  exact Prod.ext htype.symm (UInt8.toNat_inj.mp hnat)

/-- The ids are made of the names. -/
theorem resourceIds_eq (H : s.Sound h) : s.resourceIds h =
    h.makeUuid5 dnsNamespace h.host.config.nodeId ::
      (("device".toList :: s.resourceNames.map nameText).map (h.makeUuid5 h.nodeId)) := by
  have hsenders : ∀ p ∈ s.senders.entries, [p.2.sourceId, p.2.flowId, p.2.senderId] =
      ([("source".toList, p.1), ("flow".toList, p.1), ("sender".toList, p.1)].map nameText).map
        (h.makeUuid5 h.nodeId) := by
    intro p hp
    have hrefs := H.refs p.1 p.2 (SortedMap.mem_entries.mp hp)
    simp only [SenderResources.refs, NmosHost.senderRefs, List.cons.injEq] at hrefs
    rw [hrefs.1, hrefs.2.1, hrefs.2.2.1]
    rfl
  have hreceivers : ∀ p ∈ s.receivers.entries, p.2.receiverId =
      h.makeUuid5 h.nodeId (nameText ("receiver".toList, p.1)) :=
    fun p hp => H.receiverId p.1 p.2 (SortedMap.mem_entries.mp hp)
  rw [resourceIds, resourceNames, List.flatMap_congr hsenders, List.map_congr_left hreceivers]
  simp only [NmosHost.nodeId, H.device, NmosHost.deviceId, List.map_cons, List.map_append, List.map_map,
    List.map_flatMap, List.flatMap_map, List.cons_append, Function.comp_def]

/-- **No two resources have one id.** -/
theorem nodup_resourceIds (H : s.Sound h) (hinj : Function.Injective2 h.makeUuid5)
    (hdns : ∀ ns name, h.makeUuid5 ns name ≠ dnsNamespace) : (s.resourceIds h).Nodup := by
  have hnames : ("device".toList :: s.resourceNames.map nameText).Nodup := by
    refine List.nodup_cons.mpr ⟨fun hmem => ?_, ?_⟩
    · obtain ⟨p, -, hp⟩ := List.mem_map.mp hmem
      have hdash : '-' ∈ nameText p := List.mem_append_right _ List.mem_cons_self
      rw [hp] at hdash
      simp at hdash
    · refine List.Nodup.map_on (fun p hp q hq heq => ?_) s.nodup_resourceNames
      exact nameText_inj (not_mem_type hp) (not_mem_type hq) heq
  rw [resourceIds_eq H]
  refine List.nodup_cons.mpr ⟨fun hmem => ?_, hnames.map fun t t' heq => (hinj heq).2⟩
  obtain ⟨name, -, heq⟩ := List.mem_map.mp hmem
  exact hdns _ _ (hinj heq).1

/-- What is served carries the ids of the entries. -/
theorem ids_docs (H : s.Sound h) (e : NmosEnv) : h.nodeId :: (s.docs h e).map Doc.id = s.resourceIds h := by
  have hsenders : ∀ p ∈ s.senders.entries, (senderDocs p.2).map Doc.id =
      [p.2.sourceId, p.2.flowId, p.2.senderId] := by
    intro p hp
    have hrefs := H.refs p.1 p.2 (SortedMap.mem_entries.mp hp)
    simp only [SenderResources.refs, NmosHost.senderRefs, List.cons.injEq] at hrefs
    obtain ⟨hsource, hflow, hsender, hsource', hflow', -, hsender', -⟩ := hrefs
    simp only [senderDocs, List.map_cons, List.map_nil, Doc.id, hsource', hflow', hsender', hsource, hflow,
      hsender]
  rw [resourceIds, ← List.flatMap_congr hsenders]
  simp only [docs, List.map_cons, List.map_append, List.map_flatMap, List.map_map, Doc.id,
    List.cons_append, Function.comp_def, receiverJson, NmosHost.buildReceiverJson]

theorem integrity_of_sound (H : s.Sound h) (hinj : Function.Injective2 h.makeUuid5)
    (hdns : ∀ ns name, h.makeUuid5 ns name ≠ dnsNamespace) : s.Integrity h := by
  have hids := nodup_resourceIds H hinj hdns
  refine ⟨H.senders, H.receivers, ?_, ?_, fun id sr hsr => ?_, fun id sr hsr => ?_, ids_docs H, hids⟩
  · rw [H.senders]
    have hsub : (s.senders.entries.map fun p => p.2.senderId).Sublist
        (s.senders.entries.flatMap fun p => [p.2.sourceId, p.2.flowId, p.2.senderId]) := by
      rw [List.map_eq_flatMap]
      exact .flatMap_right _ fun p _ => .cons _ (.cons _ (.refl _))
    exact hids.sublist (.cons _ (.cons _ (hsub.trans (List.sublist_append_left ..))))
  · rw [H.receivers]
    exact hids.sublist (List.sublist_append_right ..)
  · have hrefs := H.refs id sr hsr
    simp only [SenderResources.refs, NmosHost.senderRefs, List.cons.injEq] at hrefs
    exact hrefs.2.2.2.2.2.1.trans hrefs.1.symm
  · have hrefs := H.refs id sr hsr
    simp only [SenderResources.refs, NmosHost.senderRefs, List.cons.injEq] at hrefs
    exact hrefs.2.2.2.2.2.2.2.1.trans hrefs.2.1.symm

/-- **The references between the resources are right**, whatever critical sections there were. -/
theorem referential_integrity (h : NmosHost) (hinj : Function.Injective2 h.makeUuid5)
    (hdns : ∀ ns name, h.makeUuid5 ns name ≠ dnsNamespace) (s : NmosManager) (hs : s.Touched h) :
    s.Integrity h :=
  integrity_of_sound (sound_touched hs) hinj hdns

end NmosManager

namespace System
variable {h : NmosHost} {σ σ' : System}

theorem touched_step {l : Label} (H : σ.nmos.Touched h) (hs : σ.step h l = some σ') : σ'.nmos.Touched h := by
  rcases step_cases hs with ⟨ev, sm, -, hsm, rfl⟩ | ⟨found, -, rfl⟩ | ⟨t, op, -, -, -, -, rfl⟩ |
    ⟨t, e, op, rest, -, -, -, rfl⟩
  · exact .hear sm H
  · exact .queue _ H
  · exact H
  · exact .exec e op H

/-- What the threads do in a run is a sequence of critical sections. -/
theorem Reachable.touched (H : σ.Reachable h) : σ.nmos.Touched h := by
  obtain ⟨env, now, before, sm, e, labels, -, hrun⟩ := H
  exact run_keeps (J := fun σ : System => σ.nmos.Touched h) (P := fun _ _ => True)
    (fun _ _ _ H _ hs => touched_step H hs) (.init e sm) (along_of_forall fun _ _ => trivial) hrun

/-- **The references are right in every reachable state.** -/
theorem Reachable.integrity (H : σ.Reachable h) (hinj : Function.Injective2 h.makeUuid5)
    (hdns : ∀ ns name, h.makeUuid5 ns name ≠ dnsNamespace) : σ.nmos.Integrity h :=
  NmosManager.integrity_of_sound (NmosManager.sound_touched H.touched) hinj hdns

end System

namespace NmosManager

/-- A pair of texts as one, the length of the first ahead. -/
def pairText (ns name : Text) : Text := ofNat ns.length ++ ':' :: (ns ++ name)

theorem pairText_injective : Function.Injective2 pairText := by
  intro ns ns' name name' heq
  have hno : ∀ n : ℕ, ':' ∉ ofNat n := not_mem_ofNat (by decide)
  have hbreak := breakAt_append (hno ns.length) (u := ns ++ name)
  rw [show ofNat ns.length ++ ':' :: (ns ++ name) = ofNat ns'.length ++ ':' :: (ns' ++ name') from heq,
    breakAt_append (hno ns'.length)] at hbreak
  obtain ⟨hlength, happend⟩ := Prod.mk.inj (Option.some.inj hbreak)
  have hlength : ns'.length = ns.length := by
    rw [← digitsValue_ofNat ns'.length, hlength, digitsValue_ofNat]
  obtain ⟨hns, hname⟩ := List.append_inj happend hlength
  exact ⟨hns.symm, hname.symm⟩

theorem pairText_ne (ns name : Text) : pairText ns name ≠ dnsNamespace := by
  intro heq
  have hcolon : ':' ∈ pairText ns name := List.mem_append_right _ List.mem_cons_self
  rw [heq] at hcolon
  exact absurd hcolon (by decide)

/-- Two sources and a sink are registered, and then the first sender is activated. -/
def twoSenders : List Event × List Label :=
  ([.request (.addSource (.accepting 7) (stereoSource 1 "a".toList)),
    .request (.addSource (.accepting 8) (stereoSource 2 "b".toList)),
    .request (.addSink (.accepting 9)
      (stereoSink 1 "a".toList (redundantSdp "239.1.0.1/15".toList "239.1.0.2/15".toList)))],
    turns 31 0 {} ++ [.start 1 (.patchSender 1 (activateNow { peerId := some "r".toList }))] ++ turns 5 1 {})

theorem referential_integrity_senders : ∃ s : NmosManager,
    (s.senders.contains 1 = true ∧ s.senders.contains 2 = true ∧ s.receivers.contains 1 = true) ∧
    s.Integrity { makeUuid5 := pairText } := by
  obtain ⟨σ, hσ, hthere⟩ := reachable_sampleRun { makeUuid5 := pairText } twoSenders.1 twoSenders.2
    (fun σ => σ.nmos.senders.contains 1 = true ∧ σ.nmos.senders.contains 2 = true ∧
      σ.nmos.receivers.contains 1 = true) (by decide +kernel)
  exact ⟨σ.nmos, hthere, referential_integrity { makeUuid5 := pairText } pairText_injective pairText_ne
    σ.nmos hσ.touched⟩

end NmosManager
end Aes67Daemon
