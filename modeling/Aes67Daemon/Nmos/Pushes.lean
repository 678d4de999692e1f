import Aes67Daemon.Nmos.Served
import Aes67Daemon.Nmos.Worker

/-!
# What an operation pushes

The resources the Node API serves change in three ways.  The worker writes and
erases them, and pushes what it did.  A full registration writes all of them and
pushes everything at its end.  An activation changes a sender or a receiver and
pushes nothing.

## Main definitions

* `Op.awaits`, `Op.adds`, `Op.snapshot`, `Op.changes` — the operations by what they
  have to do with a push of a resource.
* `Op.Reflects`, `reflects_exec` — what an operation does to a resource, and to the
  registry once what it leaves is pushed.
* `Op.Settles`, `settles_exec` — how a push that is awaited comes about.
-/
namespace Aes67Daemon

open Text

/-- The streams a type of resources is made of. -/
def DocType.kind? : DocType → Option Kind
  | .device => none
  | .source | .flow | .sender => some .source
  | .receiver => some .sink

/-- Whether a resource is made of a stream. -/
def DocType.concerns (type : DocType) (id : UInt8) (k : Kind) (id' : UInt8) : Bool :=
  type.kind? = some k && id = id'

/-- Whether a resource is made of a stream or lists it. -/
def DocType.touches (type : DocType) (id : UInt8) (k : Kind) (id' : UInt8) : Bool :=
  type = .device || type.concerns id k id'

namespace Op

/-- The operations of the worker that go on to push a resource. -/
def awaits (type : DocType) (id : UInt8) : Op → Bool
  | .fullRegistration | .collectAll => true
  | .getSource id' push | .senderTp id' _ push | .writeSender id' _ _ push =>
    push && type.concerns id .source id'
  | .eraseSender id' => type.concerns id .source id'
  | .getSink id' push | .writeReceiver id' _ _ push => push && type.concerns id .sink id'
  | .eraseReceiver id' => type.concerns id .sink id'
  | .collectSender id' => type.touches id .source id'
  | .collectReceiver id' => type.touches id .sink id'
  | _ => false

/-- The operations of an activation that go on to add the sink of a receiver. -/
def adds (type : DocType) (id : UInt8) : Op → Bool
  | .readSink id' _ _ => type.concerns id .sink id'
  | .connect sink => type.concerns id .sink sink.id
  | _ => false

/-- The operations of a full registration before its pushes. -/
def snapshot : Op → Bool
  | .getSources | .getSinks => true
  | .getSource _ push | .senderTp _ _ push | .writeSender _ _ _ push | .getSink _ push
  | .writeReceiver _ _ _ push => !push
  | _ => false

/-- The operations that go on to push everything. -/
def full : Op → Bool
  | .fullRegistration | .collectAll => true
  | _ => false

/-- The operations of an activation that change a resource. -/
def changes (type : DocType) (id : UInt8) : Op → Bool
  | .rebuildSender id' _ => type = .sender && id = id'
  | .promoteReceiver id' _ _ | .storeSink id' _ => type.concerns id .sink id'
  | _ => false

/-- What is collected is there. -/
def Present (s : NmosManager) : Op → Prop
  | .collectSender id => s.has .source id = true
  | .collectReceiver id => s.has .sink id = true
  | _ => True

end Op

/-- What is served of the resources of a sender. -/
def SenderResources.shown (sr : SenderResources) : SourceDoc × FlowDoc × SenderDoc :=
  (sr.sourceJson, sr.flowJson, sr.senderJson)

/-- What the resource of a receiver is built from. -/
def ReceiverResources.shown (rr : ReceiverResources) : StreamSink × Text × Text :=
  (rr.sink, rr.receiverId, rr.active.peerId)

namespace NmosManager
variable {h : NmosHost} {e : NmosEnv} {s s' : NmosManager} {type : DocType} {id id' : UInt8}

/-! ## What is served after an operation -/

/-- The same is served. -/
structure SameShown (s s' : NmosManager) : Prop where
  device : s'.deviceJson = s.deviceJson
  senders : ∀ id, (s'.senders.find? id).map SenderResources.shown =
    (s.senders.find? id).map SenderResources.shown
  receivers : ∀ id, (s'.receivers.find? id).map ReceiverResources.shown =
    (s.receivers.find? id).map ReceiverResources.shown

theorem SameShown.refl (s : NmosManager) : SameShown s s := ⟨rfl, fun _ => rfl, fun _ => rfl⟩

theorem sameShown_of_eq (hdevice : s'.deviceJson = s.deviceJson) (hsenders : s'.senders = s.senders)
    (hreceivers : s'.receivers = s.receivers) : SameShown s s' :=
  ⟨hdevice, fun id => by rw [hsenders], fun id => by rw [hreceivers]⟩

theorem SameShown.served (H : SameShown s s') (type : DocType) (id : UInt8) :
    s'.served h type id = s.served h type id := by
  have hsender : ∀ f : SourceDoc × FlowDoc × SenderDoc → Doc,
      ((s'.senders.find? id).map fun sr => f sr.shown) = (s.senders.find? id).map fun sr => f sr.shown := by
    intro f
    have := congrArg (Option.map f) (H.senders id)
    simpa only [Option.map_map, Function.comp_def] using this
  have hreceiver : ∀ f : StreamSink × Text × Text → Doc,
      ((s'.receivers.find? id).map fun rr => f rr.shown) = (s.receivers.find? id).map fun rr => f rr.shown := by
    intro f
    have := congrArg (Option.map f) (H.receivers id)
    simpa only [Option.map_map, Function.comp_def] using this
  cases type with
  | device => exact congrArg (fun doc => some (Doc.device doc).content) H.device
  | source => exact hsender fun p => (Doc.source p.1).content
  | flow => exact hsender fun p => (Doc.flow p.2.1).content
  | sender => exact hsender fun p => (Doc.sender p.2.2).content
  | receiver =>
      exact hreceiver fun p => (Doc.receiver (h.buildReceiverJson (NmosEnv.makeVersion {}) p.1 p.2.1 p.2.2)).content

theorem sameShown_modifySender (f : SenderResources → SenderResources) (hf : ∀ sr, (f sr).shown = sr.shown) :
    SameShown s { s with senders := s.senders.modify id f } := by
  refine ⟨rfl, fun id' => ?_, fun _ => rfl⟩
  simp only [SortedMap.find?_modify]
  split
  · rename_i hid
    rw [hid, Option.map_map]
    exact Option.map_congr fun sr _ => hf sr
  · rfl

theorem sameShown_modifyReceiver (f : ReceiverResources → ReceiverResources)
    (hf : ∀ rr, (f rr).shown = rr.shown) : SameShown s { s with receivers := s.receivers.modify id f } := by
  refine ⟨rfl, fun _ => rfl, fun id' => ?_⟩
  simp only [SortedMap.find?_modify]
  split
  · rename_i hid
    rw [hid, Option.map_map]
    exact Option.map_congr fun rr _ => hf rr
  · rfl

theorem sameShown_modifyStagedAct (k : Kind) (f : Is05Activation → Is05Activation) :
    SameShown s (s.modifyStagedAct k id f) := by
  cases k with
  | source => exact sameShown_modifySender _ fun _ => rfl
  | sink => exact sameShown_modifyReceiver _ fun _ => rfl

theorem sameShown_patchSender (body : Except Text (Patch SenderTpPatch)) :
    SameShown s (s.patchSenderStaged e id body).2 := by
  cases body with
  | error err => exact .refl s
  | ok p =>
      rw [patchSenderStaged]
      cases hsr : s.senders.find? id with
      | none => exact .refl s
      | some sr =>
          have hshown : ∀ staged id', ((s.senders.insert id { sr with staged := staged }).find? id').map
              SenderResources.shown = (s.senders.find? id').map SenderResources.shown := by
            intro staged id'
            rw [SortedMap.find?_insert]
            split
            · rename_i hid
              rw [hid, hsr]
              rfl
            · rfl
          simp only [schedule]
          split
          · exact ⟨rfl, hshown _, fun _ => rfl⟩
          · exact ⟨rfl, hshown _, fun _ => rfl⟩

theorem sameShown_patchReceiver (body : Except Text (Patch ReceiverTpPatch)) :
    SameShown s (s.patchReceiverStaged e id body).2 := by
  cases body with
  | error err => exact .refl s
  | ok p =>
      rw [patchReceiverStaged]
      cases hrr : s.receivers.find? id with
      | none => exact .refl s
      | some rr =>
          have hshown : ∀ staged id', ((s.receivers.insert id { rr with staged := staged }).find? id').map
              ReceiverResources.shown = (s.receivers.find? id').map ReceiverResources.shown := by
            intro staged id'
            rw [SortedMap.find?_insert]
            split
            · rename_i hid
              rw [hid, hrr]
              rfl
            · rfl
          simp only [schedule]
          split
          · exact ⟨rfl, fun _ => rfl, hshown _⟩
          · exact ⟨rfl, fun _ => rfl, hshown _⟩

/-- A resource that is not made of the source that is written or erased. -/
theorem served_senders_of_ne (hno : type.touches id .source id' = false)
    (hreceivers : s'.receivers = s.receivers)
    (hsenders : ∀ id, id ≠ id' → s'.senders.find? id = s.senders.find? id) :
    s'.served h type id = s.served h type id := by
  have hne : type.kind? = some .source → id ≠ id' := by
    rintro hk rfl
    simp [DocType.touches, DocType.concerns, hk] at hno
  cases type with
  | device => simp [DocType.touches] at hno
  | receiver => simp only [served, hreceivers]
  | source | flow | sender => simp only [served, hsenders id (hne rfl)]

/-- A resource that is not made of the sink that is written or erased. -/
theorem served_receivers_of_ne (hno : type.touches id .sink id' = false)
    (hsenders : s'.senders = s.senders)
    (hreceivers : ∀ id, id ≠ id' → s'.receivers.find? id = s.receivers.find? id) :
    s'.served h type id = s.served h type id := by
  have hne : type.kind? = some .sink → id ≠ id' := by
    rintro hk rfl
    simp [DocType.touches, DocType.concerns, hk] at hno
  cases type with
  | device => simp [DocType.touches] at hno
  | receiver => simp only [served, hreceivers id (hne rfl)]
  | source | flow | sender => simp only [served, hsenders]

/-- A resource that is made of a stream is served when the stream has an entry. -/
theorem served_isSome {k : Kind} (hk : type.kind? = some k) :
    (s.served h type id).isSome = s.has k id := by
  cases type with
  | device => cases hk
  | source | flow | sender | receiver =>
      obtain rfl := Option.some.inj hk
      simp [served, has, SortedMap.contains]

theorem served_eq_none {k : Kind} (hk : type.kind? = some k) (hhas : s.has k id = false) :
    s.served h type id = none := by
  rw [← Option.not_isSome_iff_eq_none, served_isSome hk, hhas]
  exact Bool.false_ne_true

/-- A resource a stream has something to do with is the device, or made of the stream. -/
theorem touches_cases {k : Kind} (htouch : type.touches id k id' = true) :
    type = .device ∨ type.kind? = some k ∧ id = id' := by
  simpa [DocType.touches, DocType.concerns] using htouch

/-- What is written is served. -/
theorem served_written {k : Kind} (htouch : type.touches id k id' = true) (hhas : s.has k id' = true) :
    (s.served h type id).isSome = true := by
  rcases touches_cases htouch with rfl | ⟨hk, rfl⟩
  · rfl
  · rw [served_isSome hk]
    exact hhas

/-- What is collected is what the Node API has. -/
theorem mem_docs_collectSender {sr : SenderResources} (hsr : s.senders.find? id = some sr) :
    ∀ doc ∈ senderDocs sr ++ [Doc.device s.deviceJson], doc ∈ s.docs h e := by
  intro doc hdoc
  rcases List.mem_append.mp hdoc with hdoc | hdoc
  · exact mem_docs_sender hsr hdoc
  · exact List.mem_singleton.mp hdoc ▸ List.mem_cons_self

theorem mem_docs_collectReceiver {rr : ReceiverResources} (hrr : s.receivers.find? id = some rr) :
    ∀ doc ∈ [Doc.receiver (receiverJson h e rr), Doc.device s.deviceJson], doc ∈ s.docs h e := by
  intro doc hdoc
  rcases List.mem_pair.mp hdoc with rfl | rfl
  · exact mem_docs_receiver hrr
  · exact List.mem_cons_self

end NmosManager

/-! ## What is pushed after an operation -/

namespace Op
variable {h : NmosHost} {e : NmosEnv} {s : NmosManager} {type : DocType} {id id' : UInt8}

/-- The operations that leave pushes to be done. -/
def collects : Op → Bool
  | .collectAll | .collectSender _ | .collectReceiver _ | .eraseSender _ | .eraseReceiver _ => true
  | _ => false

theorem final_of_collects {op : Op} (hop : op.collects = true) : op.final = true := by
  cases op <;> first | rfl | cases hop

theorem post_of_apply {k : Kind} {op : Op} (hop : op ∈ apply k id) (r : Registry) : op.post r = r := by
  rcases mem_apply_cases hop with rfl | rfl | rfl <;> rfl

/-- The other operations leave none. -/
theorem post_exec {op : Op} (hop : op.collects = false) : ∀ op' ∈ (op.exec h e s).1, ∀ r, op'.post r = r := by
  cases op with
  | patchSender id body | patchReceiver id body =>
      exact fun op' hop' => post_of_apply (mem_afterPatch hop')
  | takeDue =>
      intro op' hop'
      obtain ⟨pa, -, hop'⟩ := List.mem_flatMap.mp hop'
      rcases mem_due_cases hop' with rfl | hop'
      · exact fun _ => rfl
      · exact post_of_apply hop'
  | getSources | getSinks => exact List.forall_mem_map.mpr fun _ _ _ => rfl
  | nextEvent =>
      simp only [exec]
      split
      · rename_i ev evs _
        rcases ev with ⟨_ | _, _⟩ | ⟨_ | _, _⟩ | _ | _ <;> simp [handle, post]
      · simp
  | writeSender id src tp push | writeReceiver id sink tp push => cases push <;> simp [exec, post]
  | collectAll | collectSender | collectReceiver | eraseSender | eraseReceiver => cases hop
  | _ =>
      simp only [exec]
      repeat' split
      all_goals simp [post]

/-- An operation does its own push. -/
theorem registry_exec (op : Op) : (op.exec h e s).2.registry = op.post s.registry := by
  cases op with
  | patchSender id body =>
      cases body with
      | error err => rfl
      | ok p =>
          simp only [exec, NmosManager.patchSenderStaged, NmosManager.schedule]
          repeat' split
          all_goals rfl
  | patchReceiver id body =>
      cases body with
      | error err => rfl
      | ok p =>
          simp only [exec, NmosManager.patchReceiverStaged, NmosManager.schedule]
          repeat' split
          all_goals rfl
  | resetStaged k id | stamp k id => cases k <;> rfl
  | _ =>
      simp only [exec]
      repeat' split
      all_goals rfl

/-- What an operation does to a resource, and to the registry once what it leaves is pushed. -/
inductive Reflects (h : NmosHost) (type : DocType) (id : UInt8) (s : NmosManager) (op : Op)
    (next : List Op) (s' : NmosManager) : Prop
  /-- Nothing. -/
  | same (hserved : s'.served h type id = s.served h type id)
      (hpost : ∀ r, (posted next r).content type (h.resourceId type id) =
        r.content type (h.resourceId type id))
  /-- The registry has the resource as it is served. -/
  | fresh (hpost : ∀ r, (posted next r).content type (h.resourceId type id) = s'.served h type id)
  /-- The worker writes the resource, and goes on to push it or everything. -/
  | written (hpush : (∃ op' ∈ next, op'.awaits type id = true) ∨ op.snapshot = true)
      (hsome : (s'.served h type id).isSome = true)
      (hpost : ∀ r, (posted next r).content type (h.resourceId type id) =
        r.content type (h.resourceId type id))
  /-- An activation changes the resource. -/
  | changed (hop : op.changes type id = true)
      (hkeep : (s'.served h type id).isSome = (s.served h type id).isSome)
      (hpost : ∀ r, (posted next r).content type (h.resourceId type id) =
        r.content type (h.resourceId type id))

/-- Erasing the resources of a stream, when the device is pushed and they are deleted. -/
theorem reflects_of_erase {k : Kind} {op : Op} {next : List Op} {s' : NmosManager}
    (hinj : Function.Injective2 h.makeUuid5)
    (hpost : ∀ r, (posted next r).content type (h.resourceId type id) =
      if type = .device then s'.served h type id
      else if type.kind? = some k ∧ h.resourceId type id = h.resourceId type id' then none
      else r.content type (h.resourceId type id))
    (hhas : s'.has k id' = false)
    (hother : type.touches id k id' = false → s'.served h type id = s.served h type id) :
    Reflects h type id s op next s' := by
  by_cases hdevice : type = .device
  · exact .fresh fun r => by rw [hpost, if_pos hdevice]
  by_cases hkey : type.kind? = some k ∧ id = id'
  · obtain ⟨hk, rfl⟩ := hkey
    refine .fresh fun r => ?_
    rw [hpost, if_neg hdevice, if_pos ⟨hk, rfl⟩, NmosManager.served_eq_none hk hhas]
  · refine .same (hother ?_) fun r => ?_
    · rw [← Bool.not_eq_true]
      intro htouch
      rcases NmosManager.touches_cases htouch with hdevice' | hkey'
      · exact hdevice hdevice'
      · exact hkey hkey'
    · rw [hpost, if_neg hdevice, if_neg]
      rintro ⟨hk, heq⟩
      rcases NmosManager.resourceId_inj hinj heq with hdevice' | hid
      · exact hdevice hdevice'
      · exact hkey ⟨hk, hid⟩

/-- `unregister_source` pushes the device, and deletes what it erases. -/
theorem reflects_eraseSender (H : s.Sound h) (hinj : Function.Injective2 h.makeUuid5) :
    Reflects h type id s (.eraseSender id') ((Op.eraseSender id').exec h e s).1
      ((Op.eraseSender id').exec h e s).2 := by
  cases hsr : s.senders.find? id' with
  | none =>
      simp only [exec, hsr]
      exact .same rfl fun _ => rfl
  | some sr =>
      have hrefs := H.refs id' sr hsr
      simp only [SenderResources.refs, NmosHost.senderRefs, List.cons.injEq] at hrefs
      obtain ⟨hsource, hflow, hsender, -⟩ := hrefs
      simp only [exec, hsr, hsource, hflow, hsender]
      refine reflects_of_erase hinj (fun r => ?_) NmosManager.has_eraseSender fun hno => ?_
      · cases type <;>
          simp [posted, post, Registry.content_delete, Registry.content_post, NmosHost.resourceId,
            NmosManager.served, Doc.type, Doc.id, DocType.kind?, NmosManager.eraseSender,
            NmosManager.rebuildDeviceJson, NmosHost.buildDeviceJson]
      · exact NmosManager.served_senders_of_ne hno rfl fun id hne => SortedMap.find?_erase_of_ne _ hne

/-- So does `unregister_sink`. -/
theorem reflects_eraseReceiver (H : s.Sound h) (hinj : Function.Injective2 h.makeUuid5) :
    Reflects h type id s (.eraseReceiver id') ((Op.eraseReceiver id').exec h e s).1
      ((Op.eraseReceiver id').exec h e s).2 := by
  cases hrr : s.receivers.find? id' with
  | none =>
      simp only [exec, hrr]
      exact .same rfl fun _ => rfl
  | some rr =>
      simp only [exec, hrr, H.receiverId id' rr hrr]
      refine reflects_of_erase hinj (fun r => ?_) NmosManager.has_eraseReceiver fun hno => ?_
      · cases type <;>
          simp [posted, post, Registry.content_delete, Registry.content_post, NmosHost.resourceId,
            NmosManager.served, Doc.type, Doc.id, DocType.kind?, NmosManager.eraseReceiver,
            NmosManager.rebuildDeviceJson, NmosHost.buildDeviceJson]
      · exact NmosManager.served_receivers_of_ne hno rfl fun id hne => SortedMap.find?_erase_of_ne _ hne

/-- Writing the resources of a stream. -/
theorem reflects_of_write {k : Kind} {op : Op} {next : List Op} {s' : NmosManager}
    (hpost : ∀ op' ∈ next, ∀ r, op'.post r = r)
    (hpush : type.touches id k id' = true → (∃ op' ∈ next, op'.awaits type id = true) ∨ op.snapshot = true)
    (hhas : s'.has k id' = true)
    (hother : type.touches id k id' = false → s'.served h type id = s.served h type id) :
    Reflects h type id s op next s' := by
  have hposted : ∀ r, (posted next r).content type (h.resourceId type id) =
      r.content type (h.resourceId type id) := fun r => by rw [posted_eq_self hpost]
  cases htouch : type.touches id k id' with
  | true => exact .written (hpush htouch) (NmosManager.served_written htouch hhas) hposted
  | false => exact .same (hother htouch) hposted

/-- Pushing what is served. -/
theorem reflects_of_push {op : Op} (H : s.Sound h) (hinj : Function.Injective2 h.makeUuid5) {docs : List Doc}
    (hsub : ∀ doc ∈ docs, doc ∈ s.docs h e) : Reflects h type id s op (docs.map Op.register) s := by
  by_cases hsome : ∃ doc ∈ docs, doc.type = type ∧ doc.id = h.resourceId type id
  · exact .fresh (NmosManager.content_push H hinj hsub hsome)
  · refine .same rfl fun r => content_postAll_of_not fun doc hdoc hkey => ?_
    exact hsome ⟨doc, hdoc, hkey⟩

/-- An activation of a sender changes its resource, and no other. -/
theorem reflects_rebuildSender (src : StreamSource) : Reflects h type id s (.rebuildSender id' src)
    ((Op.rebuildSender id' src).exec h e s).1 ((Op.rebuildSender id' src).exec h e s).2 := by
  by_cases hkey : type = .sender ∧ id = id'
  · obtain ⟨rfl, rfl⟩ := hkey
    refine .changed (by simp [changes]) ?_ fun _ => rfl
    simp [NmosManager.served, exec, NmosManager.rebuildSender]
  · refine .same ?_ fun _ => rfl
    cases type with
    | device | receiver => rfl
    | source | flow =>
        simp only [NmosManager.served, exec, NmosManager.rebuildSender, SortedMap.find?_modify]
        split
        · rename_i hid
          rw [hid, Option.map_map]
          rfl
        · rfl
    | sender =>
        have hne : id ≠ id' := fun hid => hkey ⟨rfl, hid⟩
        simp only [NmosManager.served, exec, NmosManager.rebuildSender, SortedMap.find?_modify, if_neg hne]

/-- What an activation does to the resource of a receiver. -/
theorem reflects_of_modifyReceiver {op : Op} {next : List Op} {s' : NmosManager} (id' : UInt8)
    (hpost : ∀ op' ∈ next, ∀ r, op'.post r = r)
    (hop : type.concerns id .sink id' = true → op.changes type id = true)
    (hdevice : s'.deviceJson = s.deviceJson) (hsenders : s'.senders = s.senders)
    (f : ReceiverResources → ReceiverResources) (hreceivers : s'.receivers = s.receivers.modify id' f) :
    Reflects h type id s op next s' := by
  have hposted : ∀ r, (posted next r).content type (h.resourceId type id) =
      r.content type (h.resourceId type id) := fun r => by rw [posted_eq_self hpost]
  by_cases hkey : type = .receiver ∧ id = id'
  · obtain ⟨rfl, rfl⟩ := hkey
    refine .changed (hop (by simp [DocType.concerns, DocType.kind?])) ?_ hposted
    simp [NmosManager.served, hreceivers]
  · refine .same ?_ hposted
    cases type with
    | device => simp only [NmosManager.served, hdevice]
    | source | flow | sender => simp only [NmosManager.served, hsenders]
    | receiver =>
        have hne : id ≠ id' := fun hid => hkey ⟨rfl, hid⟩
        simp only [NmosManager.served, hreceivers, SortedMap.find?_modify, if_neg hne]

/-- **What an operation does to a resource.** -/
theorem reflects_exec (H : s.Sound h) (hinj : Function.Injective2 h.makeUuid5) (type : DocType) (id : UInt8)
    (op : Op) :
    Reflects h type id s op (op.exec h e s).1 (op.exec h e s).2 := by
  have hsame : op.collects = false → NmosManager.SameShown s (op.exec h e s).2 →
      Reflects h type id s op (op.exec h e s).1 (op.exec h e s).2 := by
    intro hop hs
    exact .same (hs.served type id) fun r => by rw [posted_eq_self (post_exec hop)]
  cases op with
  | patchSender id' body => exact hsame rfl (NmosManager.sameShown_patchSender body)
  | patchReceiver id' body => exact hsame rfl (NmosManager.sameShown_patchReceiver body)
  | resetStaged k id' => exact hsame rfl (NmosManager.sameShown_modifyStagedAct k fun _ => {})
  | stamp k id' => exact hsame rfl (NmosManager.sameShown_modifyStagedAct k fun act => { act with activationTime := e.makeVersion })
  | promoteSender id' =>
      refine hsame rfl ?_
      simp only [exec]
      split
      · exact NmosManager.sameShown_modifySender _ fun _ => rfl
      · exact .refl s
  | collectAll => exact reflects_of_push H hinj fun _ hdoc => hdoc
  | eraseSender id' => exact reflects_eraseSender H hinj
  | eraseReceiver id' => exact reflects_eraseReceiver H hinj
  | writeSender id' src tp push =>
      refine reflects_of_write (post_exec rfl) (fun htouch => ?_) (NmosManager.has_writeSender src tp) fun hno => ?_
      · cases push with
        | true => exact .inl ⟨.collectSender id', List.mem_singleton.mpr rfl, htouch⟩
        | false => exact .inr rfl
      · exact NmosManager.served_senders_of_ne hno rfl fun id hne => SortedMap.find?_insert_of_ne _ _ hne
  | writeReceiver id' sink tp push =>
      refine reflects_of_write (post_exec rfl) (fun htouch => ?_) (NmosManager.has_writeReceiver sink tp) fun hno => ?_
      · cases push with
        | true => exact .inl ⟨.collectReceiver id', List.mem_singleton.mpr rfl, htouch⟩
        | false => exact .inr rfl
      · exact NmosManager.served_receivers_of_ne hno rfl fun id hne => SortedMap.find?_insert_of_ne _ _ hne
  | collectSender id' =>
      cases hsr : s.senders.find? id' with
      | none =>
          simp only [exec, hsr]
          exact .same rfl fun _ => rfl
      | some sr =>
          simp only [exec, hsr]
          exact reflects_of_push H hinj (NmosManager.mem_docs_collectSender (e := e) hsr)
  | collectReceiver id' =>
      cases hrr : s.receivers.find? id' with
      | none =>
          simp only [exec, hrr]
          exact .same rfl fun _ => rfl
      | some rr =>
          simp only [exec, hrr]
          exact reflects_of_push H hinj (NmosManager.mem_docs_collectReceiver (e := e) hrr)
  | rebuildSender id' src => exact reflects_rebuildSender src
  | promoteReceiver id' a sdp =>
      cases hid : s.receivers.contains id' with
      | true =>
          refine reflects_of_modifyReceiver id' (post_exec rfl) (fun hkey => hkey) ?_ ?_
            (fun rr => rr.promoted a) ?_
          all_goals simp only [exec, hid, if_true, NmosManager.promoteReceiver]
      | false =>
          refine hsame rfl ?_
          simp only [exec, hid]
          exact .refl s
  | storeSink id' sink =>
      exact reflects_of_modifyReceiver id' (post_exec rfl) (fun hkey => hkey) rfl rfl
        (fun rr => { rr with sink := sink }) rfl
  | _ =>
      refine hsame rfl ?_
      simp only [exec]
      repeat' split
      all_goals exact NmosManager.sameShown_of_eq rfl rfl rfl

/-! ## What is pushed carries an id of the node -/

/-- What is pushed is a resource the Node API has. -/
theorem mem_docs_exec {op : Op} {doc : Doc} (hdoc : Op.register doc ∈ (op.exec h e s).1) :
    doc ∈ (op.exec h e s).2.docs h e := by
  cases hop : op.collects with
  | false =>
      have hpost := post_exec hop _ hdoc (fun _ => .empty)
      have hcontent := congrArg (fun r => Registry.content r doc.type doc.id) hpost
      simp only [post, Registry.content_post] at hcontent
      cases hcontent
  | true =>
      cases op with
      | collectAll =>
          obtain ⟨doc', hdoc', heq⟩ := List.mem_map.mp hdoc
          exact Op.register.inj heq ▸ hdoc'
      | collectSender id =>
          cases hsr : s.senders.find? id with
          | none => simp [exec, hsr] at hdoc
          | some sr =>
              simp only [exec, hsr] at hdoc ⊢
              obtain ⟨doc', hdoc', heq⟩ := List.mem_map.mp hdoc
              exact NmosManager.mem_docs_collectSender hsr doc (Op.register.inj heq ▸ hdoc')
      | collectReceiver id =>
          cases hrr : s.receivers.find? id with
          | none => simp [exec, hrr] at hdoc
          | some rr =>
              simp only [exec, hrr] at hdoc ⊢
              exact NmosManager.mem_docs_collectReceiver hrr doc (by simpa using hdoc)
      | eraseSender id =>
          cases hsr : s.senders.find? id with
          | none => simp [exec, hsr] at hdoc
          | some sr =>
              simp [exec, hsr] at hdoc ⊢
              exact hdoc ▸ List.mem_cons_self
      | eraseReceiver id =>
          cases hrr : s.receivers.find? id with
          | none => simp [exec, hrr] at hdoc
          | some rr =>
              simp [exec, hrr] at hdoc ⊢
              exact hdoc ▸ List.mem_cons_self
      | _ => cases hop

/-- What the registry has after some pushes it had before, or it is pushed. -/
theorem content_posted {ops : List Op} {r : Registry} {text : Text}
    (hsome : (posted ops r).content type text ≠ none) : r.content type text ≠ none ∨
      ∃ doc, Op.register doc ∈ ops ∧ doc.type = type ∧ doc.id = text := by
  induction ops generalizing r with
  | nil => exact .inl hsome
  | cons op ops ih =>
      rcases ih hsome with hold | ⟨doc, hdoc, hkey⟩
      · cases op with
        | register doc =>
            change (r.post doc).content type text ≠ none at hold
            rw [Registry.content_post] at hold
            split at hold
            · rename_i hkey
              exact .inr ⟨doc, List.mem_cons_self, hkey.1.symm, hkey.2.symm⟩
            · exact .inl hold
        | unregister type' id' =>
            change (r.delete type' id').content type text ≠ none at hold
            rw [Registry.content_delete] at hold
            split at hold
            · exact absurd rfl hold
            · exact .inl hold
        | _ => exact .inl hold
      · exact .inr ⟨doc, List.mem_cons_of_mem _ hdoc, hkey⟩

/-- **What the registry comes to have** under an id, it had before, or the id is one of the node. -/
theorem content_exec (H : s.Sound h) (op : Op) {r : Registry} {text : Text}
    (hsome : (posted (op.exec h e s).1 r).content type text ≠ none) : r.content type text ≠ none ∨
      ∃ id, text = h.resourceId type id := by
  refine (content_posted hsome).imp_right ?_
  rintro ⟨doc, hdoc, rfl, rfl⟩
  obtain ⟨id, hid, -⟩ := NmosManager.served_of_mem_docs (NmosManager.sound_exec H op) (mem_docs_exec hdoc)
  exact ⟨id, hid⟩

/-! ## How an awaited push comes about -/

/-- What becomes of a push that is awaited. -/
inductive Settles (h : NmosHost) (type : DocType) (id : UInt8) (s : NmosManager) (op : Op)
    (next : List Op) (s' : NmosManager) : Prop
  | awaits (hnext : ∃ op' ∈ next, op'.awaits type id = true)
  | fresh (hpost : ∀ r, (posted next r).content type (h.resourceId type id) = s'.served h type id)
  | gone (hnone : s'.served h type id = none)
  /-- The stream is not there any more. -/
  | lost {k : Kind} (hk : type.kind? = some k) (hop : op.work? = some (.write true, k, id))
      (hnone : (s.sm.books.table k).find? id = none)

/-- The resources of a sender with the device have what the source is made into. -/
theorem exists_senderDocs {sr : SenderResources} (H : s.Sound h) (hsr : s.senders.find? id' = some sr)
    (htouch : type.touches id .source id' = true) :
    ∃ doc ∈ NmosManager.senderDocs sr ++ [Doc.device s.deviceJson],
      doc.type = type ∧ doc.id = h.resourceId type id := by
  obtain ⟨hsource, hflow, hsender⟩ := NmosManager.ids_of_refs (H.refs id' sr hsr)
  rcases NmosManager.touches_cases htouch with rfl | ⟨hk, rfl⟩
  · exact ⟨.device s.deviceJson, by simp, rfl, H.device⟩
  · cases type with
    | device | receiver => cases hk
    | source => exact ⟨.source sr.sourceJson, by simp [NmosManager.senderDocs], rfl, hsource⟩
    | flow => exact ⟨.flow sr.flowJson, by simp [NmosManager.senderDocs], rfl, hflow⟩
    | sender => exact ⟨.sender sr.senderJson, by simp [NmosManager.senderDocs], rfl, hsender⟩

theorem exists_receiverDoc {rr : ReceiverResources} (H : s.Sound h) (hrr : s.receivers.find? id' = some rr)
    (htouch : type.touches id .sink id' = true) :
    ∃ doc ∈ [Doc.receiver (NmosManager.receiverJson h e rr), Doc.device s.deviceJson],
      doc.type = type ∧ doc.id = h.resourceId type id := by
  rcases NmosManager.touches_cases htouch with rfl | ⟨hk, rfl⟩
  · exact ⟨.device s.deviceJson, by simp, rfl, H.device⟩
  · cases type with
    | device | source | flow | sender => cases hk
    | receiver => exact ⟨_, List.mem_cons_self, rfl, H.receiverId id rr hrr⟩

/-- **A push that is awaited comes**, unless the stream is gone. -/
theorem settles_exec (H : s.Sound h) (hinj : Function.Injective2 h.makeUuid5) {op : Op}
    (hpresent : op.Present s) (hop : op.awaits type id = true) :
    Settles h type id s op (op.exec h e s).1 (op.exec h e s).2 := by
  have hconcerns : ∀ {k : Kind} {id' : UInt8}, type.concerns id k id' = true → type.kind? = some k ∧ id = id' := by
    intro k id' hkey
    simpa [DocType.concerns] using hkey
  have htouches : ∀ {k : Kind} {id' : UInt8}, type.concerns id k id' = true → type.touches id k id' = true := by
    intro k id' hkey
    simp [DocType.touches, hkey]
  cases op with
  | fullRegistration => exact .awaits ⟨.collectAll, by simp [exec], rfl⟩
  | collectAll =>
      cases hserved : s.served h type id with
      | none => exact .gone hserved
      | some d =>
          obtain ⟨doc, hdoc, htype, hid, -⟩ := NmosManager.mem_docs_of_served (e := e) H hserved
          exact .fresh (NmosManager.content_push H hinj (fun _ hmem => hmem) ⟨doc, hdoc, htype, hid⟩)
  | getSource id' push =>
      obtain ⟨rfl, hkey⟩ := (Bool.and_eq_true _ _).mp hop
      obtain ⟨hk, rfl⟩ := hconcerns hkey
      simp only [exec, SessionManager.getSource]
      cases hfind : s.sm.sources.find? id with
      | none => exact .lost hk rfl hfind
      | some info => exact .awaits ⟨_, List.mem_singleton.mpr rfl, hop⟩
  | senderTp id' src push => exact .awaits ⟨_, List.mem_singleton.mpr rfl, hop⟩
  | writeSender id' src tp push =>
      obtain ⟨rfl, hkey⟩ := (Bool.and_eq_true _ _).mp hop
      exact .awaits ⟨_, List.mem_singleton.mpr rfl, htouches hkey⟩
  | collectSender id' =>
      obtain ⟨sr, hsr⟩ := SortedMap.contains_eq_true.mp hpresent
      simp only [exec, hsr]
      have hsub := NmosManager.mem_docs_collectSender (h := h) (e := e) hsr
      exact .fresh (NmosManager.content_push H hinj hsub (exists_senderDocs H hsr hop))
  | eraseSender id' =>
      obtain ⟨hk, rfl⟩ := hconcerns hop
      refine .gone (NmosManager.served_eq_none hk ?_)
      simp only [exec]
      split
      · exact NmosManager.has_eraseSender
      · simp [NmosManager.has, SortedMap.contains, *]
  | getSink id' push =>
      obtain ⟨rfl, hkey⟩ := (Bool.and_eq_true _ _).mp hop
      obtain ⟨hk, rfl⟩ := hconcerns hkey
      simp only [exec, SessionManager.getSink]
      cases hfind : s.sm.sinks.find? id with
      | none => exact .lost hk rfl hfind
      | some info => exact .awaits ⟨_, List.mem_singleton.mpr rfl, hop⟩
  | writeReceiver id' sink tp push =>
      obtain ⟨rfl, hkey⟩ := (Bool.and_eq_true _ _).mp hop
      exact .awaits ⟨_, List.mem_singleton.mpr rfl, htouches hkey⟩
  | collectReceiver id' =>
      obtain ⟨rr, hrr⟩ := SortedMap.contains_eq_true.mp hpresent
      simp only [exec, hrr]
      have hsub := NmosManager.mem_docs_collectReceiver (h := h) (e := e) hrr
      exact .fresh (NmosManager.content_push H hinj hsub (exists_receiverDoc H hrr hop))
  | eraseReceiver id' =>
      obtain ⟨hk, rfl⟩ := hconcerns hop
      refine .gone (NmosManager.served_eq_none hk ?_)
      simp only [exec]
      split
      · exact NmosManager.has_eraseReceiver
      · simp [NmosManager.has, SortedMap.contains, *]
  | _ => cases hop

/-! ## What stays to be done -/

theorem awaits_of_full {op : Op} (hop : op.full = true) : op.awaits type id = true := by
  cases op <;> first | rfl | cases hop

/-- The worker goes on to push what it writes or erases for an event. -/
theorem awaits_of_work {k : Kind} {b : Bool} {op : Op} (hk : type.kind? = some k)
    (hop : op.work? = some (if b then .write true else .erase, k, id)) : op.awaits type id = true := by
  cases b <;> cases op <;> simp_all [work?, awaits, DocType.concerns]

theorem final_of_full {op : Op} (hop : op.full = true) : op.final = true := by
  cases op <;> first | rfl | cases hop

theorem ofWorker_of_snapshot {op : Op} (hop : op.snapshot = true) : op.ofWorker = true := by
  cases op <;> first | rfl | cases hop

theorem not_full_of_snapshot {op : Op} (hop : op.snapshot = true) : op.full = false := by
  cases op <;> first | rfl | cases hop

theorem present_of_not_final {op : Op} (hop : op.final = false) : op.Present s := by
  cases op with
  | collectSender | collectReceiver => cases hop
  | _ => trivial

/-- Only erasing the resources of a stream takes them away. -/
theorem has_exec {k : Kind} {op : Op} (hop : op.work? ≠ some (.erase, k, id)) (hhas : s.has k id = true) :
    (op.exec h e s).2.has k id = true := by
  cases moves_exec h e k id s op with
  | silent _ _ hs => exact hs.has.trans hhas
  | connect sink _ _ hs =>
      rw [hs]
      cases k <;> exact hhas
  | event ev evs _ _ _ hs =>
      rw [hs]
      cases k <;> exact hhas
  | read _ _ _ hs | lost _ _ _ hs | list _ hs => rw [hs, hhas]
  | write _ _ _ _ hhas => exact hhas
  | erase hop' => exact absurd hop' hop

theorem final_of_erase {k : Kind} {op : Op} (hop : op.work? = some (.erase, k, id)) : op.final = true := by
  cases op <;> first | rfl | cases hop

/-- What is to be collected stays while nothing is erased. -/
theorem Present.exec {op op' : Op} (H : op'.Present s) (hop : ∀ k id, op.work? ≠ some (.erase, k, id)) :
    op'.Present (op.exec h e s).2 := by
  cases op' with
  | collectSender id' => exact has_exec (hop .source id') H
  | collectReceiver id' => exact has_exec (hop .sink id') H
  | _ => trivial

/-- Only the worker takes an event from the queue. -/
theorem queued_exec {k : Kind} {op : Op} (hop : op ≠ .nextEvent) (hqueue : s.queued k id ≠ []) :
    (op.exec h e s).2.queued k id ≠ [] := by
  cases moves_exec h e k id s op with
  | silent _ _ hs => rw [NmosManager.queued_congr hs.queue]; exact hqueue
  | connect sink _ _ hs =>
      rw [hs, NmosManager.addSink, NmosManager.queued, NmosManager.hear, List.filterMap_append]
      exact List.append_ne_nil_of_left_ne_nil hqueue _
  | event ev evs hop' => exact absurd hop' hop
  | read _ _ _ hs | lost _ _ _ hs | list _ hs => rw [hs]; exact hqueue
  | write _ _ _ hsame | erase _ _ _ hsame => rw [NmosManager.queued_congr hsame]; exact hqueue

/-- What is collected was just written. -/
theorem present_exec (op : Op) : ∀ op' ∈ (op.exec h e s).1, op'.Present (op.exec h e s).2 := by
  cases hfinal : op.final with
  | false => exact fun op' hop' => present_of_not_final ((not_final_exec op).2 hfinal op' hop')
  | true =>
      cases op with
      | writeSender id src tp push =>
          obtain rfl : push = true := hfinal
          exact List.forall_mem_singleton.mpr (NmosManager.has_writeSender src tp)
      | writeReceiver id sink tp push =>
          obtain rfl : push = true := hfinal
          exact List.forall_mem_singleton.mpr (NmosManager.has_writeReceiver sink tp)
      | nextEvent =>
          simp only [exec]
          split
          · rename_i ev evs _
            rcases ev with ⟨_ | _, _⟩ | ⟨_ | _, _⟩ | _ | _ <;> simp [handle, Present]
          · simp
      | collectAll => exact List.forall_mem_map.mpr fun _ _ => trivial
      | collectSender id =>
          simp only [exec]
          split
          · exact List.forall_mem_map.mpr fun _ _ => trivial
          · simp
      | fullRegistration | collectReceiver | eraseSender | eraseReceiver | getSource | senderTp | getSink =>
          simp only [exec]
          repeat' split
          all_goals simp [Present]
      | _ => cases hfinal

/-- A full registration is what writes resources without pushing them. -/
theorem snapshot_exec (op : Op) : ∀ op' ∈ (op.exec h e s).1, op'.snapshot = true →
    op.snapshot = true ∨ op = .fullRegistration := by
  have hnone : (∀ op' ∈ (op.exec h e s).1, op'.snapshot = false) → ∀ op' ∈ (op.exec h e s).1,
      op'.snapshot = true → op.snapshot = true ∨ op = .fullRegistration := by
    intro H op' hop' hsnap
    rw [H op' hop'] at hsnap
    cases hsnap
  have happly : ∀ {k : Kind} {id : UInt8} {op' : Op}, op' ∈ apply k id → op'.snapshot = false := by
    intro k id op' hop'
    rcases mem_apply_cases hop' with rfl | rfl | rfl <;> rfl
  cases op with
  | getSources | getSinks => exact fun _ _ _ => .inl rfl
  | fullRegistration => exact fun _ _ _ => .inr rfl
  | patchSender | patchReceiver => exact hnone fun op' hop' => happly (mem_afterPatch hop')
  | takeDue =>
      refine hnone fun op' hop' => ?_
      obtain ⟨pa, -, hop'⟩ := List.mem_flatMap.mp hop'
      rcases mem_due_cases hop' with rfl | hop'
      · rfl
      · exact happly hop'
  | getSource id push | senderTp id src push | getSink id push =>
      cases push with
      | false => exact fun _ _ _ => .inl rfl
      | true =>
          refine hnone ?_
          simp only [exec]
          repeat' split
          all_goals simp [snapshot]
  | writeSender id src tp push | writeReceiver id sink tp push =>
      refine hnone ?_
      cases push <;> simp [exec, snapshot]
  | collectAll => exact hnone (List.forall_mem_map.mpr fun _ _ => rfl)
  | collectSender id =>
      refine hnone ?_
      simp only [exec]
      split
      · exact List.forall_mem_map.mpr fun _ _ => rfl
      · simp
  | nextEvent =>
      refine hnone ?_
      simp only [exec]
      split
      · rename_i ev evs _
        rcases ev with ⟨_ | _, _⟩ | ⟨_ | _, _⟩ | _ | _ <;> simp [handle, snapshot]
      · simp
  | _ =>
      refine hnone ?_
      simp only [exec]
      repeat' split
      all_goals simp [snapshot]

end Op
end Aes67Daemon
