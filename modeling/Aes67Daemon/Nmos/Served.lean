import Aes67Daemon.Nmos.Integrity

/-!
# What the Node API serves and what is pushed

The Node API serves the resources the manager has, and the worker pushes them to the
registry one by one.  Both sides go by the type and the id of a resource; here they
are compared without the versions.

## Main definitions

* `NmosManager.served` — what is served of a resource.
* `Registry.content` — what a registry has under an id.
* `Op.posted` — what the pushes among some operations make of a registry.
-/
namespace Aes67Daemon

open Text

/-- The id of a resource; there is one device. -/
def NmosHost.resourceId (h : NmosHost) (type : DocType) (id : UInt8) : Text :=
  match type with
  | .device => h.deviceId
  | .source => h.makeResourceUuid "source".toList id
  | .flow => h.makeResourceUuid "flow".toList id
  | .sender => h.makeResourceUuid "sender".toList id
  | .receiver => h.makeResourceUuid "receiver".toList id

namespace NmosManager
variable {h : NmosHost} {e : NmosEnv} {s s' : NmosManager} {type : DocType} {id id' : UInt8}

/-- What is served of a resource, without its version. -/
def served (h : NmosHost) (type : DocType) (id : UInt8) (s : NmosManager) : Option Doc :=
  match type with
  | .device => some (Doc.device s.deviceJson).content
  | .source => (s.senders.find? id).map fun sr => (Doc.source sr.sourceJson).content
  | .flow => (s.senders.find? id).map fun sr => (Doc.flow sr.flowJson).content
  | .sender => (s.senders.find? id).map fun sr => (Doc.sender sr.senderJson).content
  | .receiver => (s.receivers.find? id).map fun rr => (Doc.receiver (receiverJson h {} rr)).content

/-- Resources of one type have different ids, but for the device. -/
theorem resourceId_inj (hinj : Function.Injective2 h.makeUuid5)
    (heq : h.resourceId type id = h.resourceId type id') : type = .device ∨ id = id' := by
  have hname : ∀ word : Text, '-' ∉ word → h.makeResourceUuid word id = h.makeResourceUuid word id' →
      id = id' := fun word hword heq =>
    (Prod.mk.inj (nameText_inj (p := (word, id)) (q := (word, id')) hword hword (hinj heq).2)).2
  cases type with
  | device => exact .inl rfl
  | source => exact .inr (hname "source".toList (by decide) heq)
  | flow => exact .inr (hname "flow".toList (by decide) heq)
  | sender => exact .inr (hname "sender".toList (by decide) heq)
  | receiver => exact .inr (hname "receiver".toList (by decide) heq)

/-- What is served depends on the id of the resource only. -/
theorem served_congr (hinj : Function.Injective2 h.makeUuid5)
    (heq : h.resourceId type id = h.resourceId type id') : s.served h type id = s.served h type id' := by
  rcases resourceId_inj hinj heq with rfl | rfl
  · rfl
  · rfl

/-- The ids in the resources of a sender. -/
theorem ids_of_refs {sr : SenderResources} (hrefs : sr.refs = h.senderRefs id) :
    sr.sourceJson.id = h.resourceId .source id ∧ sr.flowJson.id = h.resourceId .flow id ∧
      sr.senderJson.id = h.resourceId .sender id := by
  simp only [SenderResources.refs, NmosHost.senderRefs, List.cons.injEq] at hrefs
  exact ⟨hrefs.2.2.2.1, hrefs.2.2.2.2.1, hrefs.2.2.2.2.2.2.1⟩

/-- A resource the Node API has is served under its id. -/
theorem served_of_mem_docs (H : s.Sound h) {doc : Doc} (hdoc : doc ∈ s.docs h e) :
    ∃ id, doc.id = h.resourceId doc.type id ∧ s.served h doc.type id = some doc.content := by
  rcases List.mem_cons.mp hdoc with rfl | hdoc
  · exact ⟨0, H.device, rfl⟩
  rcases List.mem_append.mp hdoc with hdoc | hdoc
  · obtain ⟨p, hp, hdoc⟩ := List.mem_flatMap.mp hdoc
    have hsr := SortedMap.mem_entries.mp hp
    obtain ⟨hsource, hflow, hsender⟩ := ids_of_refs (H.refs p.1 p.2 hsr)
    refine ⟨p.1, ?_⟩
    simp only [senderDocs, List.mem_cons, List.not_mem_nil, or_false] at hdoc
    rcases hdoc with rfl | rfl | rfl
    · exact ⟨hsource, by simp [Doc.type, served, hsr]⟩
    · exact ⟨hflow, by simp [Doc.type, served, hsr]⟩
    · exact ⟨hsender, by simp [Doc.type, served, hsr]⟩
  · obtain ⟨p, hp, rfl⟩ := List.mem_map.mp hdoc
    have hrr := SortedMap.mem_entries.mp hp
    refine ⟨p.1, H.receiverId p.1 p.2 hrr, ?_⟩
    simp [Doc.type, served, hrr, Doc.content, receiverJson, NmosHost.buildReceiverJson]

/-- The resources of a sender and of a receiver are among what the Node API has. -/
theorem mem_docs_sender {sr : SenderResources} (hsr : s.senders.find? id = some sr) {doc : Doc}
    (hdoc : doc ∈ senderDocs sr) : doc ∈ s.docs h e := by
  refine List.mem_cons_of_mem _ (List.mem_append_left _ (List.mem_flatMap.mpr ⟨(id, sr), ?_, hdoc⟩))
  exact SortedMap.mem_entries.mpr hsr

theorem mem_docs_receiver {rr : ReceiverResources} (hrr : s.receivers.find? id = some rr) :
    Doc.receiver (receiverJson h e rr) ∈ s.docs h e := by
  refine List.mem_cons_of_mem _ (List.mem_append_right _ (List.mem_map.mpr ⟨(id, rr), ?_, rfl⟩))
  exact SortedMap.mem_entries.mpr hrr

/-- What is served comes from a resource the Node API has. -/
theorem mem_docs_of_served (H : s.Sound h) {d : Doc} (hd : s.served h type id = some d) :
    ∃ doc ∈ s.docs h e, doc.type = type ∧ doc.id = h.resourceId type id ∧ doc.content = d := by
  cases type with
  | device => exact ⟨.device s.deviceJson, List.mem_cons_self, rfl, H.device, Option.some.inj hd⟩
  | source =>
      obtain ⟨sr, hsr, rfl⟩ := Option.map_eq_some_iff.mp hd
      exact ⟨.source sr.sourceJson, mem_docs_sender hsr (by simp [senderDocs]), rfl,
        (ids_of_refs (H.refs id sr hsr)).1, rfl⟩
  | flow =>
      obtain ⟨sr, hsr, rfl⟩ := Option.map_eq_some_iff.mp hd
      exact ⟨.flow sr.flowJson, mem_docs_sender hsr (by simp [senderDocs]), rfl,
        (ids_of_refs (H.refs id sr hsr)).2.1, rfl⟩
  | sender =>
      obtain ⟨sr, hsr, rfl⟩ := Option.map_eq_some_iff.mp hd
      exact ⟨.sender sr.senderJson, mem_docs_sender hsr (by simp [senderDocs]), rfl,
        (ids_of_refs (H.refs id sr hsr)).2.2, rfl⟩
  | receiver =>
      obtain ⟨rr, hrr, rfl⟩ := Option.map_eq_some_iff.mp hd
      exact ⟨.receiver (receiverJson h e rr), mem_docs_receiver hrr, rfl, H.receiverId id rr hrr, rfl⟩

end NmosManager

/-! ## Pushes -/

namespace Registry
variable {r : Registry} {type : DocType} {id : Text}

/-- What a registry has under an id, without its version. -/
def content (r : Registry) (type : DocType) (id : Text) : Option Doc := ((r type).find? id).map Doc.content

theorem content_post (doc : Doc) : (r.post doc).content type id =
    if type = doc.type ∧ id = doc.id then some doc.content else r.content type id := by
  simp only [content, post, Function.update_apply]
  by_cases htype : type = doc.type
  · subst htype
    by_cases hid : id = doc.id
    · simp [hid]
    · simp [hid, SortedMap.find?_insert_of_ne]
  · simp [htype]

theorem content_delete (type' : DocType) (id' : Text) : (r.delete type' id').content type id =
    if type = type' ∧ id = id' then none else r.content type id := by
  simp only [content, delete, Function.update_apply]
  by_cases htype : type = type'
  · subst htype
    by_cases hid : id = id'
    · simp [hid]
    · simp [hid, SortedMap.find?_erase_of_ne]
  · simp [htype]

end Registry

namespace Op
variable {h : NmosHost} {e : NmosEnv} {s : NmosManager} {r : Registry} {type : DocType} {id : Text}

/-- What an operation does to the registry. -/
def post : Op → Registry → Registry
  | .register doc, r => r.post doc
  | .unregister type id, r => r.delete type id
  | _, r => r

/-- The pushes among some operations. -/
def posted (ops : List Op) (r : Registry) : Registry := ops.foldl (fun r op => op.post r) r

theorem posted_append (ops ops' : List Op) : posted (ops ++ ops') r = posted ops' (posted ops r) :=
  List.foldl_append

/-- Pushing resources that say the same under an id, and some that does. -/
theorem content_postAll {docs : List Doc} {d : Doc} (hsome : ∃ doc ∈ docs, doc.type = type ∧ doc.id = id)
    (hall : ∀ doc ∈ docs, doc.type = type → doc.id = id → doc.content = d) :
    (posted (docs.map Op.register) r).content type id = some d := by
  induction docs using List.reverseRecOn with
  | nil => simp at hsome
  | append_singleton docs doc ih =>
      rw [List.map_append, posted_append]
      change ((posted (docs.map Op.register) r).post doc).content type id = some d
      rw [Registry.content_post]
      split
      · rename_i hkey
        rw [hall doc (by simp) hkey.1.symm hkey.2.symm]
      · rename_i hkey
        obtain ⟨doc', hdoc', htype, hid⟩ := hsome
        refine ih ⟨doc', ?_, htype, hid⟩ fun doc₁ hdoc₁ => hall doc₁ (List.mem_append_left _ hdoc₁)
        rcases List.mem_append.mp hdoc' with hdoc' | hdoc'
        · exact hdoc'
        · rw [List.mem_singleton.mp hdoc'] at htype hid
          exact absurd ⟨htype.symm, hid.symm⟩ hkey

/-- Pushing other resources. -/
theorem content_postAll_of_not {docs : List Doc} (hno : ∀ doc ∈ docs, ¬ (doc.type = type ∧ doc.id = id)) :
    (posted (docs.map Op.register) r).content type id = r.content type id := by
  induction docs generalizing r with
  | nil => rfl
  | cons doc docs ih =>
      change (posted (docs.map Op.register) (r.post doc)).content type id = _
      rw [ih fun doc' hdoc' => hno doc' (List.mem_cons_of_mem _ hdoc'), Registry.content_post, if_neg]
      rintro ⟨rfl, rfl⟩
      exact hno doc List.mem_cons_self ⟨rfl, rfl⟩

/-- Operations that push nothing. -/
theorem posted_eq_self {ops : List Op} (hno : ∀ op ∈ ops, ∀ r, op.post r = r) : posted ops r = r := by
  induction ops generalizing r with
  | nil => rfl
  | cons op ops ih =>
      change posted ops (op.post r) = r
      rw [hno op List.mem_cons_self, ih fun op' hop' => hno op' (List.mem_cons_of_mem _ hop')]

end Op

namespace NmosManager
variable {h : NmosHost} {e : NmosEnv} {s : NmosManager} {r : Registry} {type : DocType} {id : UInt8}

/-- **Pushing what is served**: a resource that is pushed is in the registry as it is served. -/
theorem content_push (H : s.Sound h) (hinj : Function.Injective2 h.makeUuid5) {docs : List Doc}
    (hsub : ∀ doc ∈ docs, doc ∈ s.docs h e)
    (hsome : ∃ doc ∈ docs, doc.type = type ∧ doc.id = h.resourceId type id) (r : Registry) :
    (Op.posted (docs.map Op.register) r).content type (h.resourceId type id) = s.served h type id := by
  have hall : ∀ doc ∈ docs, doc.type = type → doc.id = h.resourceId type id →
      s.served h type id = some doc.content := by
    intro doc hdoc htype hid
    obtain ⟨id', hid', hserved⟩ := served_of_mem_docs H (hsub doc hdoc)
    subst htype
    rw [← hserved]
    exact served_congr hinj (hid.symm.trans hid')
  obtain ⟨doc, hdoc, htype, hid⟩ := hsome
  rw [hall doc hdoc htype hid]
  refine Op.content_postAll ⟨doc, hdoc, htype, hid⟩ fun doc' hdoc' htype' hid' => ?_
  exact Option.some.inj ((hall doc' hdoc' htype' hid').symm.trans (hall doc hdoc htype hid))

end NmosManager
end Aes67Daemon
