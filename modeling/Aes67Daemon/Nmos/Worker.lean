import Aes67Daemon.Nmos.Pending
import Aes67Daemon.Session.Told

/-!
# What the worker has to do

The worker keeps the resources of the streams.  What it still has to do about a
stream is in the queue of events and in its own list of operations, and no other
thread has any of it.

## Main definitions

* `Op.work?`, `Op.lists` — the operations about a stream.
* `Op.Moves`, `moves_exec` — what an operation does about a stream.
* `System.Orderly` — how the operations of the threads are ordered.
* `System.Heard` — the last word about a stream is true.
-/
namespace Aes67Daemon

open Text

/-- Whether an event is of a stream that comes into use, or goes out of use; `none` for
every other event. -/
def NmosEvent.news (k : Kind) (id : UInt8) : NmosEvent → Option Bool
  | .added k' id' => if k = k' ∧ id = id' then some true else none
  | .removed k' id' => if k = k' ∧ id = id' then some false else none
  | .registryUpdated | .registryLost => none

namespace NmosManager
variable {h : NmosHost} {e : NmosEnv} {s : NmosManager} {k : Kind} {id : UInt8}

/-- Whether there are resources of a stream. -/
def has (k : Kind) (id : UInt8) (s : NmosManager) : Bool :=
  match k with
  | .source => s.senders.contains id
  | .sink => s.receivers.contains id

/-- What is queued about a stream. -/
def queued (k : Kind) (id : UInt8) (s : NmosManager) : List Bool :=
  s.pendingEvents.filterMap (NmosEvent.news k id)

theorem queued_congr {s' : NmosManager} (hqueue : s'.pendingEvents = s.pendingEvents) :
    s'.queued k id = s.queued k id := by
  rw [queued, queued, hqueue]

/-- A registry that is found or lost is no news of a stream. -/
theorem queued_discover (s : NmosManager) (k : Kind) (id : UInt8) (found : Bool) :
    queued k id { s with pendingEvents := s.pendingEvents ++
      [if found then .registryUpdated else .registryLost] } = s.queued k id := by
  rw [queued, List.filterMap_append]
  cases found <;> simp [NmosEvent.news, queued]

/-- What the observers queue is what they are told. -/
theorem queued_hear {sm : SessionManager} {ns : List Notification}
    (htold : sm.notifications = ns ++ s.sm.notifications) :
    (s.hear sm).queued k id = s.queued k id ++ SessionManager.newsOf k id ns := by
  have hns : s.sm.told sm = ns.reverse := by
    rw [SessionManager.told, htold, List.length_append, Nat.add_sub_cancel, List.take_left]
  have hnews : ∀ n : Notification, (NmosEvent.ofNotification n).bind (NmosEvent.news k id) = n.news k id := by
    intro n
    cases n <;> rfl
  rw [queued, hear, hns, List.filterMap_append, List.filterMap_filterMap]
  simp only [hnews]
  rfl

/-- The session manager, the queue and the keys of a kind of resources are as before. -/
structure SameStreams (k : Kind) (id : UInt8) (s s' : NmosManager) : Prop where
  sm : s'.sm = s.sm
  queue : s'.pendingEvents = s.pendingEvents
  has : s'.has k id = s.has k id

theorem SameStreams.refl (s : NmosManager) : SameStreams k id s s := ⟨rfl, rfl, rfl⟩

theorem SameStreams.trans {s₁ s₂ : NmosManager} (h : SameStreams k id s s₁) (h' : SameStreams k id s₁ s₂) :
    SameStreams k id s s₂ :=
  ⟨h'.sm.trans h.sm, h'.queue.trans h.queue, h'.has.trans h.has⟩

theorem sameStreams_modifyStagedAct {k' : Kind} {id' : UInt8} (f : Is05Activation → Is05Activation) :
    SameStreams k id s (s.modifyStagedAct k' id' f) := by
  constructor <;> cases k' <;> cases k <;> simp [modifyStagedAct, NmosManager.has]

theorem sameStreams_schedule {k' : Kind} {id' : UInt8} (act : Is05Activation) :
    SameStreams k id s (s.schedule e k' id' act) := by
  rw [schedule]
  split
  · exact ⟨rfl, rfl, by cases k <;> rfl⟩
  · exact .refl s

/-- Storing new resources under a key that has some. -/
theorem sameStreams_insertSender {id' : UInt8} {sr : SenderResources} (hsr : s.senders.find? id' = some sr)
    (sr' : SenderResources) : SameStreams k id s { s with senders := s.senders.insert id' sr' } := by
  refine ⟨rfl, rfl, ?_⟩
  cases k with
  | sink => rfl
  | source =>
      simp only [NmosManager.has, SortedMap.contains_insert, Bool.or_eq_right_iff_imp, decide_eq_true_eq]
      rintro rfl
      exact SortedMap.contains_eq_true.mpr ⟨sr, hsr⟩

theorem sameStreams_insertReceiver {id' : UInt8} {rr : ReceiverResources}
    (hrr : s.receivers.find? id' = some rr) (rr' : ReceiverResources) :
    SameStreams k id s { s with receivers := s.receivers.insert id' rr' } := by
  refine ⟨rfl, rfl, ?_⟩
  cases k with
  | source => rfl
  | sink =>
      simp only [NmosManager.has, SortedMap.contains_insert, Bool.or_eq_right_iff_imp, decide_eq_true_eq]
      rintro rfl
      exact SortedMap.contains_eq_true.mpr ⟨rr, hrr⟩

theorem sameStreams_patchSender (id' : UInt8) (body : Except Text (Patch SenderTpPatch)) :
    SameStreams k id s (s.patchSenderStaged e id' body).2 := by
  cases body with
  | error err => exact .refl s
  | ok p =>
      cases hsr : s.senders.find? id' with
      | none =>
          simp only [patchSenderStaged, hsr]
          exact .refl s
      | some sr =>
          simp only [patchSenderStaged, hsr]
          exact (sameStreams_insertSender hsr _).trans (sameStreams_schedule _)

theorem sameStreams_patchReceiver (id' : UInt8) (body : Except Text (Patch ReceiverTpPatch)) :
    SameStreams k id s (s.patchReceiverStaged e id' body).2 := by
  cases body with
  | error err => exact .refl s
  | ok p =>
      cases hrr : s.receivers.find? id' with
      | none =>
          simp only [patchReceiverStaged, hrr]
          exact .refl s
      | some rr =>
          simp only [patchReceiverStaged, hrr]
          exact (sameStreams_insertReceiver hrr _).trans (sameStreams_schedule _)

theorem has_writeSender (src : StreamSource) (tp : List SenderTp) :
    (s.writeSender h e id src tp).has .source id = true := by
  simp [NmosManager.has, writeSender, rebuildDeviceJson, SortedMap.contains_insert]

theorem sameStreams_writeSender {id' : UInt8} (hkey : ¬ (k = .source ∧ id = id')) (src : StreamSource)
    (tp : List SenderTp) : SameStreams k id s (s.writeSender h e id' src tp) := by
  refine ⟨rfl, rfl, ?_⟩
  cases k with
  | sink => rfl
  | source =>
      have hne : id ≠ id' := fun hid => hkey ⟨rfl, hid⟩
      simp [NmosManager.has, writeSender, rebuildDeviceJson, SortedMap.contains_insert, hne]

theorem has_eraseSender : (s.eraseSender h e id).has .source id = false := by
  simp [NmosManager.has, eraseSender, rebuildDeviceJson, SortedMap.contains_erase]

theorem sameStreams_eraseSender {id' : UInt8} (hkey : ¬ (k = .source ∧ id = id')) :
    SameStreams k id s (s.eraseSender h e id') := by
  refine ⟨rfl, rfl, ?_⟩
  cases k with
  | sink => rfl
  | source =>
      have hne : id ≠ id' := fun hid => hkey ⟨rfl, hid⟩
      simp [NmosManager.has, eraseSender, rebuildDeviceJson, SortedMap.contains_erase, hne]

theorem has_writeReceiver (sink : StreamSink) (tp : List ReceiverTp) :
    (s.writeReceiver h e id sink tp).has .sink id = true := by
  simp [NmosManager.has, writeReceiver, rebuildDeviceJson, SortedMap.contains_insert]

theorem sameStreams_writeReceiver {id' : UInt8} (hkey : ¬ (k = .sink ∧ id = id')) (sink : StreamSink)
    (tp : List ReceiverTp) : SameStreams k id s (s.writeReceiver h e id' sink tp) := by
  refine ⟨rfl, rfl, ?_⟩
  cases k with
  | source => rfl
  | sink =>
      have hne : id ≠ id' := fun hid => hkey ⟨rfl, hid⟩
      simp [NmosManager.has, writeReceiver, rebuildDeviceJson, SortedMap.contains_insert, hne]

theorem has_eraseReceiver : (s.eraseReceiver h e id).has .sink id = false := by
  simp [NmosManager.has, eraseReceiver, rebuildDeviceJson, SortedMap.contains_erase]

theorem sameStreams_eraseReceiver {id' : UInt8} (hkey : ¬ (k = .sink ∧ id = id')) :
    SameStreams k id s (s.eraseReceiver h e id') := by
  refine ⟨rfl, rfl, ?_⟩
  cases k with
  | source => rfl
  | sink =>
      have hne : id ≠ id' := fun hid => hkey ⟨rfl, hid⟩
      simp [NmosManager.has, eraseReceiver, rebuildDeviceJson, SortedMap.contains_erase, hne]

end NmosManager

/-! ## The operations of the worker -/

/-- What an operation goes on to do with the resources of a stream: write them, and then push
them or not, or erase them. -/
inductive Work
  | write (push : Bool)
  | erase
  deriving DecidableEq

namespace Op
variable {h : NmosHost} {e : NmosEnv} {s : NmosManager} {k : Kind} {id : UInt8}

/-- What an operation goes on to do, and with which stream. -/
def work? : Op → Option (Work × Kind × UInt8)
  | .getSource id push | .senderTp id _ push | .writeSender id _ _ push => some (.write push, .source, id)
  | .getSink id push | .writeReceiver id _ _ push => some (.write push, .sink, id)
  | .eraseSender id => some (.erase, .source, id)
  | .eraseReceiver id => some (.erase, .sink, id)
  | _ => none

/-- The operations that go on to list the streams of a kind. -/
def lists (k : Kind) : Op → Bool
  | .fullRegistration => true
  | .getSources => k = .source
  | .getSinks => k = .sink
  | _ => false

/-- The operations of the worker alone. -/
def ofWorker : Op → Bool
  | .patchSender _ _ | .patchReceiver _ _ | .resetStaged _ _ | .promoteSender _ | .readSource _
  | .rebuildSender _ _ | .snapshotReceiver _ | .resolveSdp _ _ | .promoteReceiver _ _ _
  | .readSink _ _ _ | .connect _ | .readBack _ | .storeSink _ _ => false
  | _ => true

/-- The operations after which a thread has nothing else to do. -/
def final : Op → Bool
  | .nextEvent | .fullRegistration | .collectAll | .collectSender _ | .collectReceiver _
  | .eraseSender _ | .eraseReceiver _ => true
  | .getSource _ push | .senderTp _ _ push | .writeSender _ _ _ push | .getSink _ push
  | .writeReceiver _ _ _ push => push
  | _ => false

theorem mem_afterPatch {τ : Type} {k : Kind} {id : UInt8} {ret : Except Text (Endpoint τ)} {op : Op}
    (hop : op ∈ afterPatch k id ret) : op ∈ apply k id := by
  cases ret with
  | error err => cases hop
  | ok staged => exact (List.mem_ite_nil_right.mp hop).2

theorem mem_apply_cases {k : Kind} {id : UInt8} {op : Op} (hop : op ∈ apply k id) :
    op = .promoteSender id ∨ op = .snapshotReceiver id ∨ op = .resetStaged k id := by
  cases k with
  | source => exact (List.mem_pair.mp hop).imp_right .inr
  | sink => exact .inr (List.mem_pair.mp hop)

theorem mem_due_cases {pa : PendingActivation} {op : Op} (hop : op ∈ due pa) :
    op = .stamp pa.kind pa.daemonId ∨ op ∈ apply pa.kind pa.daemonId := List.mem_cons.mp hop

/-- What a request leaves to do, and what a due activation does, has nothing to do with the
resources of the streams. -/
theorem work?_apply {k : Kind} {id : UInt8} {op : Op} (hop : op ∈ apply k id) :
    op.work? = none ∧ op.ofWorker = false ∧ op.final = false ∧ ∀ k', op.lists k' = false := by
  rcases mem_apply_cases hop with rfl | rfl | rfl <;> exact ⟨rfl, rfl, rfl, fun _ => rfl⟩

/-- Another thread never comes to do what the worker does. -/
theorem not_ofWorker_exec {op : Op} (hop : op.ofWorker = false) :
    ∀ op' ∈ (op.exec h e s).1, op'.ofWorker = false := by
  cases op with
  | patchSender id body | patchReceiver id body =>
      exact fun op' hop' => (work?_apply (mem_afterPatch hop')).2.1
  | promoteSender | readSource | snapshotReceiver | resolveSdp | promoteReceiver | readSink | readBack =>
      simp only [exec]
      repeat' split
      all_goals simp [ofWorker]
  | resetStaged | rebuildSender | connect | storeSink => simp [exec]
  | _ => cases hop

/-- Only a final operation leaves a final operation, and leaves it last. -/
theorem not_final_exec (op : Op) : (∀ op' ∈ (op.exec h e s).1.dropLast, op'.final = false) ∧
    (op.final = false → ∀ op' ∈ (op.exec h e s).1, op'.final = false) := by
  have hnone : (∀ op' ∈ (op.exec h e s).1, op'.final = false) →
      (∀ op' ∈ (op.exec h e s).1.dropLast, op'.final = false) ∧
        (op.final = false → ∀ op' ∈ (op.exec h e s).1, op'.final = false) :=
    fun H => ⟨fun op' hop' => H op' (List.dropLast_subset _ hop'), fun _ => H⟩
  cases op with
  | patchSender id body | patchReceiver id body =>
      exact hnone fun op' hop' => (work?_apply (mem_afterPatch hop')).2.2.1
  | takeDue =>
      refine hnone fun op' hop' => ?_
      obtain ⟨pa, -, hop'⟩ := List.mem_flatMap.mp hop'
      rcases mem_due_cases hop' with rfl | hop'
      · rfl
      · exact (work?_apply hop').2.2.1
  | getSources => exact hnone (List.forall_mem_map.mpr fun _ _ => rfl)
  | getSinks => exact hnone (List.forall_mem_map.mpr fun _ _ => rfl)
  | collectAll => exact hnone (List.forall_mem_map.mpr fun _ _ => rfl)
  | collectSender id =>
      refine hnone ?_
      simp only [exec]
      split
      · exact List.forall_mem_map.mpr fun _ _ => rfl
      · simp
  | nextEvent =>
      clear hnone
      simp only [exec]
      split
      · rename_i ev evs _
        rcases ev with ⟨_ | _, _⟩ | ⟨_ | _, _⟩ | _ | _ <;> simp [handle, final]
      · simp
  | writeSender id src tp push | writeReceiver id sink tp push =>
      clear hnone
      cases push <;> simp [exec, final]
  | _ =>
      clear hnone
      simp only [exec]
      repeat' split
      all_goals simp [final]

/-- The operation is not about a stream. -/
def Silent (k : Kind) (id : UInt8) (op : Op) : Prop :=
  (∀ w, op.work? ≠ some (w, k, id)) ∧ op.lists k = false

/-- What an operation does about a stream, and what it leaves to do about it. -/
inductive Moves (h : NmosHost) (e : NmosEnv) (k : Kind) (id : UInt8) (s : NmosManager) (op : Op)
    (next : List Op) (s' : NmosManager) : Prop
  | silent (hop : op.Silent k id) (hnext : ∀ op' ∈ next, op'.Silent k id)
      (hsame : NmosManager.SameStreams k id s s')
  | connect (sink : StreamSink) (hop : op = .connect sink) (hnext : next = [])
      (hs : s' = s.addSink h e sink)
  | event (ev : NmosEvent) (evs : List NmosEvent) (hop : op = .nextEvent)
      (hqueue : s.pendingEvents = ev :: evs) (hnext : next = handle ev)
      (hs : s' = { s with pendingEvents := evs })
  | read {push : Bool} {op' : Op} (hop : op.work? = some (.write push, k, id))
      (hop' : op'.work? = some (.write push, k, id)) (hnext : next = [op']) (hs : s' = s)
  | lost {push : Bool} (hop : op.work? = some (.write push, k, id))
      (hnone : (s.sm.books.table k).find? id = none) (hnext : next = []) (hs : s' = s)
  | write {push : Bool} (hop : op.work? = some (.write push, k, id))
      (hnext : ∀ op' ∈ next, op'.Silent k id) (hsm : s'.sm = s.sm)
      (hqueue : s'.pendingEvents = s.pendingEvents) (hhas : s'.has k id = true)
  | erase (hop : op.work? = some (.erase, k, id)) (hnext : ∀ op' ∈ next, op'.Silent k id)
      (hsm : s'.sm = s.sm) (hqueue : s'.pendingEvents = s.pendingEvents) (hhas : s'.has k id = false)
  | list (hop : op.lists k = true) (hs : s' = s)
      (hnext : ∀ op' ∈ next, ∀ w, op'.work? = some (w, k, id) →
        w = .write false ∧ op ≠ .fullRegistration ∧ ((s.sm.books.table k).find? id).isSome = true)
      (hcover : ((s.sm.books.table k).find? id).isSome = true →
        ∃ op' ∈ next, op'.work? = some (.write false, k, id) ∨ op'.lists k = true)

theorem silent_of_apply {k' : Kind} {id' : UInt8} {op : Op} (hop : op ∈ apply k' id') : op.Silent k id :=
  ⟨fun w => by rw [(work?_apply hop).1]; simp, (work?_apply hop).2.2.2 k⟩

theorem silent_of_work {op : Op} {w : Work} {k' : Kind} {id' : UInt8} (hwork : op.work? = some (w, k', id'))
    (hkey : ¬ (k = k' ∧ id = id')) (hlist : op.lists k = false) : op.Silent k id := by
  refine ⟨fun w' heq => hkey ?_, hlist⟩
  rw [hwork, Option.some.injEq, Prod.mk.injEq, Prod.mk.injEq] at heq
  exact ⟨heq.2.1.symm, heq.2.2.symm⟩

theorem moves_getSources : Moves h e k id s .getSources (Op.getSources.exec h e s).1
    (Op.getSources.exec h e s).2 := by
  cases k with
  | sink =>
      refine .silent ⟨by simp [work?], rfl⟩ ?_ (.refl s)
      exact List.forall_mem_map.mpr fun src _ => ⟨by simp [work?], rfl⟩
  | source =>
      refine .list rfl rfl ?_ ?_
      · intro op' hop' w hw
        obtain ⟨src, hsrc, rfl⟩ := List.mem_map.mp hop'
        obtain ⟨p, hp, rfl⟩ := List.mem_map.mp hsrc
        simp only [work?, Option.some.injEq, Prod.mk.injEq, true_and] at hw
        obtain ⟨rfl, rfl⟩ := hw
        exact ⟨rfl, by simp, Option.isSome_iff_exists.mpr ⟨p.2, SortedMap.mem_entries.mp hp⟩⟩
      · intro hsome
        obtain ⟨info, hinfo⟩ := Option.isSome_iff_exists.mp hsome
        refine ⟨.getSource id false, List.mem_map.mpr ⟨SessionManager.getSource_ id info, ?_, rfl⟩, .inl rfl⟩
        exact List.mem_map.mpr ⟨(id, info), SortedMap.mem_entries.mpr hinfo, rfl⟩

theorem moves_getSinks : Moves h e k id s .getSinks (Op.getSinks.exec h e s).1
    (Op.getSinks.exec h e s).2 := by
  cases k with
  | source =>
      refine .silent ⟨by simp [work?], rfl⟩ ?_ (.refl s)
      exact List.forall_mem_map.mpr fun sink _ => ⟨by simp [work?], rfl⟩
  | sink =>
      refine .list rfl rfl ?_ ?_
      · intro op' hop' w hw
        obtain ⟨sink, hsink, rfl⟩ := List.mem_map.mp hop'
        obtain ⟨p, hp, rfl⟩ := List.mem_map.mp hsink
        simp only [work?, Option.some.injEq, Prod.mk.injEq, true_and] at hw
        obtain ⟨rfl, rfl⟩ := hw
        exact ⟨rfl, by simp, Option.isSome_iff_exists.mpr ⟨p.2, SortedMap.mem_entries.mp hp⟩⟩
      · intro hsome
        obtain ⟨info, hinfo⟩ := Option.isSome_iff_exists.mp hsome
        refine ⟨.getSink id false, List.mem_map.mpr ⟨SessionManager.getSink_ id info, ?_, rfl⟩, .inl rfl⟩
        exact List.mem_map.mpr ⟨(id, info), SortedMap.mem_entries.mpr hinfo, rfl⟩

namespace Moves
variable {op : Op} {next : List Op} {s' : NmosManager}

/-- An operation that is about no stream. -/
theorem of_unrelated (hwork : op.work? = none) (hlist : op.lists k = false) (hnext : ∀ op' ∈ next, op'.Silent k id)
    (hsame : NmosManager.SameStreams k id s s') : Moves h e k id s op next s' :=
  .silent ⟨fun w => by rw [hwork]; simp, hlist⟩ hnext hsame

/-- It does nothing at all. -/
theorem idle (hwork : op.work? = none) (hlist : op.lists k = false) (hnext : ∀ op' ∈ next, op'.Silent k id) :
    Moves h e k id s op next s :=
  of_unrelated hwork hlist hnext (.refl s)

/-- An operation that is about another stream. -/
theorem of_other {w : Work} {k' : Kind} {id' : UInt8} (hwork : op.work? = some (w, k', id'))
    (hkey : ¬ (k = k' ∧ id = id')) (hlist : op.lists k = false) (hnext : ∀ op' ∈ next, op'.Silent k id)
    (hsame : NmosManager.SameStreams k id s s') : Moves h e k id s op next s' :=
  .silent (silent_of_work hwork hkey hlist) hnext hsame

end Moves

theorem moves_getSource (id' : UInt8) (push : Bool) :
    Moves h e k id s (.getSource id' push) ((Op.getSource id' push).exec h e s).1
      ((Op.getSource id' push).exec h e s).2 := by
  by_cases hkey : k = .source ∧ id = id'
  · obtain ⟨rfl, rfl⟩ := hkey
    simp only [exec, SessionManager.getSource]
    cases hfind : s.sm.sources.find? id with
    | none => exact .lost rfl hfind rfl rfl
    | some info => exact .read rfl rfl rfl rfl
  · simp only [exec]
    split
    · exact Moves.of_other rfl hkey rfl (List.forall_mem_singleton.mpr (silent_of_work rfl hkey rfl)) (.refl s)
    · exact Moves.of_other rfl hkey rfl (by simp) (.refl s)

theorem moves_writeSender (id' : UInt8) (src : StreamSource) (tp : List SenderTp) (push : Bool) :
    Moves h e k id s (.writeSender id' src tp push) ((Op.writeSender id' src tp push).exec h e s).1
      ((Op.writeSender id' src tp push).exec h e s).2 := by
  have hnext : ∀ op' ∈ ((Op.writeSender id' src tp push).exec h e s).1, op'.Silent k id := by
    cases push <;> simp [exec, Silent, work?, lists]
  by_cases hkey : k = .source ∧ id = id'
  · obtain ⟨rfl, rfl⟩ := hkey
    exact .write rfl hnext rfl rfl (NmosManager.has_writeSender src tp)
  · exact Moves.of_other rfl hkey rfl hnext (NmosManager.sameStreams_writeSender hkey src tp)

theorem moves_eraseSender (id' : UInt8) :
    Moves h e k id s (.eraseSender id') ((Op.eraseSender id').exec h e s).1
      ((Op.eraseSender id').exec h e s).2 := by
  simp only [exec]
  split
  · by_cases hkey : k = .source ∧ id = id'
    · obtain ⟨rfl, rfl⟩ := hkey
      exact .erase rfl (by simp [Silent, work?, lists]) rfl rfl NmosManager.has_eraseSender
    · exact Moves.of_other rfl hkey rfl (by simp [Silent, work?, lists]) (NmosManager.sameStreams_eraseSender hkey)
  · rename_i hnone
    by_cases hkey : k = .source ∧ id = id'
    · obtain ⟨rfl, rfl⟩ := hkey
      exact .erase rfl (by simp) rfl rfl (by simp [NmosManager.has, SortedMap.contains, hnone])
    · exact Moves.of_other rfl hkey rfl (by simp) (.refl s)

theorem moves_getSink (id' : UInt8) (push : Bool) :
    Moves h e k id s (.getSink id' push) ((Op.getSink id' push).exec h e s).1
      ((Op.getSink id' push).exec h e s).2 := by
  by_cases hkey : k = .sink ∧ id = id'
  · obtain ⟨rfl, rfl⟩ := hkey
    simp only [exec, SessionManager.getSink]
    cases hfind : s.sm.sinks.find? id with
    | none => exact .lost rfl hfind rfl rfl
    | some info => exact .read rfl rfl rfl rfl
  · simp only [exec]
    split
    · exact Moves.of_other rfl hkey rfl (List.forall_mem_singleton.mpr (silent_of_work rfl hkey rfl)) (.refl s)
    · exact Moves.of_other rfl hkey rfl (by simp) (.refl s)

theorem moves_writeReceiver (id' : UInt8) (sink : StreamSink) (tp : List ReceiverTp) (push : Bool) :
    Moves h e k id s (.writeReceiver id' sink tp push) ((Op.writeReceiver id' sink tp push).exec h e s).1
      ((Op.writeReceiver id' sink tp push).exec h e s).2 := by
  have hnext : ∀ op' ∈ ((Op.writeReceiver id' sink tp push).exec h e s).1, op'.Silent k id := by
    cases push <;> simp [exec, Silent, work?, lists]
  by_cases hkey : k = .sink ∧ id = id'
  · obtain ⟨rfl, rfl⟩ := hkey
    exact .write rfl hnext rfl rfl (NmosManager.has_writeReceiver sink tp)
  · exact Moves.of_other rfl hkey rfl hnext (NmosManager.sameStreams_writeReceiver hkey sink tp)

theorem moves_eraseReceiver (id' : UInt8) :
    Moves h e k id s (.eraseReceiver id') ((Op.eraseReceiver id').exec h e s).1
      ((Op.eraseReceiver id').exec h e s).2 := by
  simp only [exec]
  split
  · by_cases hkey : k = .sink ∧ id = id'
    · obtain ⟨rfl, rfl⟩ := hkey
      exact .erase rfl (by simp [Silent, work?, lists]) rfl rfl NmosManager.has_eraseReceiver
    · exact Moves.of_other rfl hkey rfl (by simp [Silent, work?, lists]) (NmosManager.sameStreams_eraseReceiver hkey)
  · rename_i hnone
    by_cases hkey : k = .sink ∧ id = id'
    · obtain ⟨rfl, rfl⟩ := hkey
      exact .erase rfl (by simp) rfl rfl (by simp [NmosManager.has, SortedMap.contains, hnone])
    · exact Moves.of_other rfl hkey rfl (by simp) (.refl s)

/-- **What an operation does about a stream.** -/
theorem moves_exec (h : NmosHost) (e : NmosEnv) (k : Kind) (id : UInt8) (s : NmosManager) (op : Op) :
    Moves h e k id s op (op.exec h e s).1 (op.exec h e s).2 := by
  cases op with
  | patchSender id' body =>
      exact Moves.of_unrelated rfl rfl (fun op' hop' => silent_of_apply (mem_afterPatch hop'))
        (NmosManager.sameStreams_patchSender id' body)
  | patchReceiver id' body =>
      exact Moves.of_unrelated rfl rfl (fun op' hop' => silent_of_apply (mem_afterPatch hop'))
        (NmosManager.sameStreams_patchReceiver id' body)
  | resetStaged k' id' =>
      exact Moves.of_unrelated rfl rfl (by simp [exec]) (NmosManager.sameStreams_modifyStagedAct fun _ => {})
  | stamp k' id' =>
      exact Moves.of_unrelated rfl rfl (by simp [exec])
        (NmosManager.sameStreams_modifyStagedAct fun act => { act with activationTime := e.makeVersion })
  | promoteSender id' =>
      simp only [exec]
      split
      · exact Moves.of_unrelated rfl rfl (by simp [Silent, work?, lists])
          ⟨rfl, rfl, by cases k <;> simp [NmosManager.promoteSender, NmosManager.has]⟩
      · exact Moves.idle rfl rfl (by simp)
  | readSource id' => simp only [exec]; split <;> exact Moves.idle rfl rfl (by simp [Silent, work?, lists])
  | rebuildSender id' src =>
      exact Moves.of_unrelated rfl rfl (by simp [exec])
        ⟨rfl, rfl, by cases k <;> simp [exec, NmosManager.rebuildSender, NmosManager.has]⟩
  | snapshotReceiver id' =>
      simp only [exec]
      split
      · split <;> exact Moves.idle rfl rfl (by simp [Silent, work?, lists])
      · exact Moves.idle rfl rfl (by simp)
  | resolveSdp id' a =>
      simp only [exec]
      split
      · exact Moves.idle rfl rfl (by simp)
      · split <;> exact Moves.idle rfl rfl (by simp [Silent, work?, lists])
  | promoteReceiver id' a sdp =>
      simp only [exec]
      split
      · refine Moves.of_unrelated rfl rfl ?_
          ⟨rfl, rfl, by cases k <;> simp [NmosManager.promoteReceiver, NmosManager.has]⟩
        split <;> simp [Silent, work?, lists]
      · exact Moves.idle rfl rfl (by simp)
  | readSink id' a sdp =>
      simp only [exec]; split <;> exact Moves.idle rfl rfl (by simp [Silent, work?, lists])
  | connect sink => exact .connect sink rfl rfl rfl
  | readBack id' => simp only [exec]; split <;> exact Moves.idle rfl rfl (by simp [Silent, work?, lists])
  | storeSink id' sink =>
      exact Moves.of_unrelated rfl rfl (by simp [exec])
        ⟨rfl, rfl, by cases k <;> simp [exec, NmosManager.storeSink, NmosManager.has]⟩
  | takeDue =>
      refine Moves.of_unrelated rfl rfl ?_ ⟨rfl, rfl, by cases k <;> rfl⟩
      intro op' hop'
      obtain ⟨pa, -, hop'⟩ := List.mem_flatMap.mp hop'
      rcases mem_due_cases hop' with rfl | hop'
      · simp [Silent, work?, lists]
      · exact silent_of_apply hop'
  | getSource id' push => exact moves_getSource id' push
  | senderTp id' src push =>
      by_cases hkey : k = .source ∧ id = id'
      · obtain ⟨rfl, rfl⟩ := hkey
        exact .read rfl rfl rfl rfl
      · exact Moves.of_other rfl hkey rfl (List.forall_mem_singleton.mpr (silent_of_work rfl hkey rfl)) (.refl s)
  | writeSender id' src tp push => exact moves_writeSender id' src tp push
  | eraseSender id' => exact moves_eraseSender id'
  | getSink id' push => exact moves_getSink id' push
  | writeReceiver id' sink tp push => exact moves_writeReceiver id' sink tp push
  | eraseReceiver id' => exact moves_eraseReceiver id'
  | collectSender id' =>
      simp only [exec]
      split
      · exact Moves.idle rfl rfl (List.forall_mem_map.mpr fun _ _ => ⟨by simp [work?], rfl⟩)
      · exact Moves.idle rfl rfl (by simp)
  | collectReceiver id' =>
      simp only [exec]
      split <;> exact Moves.idle rfl rfl (by simp [Silent, work?, lists])
  | collectAll => exact Moves.idle rfl rfl (List.forall_mem_map.mpr fun _ _ => ⟨by simp [work?], rfl⟩)
  | fullRegistration =>
      refine .list rfl rfl (by simp [exec, work?]) fun _ => ?_
      cases k
      · exact ⟨.getSources, by simp [exec], .inr rfl⟩
      · exact ⟨.getSinks, by simp [exec], .inr rfl⟩
  | getSources => exact moves_getSources
  | getSinks => exact moves_getSinks
  | register doc | unregister type id' =>
      exact Moves.of_unrelated rfl rfl (by simp [exec]) ⟨rfl, rfl, by cases k <;> rfl⟩
  | nextEvent =>
      simp only [exec]
      split
      · rename_i ev evs hevents
        exact .event ev evs rfl hevents rfl rfl
      · exact Moves.idle rfl rfl (by simp)
  | startServer => exact Moves.of_unrelated rfl rfl (by simp [exec]) ⟨rfl, rfl, by cases k <;> rfl⟩

theorem ofWorker_of_work {op : Op} {w : Work × Kind × UInt8} (h : op.work? = some w) : op.ofWorker = true := by
  cases op <;> first | rfl | cases h

theorem lists_of_work {op : Op} {w : Work × Kind × UInt8} (h : op.work? = some w) (k : Kind) :
    op.lists k = false := by
  cases op <;> first | rfl | cases h

theorem work?_of_startsOn {t : ℕ} {op : Op} (h : op.startsOn t = true) : op.work? = none := by
  cases op <;> first | rfl | cases h

theorem ofWorker_of_final {op : Op} (h : op.final = true) : op.ofWorker = true := by
  cases op <;> first | rfl | cases h

theorem ofWorker_of_lists {op : Op} (h : op.lists k = true) : op.ofWorker = true := by
  cases op <;> first | rfl | cases h

/-- Only `connect` changes the session manager. -/
theorem sm_exec (op : Op) : (op.exec h e s).2.sm = s.sm ∨
    ∃ sink, op = .connect sink ∧ (op.exec h e s).2.sm = (s.sm.addSink h.host e.env sink).2 := by
  cases moves_exec h e .source 0 s op with
  | silent _ _ hsame => exact .inl hsame.sm
  | connect sink hop hnext hs => exact .inr ⟨sink, hop, by rw [hs]; rfl⟩
  | event _ _ _ _ _ hs | read _ _ _ hs | lost _ _ _ hs | list _ hs => exact .inl (by rw [hs])
  | write _ _ hsm | erase _ _ hsm => exact .inl hsm

end Op

/-! ## Runs -/

namespace System
variable {h : NmosHost} {σ σ' : System} {k : Kind} {id : UInt8} {t : ℕ} {e : NmosEnv} {op : Op}
  {rest : List Op}

/-- The worker is the first thread, and has nothing to do after a final operation. -/
structure Orderly (σ : System) : Prop where
  others : ∀ t, t ≠ 0 → ∀ op ∈ σ.threads.ops t, op.ofWorker = false
  final : ∀ op ∈ (σ.threads.ops 0).dropLast, op.final = false
  keyed : σ.nmos.sm.Keyed

/-- What the worker has to do when it comes to a final operation is that operation. -/
theorem Orderly.alone (H : σ.Orderly) (hops : σ.threads.ops t = op :: rest) (hfinal : op.final = true) :
    t = 0 ∧ rest = [] ∧ ∀ t', ∀ op' ∈ σ.threads.ops t', op'.ofWorker = true → op' = op := by
  have ht : t = 0 := by
    by_contra hne
    have hno := H.others t hne op (by rw [hops]; exact List.mem_cons_self)
    rw [Op.ofWorker_of_final hfinal] at hno
    cases hno
  subst ht
  have hrest : rest = [] := by
    by_contra hne
    have hno := H.final op (by rw [hops, List.dropLast_cons_of_ne_nil hne]; exact List.mem_cons_self)
    rw [hfinal] at hno
    cases hno
  refine ⟨rfl, hrest, fun t' op' hop' hworker => ?_⟩
  by_cases ht' : t' = 0
  · rw [ht', hops, hrest] at hop'
    exact List.mem_singleton.mp hop'
  · rw [H.others t' ht' op' hop'] at hworker
    cases hworker

theorem orderly_turned (H : σ.Orderly) (hops : σ.threads.ops t = op :: rest) :
    (σ.turned h t e op rest).Orderly := by
  have hops' : ∀ t', (σ.turned h t e op rest).threads.ops t' =
      if t' = t then (op.exec h e σ.nmos).1 ++ rest else σ.threads.ops t' := Pool.ops_turned
  refine ⟨fun t' ht' op' hop' => ?_, fun op' hop' => ?_, ?_⟩
  · rw [hops'] at hop'
    split at hop'
    · rename_i heq
      subst heq
      have hall := H.others t' ht'
      rw [hops] at hall
      rcases List.mem_append.mp hop' with hnext | hrest
      · exact Op.not_ofWorker_exec (hall op List.mem_cons_self) op' hnext
      · exact hall op' (List.mem_cons_of_mem _ hrest)
    · exact H.others t' ht' op' hop'
  · rw [hops'] at hop'
    split at hop'
    · rename_i heq
      subst heq
      have hall := H.final
      rw [hops] at hall
      by_cases hrest : rest = []
      · rw [hrest, List.append_nil] at hop'
        exact (Op.not_final_exec op).1 op' hop'
      · rw [List.dropLast_cons_of_ne_nil hrest] at hall
        rw [List.dropLast_append_of_ne_nil hrest] at hop'
        rcases List.mem_append.mp hop' with hnext | hold
        · exact (Op.not_final_exec op).2 (hall op List.mem_cons_self) op' hnext
        · exact hall op' (List.mem_cons_of_mem _ hold)
    · exact H.final op' hop'
  · change (op.exec h e σ.nmos).2.sm.Keyed
    rcases Op.sm_exec op with hsm | ⟨sink, -, hsm⟩
    · rw [hsm]
      exact H.keyed
    · have hocc : σ.nmos.sm.occur h.host (.request (.addSink e.env sink)) =
          some (σ.nmos.sm.addSink h.host e.env sink).2 := rfl
      rw [hsm]
      exact SessionManager.keyed_occur H.keyed hocc

/-- **The order is kept.** -/
theorem orderly_step {l : Label} (H : σ.Orderly) (hs : σ.step h l = some σ') : σ'.Orderly := by
  rcases step_cases hs with ⟨ev, sm, -, hsm, rfl⟩ | ⟨found, -, rfl⟩ | ⟨t, op, -, hstart, -, hidle, rfl⟩ |
    ⟨t, e, op, rest, rfl, -, hops, rfl⟩
  · exact ⟨H.others, H.final, SessionManager.keyed_occur H.keyed hsm⟩
  · exact ⟨H.others, H.final, H.keyed⟩
  · refine ⟨fun t' ht' op' hop' => ?_, fun op' hop' => ?_, H.keyed⟩
    · have hop' : op' ∈ if t' = t then [op] else σ.threads.ops t' := Pool.ops_started t' ▸ hop'
      split at hop'
      · rename_i heq
        rw [List.mem_singleton.mp hop']
        cases op <;> simp_all [Op.startsOn, Op.ofWorker]
      · exact H.others t' ht' op' hop'
    · have hop' : op' ∈ (if 0 = t then [op] else σ.threads.ops 0).dropLast := Pool.ops_started 0 ▸ hop'
      split at hop'
      · cases hop'
      · exact H.final op' hop'
  · exact orderly_turned H hops

theorem orderly_boot {sm : SessionManager} (hsm : sm.Keyed) : (boot h e sm).Orderly := by
  refine ⟨fun t ht op hop => ?_, ?_, hsm⟩
  · simp [boot, ht] at hop
  · simp [boot, Op.boot, Op.final]

/-! ## The last word -/

/-- The worker goes on to do something with a stream. -/
def Doing (w : Work) (k : Kind) (id : UInt8) (σ : System) : Prop :=
  σ.threads.Ahead fun op => op.work? = some (w, k, id)

/-- The worker goes on to list the streams of a kind. -/
def Listing (k : Kind) (σ : System) : Prop := σ.threads.Ahead fun op => op.lists k = true

/-- The last event that is queued about a stream says what became of it; when none is queued,
what the worker has taken from the queue does. -/
structure Heard (k : Kind) (id : UInt8) (σ : System) : Prop where
  queue : ∀ b, (σ.nmos.queued k id).getLast? = some b → σ.nmos.sm.live k id = b
  pushed : σ.nmos.queued k id = [] → σ.Doing (.write true) k id → σ.nmos.sm.live k id = true
  erased : σ.nmos.queued k id = [] → σ.Doing .erase k id → σ.nmos.sm.live k id = false

/-- What becomes of the queue and of a stream when the session manager takes a step. -/
theorem queued_fate {s : NmosManager} {sm : SessionManager} {ev : Event} (k : Kind) (id : UInt8)
    (hkeyed : s.sm.Keyed) (hsm : s.sm.occur h.host ev = some sm) : ∃ news, (s.hear sm).queued k id = s.queued k id ++ news ∧
      Fate (s.sm.live k id) (sm.live k id) news := by
  obtain ⟨ns, htold, hfate⟩ := SessionManager.occur_told hkeyed hsm
  exact ⟨_, NmosManager.queued_hear htold, hfate k id⟩

theorem heard_hear {threads : Pool NmosManager Op} {sm : SessionManager} {ev : Event} {clock : ℕ}
    (H : σ.Heard k id) (hkeyed : σ.nmos.sm.Keyed) (hsm : σ.nmos.sm.occur h.host ev = some sm)
    (hshared : threads.shared = σ.nmos.hear sm)
    (hahead : ∀ p : Op → Prop, threads.Ahead p → σ.threads.Ahead p) :
    Heard k id { threads := threads, clock := clock } := by
  obtain ⟨news, hqueued, hfate⟩ := queued_fate k id hkeyed hsm
  have hqueued' : threads.shared.queued k id = σ.nmos.queued k id ++ news := by rw [hshared, hqueued]
  have hlive : threads.shared.sm.live k id = sm.live k id := by rw [hshared]; rfl
  have hsame : σ.nmos.queued k id ++ news = [] → σ.nmos.queued k id = [] ∧
      sm.live k id = σ.nmos.sm.live k id := by
    intro hnil
    obtain ⟨hold, hnews⟩ := List.append_eq_nil_iff.mp hnil
    rcases hfate.live_eq with ⟨-, hlive⟩ | hlast
    · exact ⟨hold, hlive⟩
    · rw [hnews] at hlast
      cases hlast
  refine ⟨fun b hb => ?_, fun hnil hdoing => ?_, fun hnil hdoing => ?_⟩
  · change threads.shared.sm.live k id = b
    change (threads.shared.queued k id).getLast? = some b at hb
    rw [hqueued'] at hb
    rw [hlive]
    rcases hfate.live_eq with ⟨rfl, hkept⟩ | hlast
    · rw [List.append_nil] at hb
      rw [hkept]
      exact H.queue b hb
    · rw [List.getLast?_append, hlast] at hb
      exact Option.some.inj hb
  · change threads.shared.sm.live k id = true
    obtain ⟨hold, hkept⟩ := hsame (hqueued' ▸ hnil)
    rw [hlive, hkept]
    exact H.pushed hold (hahead _ hdoing)
  · change threads.shared.sm.live k id = false
    obtain ⟨hold, hkept⟩ := hsame (hqueued' ▸ hnil)
    rw [hlive, hkept]
    exact H.erased hold (hahead _ hdoing)

theorem news_of_handle {ev : NmosEvent} {op' : Op} {w : Work} (hop' : op' ∈ Op.handle ev)
    (hw : op'.work? = some (w, k, id)) :
    w = .write true ∧ ev.news k id = some true ∨ w = .erase ∧ ev.news k id = some false := by
  rcases ev with ⟨_ | _, _⟩ | ⟨_ | _, _⟩ | _ | _
  all_goals simp only [Op.handle, List.mem_singleton, List.not_mem_nil] at hop'
  all_goals
    subst hop'
    simp only [Op.work?, Option.some.injEq, Prod.mk.injEq, reduceCtorEq] at hw
  all_goals
    obtain ⟨rfl, rfl, rfl⟩ := hw
    simp [NmosEvent.news]

theorem handle_of_news {ev : NmosEvent} {b : Bool} (h : ev.news k id = some b) :
    ∃ op' ∈ Op.handle ev, op'.work? = some (if b then .write true else .erase, k, id) := by
  rcases ev with ⟨k', id'⟩ | ⟨k', id'⟩ | _ | _
  all_goals simp only [NmosEvent.news, Option.ite_none_right_eq_some, reduceCtorEq] at h
  all_goals
    obtain ⟨⟨rfl, rfl⟩, hb⟩ := h
    obtain rfl := Option.some.inj hb
    cases k <;> exact ⟨_, List.mem_singleton.mpr rfl, rfl⟩

theorem heard_turned (H : σ.Heard k id) (hord : σ.Orderly) (hops : σ.threads.ops t = op :: rest) :
    (σ.turned h t e op rest).Heard k id := by
  have hahead : ∀ w, (σ.turned h t e op rest).Doing w k id →
      (∃ op' ∈ (op.exec h e σ.nmos).1, op'.work? = some (w, k, id)) ∨ σ.Doing w k id :=
    fun w hdoing => Pool.ahead_turned hops hdoing
  have hsame : ((op.exec h e σ.nmos).2.queued k id = σ.nmos.queued k id) →
      (op.exec h e σ.nmos).2.sm = σ.nmos.sm →
      (∀ op' ∈ (op.exec h e σ.nmos).1, ∀ w, op'.work? = some (w, k, id) →
        w = .write false ∨ op.work? = some (w, k, id)) → (σ.turned h t e op rest).Heard k id := by
    intro hqueue hsm hnext
    have hold : ∀ w, w ≠ .write false → (σ.turned h t e op rest).Doing w k id → σ.Doing w k id := by
      intro w hw hdoing
      rcases hahead w hdoing with ⟨op', hop', hwork⟩ | hdoing
      · have hwork' := (hnext op' hop' w hwork).resolve_left hw
        exact ⟨t, op, by rw [hops]; exact List.mem_cons_self, hwork'⟩
      · exact hdoing
    refine ⟨fun b hb => ?_, fun hnil hdoing => ?_, fun hnil hdoing => ?_⟩
    · exact (congrArg _ hsm).trans (H.queue b (hqueue ▸ hb))
    · exact (congrArg _ hsm).trans (H.pushed (hqueue ▸ hnil) (hold _ (by simp) hdoing))
    · exact (congrArg _ hsm).trans (H.erased (hqueue ▸ hnil) (hold _ (by simp) hdoing))
  cases Op.moves_exec h e k id σ.nmos op with
  | silent hop hnext hs =>
      refine hsame (NmosManager.queued_congr hs.queue) hs.sm fun op' hop' w hwork => ?_
      exact absurd hwork ((hnext op' hop').1 w)
  | connect sink hop hnext hs =>
      have hocc : σ.nmos.sm.occur h.host (.request (.addSink e.env sink)) =
          some (σ.nmos.sm.addSink h.host e.env sink).2 := rfl
      refine heard_hear H hord.keyed hocc hs fun p hp => ?_
      rcases Pool.ahead_turned hops hp with ⟨op', hop', -⟩ | hp
      · rw [hnext] at hop'
        cases hop'
      · exact hp
  | event ev evs hop hqueue hnext hs =>
      obtain ⟨-, -, halone⟩ := hord.alone hops (by rw [hop]; rfl)
      have hqueued : σ.nmos.queued k id = (ev.news k id).toList ++ evs.filterMap (NmosEvent.news k id) := by
        rw [NmosManager.queued, hqueue, List.filterMap_cons]
        cases ev.news k id <;> rfl
      have hqueued' : (op.exec h e σ.nmos).2.queued k id = evs.filterMap (NmosEvent.news k id) := by
        rw [hs]
        rfl
      -- the worker had nothing else to do
      have hnew : ∀ w, (σ.turned h t e op rest).Doing w k id →
          w = .write true ∧ ev.news k id = some true ∨ w = .erase ∧ ev.news k id = some false := by
        intro w hdoing
        rcases hahead w hdoing with ⟨op', hop', hwork⟩ | ⟨t', op', hop', hwork⟩
        · rw [hnext] at hop'
          exact news_of_handle hop' hwork
        · rw [halone t' op' hop' (Op.ofWorker_of_work hwork), hop] at hwork
          cases hwork
      have hlive : (op.exec h e σ.nmos).2.sm.live k id = σ.nmos.sm.live k id := by rw [hs]
      have hlast : ∀ b, ev.news k id = some b → evs.filterMap (NmosEvent.news k id) = [] →
          σ.nmos.sm.live k id = b := by
        intro b hb hnil
        exact H.queue b (by rw [hqueued, hb, hnil]; rfl)
      refine ⟨fun b hb => ?_, fun hnil hdoing => ?_, fun hnil hdoing => ?_⟩
      · refine hlive.trans (H.queue b ?_)
        have hb : (evs.filterMap (NmosEvent.news k id)).getLast? = some b := hqueued' ▸ hb
        rw [hqueued, List.getLast?_append, hb]
        rfl
      · rcases hnew _ hdoing with ⟨-, hnews⟩ | ⟨hw, -⟩
        · exact hlive.trans (hlast true hnews (hqueued' ▸ hnil))
        · cases hw
      · rcases hnew _ hdoing with ⟨hw, -⟩ | ⟨-, hnews⟩
        · cases hw
        · exact hlive.trans (hlast false hnews (hqueued' ▸ hnil))
  | read hop hop' hnext hs =>
      refine hsame (by rw [hs]) (by rw [hs]) fun op' hmem w hwork => ?_
      rw [hnext, List.mem_singleton] at hmem
      rw [hmem, hop'] at hwork
      exact .inr (hop.trans hwork)
  | lost hop hnone hnext hs =>
      refine hsame (by rw [hs]) (by rw [hs]) fun op' hmem w hwork => ?_
      rw [hnext] at hmem
      cases hmem
  | write hop hnext hsm hqueue hhas =>
      exact hsame (NmosManager.queued_congr hqueue) hsm fun op' hop' w hwork => absurd hwork ((hnext op' hop').1 w)
  | erase hop hnext hsm hqueue hhas =>
      exact hsame (NmosManager.queued_congr hqueue) hsm fun op' hop' w hwork => absurd hwork ((hnext op' hop').1 w)
  | list hop hs hnext hcover =>
      exact hsame (by rw [hs]) (by rw [hs]) fun op' hop' w hwork => .inl (hnext op' hop' w hwork).1

/-- **The last word about a stream stays true.** -/
theorem heard_step {l : Label} (H : σ.Heard k id) (hord : σ.Orderly) (hs : σ.step h l = some σ') :
    σ'.Heard k id := by
  rcases step_cases hs with ⟨ev, sm, -, hsm, rfl⟩ | ⟨found, -, rfl⟩ | ⟨t, op, -, hstart, -, hidle, rfl⟩ |
    ⟨t, e, op, rest, rfl, -, hops, rfl⟩
  · exact heard_hear H hord.keyed hsm rfl fun _ hp => hp
  · have hqueued := σ.nmos.queued_discover k id found
    refine ⟨fun b hb => H.queue b ?_, fun hnil => H.pushed ?_, fun hnil => H.erased ?_⟩
    · exact hqueued ▸ hb
    · exact hqueued ▸ hnil
    · exact hqueued ▸ hnil
  · have hahead : ∀ w, Doing w k id { σ with threads := σ.threads.started t op } → σ.Doing w k id := by
      intro w
      exact (Pool.ahead_started hidle (by rw [Op.work?_of_startsOn hstart]; simp)).mp
    exact ⟨H.queue, fun hnil hdoing => H.pushed hnil (hahead _ hdoing),
      fun hnil hdoing => H.erased hnil (hahead _ hdoing)⟩
  · exact heard_turned H hord hops

end System
end Aes67Daemon
