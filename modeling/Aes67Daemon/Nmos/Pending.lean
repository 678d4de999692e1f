import Aes67Daemon.Nmos.System

/-!
# Scheduled activations

A scheduled activation is on record twice: in the staged half of its sender or
receiver, and in the list of pending activations.  The two are kept in step by
nothing but the order of the calls.

## Main definitions

* `NmosManager.entriesOf` — the deadlines that are pending for a stream.
* `NmosManager.bookedFor` — the deadline its staged half speaks of.
* `System.Resetting` — an activation is under way.
* `System.KeepsPending` — the steps that keep the two in step.
-/
namespace Aes67Daemon

open Text

/-- The deadline an activation is scheduled for. -/
def Is05Activation.booked (act : Is05Activation) : List ℤ :=
  if act.scheduled then [act.deadlineNs] else []

namespace NmosManager
variable {h : NmosHost} {e : NmosEnv} {s : NmosManager} {k k' : Kind} {id id' : UInt8}

/-- The deadlines pending for a sender or a receiver. -/
def entriesOf (k : Kind) (id : UInt8) (s : NmosManager) : List ℤ :=
  (s.pendingActivations.filter fun pa => pa.kind = k ∧ pa.daemonId = id).map
    PendingActivation.deadlineNs

/-- The deadline the staged half of a sender or a receiver speaks of. -/
def bookedFor (k : Kind) (id : UInt8) (s : NmosManager) : List ℤ :=
  ((s.stagedAct? k id).map Is05Activation.booked).getD []

/-! ## What the critical sections do to the staged activations -/

theorem stagedAct?_modifyStagedAct (f : Is05Activation → Is05Activation) :
    (s.modifyStagedAct k id f).stagedAct? k' id' =
      if k' = k ∧ id' = id then (s.stagedAct? k id).map f else s.stagedAct? k' id' := by
  cases k <;> cases k' <;> simp only [stagedAct?, modifyStagedAct, SortedMap.find?_modify, true_and,
    reduceCtorEq, false_and, if_false]
  all_goals split <;> simp [Option.map_map, Function.comp_def]

theorem stagedAct?_modifySender {f : SenderResources → SenderResources}
    (hf : ∀ sr, (f sr).staged = sr.staged) :
    stagedAct? k' id' { s with senders := s.senders.modify id f } = s.stagedAct? k' id' := by
  cases k' with
  | source =>
      simp only [stagedAct?, SortedMap.find?_modify]
      split
      · rename_i hid
        rw [hid, Option.map_map]
        exact congrFun (congrArg _ (funext fun sr => congrArg Endpoint.act (hf sr))) _
      · rfl
  | sink => rfl

theorem stagedAct?_modifyReceiver {f : ReceiverResources → ReceiverResources}
    (hf : ∀ rr, (f rr).staged = rr.staged) :
    stagedAct? k' id' { s with receivers := s.receivers.modify id f } = s.stagedAct? k' id' := by
  cases k' with
  | source => rfl
  | sink =>
      simp only [stagedAct?, SortedMap.find?_modify]
      split
      · rename_i hid
        rw [hid, Option.map_map]
        exact congrFun (congrArg _ (funext fun rr => congrArg Endpoint.act (hf rr))) _
      · rfl

/-- A registration makes up a staged activation where there was none. -/
theorem stagedAct?_writeSender (src : StreamSource) (tp : List SenderTp) :
    (s.writeSender h e id src tp).stagedAct? k' id' =
      if k' = .source ∧ id' = id then some ((s.stagedAct? .source id).getD {}) else s.stagedAct? k' id' := by
  cases k' with
  | source =>
      simp only [stagedAct?, writeSender, rebuildDeviceJson, SortedMap.find?_insert, true_and]
      split
      · cases s.senders.find? id <;> rfl
      · rfl
  | sink => simp [stagedAct?, writeSender, rebuildDeviceJson]

theorem stagedAct?_writeReceiver (sink : StreamSink) (tp : List ReceiverTp) :
    (s.writeReceiver h e id sink tp).stagedAct? k' id' =
      if k' = .sink ∧ id' = id then some ((s.stagedAct? .sink id).getD {}) else s.stagedAct? k' id' := by
  cases k' with
  | source => simp [stagedAct?, writeReceiver, rebuildDeviceJson]
  | sink =>
      simp only [stagedAct?, writeReceiver, rebuildDeviceJson, SortedMap.find?_insert, true_and]
      split
      · cases s.receivers.find? id <;> rfl
      · rfl

theorem stagedAct?_eraseSender :
    (s.eraseSender h e id).stagedAct? k' id' =
      if k' = .source ∧ id' = id then none else s.stagedAct? k' id' := by
  cases k' with
  | source =>
      simp only [stagedAct?, eraseSender, rebuildDeviceJson, SortedMap.find?_erase, true_and]
      split <;> rfl
  | sink => simp [stagedAct?, eraseSender, rebuildDeviceJson]

theorem stagedAct?_eraseReceiver :
    (s.eraseReceiver h e id).stagedAct? k' id' =
      if k' = .sink ∧ id' = id then none else s.stagedAct? k' id' := by
  cases k' with
  | source => simp [stagedAct?, eraseReceiver, rebuildDeviceJson]
  | sink =>
      simp only [stagedAct?, eraseReceiver, rebuildDeviceJson, SortedMap.find?_erase, true_and]
      split <;> rfl

theorem bookedFor_congr {s' : NmosManager} (hact : s'.stagedAct? k id = s.stagedAct? k id) :
    s'.bookedFor k id = s.bookedFor k id := by
  rw [bookedFor, bookedFor, hact]

theorem entriesOf_congr {s' : NmosManager} (hpending : s'.pendingActivations = s.pendingActivations) :
    s'.entriesOf k id = s.entriesOf k id := by
  rw [entriesOf, entriesOf, hpending]

@[simp] theorem pendingActivations_modifyStagedAct (f : Is05Activation → Is05Activation) :
    (s.modifyStagedAct k id f).pendingActivations = s.pendingActivations := by
  cases k <;> rfl

end NmosManager

/-! ## What an operation does to the books -/

namespace Op
variable {h : NmosHost} {e : NmosEnv} {s : NmosManager} {k : Kind} {id : UInt8}

/-- The sender or receiver a PATCH is about, and the activation it leaves there. -/
def patchedAct? (s : NmosManager) : Op → Option (Kind × UInt8 × Is05Activation)
  | .patchSender id (.ok p) => (s.senders.find? id).map fun sr =>
      (.source, id, (sr.staged.patched SenderTp.patched p).act)
  | .patchReceiver id (.ok p) => (s.receivers.find? id).map fun rr =>
      (.sink, id, (rr.staged.patched ReceiverTp.patched p).act)
  | _ => none

/-- The sender or receiver that is unregistered. -/
def erases? : Op → Option (Kind × UInt8)
  | .eraseSender id => some (.source, id)
  | .eraseReceiver id => some (.sink, id)
  | _ => none

/-- What an operation does to the pending deadlines and to the staged half of a sender
or a receiver. -/
inductive Books (e : NmosEnv) (k : Kind) (id : UInt8) (s : NmosManager) (op : Op) (next : List Op)
    (s' : NmosManager) : Prop
  | same (hentries : s'.entriesOf k id = s.entriesOf k id) (hbooked : s'.bookedFor k id = s.bookedFor k id)
      (hnext : .resetStaged k id ∉ next)
  | patch {act : Is05Activation} (hop : op.patchedAct? s = some (k, id, act))
      (hentries : s'.entriesOf k id = s.entriesOf k id ++ (act.begun e).booked)
      (hbooked : s'.bookedFor k id = (act.begun e).booked)
      (hnext : .resetStaged k id ∈ next → act.scheduled = false)
  | due (hop : op = .takeDue)
      (hentries : s'.entriesOf k id = (s.entriesOf k id).filter fun d => (e.now : ℤ) < d)
      (hbooked : s'.bookedFor k id = s.bookedFor k id)
      (hnext : .resetStaged k id ∈ next ↔ ∃ d ∈ s.entriesOf k id, d ≤ e.now)
  | reset (hop : op = .resetStaged k id) (hentries : s'.entriesOf k id = s.entriesOf k id)
      (hbooked : s'.bookedFor k id = [])
  | erase (hop : op.erases? = some (k, id)) (hentries : s'.entriesOf k id = s.entriesOf k id)
      (hbooked : s'.bookedFor k id = []) (hnext : .resetStaged k id ∉ next)

/-- An activation is immediate or scheduled, not both. -/
theorem scheduled_of_immediate {act : Is05Activation} (h : act.immediate = true) :
    act.scheduled = false := by
  have hmode : act.mode = "activate_immediate".toList := by simpa [Is05Activation.immediate] using h
  rw [Is05Activation.scheduled, Is05Activation.relative, Is05Activation.absolute, hmode]
  decide

theorem booked_begun (act : Is05Activation) :
    (act.begun e).booked = if act.scheduled then [act.deadline e.now] else [] := by
  rw [Is05Activation.begun]
  split
  · rename_i himm
    have hno := scheduled_of_immediate himm
    rw [hno, Is05Activation.booked]
    exact if_neg (by rw [show ({ act with activationTime := e.makeVersion } : Is05Activation).scheduled =
      act.scheduled from rfl, hno]; decide)
  · split
    · rename_i hsched
      exact if_pos hsched
    · rename_i hno
      exact if_neg hno

theorem mem_apply {k' : Kind} {id' : UInt8} :
    Op.resetStaged k id ∈ apply k' id' ↔ k = k' ∧ id = id' := by
  cases k' <;> simp [apply]

theorem mem_due {pa : PendingActivation} :
    Op.resetStaged k id ∈ Op.due pa ↔ k = pa.kind ∧ id = pa.daemonId := by
  simp [Op.due, mem_apply]

theorem entriesOf_takeDue (now : ℕ) :
    (s.takeDue now).2.entriesOf k id = (s.entriesOf k id).filter fun d => (now : ℤ) < d := by
  simp only [NmosManager.entriesOf, NmosManager.takeDue, List.filter_map, List.filter_filter]
  refine congrArg _ (List.filter_congr fun pa _ => ?_)
  simp [Bool.and_comm]

theorem mem_takeDue (now : ℕ) : Op.resetStaged k id ∈ (s.takeDue now).1.flatMap Op.due ↔
    ∃ d ∈ s.entriesOf k id, d ≤ now := by
  simp only [NmosManager.takeDue, NmosManager.entriesOf, List.mem_flatMap, List.mem_filter, mem_due,
    List.mem_map, decide_eq_true_eq, Bool.decide_and, Bool.and_eq_true]
  constructor
  · rintro ⟨pa, ⟨hpa, hdue⟩, rfl, rfl⟩
    exact ⟨_, ⟨pa, ⟨hpa, rfl, rfl⟩, rfl⟩, hdue⟩
  · rintro ⟨_, ⟨pa, ⟨hpa, rfl, rfl⟩, rfl⟩, hdue⟩
    exact ⟨pa, ⟨hpa, hdue⟩, rfl, rfl⟩

theorem stagedAct?_schedule {k' : Kind} {id' : UInt8} (act : Is05Activation) :
    (s.schedule e k' id' act).stagedAct? k id = s.stagedAct? k id := by
  rw [NmosManager.schedule]
  split
  · cases k <;> rfl
  · rfl

theorem entriesOf_schedule {k' : Kind} {id' : UInt8} (act : Is05Activation) :
    (s.schedule e k' id' act).entriesOf k id = s.entriesOf k id ++
      if k = k' ∧ id = id' then (act.begun e).booked else [] := by
  rw [NmosManager.schedule, booked_begun]
  split
  · by_cases hkey : k = k' ∧ id = id'
    · obtain ⟨rfl, rfl⟩ := hkey
      simp [NmosManager.entriesOf]
    · have hne : ¬ (k' = k ∧ id' = id) := fun ⟨hk, hid⟩ => hkey ⟨hk.symm, hid.symm⟩
      simp [NmosManager.entriesOf, hkey, hne]
  · split <;> simp

/-- What a PATCH does to the books, once the new staged half is stored. -/
theorem books_patch {s₁ : NmosManager} {op : Op} {k' : Kind} {id' : UInt8} {act : Is05Activation}
    (hop : op.patchedAct? s = some (k', id', act))
    (hact : ∀ k id, s₁.stagedAct? k id =
      if k = k' ∧ id = id' then some (act.begun e) else s.stagedAct? k id)
    (hpending : s₁.pendingActivations = s.pendingActivations) :
    Books e k id s op (if act.immediate then apply k' id' else []) (s₁.schedule e k' id' act) := by
  have hentries : (s₁.schedule e k' id' act).entriesOf k id = s.entriesOf k id ++
      if k = k' ∧ id = id' then (act.begun e).booked else [] := by
    rw [entriesOf_schedule, NmosManager.entriesOf_congr hpending]
  have hbooked : (s₁.schedule e k' id' act).bookedFor k id =
      if k = k' ∧ id = id' then (act.begun e).booked else s.bookedFor k id := by
    rw [NmosManager.bookedFor, stagedAct?_schedule, hact]
    split <;> rfl
  have hnext : .resetStaged k id ∈ (if act.immediate then apply k' id' else []) →
      (k = k' ∧ id = id') ∧ act.immediate = true := by
    split
    · rename_i himm
      exact fun hmem => ⟨mem_apply.mp hmem, himm⟩
    · simp
  by_cases hkey : k = k' ∧ id = id'
  · rw [if_pos hkey] at hentries hbooked
    refine .patch (hop.trans (by rw [hkey.1, hkey.2])) hentries hbooked ?_
    exact fun hmem => scheduled_of_immediate (hnext hmem).2
  · rw [if_neg hkey] at hentries hbooked
    rw [List.append_nil] at hentries
    exact .same hentries hbooked fun hmem => hkey (hnext hmem).1

theorem books_patchSender (id' : UInt8) (body : Except Text (Patch SenderTpPatch)) :
    Books e k id s (.patchSender id' body) ((Op.patchSender id' body).exec h e s).1
      ((Op.patchSender id' body).exec h e s).2 := by
  cases body with
  | error err => exact .same rfl rfl (by simp [exec, NmosManager.patchSenderStaged, afterPatch])
  | ok p =>
      cases hsr : s.senders.find? id' with
      | none =>
          simp only [exec, NmosManager.patchSenderStaged, hsr, afterPatch]
          exact .same rfl rfl (by simp)
      | some sr =>
          simp only [exec, NmosManager.patchSenderStaged, hsr, afterPatch]
          refine books_patch (by simp [patchedAct?, hsr]) ?_ rfl
          intro k id
          cases k with
          | sink => simp [NmosManager.stagedAct?]
          | source =>
              simp only [NmosManager.stagedAct?, SortedMap.find?_insert, true_and]
              split <;> rfl

theorem books_patchReceiver (id' : UInt8) (body : Except Text (Patch ReceiverTpPatch)) :
    Books e k id s (.patchReceiver id' body) ((Op.patchReceiver id' body).exec h e s).1
      ((Op.patchReceiver id' body).exec h e s).2 := by
  cases body with
  | error err => exact .same rfl rfl (by simp [exec, NmosManager.patchReceiverStaged, afterPatch])
  | ok p =>
      cases hrr : s.receivers.find? id' with
      | none =>
          simp only [exec, NmosManager.patchReceiverStaged, hrr, afterPatch]
          exact .same rfl rfl (by simp)
      | some rr =>
          simp only [exec, NmosManager.patchReceiverStaged, hrr, afterPatch]
          refine books_patch (by simp [patchedAct?, hrr]) ?_ rfl
          intro k id
          cases k with
          | source => simp [NmosManager.stagedAct?]
          | sink =>
              simp only [NmosManager.stagedAct?, SortedMap.find?_insert, true_and]
              split <;> rfl

/-- An operation that changes no staged activation and no pending one. -/
theorem books_frame {op : Op} {next : List Op} {s' : NmosManager}
    (hact : s'.stagedAct? k id = s.stagedAct? k id)
    (hpending : s'.pendingActivations = s.pendingActivations) (hnext : .resetStaged k id ∉ next) :
    Books e k id s op next s' :=
  .same (NmosManager.entriesOf_congr hpending) (NmosManager.bookedFor_congr hact) hnext

/-- An operation that changes nothing. -/
theorem books_idle {op : Op} {next : List Op} (hnext : .resetStaged k id ∉ next) : Books e k id s op next s :=
  .same rfl rfl hnext

theorem books_resetStaged (k' : Kind) (id' : UInt8) :
    Books e k id s (.resetStaged k' id') ((Op.resetStaged k' id').exec h e s).1
      ((Op.resetStaged k' id').exec h e s).2 := by
  by_cases hkey : k = k' ∧ id = id'
  · obtain ⟨rfl, rfl⟩ := hkey
    refine .reset rfl (NmosManager.entriesOf_congr (by simp [exec, NmosManager.resetStaged])) ?_
    simp only [exec, NmosManager.resetStaged, NmosManager.bookedFor,
      NmosManager.stagedAct?_modifyStagedAct, and_self, if_true]
    cases s.stagedAct? k id <;> rfl
  · refine books_frame ?_ (by simp [exec, NmosManager.resetStaged]) (by simp [exec])
    rw [exec, NmosManager.resetStaged, NmosManager.stagedAct?_modifyStagedAct, if_neg hkey]

theorem books_stamp (k' : Kind) (id' : UInt8) :
    Books e k id s (.stamp k' id') ((Op.stamp k' id').exec h e s).1
      ((Op.stamp k' id').exec h e s).2 := by
  refine .same (NmosManager.entriesOf_congr (by simp [exec, NmosManager.stamp])) ?_ (by simp [exec])
  simp only [exec, NmosManager.stamp, NmosManager.bookedFor,
    NmosManager.stagedAct?_modifyStagedAct]
  split
  · rename_i hkey
    obtain ⟨rfl, rfl⟩ := hkey
    cases s.stagedAct? k id <;> rfl
  · rfl

theorem books_writeSender (id' : UInt8) (src : StreamSource) (tp : List SenderTp) (push : Bool) :
    Books e k id s (.writeSender id' src tp push) ((Op.writeSender id' src tp push).exec h e s).1
      ((Op.writeSender id' src tp push).exec h e s).2 := by
  refine .same (NmosManager.entriesOf_congr rfl) ?_ (by simp only [exec]; split <;> simp)
  rw [exec, NmosManager.bookedFor, NmosManager.stagedAct?_writeSender]
  split
  · rename_i hkey
    obtain ⟨rfl, rfl⟩ := hkey
    rw [NmosManager.bookedFor]
    cases s.stagedAct? .source id <;> rfl
  · rfl

theorem books_eraseSender (id' : UInt8) :
    Books e k id s (.eraseSender id') ((Op.eraseSender id').exec h e s).1
      ((Op.eraseSender id').exec h e s).2 := by
  simp only [exec]
  split
  · by_cases hkey : k = .source ∧ id = id'
    · obtain ⟨rfl, rfl⟩ := hkey
      refine .erase rfl (NmosManager.entriesOf_congr rfl) ?_ (by simp)
      rw [NmosManager.bookedFor, NmosManager.stagedAct?_eraseSender, if_pos ⟨rfl, rfl⟩]
      rfl
    · exact books_frame (by rw [NmosManager.stagedAct?_eraseSender, if_neg hkey]) rfl (by simp)
  · exact books_idle (by simp)

theorem books_writeReceiver (id' : UInt8) (sink : StreamSink) (tp : List ReceiverTp) (push : Bool) :
    Books e k id s (.writeReceiver id' sink tp push) ((Op.writeReceiver id' sink tp push).exec h e s).1
      ((Op.writeReceiver id' sink tp push).exec h e s).2 := by
  refine .same (NmosManager.entriesOf_congr rfl) ?_ (by simp only [exec]; split <;> simp)
  rw [exec, NmosManager.bookedFor, NmosManager.stagedAct?_writeReceiver]
  split
  · rename_i hkey
    obtain ⟨rfl, rfl⟩ := hkey
    rw [NmosManager.bookedFor]
    cases s.stagedAct? .sink id <;> rfl
  · rfl

theorem books_eraseReceiver (id' : UInt8) :
    Books e k id s (.eraseReceiver id') ((Op.eraseReceiver id').exec h e s).1
      ((Op.eraseReceiver id').exec h e s).2 := by
  simp only [exec]
  split
  · by_cases hkey : k = .sink ∧ id = id'
    · obtain ⟨rfl, rfl⟩ := hkey
      refine .erase rfl (NmosManager.entriesOf_congr rfl) ?_ (by simp)
      rw [NmosManager.bookedFor, NmosManager.stagedAct?_eraseReceiver, if_pos ⟨rfl, rfl⟩]
      rfl
    · exact books_frame (by rw [NmosManager.stagedAct?_eraseReceiver, if_neg hkey]) rfl (by simp)
  · exact books_idle (by simp)

/-- **What an operation does to the books.** -/
theorem books_exec (h : NmosHost) (e : NmosEnv) (s : NmosManager) (k : Kind) (id : UInt8) (op : Op) :
    Books e k id s op (op.exec h e s).1 (op.exec h e s).2 := by
  cases op with
  | patchSender id' body => exact books_patchSender id' body
  | patchReceiver id' body => exact books_patchReceiver id' body
  | resetStaged k' id' => exact books_resetStaged k' id'
  | promoteSender id' =>
      simp only [exec]
      split
      · exact books_frame (NmosManager.stagedAct?_modifySender fun _ => rfl) rfl (by simp)
      · exact books_idle (by simp)
  | readSource id' => simp only [exec]; split <;> exact books_idle (by simp)
  | rebuildSender id' src =>
      exact books_frame (NmosManager.stagedAct?_modifySender fun _ => rfl) rfl (by simp [exec])
  | snapshotReceiver id' =>
      simp only [exec]
      split
      · split <;> exact books_idle (by simp)
      · exact books_idle (by simp)
  | resolveSdp id' a =>
      simp only [exec]
      split
      · exact books_idle (by simp)
      · split <;> exact books_idle (by simp)
  | promoteReceiver id' a sdp =>
      simp only [exec]
      split
      · refine books_frame (NmosManager.stagedAct?_modifyReceiver fun _ => rfl) rfl ?_
        split <;> simp
      · exact books_idle (by simp)
  | readSink id' a sdp => simp only [exec]; split <;> exact books_idle (by simp)
  | connect sink => exact books_frame (by cases k <;> rfl) rfl (by simp [exec])
  | readBack id' => simp only [exec]; split <;> exact books_idle (by simp)
  | storeSink id' sink =>
      exact books_frame (NmosManager.stagedAct?_modifyReceiver fun _ => rfl) rfl (by simp [exec])
  | takeDue =>
      exact .due rfl (entriesOf_takeDue e.now) (NmosManager.bookedFor_congr (by cases k <;> rfl))
        (mem_takeDue e.now)
  | stamp k' id' => exact books_stamp k' id'
  | getSource id' push => simp only [exec]; split <;> exact books_idle (by simp)
  | senderTp id' src push => exact books_idle (by simp [exec])
  | writeSender id' src tp push => exact books_writeSender id' src tp push
  | collectSender id' =>
      simp only [exec]
      split <;> exact books_idle (by simp)
  | eraseSender id' => exact books_eraseSender id'
  | getSink id' push => simp only [exec]; split <;> exact books_idle (by simp)
  | writeReceiver id' sink tp push => exact books_writeReceiver id' sink tp push
  | collectReceiver id' =>
      simp only [exec]
      split <;> exact books_idle (by simp)
  | eraseReceiver id' => exact books_eraseReceiver id'
  | fullRegistration => exact books_idle (by simp [exec])
  | getSources => exact books_idle (by simp [exec])
  | getSinks => exact books_idle (by simp [exec])
  | collectAll => exact books_idle (by simp [exec])
  | register doc => exact books_frame (by cases k <;> rfl) rfl (by simp [exec])
  | unregister type id' => exact books_frame (by cases k <;> rfl) rfl (by simp [exec])
  | nextEvent =>
      simp only [exec]
      split
      · rename_i ev evs _
        exact books_frame (by cases k <;> rfl) rfl (by
          rcases ev with ⟨_ | _, _⟩ | ⟨_ | _, _⟩ | _ | _ <;> simp [handle])
      · exact books_idle (by simp)
  | startServer => exact books_frame (by cases k <;> rfl) rfl (by simp [exec])

end Op

/-! ## Runs -/

namespace System
variable {h : NmosHost} {σ σ' : System} {k : Kind} {id : UInt8}

/-- Some thread is going to reset the staged half: an activation is under way. -/
def Resetting (σ : System) (k : Kind) (id : UInt8) : Prop :=
  σ.threads.Ahead (· = Op.resetStaged k id)

/-- A PATCH that leaves an activation meets a sender or a receiver that has none pending
and, if it schedules one, none under way. -/
structure OpenTo (σ : System) (k : Kind) (id : UInt8) (act : Is05Activation) : Prop where
  free : σ.nmos.entriesOf k id = []
  idle : act.scheduled = true → ¬ σ.Resetting k id

/-- The steps that keep the pending activations in step with the staged halves: a PATCH
meets a sender or a receiver that is open to it, and what is unregistered has no
pending activation. -/
def KeepsPending (σ : System) (l : Label) : Prop :=
  ∀ t e op rest, l = .turn t e → σ.threads.ops t = op :: rest →
    (∀ k id act, op.patchedAct? σ.nmos = some (k, id, act) → σ.OpenTo k id act) ∧
      ∀ k id, op.erases? = some (k, id) → σ.nmos.entriesOf k id = []

/-- What is pending for a sender or a receiver. -/
structure PendingExact (σ : System) (k : Kind) (id : UInt8) : Prop where
  busy : σ.Resetting k id → σ.nmos.entriesOf k id = []
  idle : ¬ σ.Resetting k id → σ.nmos.entriesOf k id = σ.nmos.bookedFor k id

theorem pendingExact_congr (H : σ.PendingExact k id) (hreset : σ'.Resetting k id ↔ σ.Resetting k id)
    (hentries : σ'.nmos.entriesOf k id = σ.nmos.entriesOf k id)
    (hbooked : σ'.nmos.bookedFor k id = σ.nmos.bookedFor k id) : σ'.PendingExact k id where
  busy hr := hentries.trans (H.busy (hreset.mp hr))
  idle hr := by rw [hentries, hbooked]; exact H.idle (mt hreset.mpr hr)

/-- A staged half speaks of one deadline at most. -/
theorem bookedFor_cases (s : NmosManager) (k : Kind) (id : UInt8) :
    s.bookedFor k id = [] ∨ ∃ d, s.bookedFor k id = [d] := by
  rw [NmosManager.bookedFor]
  cases s.stagedAct? k id with
  | none => exact .inl rfl
  | some act =>
      rw [Option.map_some, Option.getD_some, Is05Activation.booked]
      split
      · exact .inr ⟨_, rfl⟩
      · exact .inl rfl

/-- What a turn of a thread leaves pending. -/
theorem pendingExact_turned {t : ℕ} {e : NmosEnv} {op : Op} {rest : List Op} (H : σ.PendingExact k id)
    (hops : σ.threads.ops t = op :: rest)
    (hpatch : ∀ act, op.patchedAct? σ.nmos = some (k, id, act) → σ.OpenTo k id act)
    (herase : op.erases? = some (k, id) → σ.nmos.entriesOf k id = []) :
    (σ.turned h t e op rest).PendingExact k id := by
  by_cases hreset : op = .resetStaged k id
  · -- the reset itself: nothing is pending, and nothing is booked any more
    have hempty := H.busy ⟨t, op, by rw [hops]; exact List.mem_cons_self, hreset⟩
    have hentries : (op.exec h e σ.nmos).2.entriesOf k id = [] := by
      rw [hreset]
      exact (NmosManager.entriesOf_congr (by simp [Op.exec, NmosManager.resetStaged])).trans hempty
    have hbooked : (op.exec h e σ.nmos).2.bookedFor k id = [] := by
      simp only [hreset, Op.exec, NmosManager.resetStaged, NmosManager.bookedFor,
        NmosManager.stagedAct?_modifyStagedAct, and_self, if_true]
      cases σ.nmos.stagedAct? k id <;> rfl
    exact ⟨fun _ => hentries, fun _ => hentries.trans hbooked.symm⟩
  have hnext : (σ.turned h t e op rest).Resetting k id →
      .resetStaged k id ∈ (op.exec h e σ.nmos).1 ∨ σ.Resetting k id := by
    intro hr
    rcases Pool.ahead_turned hops hr with ⟨op', hmem, rfl⟩ | hold
    · exact .inl hmem
    · exact .inr hold
  have hkeep : ¬ (σ.turned h t e op rest).Resetting k id →
      .resetStaged k id ∉ (op.exec h e σ.nmos).1 ∧ ¬ σ.Resetting k id := fun hr =>
    ⟨fun hmem => hr (Pool.ahead_of_mem_exec hmem rfl), fun hold => hr (hold.turned hops hreset)⟩
  cases Op.books_exec h e σ.nmos k id op with
  | same hentries hbooked hno =>
      refine ⟨fun hr => ?_, fun hr => ?_⟩
      · exact hentries.trans (H.busy ((hnext hr).resolve_left hno))
      · exact hentries.trans ((H.idle (hkeep hr).2).trans hbooked.symm)
  | @patch act hop hentries hbooked hno =>
      have hopen := hpatch act hop
      rw [hopen.free, List.nil_append] at hentries
      refine ⟨fun hr => hentries.trans ?_, fun _ => hentries.trans hbooked.symm⟩
      have hsched : act.scheduled = false := by
        rcases hnext hr with hmem | hold
        · exact hno hmem
        · exact Bool.eq_false_iff.mpr fun hsched => hopen.idle hsched hold
      rw [Op.booked_begun, hsched]
      rfl
  | due hop hentries hbooked hdue =>
      refine ⟨fun hr => hentries.trans ?_, fun hr => hentries.trans ?_⟩
      · rcases hnext hr with hmem | hold
        · -- the only pending deadline is due
          obtain ⟨d, hd, hle⟩ := hdue.mp hmem
          have hidle : ¬ σ.Resetting k id := fun hbusy => by
            rw [H.busy hbusy] at hd
            cases hd
          rw [H.idle hidle] at hd ⊢
          rcases bookedFor_cases σ.nmos k id with hnil | ⟨d', hone⟩
          · rw [hnil]
            rfl
          · rw [hone, List.mem_singleton] at hd
            rw [hone, ← hd]
            simp [hle]
        · rw [H.busy hold]
          rfl
      · obtain ⟨hmem, hidle⟩ := hkeep hr
        refine .trans ?_ ((H.idle hidle).trans hbooked.symm)
        refine List.filter_eq_self.mpr fun d hd => decide_eq_true ?_
        exact not_le.mp fun hle => hmem (hdue.mpr ⟨d, hd, hle⟩)
  | reset hop => exact absurd hop hreset
  | erase hop hentries hbooked hno =>
      have hempty := hentries.trans (herase hop)
      exact ⟨fun _ => hempty, fun _ => hempty.trans hbooked.symm⟩

/-- **One step keeps the pending activations exact.** -/
theorem pendingExact_step {l : Label} (H : ∀ k id, σ.PendingExact k id) (hl : σ.KeepsPending l)
    (hs : σ.step h l = some σ') : ∀ k id, σ'.PendingExact k id := by
  intro k id
  rcases step_cases hs with ⟨ev, sm, -, -, rfl⟩ | ⟨found, -, rfl⟩ | ⟨t, op, -, hstart, -, hidle, rfl⟩ |
    ⟨t, e, op, rest, rfl, -, hops, rfl⟩
  · exact pendingExact_congr (H k id) .rfl (NmosManager.entriesOf_congr rfl)
      (NmosManager.bookedFor_congr (by cases k <;> rfl))
  · exact pendingExact_congr (H k id) .rfl (NmosManager.entriesOf_congr rfl)
      (NmosManager.bookedFor_congr (by cases k <;> rfl))
  · refine pendingExact_congr (H k id) (Pool.ahead_started hidle ?_) rfl rfl
    rintro rfl
    cases hstart
  · obtain ⟨hpatch, herase⟩ := hl t e op rest rfl hops
    exact pendingExact_turned (H k id) hops (hpatch k id) (herase k id)

theorem pendingExact_boot (e : NmosEnv) (sm : SessionManager) : (boot h e sm).PendingExact k id where
  busy _ := rfl
  idle _ := by cases k <;> rfl

/-- **The pending activations are those the staged halves speak of**, whenever no activation is
under way, in every run in which a PATCH meets a sender or a receiver that is open to it and
nothing with a pending activation is unregistered. -/
theorem pending_activations (h : NmosHost) (e : NmosEnv) (sm : SessionManager) (labels : List Label)
    (hkeep : Along (step h) KeepsPending (boot h e sm) labels) (σ : System)
    (hrun : run (step h) (boot h e sm) labels = some σ) (k : Kind) (id : UInt8)
    (hidle : ¬ σ.Resetting k id) : σ.nmos.entriesOf k id = σ.nmos.bookedFor k id := by
  have H := run_keeps (J := fun σ : System => ∀ k id, σ.PendingExact k id)
    (fun _ _ _ H hl hs => pendingExact_step H hl hs) (fun _ _ => pendingExact_boot e sm) hkeep hrun
  exact (H k id).idle hidle

/-- What `KeepsPending` asks for, where two threads have anything to do. -/
def keepsPending (σ : System) : Label → Bool
  | .turn t _ =>
    (σ.threads.ops t).head?.all fun op =>
      ((op.patchedAct? σ.nmos).all fun p => σ.nmos.entriesOf p.1 p.2.1 = [] &&
        (!p.2.2.scheduled || [0, 1].all fun t' => (σ.threads.ops t').all fun op' =>
          match op' with
          | .resetStaged k id => !(k = p.1 && id = p.2.1)
          | _ => true)) &&
      op.erases?.all fun p => σ.nmos.entriesOf p.1 p.2 = []
  | _ => true

theorem keepsPending_of_check {l : Label} (hq : σ.Quiet 2) (h : σ.keepsPending l = true) :
    σ.KeepsPending l := by
  rintro t e op rest rfl hops
  simp only [keepsPending, hops, List.head?_cons, Option.all_some, Bool.and_eq_true] at h
  refine ⟨fun k id act hact => ?_, fun k id hid => ?_⟩
  · simp only [hact, Option.all_some, Bool.and_eq_true, decide_eq_true_eq, Bool.or_eq_true,
      Bool.not_eq_true', List.all_cons, List.all_nil, Bool.and_true, List.all_eq_true] at h
    refine ⟨h.1.1, fun hsched => ?_⟩
    rintro ⟨t', op', hop', rfl⟩
    have hidle := h.1.2.resolve_left (by simp [hsched])
    match t', hop' with
    | 0, hop' => simpa using hidle.1 _ hop'
    | 1, hop' => simpa using hidle.2 _ hop'
    | t' + 2, hop' =>
        rw [hq (t' + 2) (by omega)] at hop'
        cases hop'
  · simpa [hid] using h.2

/-- A request that schedules what it stages. -/
def activateLater {π : Type} (time : Text) : Except Text (Patch π) :=
  .ok { mode := some "activate_scheduled_relative".toList, requestedTime := some time }

/-- A scheduled activation that comes due and is carried out. -/
theorem pending_activations_due : ∃ σ : System, σ.nmos.bookedFor .source 1 = [] ∧
    σ.nmos.entriesOf .source 1 = [] := by
  obtain ⟨sm, σ, -, hkeep, hrun, hq, ⟨hidle0, hidle1⟩, hbooked⟩ := along_sampleRun {} 2 soleSource.1
    (soleSource.2 ++ [.start 1 (.patchSender 1 (activateLater "1:0".toList)), .turn 1 {},
      .start 0 .takeDue] ++ turns 6 0 { now := 2 * nanosPerSec })
    (P := KeepsPending) keepsPending (fun σ => ((σ.threads.ops 0).isEmpty ∧ (σ.threads.ops 1).isEmpty) ∧
      σ.nmos.bookedFor .source 1 = []) (by decide)
    (fun σ l hq hl => keepsPending_of_check hq hl) (by decide +kernel)
  have hidle : ¬ σ.Resetting .source 1 := by
    rintro ⟨t, op, hop, -⟩
    rw [hq.idle hidle0 hidle1] at hop
    cases hop
  exact ⟨σ, hbooked, (pending_activations {} {} sm _ hkeep σ hrun .source 1 hidle).trans hbooked⟩

/-- A PATCH with the mode `null` cancels the staged activation, and it stays pending. -/
theorem pending_activations_stale : ∃ σ, System.Reachable {} σ ∧ (∀ t, σ.threads.ops t = []) ∧
    σ.nmos.entriesOf .source 1 ≠ σ.nmos.bookedFor .source 1 := by
  obtain ⟨sm, σ, hsm, -, hrun, hq, ⟨hidle0, hidle1⟩, hstale⟩ := along_sampleRun {} 2 soleSource.1
    (soleSource.2 ++ [.start 1 (.patchSender 1 (activateLater "1:0".toList)), .turn 1 {},
      .start 1 (.patchSender 1 (.ok { mode := some "null".toList })), .turn 1 {}])
    (P := fun _ _ => True) (fun _ _ => true) (fun σ => ((σ.threads.ops 0).isEmpty ∧ (σ.threads.ops 1).isEmpty) ∧
      σ.nmos.entriesOf .source 1 ≠ σ.nmos.bookedFor .source 1) (by decide)
    (fun _ _ _ _ => trivial) (by decide +kernel)
  exact ⟨σ, ⟨{}, 0, _, sm, {}, _, hsm, hrun⟩, hq.idle hidle0 hidle1, hstale⟩

end System
end Aes67Daemon
