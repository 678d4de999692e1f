import Aes67Daemon.Nmos.Activation
import Aes67Daemon.Nmos.Mirror

/-!
# The subscription of a receiver

An activation that connects a receiver adds its sink again, and so does a direct
update of the sink.  Either way the worker removes the receiver and registers it
anew.  The active sender is carried over in a side map with one value for each
sink, which the first registration takes.

Each addition of the sink owes one registration.  The side map is right as long as
no change comes while another one still owes its registration, unless the receiver
has no sender after it.

## Main definitions

* `NmosManager.activeSender?`, `preserved` — the active sender, and the side map.
* `System.change?`, `lastChange` — the changes of a subscription.
* `System.Connecting`, `owed` — what a change still has to do.
* `System.OnlyChanges`, `Apart` — the runs in question, and the steps that keep the
  subscription.
-/
namespace Aes67Daemon

open Text

namespace NmosManager
variable {h : NmosHost} {e : NmosEnv} {s s' : NmosManager} {id : UInt8}

/-- The active sender of a receiver that is registered; the empty text is none. -/
def activeSender? (id : UInt8) (s : NmosManager) : Option Text :=
  (s.receivers.find? id).map fun rr => rr.active.peerId

/-- What the side map has for a receiver. -/
def preserved (id : UInt8) (s : NmosManager) : Text := (s.preservedActiveSenderIds.find? id).getD []

/-- The active sender and the side map are as before. -/
def SameSender (id : UInt8) (s s' : NmosManager) : Prop :=
  s'.activeSender? id = s.activeSender? id ∧ s'.preserved id = s.preserved id

theorem SameSender.refl (s : NmosManager) : SameSender id s s := ⟨rfl, rfl⟩

theorem sameSender_of_eq (hreceivers : s'.receivers = s.receivers)
    (hpreserved : s'.preservedActiveSenderIds = s.preservedActiveSenderIds) : SameSender id s s' := by
  rw [SameSender, activeSender?, activeSender?, preserved, preserved, hreceivers, hpreserved]
  exact ⟨rfl, rfl⟩

/-- The active half of a receiver stays. -/
theorem sameSender_modify {id' : UInt8} (f : ReceiverResources → ReceiverResources)
    (hf : ∀ rr, (f rr).active.peerId = rr.active.peerId) :
    SameSender id s { s with receivers := s.receivers.modify id' f } := by
  refine ⟨?_, rfl⟩
  simp only [activeSender?, SortedMap.find?_modify]
  split
  · rename_i hid
    subst hid
    rw [Option.map_map]
    exact Option.map_congr fun rr _ => hf rr
  · rfl

theorem sameSender_patchReceiver (id' : UInt8) (body : Except Text (Patch ReceiverTpPatch)) :
    SameSender id s (s.patchReceiverStaged e id' body).2 := by
  cases body with
  | error err => exact .refl s
  | ok p =>
      rw [patchReceiverStaged]
      cases hrr : s.receivers.find? id' with
      | none => exact .refl s
      | some rr =>
          simp only [schedule]
          have hinsert : ∀ staged : Endpoint ReceiverTp, SameSender id s
              { s with receivers := s.receivers.insert id' { rr with staged := staged } } := by
            intro staged
            refine ⟨?_, rfl⟩
            simp only [activeSender?, SortedMap.find?_insert]
            split
            · rename_i hid
              rw [hid, hrr]
              rfl
            · rfl
          split
          · exact hinsert _
          · exact hinsert _

end NmosManager

namespace Op
variable {h : NmosHost} {e : NmosEnv} {s : NmosManager} {id : UInt8}

/-- The operations of a connection from its promotion to the addition of the sink. -/
def connects (id : UInt8) : Op → Bool
  | .readSink id' a _ => id' = id && a.masterEnable
  | .connect sink => sink.id = id && sink.useSdp
  | _ => false

/-- What `apply_receiver_activation` has made sure of: a connection has an SDP, and a
disconnection leaves the sink nothing to connect to. -/
def Sensible : Op → Prop
  | .promoteReceiver _ a sdp => a.activeSenderId ≠ [] → sdp ≠ []
  | .connect sink => sink.useSdp = false → sink.source = []
  | _ => True

theorem sensible_exec (op : Op) : ∀ op' ∈ (op.exec h e s).1, op'.Sensible := by
  have happly : ∀ k id, ∀ op' ∈ apply k id, op'.Sensible := by
    intro k id op' hop'
    rcases mem_apply_cases hop' with rfl | rfl | rfl <;> trivial
  cases op with
  | patchSender id body | patchReceiver id body =>
      exact fun op' hop' => happly _ _ op' (mem_afterPatch hop')
  | takeDue =>
      intro op' hop'
      obtain ⟨pa, -, hop'⟩ := List.mem_flatMap.mp hop'
      rcases mem_due_cases hop' with rfl | hop'
      · trivial
      · exact happly _ _ op' hop'
  | snapshotReceiver id =>
      simp only [exec]
      split
      · rename_i rr _
        split
        · simp [Sensible]
        · rename_i hno
          refine List.forall_mem_singleton.mpr fun hsender => absurd hsender ?_
          simp_all [ReceiverActivation.connects, ReceiverActivation.activeSenderId]
      · simp
  | resolveSdp id a =>
      simp only [exec]
      split
      · simp
      · rename_i hsdp
        split
        · simp
        · exact List.forall_mem_singleton.mpr fun _ => hsdp
  | readSink id a sdp =>
      simp only [exec]
      split
      · refine List.forall_mem_singleton.mpr ?_
        simp only [Sensible, ReceiverActivation.target]
        split <;> simp
      · simp
  | getSources => exact List.forall_mem_map.mpr fun _ _ => trivial
  | getSinks => exact List.forall_mem_map.mpr fun _ _ => trivial
  | collectAll => exact List.forall_mem_map.mpr fun _ _ => trivial
  | collectSender id =>
      simp only [exec]
      split
      · exact List.forall_mem_map.mpr fun _ _ => trivial
      · simp
  | nextEvent =>
      simp only [exec]
      split
      · rename_i ev evs _
        rcases ev with ⟨_ | _, _⟩ | ⟨_ | _, _⟩ | _ | _ <;> simp [handle, Sensible]
      · simp
  | _ =>
      simp only [exec]
      repeat' split
      all_goals simp [Sensible]

/-- Where the operations of a connection come from. -/
theorem connects_exec (op : Op) : (∀ op' ∈ (op.exec h e s).1.tail, op'.connects id = false) ∧
    ∀ op' ∈ (op.exec h e s).1, op'.connects id = true → op.connects id = true ∨
      ∃ a sdp, op = .promoteReceiver id a sdp := by
  have hnone : (∀ op' ∈ (op.exec h e s).1, op'.connects id = false) →
      (∀ op' ∈ (op.exec h e s).1.tail, op'.connects id = false) ∧
        ∀ op' ∈ (op.exec h e s).1, op'.connects id = true → op.connects id = true ∨
          ∃ a sdp, op = .promoteReceiver id a sdp := by
    intro H
    refine ⟨fun op' hop' => H op' (List.mem_of_mem_tail hop'), fun op' hop' hconnects => ?_⟩
    rw [H op' hop'] at hconnects
    cases hconnects
  have happly : ∀ k id', ∀ op' ∈ apply k id', op'.connects id = false := by
    intro k id' op' hop'
    rcases mem_apply_cases hop' with rfl | rfl | rfl <;> rfl
  cases op with
  | patchSender id' body | patchReceiver id' body =>
      exact hnone fun op' hop' => happly _ _ op' (mem_afterPatch hop')
  | takeDue =>
      refine hnone fun op' hop' => ?_
      obtain ⟨pa, -, hop'⟩ := List.mem_flatMap.mp hop'
      rcases mem_due_cases hop' with rfl | hop'
      · rfl
      · exact happly _ _ op' hop'
  | promoteReceiver id' a sdp =>
      clear hnone happly
      simp only [exec]
      split
      · split
        · refine ⟨by simp [connects], fun op' hop' hconnects => .inr ⟨a, sdp, ?_⟩⟩
          simp only [List.singleton_append, List.mem_cons, List.not_mem_nil, or_false] at hop'
          rcases hop' with rfl | rfl
          · simp only [connects, Bool.and_eq_true, decide_eq_true_eq] at hconnects
            rw [hconnects.1]
          · cases hconnects
        · simp [connects]
      · simp
  | readSink id' a sdp =>
      clear hnone happly
      simp only [exec]
      split
      · rename_i sink hsink
        obtain ⟨info, -, rfl⟩ := Option.map_eq_some_iff.mp hsink
        refine ⟨by simp, fun op' hop' hconnects => .inl ?_⟩
        rw [List.mem_singleton.mp hop'] at hconnects
        simp only [connects, ReceiverActivation.target] at hconnects ⊢
        split at hconnects
        · rename_i hmaster
          rw [hmaster]
          exact hconnects
        · simp at hconnects
      · simp
  | getSources => exact hnone (List.forall_mem_map.mpr fun _ _ => rfl)
  | getSinks => exact hnone (List.forall_mem_map.mpr fun _ _ => rfl)
  | collectAll => exact hnone (List.forall_mem_map.mpr fun _ _ => rfl)
  | collectSender id' =>
      refine hnone ?_
      simp only [exec]
      split
      · exact List.forall_mem_map.mpr fun _ _ => rfl
      · simp
  | nextEvent =>
      refine hnone ?_
      simp only [exec]
      split
      · rename_i ev evs _
        rcases ev with ⟨_ | _, _⟩ | ⟨_ | _, _⟩ | _ | _ <;> simp [handle, connects]
      · simp
  | _ =>
      refine hnone ?_
      simp only [exec]
      repeat' split
      all_goals simp [connects]

/-- What an operation does to the active sender of a receiver and to the side map. -/
inductive Subscribes (h : NmosHost) (e : NmosEnv) (id : UInt8) (s : NmosManager) (op : Op)
    (s' : NmosManager) : Prop
  | kept (hpromote : ∀ a sdp, op = .promoteReceiver id a sdp → s.receivers.contains id = false)
      (hwrite : ∀ sink tp push, op ≠ .writeReceiver id sink tp push) (herase : op ≠ .eraseReceiver id)
      (hsame : NmosManager.SameSender id s s')
  | promoted (a : ReceiverActivation) (sdp : Text) (hop : op = .promoteReceiver id a sdp)
      (hid : s.receivers.contains id = true) (hactive : s'.activeSender? id = some a.activeSenderId)
      (hpreserved : s'.preserved id = a.activeSenderId)
  | written (sink : StreamSink) (tp : List ReceiverTp) (push : Bool)
      (hop : op = .writeReceiver id sink tp push) (hactive : s'.activeSender? id = some (s.preserved id))
      (hpreserved : s'.preserved id = [])
  | erased (hop : op = .eraseReceiver id) (hpreserved : s'.preserved id = s.preserved id)

/-- The sender an activation gives a receiver when it is promoted. -/
def change? (id : UInt8) (s : NmosManager) : Op → Option Text
  | .promoteReceiver id' a _ =>
    if id' = id ∧ s.receivers.contains id' then some a.activeSenderId else none
  | _ => none

theorem subscribes_exec (op : Op) : Subscribes h e id s op (op.exec h e s).2 := by
  have hkept : (∀ a sdp, op ≠ .promoteReceiver id a sdp) → (∀ sink tp push, op ≠ .writeReceiver id sink tp push) →
      op ≠ .eraseReceiver id → NmosManager.SameSender id s (op.exec h e s).2 →
      Subscribes h e id s op (op.exec h e s).2 :=
    fun hno hwrite herase hsame => .kept (fun a sdp hop => absurd hop (hno a sdp)) hwrite herase hsame
  cases op with
  | patchSender id' body =>
      refine hkept (by simp) (by simp) (by simp) ?_
      have hpatch : (s.patchSenderStaged e id' body).2.receivers = s.receivers ∧
          (s.patchSenderStaged e id' body).2.preservedActiveSenderIds = s.preservedActiveSenderIds := by
        cases body with
        | error err => exact ⟨rfl, rfl⟩
        | ok p =>
            rw [NmosManager.patchSenderStaged]
            cases s.senders.find? id' with
            | none => exact ⟨rfl, rfl⟩
            | some sr => simp only [NmosManager.schedule]; split <;> exact ⟨rfl, rfl⟩
      exact NmosManager.sameSender_of_eq hpatch.1 hpatch.2
  | patchReceiver id' body => exact hkept (by simp) (by simp) (by simp) (NmosManager.sameSender_patchReceiver id' body)
  | resetStaged k id' =>
      refine hkept (by simp) (by simp) (by simp) ?_
      cases k with
      | source => exact NmosManager.sameSender_of_eq rfl rfl
      | sink => exact NmosManager.sameSender_modify _ fun _ => rfl
  | stamp k id' =>
      refine hkept (by simp) (by simp) (by simp) ?_
      cases k with
      | source => exact NmosManager.sameSender_of_eq rfl rfl
      | sink => exact NmosManager.sameSender_modify _ fun _ => rfl
  | storeSink id' sink => exact hkept (by simp) (by simp) (by simp) (NmosManager.sameSender_modify _ fun _ => rfl)
  | promoteReceiver id' a sdp =>
      clear hkept
      simp only [exec]
      split
      · rename_i hid
        by_cases heq : id' = id
        · subst heq
          obtain ⟨rr, hrr⟩ := SortedMap.contains_eq_true.mp hid
          refine .promoted a sdp rfl hid ?_ ?_
          · simp [NmosManager.promoteReceiver, NmosManager.activeSender?, hrr, ReceiverResources.promoted]
          · simp [NmosManager.promoteReceiver, NmosManager.preserved, hid]
        · refine .kept (fun a' sdp' hop => absurd (Op.promoteReceiver.inj hop).1 heq) (by simp) (by simp) ?_
          have hne : id ≠ id' := Ne.symm heq
          simp [NmosManager.SameSender, NmosManager.promoteReceiver, NmosManager.activeSender?,
            NmosManager.preserved, hid, SortedMap.find?_modify_of_ne _ _ hne, SortedMap.find?_insert_of_ne _ _ hne]
      · rename_i hid
        refine .kept (fun a' sdp' hop => ?_) (by simp) (by simp) (.refl s)
        rw [← (Op.promoteReceiver.inj hop).1]
        exact Bool.eq_false_iff.mpr hid
  | writeReceiver id' sink tp push =>
      clear hkept
      by_cases heq : id' = id
      · subst heq
        refine .written sink tp push rfl ?_ ?_
        · simp [exec, NmosManager.writeReceiver, NmosManager.rebuildDeviceJson, NmosManager.activeSender?,
            NmosManager.preserved]
        · simp [exec, NmosManager.writeReceiver, NmosManager.rebuildDeviceJson, NmosManager.preserved]
      · refine .kept (by simp) (by simp [heq]) (by simp) ?_
        have hne : id ≠ id' := Ne.symm heq
        simp [NmosManager.SameSender, exec, NmosManager.writeReceiver, NmosManager.rebuildDeviceJson,
          NmosManager.activeSender?, NmosManager.preserved, SortedMap.find?_insert_of_ne _ _ hne,
          SortedMap.find?_erase_of_ne _ hne]
  | eraseReceiver id' =>
      clear hkept
      by_cases heq : id' = id
      · subst heq
        refine .erased rfl ?_
        simp only [exec]
        split <;> rfl
      · refine .kept (by simp) (by simp) (by simp [heq]) ?_
        have hne : id ≠ id' := Ne.symm heq
        simp only [exec]
        split
        · simp [NmosManager.SameSender, NmosManager.eraseReceiver, NmosManager.rebuildDeviceJson,
            NmosManager.activeSender?, NmosManager.preserved, SortedMap.find?_erase_of_ne _ hne]
        · exact .refl s
  | _ =>
      refine hkept (by simp) (by simp) (by simp) ?_
      simp only [exec]
      repeat' split
      all_goals exact NmosManager.sameSender_of_eq rfl rfl

end Op

/-! ## The changes of a subscription -/

namespace System
variable {h : NmosHost} {σ σ' : System} {id : UInt8} {t : ℕ} {e : NmosEnv} {op : Op} {rest : List Op}
  {v : Text}

/-- The sender a step gives a receiver: an activation gives it its own, and a direct update of
the sink none; `none` when the step is no change of the subscription. -/
def change? (h : NmosHost) (id : UInt8) (σ : System) : Label → Option Text
  | .turn t _ => (σ.threads.ops t).head?.bind (Op.change? id σ.nmos)
  | .stream (.request (.addSink env sink)) =>
    if sink.id = id ∧ (σ.nmos.sm.addSink h.host env sink).1 = .ok then some [] else none
  | _ => none

/-- The last change of the subscription in a run, if there is one. -/
def lastChange (h : NmosHost) (id : UInt8) : System → List Label → Option Text
  | _, [] => none
  | σ, l :: ls => (σ.step h l).bind fun σ' => (lastChange h id σ' ls).or (σ.change? h id l)

/-- A connection is promoted and has not yet added the sink. -/
def Connecting (id : UInt8) (σ : System) : Prop := σ.threads.Ahead fun op => op.connects id = true

/-- The registrations of the receiver that the additions of its sink still owe. -/
def owed (id : UInt8) (σ : System) : ℕ :=
  (σ.threads.ops 0).countP (fun op => op.work? = some (.write true, .sink, id)) +
    (σ.nmos.queued .sink id).count true

/-- The runs in question: the sink stays, connections succeed, and the worker only handles
events. -/
structure OnlyChanges (h : NmosHost) (id : UInt8) (σ : System) (l : Label) : Prop where
  stays : ∀ σ', σ.step h l = some σ' → σ'.nmos.sm.live .sink id = true
  connected : ∀ t e sink rest, l = .turn t e → σ.threads.ops t = .connect sink :: rest →
    sink.id = id → sink.useSdp = true → (σ.nmos.sm.addSink h.host e.env sink).1 = .ok
  handles : ∀ t e rest, l = .turn t e → σ.threads.ops t ≠ .fullRegistration :: rest

/-- A change comes while no connection is under way; if the receiver has a sender after it, all
the earlier ones have had their registration. -/
def Apart (h : NmosHost) (id : UInt8) (σ : System) (l : Label) : Prop :=
  ∀ v, σ.change? h id l = some v → ¬ σ.Connecting id ∧ (v ≠ [] → σ.owed id = 0)

/-- What the active sender and the side map have to do with the last change, when `n`
registrations are owed. -/
inductive Promises (id : UInt8) (v : Text) : ℕ → NmosManager → Prop
  | zero {s : NmosManager} (hactive : s.activeSender? id = some v) (hpreserved : s.preserved id = []) :
      Promises id v 0 s
  | one {s : NmosManager} (hpreserved : s.preserved id = v) : Promises id v 1 s
  | more {n : ℕ} {s : NmosManager} (hnone : v = []) : Promises id v (n + 2) s

/-- The state of a subscription whose last change gave the receiver the sender `v`. -/
structure Kept (id : UInt8) (v : Text) (σ : System) : Prop where
  heard : σ.Heard .sink id
  ordered : σ.Orderly
  sensible : ∀ t, ∀ op ∈ σ.threads.ops t, op.Sensible
  live : σ.nmos.sm.live .sink id = true
  unlisted : ¬ σ.threads.Ahead fun op => op = .getSinks ∨ op.work? = some (.write false, .sink, id)
  promises : ¬ σ.Connecting id ∧ Promises id v (σ.owed id) σ.nmos ∨
    σ.Connecting id ∧ (σ.threads.Sole fun op => op.connects id = true) ∧
      Promises id v (σ.owed id + 1) σ.nmos

namespace Promises
variable {n : ℕ} {s s' : NmosManager}

theorem congr (H : Promises id v n s) (hsame : NmosManager.SameSender id s s') : Promises id v n s' := by
  obtain ⟨hactive, hpreserved⟩ := hsame
  cases H with
  | zero ha hp => exact .zero (hactive.trans ha) (hpreserved.trans hp)
  | one hp => exact .one (hpreserved.trans hp)
  | more hnone => exact .more hnone

/-- A receiver that is removed is owed a registration. -/
theorem erased (H : Promises id v (n + 1) s) (hpreserved : s'.preserved id = s.preserved id) :
    Promises id v (n + 1) s' := by
  cases H with
  | one hp => exact .one (hpreserved.trans hp)
  | more hnone => exact .more hnone

/-- A registration takes the value of the side map. -/
theorem written (H : Promises id v (n + 1) s) (hactive : s'.activeSender? id = some (s.preserved id))
    (hpreserved : s'.preserved id = []) : Promises id v n s' := by
  cases H with
  | one hp => exact .zero (hp ▸ hactive) hpreserved
  | @more m _ hnone =>
      cases m with
      | zero => exact .one (hpreserved.trans hnone.symm)
      | succ m => exact .more hnone

/-- A direct update. -/
theorem updated (H : Promises id v n s) (hsame : NmosManager.SameSender id s s') :
    Promises id [] (n + 1) s' := by
  cases H with
  | zero ha hp => exact .one (hsame.2.trans hp)
  | one | more => exact .more rfl

/-- An activation. -/
theorem promoted {v' : Text} (H : Promises id v n s) (hactive : s'.activeSender? id = some v')
    (hpreserved : s'.preserved id = v') : (v' = [] → Promises id v' n s') ∧
      ((v' ≠ [] → n = 0) → Promises id v' (n + 1) s') := by
  refine ⟨fun hnone => ?_, fun hapart => ?_⟩
  · cases H with
    | zero => exact .zero hactive (hpreserved.trans hnone)
    | one => exact .one hpreserved
    | more => exact .more hnone
  · cases n with
    | zero => exact .one hpreserved
    | succ n =>
        refine .more ?_
        by_contra hne
        exact absurd (hapart hne) (by omega)

end Promises

/-- What a step of the session manager queues about a sink that stays. -/
theorem queued_occur {s : NmosManager} {sm : SessionManager} {ev : Event} (id : UInt8) (hkeyed : s.sm.Keyed)
    (hsm : s.sm.occur h.host ev = some sm) (hlive : s.sm.live .sink id = true)
    (hlive' : sm.live .sink id = true) : ∃ news, (s.hear sm).queued .sink id = s.queued .sink id ++ news ∧
      ((∃ env sink, ev = .request (.addSink env sink) ∧ sink.id = id ∧
          (s.sm.addSink h.host env sink).1 = .ok) ∧ news.count true = 1 ∨
        (¬ ∃ env sink, ev = .request (.addSink env sink) ∧ sink.id = id ∧
          (s.sm.addSink h.host env sink).1 = .ok) ∧ news.count true = 0) := by
  rcases SessionManager.occur_cases hkeyed hsm with ⟨r, ret, ns, rfl, hserve, H⟩ | ⟨hno, ns, htold, hsame⟩
  · refine ⟨_, NmosManager.queued_hear H.told, ?_⟩
    by_cases hown : .sink = r.kind ∧ id = r.id
    · have hfate := H.fate
      have hadded := H.added
      rw [← hown.1, ← hown.2, hlive, hlive'] at hfate
      rw [← hown.1, ← hown.2, hlive', and_iff_left rfl] at hadded
      have hcount : (SessionManager.newsOf .sink id ns).count true = if ret = .ok then 1 else 0 := by
        generalize SessionManager.newsOf .sink id ns = news at hfate hadded
        cases hfate with
        | kept => simpa using hadded
        | replaced => simpa using hadded
      rw [hcount]
      cases r with
      | addSource env source => cases hown.1
      | removeSource env id' => cases hown.1
      | addSink env sink =>
          have hret : (s.sm.addSink h.host env sink).1 = ret := congrArg Prod.fst (Option.some.inj hserve)
          by_cases hok : ret = .ok
          · exact .inl ⟨⟨env, sink, rfl, hown.2.symm, hret.trans hok⟩, if_pos hok⟩
          · refine .inr ⟨?_, if_neg hok⟩
            rintro ⟨env', sink', heq, -, hok'⟩
            obtain ⟨rfl, rfl⟩ := Request.addSink.inj (Event.request.inj heq)
            exact hok (hret.symm.trans hok')
      | removeSink env id' =>
          have hok : ret ≠ .ok := by
            rintro rfl
            have hgone := SessionManager.live_removeSink_ok (Option.some.inj hserve)
            rw [show id'.toUInt8 = id from hown.2.symm, hlive'] at hgone
            cases hgone
          exact .inr ⟨by simp, if_neg hok⟩
    · refine .inr ⟨?_, by rw [(H.other .sink id hown).1]; rfl⟩
      rintro ⟨env, sink, heq, hid, -⟩
      rw [Event.request.inj heq] at hown
      exact hown ⟨rfl, hid.symm⟩
  · refine ⟨_, NmosManager.queued_hear htold, .inr ⟨?_, by rw [(hsame .sink id).1]; rfl⟩⟩
    rintro ⟨env, sink, heq, -⟩
    exact hno _ heq

/-- The registrations owed before and after a turn: only the worker does any. -/
theorem countP_turned (id : UInt8) (hord : σ.Orderly) (hops : σ.threads.ops t = op :: rest) :
    ((σ.turned h t e op rest).threads.ops 0).countP (fun op => op.work? = some (.write true, .sink, id)) +
        (if op.work? = some (.write true, .sink, id) then 1 else 0) =
      (σ.threads.ops 0).countP (fun op => op.work? = some (.write true, .sink, id)) +
        (op.exec h e σ.nmos).1.countP (fun op => op.work? = some (.write true, .sink, id)) := by
  have hops' : (σ.turned h t e op rest).threads.ops 0 =
      if 0 = t then (op.exec h e σ.nmos).1 ++ rest else σ.threads.ops 0 := Pool.ops_turned 0
  rw [hops']
  split
  · rename_i ht
    subst ht
    rw [hops, List.countP_append, List.countP_cons]
    simp only [decide_eq_true_eq]
    omega
  · rename_i ht
    have hop : op.ofWorker = false := hord.others t (Ne.symm ht) op (by rw [hops]; exact List.mem_cons_self)
    have hno : ∀ op' : Op, op'.ofWorker = false → op'.work? ≠ some (.write true, .sink, id) := by
      intro op' hworker hwork
      rw [Op.ofWorker_of_work hwork] at hworker
      cases hworker
    have hnext : (op.exec h e σ.nmos).1.countP (fun op => op.work? = some (.write true, .sink, id)) = 0 := by
      refine List.countP_eq_zero.mpr fun op' hop' => ?_
      simpa using hno op' (Op.not_ofWorker_exec hop op' hop')
    rw [if_neg (hno op hop), hnext]

/-- The worker never comes to list the streams by itself. -/
theorem unlisted_exec {s : NmosManager} (hop : ¬ (op = .getSinks ∨ op.work? = some (.write false, .sink, id)))
    (hfull : op ≠ .fullRegistration) : ∀ op' ∈ (op.exec h e s).1,
      ¬ (op' = .getSinks ∨ op'.work? = some (.write false, .sink, id)) := by
  have hsilent : ∀ op' : Op, op'.Silent .sink id →
      ¬ (op' = .getSinks ∨ op'.work? = some (.write false, .sink, id)) := by
    rintro op' hsilent (rfl | hwork)
    · cases hsilent.2
    · exact hsilent.1 _ hwork
  intro op' hop'
  cases Op.moves_exec h e .sink id s op with
  | silent _ hnext _ => exact hsilent op' (hnext op' hop')
  | connect sink _ hnext _ | lost _ _ hnext _ =>
      rw [hnext] at hop'
      cases hop'
  | event ev evs _ _ hnext _ =>
      rw [hnext] at hop'
      rintro (rfl | hwork)
      · rcases ev with ⟨_ | _, _⟩ | ⟨_ | _, _⟩ | _ | _ <;> simp [Op.handle] at hop'
      · rcases news_of_handle hop' hwork with ⟨hw, -⟩ | ⟨hw, -⟩ <;> cases hw
  | read hwork hwork' hnext _ =>
      rw [hnext, List.mem_singleton] at hop'
      subst hop'
      rintro (rfl | hwork'')
      · cases hwork'
      · rw [hwork'] at hwork''
        exact hop (.inr (hwork.trans hwork''))
  | write _ hnext _ _ _ | erase _ hnext _ _ _ => exact hsilent op' (hnext op' hop')
  | list hlists _ _ _ =>
      exfalso
      cases op <;> first | exact hop (.inl rfl) | exact hfull rfl | cases hlists

/-- Handling an event owes what the event did. -/
theorem countP_handle (ev : NmosEvent) :
    (Op.handle ev).countP (fun op => op.work? = some (.write true, .sink, id)) =
      ([ev].filterMap (NmosEvent.news .sink id)).count true := by
  rcases ev with ⟨_ | _, id'⟩ | ⟨_ | _, id'⟩ | _ | _
  all_goals simp only [Op.handle, List.countP_singleton, Op.work?, NmosEvent.news, List.filterMap_cons,
    List.filterMap_nil, List.countP_nil]
  all_goals simp only [Option.some.injEq, Prod.mk.injEq, reduceCtorEq, true_and, false_and,
    decide_false, Bool.false_eq_true, if_false, List.count_nil, decide_eq_true_eq]
  all_goals by_cases hid : id = id' <;> simp [hid, eq_comm]

/-- A sink that is in use can be read. -/
theorem getSink_of_live {s : NmosManager} (hlive : s.sm.live .sink id = true) :
    ∃ sink, s.sm.getSink id = some sink ∧ sink.id = id := by
  obtain ⟨info, hinfo⟩ := Option.isSome_iff_exists.mp (isSome_of_live hlive)
  refine ⟨SessionManager.getSink_ id info, ?_, rfl⟩
  rw [SessionManager.getSink, show s.sm.sinks.find? id = some info from hinfo]
  rfl

/-- An operation that neither registers the receiver nor adds its sink owes as much as it was
owed. -/
theorem owes_exec {s : NmosManager} (hdecode : h.host.decodeUrl [] = []) (hkeyed : s.sm.Keyed)
    (hlive : s.sm.live .sink id = true) (hlive' : (op.exec h e s).2.sm.live .sink id = true)
    (hop : ¬ (op = .getSinks ∨ op.work? = some (.write false, .sink, id))) (hfull : op ≠ .fullRegistration)
    (hsensible : op.Sensible) (hwrite : ∀ sink tp push, op ≠ .writeReceiver id sink tp push)
    (hconnect : ∀ sink, op = .connect sink → op.connects id = false) :
    (op.exec h e s).1.countP (fun op => op.work? = some (.write true, .sink, id)) +
        ((op.exec h e s).2.queued .sink id).count true =
      (if op.work? = some (.write true, .sink, id) then 1 else 0) + (s.queued .sink id).count true := by
  have hnone : ∀ {next : List Op}, (∀ op' ∈ next, op'.Silent .sink id) →
      next.countP (fun op => op.work? = some (.write true, .sink, id)) = 0 := by
    intro next hnext
    exact List.countP_eq_zero.mpr fun op' hop' => by simpa using (hnext op' hop').1 _
  have hsome : ((s.sm.books.table .sink).find? id).isSome = true := isSome_of_live hlive
  cases Op.moves_exec h e .sink id s op with
  | silent hsilent hnext hs => rw [hnone hnext, if_neg (hsilent.1 _), NmosManager.queued_congr hs.queue]
  | connect sink hconn hnext hs =>
      subst hconn
      have hocc : s.sm.occur h.host (.request (.addSink e.env sink)) =
          some (s.sm.addSink h.host e.env sink).2 := rfl
      obtain ⟨news, hqueued, hadded | ⟨-, hcount⟩⟩ := queued_occur id hkeyed hocc hlive hlive'
      · exfalso
        obtain ⟨⟨env', sink', heq, hid, hok⟩, -⟩ := hadded
        obtain ⟨rfl, rfl⟩ := Request.addSink.inj (Event.request.inj heq)
        have huse : sink.useSdp = false := by
          have hno := hconnect sink rfl
          rw [Op.connects, hid] at hno
          simpa using hno
        have hprep := NmosManager.addSink_nothing (s := s) (e := e) hdecode huse (hsensible huse)
        rw [SessionManager.addSink_ok_iff] at hok
        obtain ⟨info, hreg⟩ := hok
        exact absurd (hprep.symm.trans hreg.prepared) (by simp)
      · have hqueued' : (Op.exec h e (.connect sink) s).2.queued .sink id = s.queued .sink id ++ news := hqueued
        rw [hqueued', List.count_append, hcount]
        rfl
  | event ev evs hev hqueue hnext hs =>
      subst hev
      have hqueued : s.queued .sink id =
          [ev].filterMap (NmosEvent.news .sink id) ++ evs.filterMap (NmosEvent.news .sink id) := by
        rw [NmosManager.queued, hqueue, ← List.filterMap_append]
        rfl
      rw [hnext, hs, countP_handle, hqueued, List.count_append]
      simp [Op.work?, NmosManager.queued]
  | read hwork hwork' hnext hs =>
      rw [hnext, List.countP_singleton, hs, hwork, hwork']
      simp
  | lost _ hnone' _ _ =>
      rw [hnone'] at hsome
      cases hsome
  | write hwork hnext _ _ _ =>
      exfalso
      cases op with
      | getSink id' push =>
          obtain ⟨-, rfl⟩ : _ ∧ id' = id := by simpa [Op.work?] using hwork
          obtain ⟨sink, hsink, -⟩ := getSink_of_live hlive
          have hmem : Op.writeReceiver id' sink (s.sinkTp h sink) push ∈ ((Op.getSink id' push).exec h e s).1 := by
            simp only [Op.exec, hsink, List.mem_singleton]
          exact (hnext _ hmem).1 _ rfl
      | writeReceiver id' sink tp push =>
          obtain ⟨-, rfl⟩ : _ ∧ id' = id := by simpa [Op.work?] using hwork
          exact hwrite sink tp push rfl
      | _ => cases hwork
  | erase hwork hnext _ hqueue _ => rw [hnone hnext, hwork, NmosManager.queued_congr hqueue]; simp
  | list hlists _ _ _ =>
      exfalso
      cases op <;> first | exact hop (.inl rfl) | exact hfull rfl | cases hlists

/-- A connection goes on until its sink is added. -/
theorem connecting_turned (hops : σ.threads.ops t = op :: rest) (hlive : σ.nmos.sm.live .sink id = true)
    (hpromote : ∀ a sdp, op = .promoteReceiver id a sdp → σ.nmos.receivers.contains id = false)
    (hconnect : ∀ sink, op = .connect sink → op.connects id = false) :
    (σ.turned h t e op rest).Connecting id ↔ σ.Connecting id := by
  constructor
  · intro hahead
    rcases Pool.ahead_turned hops hahead with ⟨op', hop', hconn⟩ | hahead
    · rcases (Op.connects_exec op).2 op' hop' hconn with hconn' | ⟨a, sdp, rfl⟩
      · exact ⟨t, op, by rw [hops]; exact List.mem_cons_self, hconn'⟩
      · have hid : σ.threads.shared.receivers.contains id = false := hpromote a sdp rfl
        simp [Op.exec, hid] at hop'
    · exact hahead
  · intro hahead
    by_cases hconn : op.connects id = true
    · cases op with
      | readSink id' a sdp =>
          simp only [Op.connects, Bool.and_eq_true, decide_eq_true_eq] at hconn
          obtain ⟨rfl, hmaster⟩ := hconn
          obtain ⟨sink, hsink, hid⟩ := getSink_of_live (s := σ.threads.shared) hlive
          have hnext : Op.connect (a.target sdp sink) ∈ ((Op.readSink id' a sdp).exec h e σ.threads.shared).1 := by
            simp only [Op.exec, hsink, List.mem_singleton]
          refine Pool.ahead_of_mem_exec hnext ?_
          simp [Op.connects, ReceiverActivation.target, hmaster, hid]
      | connect sink =>
          rw [hconnect sink rfl] at hconn
          cases hconn
      | _ => cases hconn
    · exact hahead.turned hops hconn

/-- What a thread does next lists no sinks. -/
theorem Kept.lists_none (H : σ.Kept id v) (hops : σ.threads.ops t = op :: rest) :
    ¬ (op = .getSinks ∨ op.work? = some (.write false, .sink, id)) := fun hbad =>
  H.unlisted ⟨t, op, by rw [hops]; exact List.mem_cons_self, hbad⟩

/-- What is owed before and after a turn. -/
theorem owed_turned (id : UInt8) (hord : σ.Orderly) (hops : σ.threads.ops t = op :: rest) :
    (σ.turned h t e op rest).owed id + (if op.work? = some (.write true, .sink, id) then 1 else 0) +
        (σ.nmos.queued .sink id).count true =
      σ.owed id + (op.exec h e σ.nmos).1.countP (fun op => op.work? = some (.write true, .sink, id)) +
        ((op.exec h e σ.nmos).2.queued .sink id).count true := by
  have hcount := countP_turned (h := h) (e := e) id hord hops
  have hwhole : (σ.turned h t e op rest).owed id =
      ((σ.turned h t e op rest).threads.ops 0).countP (fun op => op.work? = some (.write true, .sink, id)) +
        ((op.exec h e σ.nmos).2.queued .sink id).count true := rfl
  rw [hwhole, owed]
  omega

/-- A turn that neither adds the sink nor registers the receiver owes as much as before. -/
theorem owed_turned_same (hdecode : h.host.decodeUrl [] = []) (H : σ.Kept id v)
    (hops : σ.threads.ops t = op :: rest) (hlive' : (op.exec h e σ.nmos).2.sm.live .sink id = true)
    (hfull : op ≠ .fullRegistration) (hwrite : ∀ sink tp push, op ≠ .writeReceiver id sink tp push)
    (hconnect : ∀ sink, op = .connect sink → op.connects id = false) :
    (σ.turned h t e op rest).owed id = σ.owed id := by
  have hmem : op ∈ σ.threads.ops t := by rw [hops]; exact List.mem_cons_self
  have hwhole := owed_turned (h := h) (e := e) id H.ordered hops
  have howes := owes_exec hdecode H.ordered.keyed H.live hlive' (H.lists_none hops) hfull
    (H.sensible t op hmem) hwrite hconnect
  omega

/-- A single connection stays single. -/
theorem sole_turned (hops : σ.threads.ops t = op :: rest)
    (hpromote : ∀ a sdp, op = .promoteReceiver id a sdp → σ.nmos.receivers.contains id = false)
    (H : σ.threads.Sole fun op => op.connects id = true) :
    (σ.turned h t e op rest).threads.Sole fun op => op.connects id = true := by
  refine H.turned hops (fun op' hop' hconn => ?_) fun op' hop' => by simp [(Op.connects_exec op).1 op' hop']
  rcases (Op.connects_exec op).2 op' hop' hconn with hconn' | ⟨a, sdp, rfl⟩
  · exact hconn'
  · have hid : σ.threads.shared.receivers.contains id = false := hpromote a sdp rfl
    simp [Op.exec, hid] at hop'

/-- A step that leaves the connection as it is. -/
theorem Kept.promises_of_same {τ : System} (H : σ.Kept id v) (hiff : τ.Connecting id ↔ σ.Connecting id)
    (hsole : (σ.threads.Sole fun op => op.connects id = true) → τ.threads.Sole fun op => op.connects id = true)
    (hpromises : ∀ n, Promises id v (σ.owed id + n) σ.nmos → Promises id v (τ.owed id + n) τ.nmos) :
    ¬ τ.Connecting id ∧ Promises id v (τ.owed id) τ.nmos ∨
      τ.Connecting id ∧ (τ.threads.Sole fun op => op.connects id = true) ∧
        Promises id v (τ.owed id + 1) τ.nmos := by
  rw [hiff]
  exact H.promises.imp (fun hp => ⟨hp.1, hpromises 0 hp.2⟩) fun hp => ⟨hp.1, hsole hp.2.1, hpromises 1 hp.2.2⟩

/-- The connection adds its sink, and a registration is owed. -/
theorem promises_connected {sink : StreamSink} (H : σ.Kept id v) (hops : σ.threads.ops t = .connect sink :: rest)
    (hlive' : ((Op.connect sink).exec h e σ.nmos).2.sm.live .sink id = true)
    (hconn : (Op.connect sink).connects id = true) (hok : (σ.nmos.sm.addSink h.host e.env sink).1 = .ok)
    (hsender : NmosManager.SameSender id σ.nmos ((Op.connect sink).exec h e σ.nmos).2) :
    ¬ (σ.turned h t e (.connect sink) rest).Connecting id ∧
      Promises id v ((σ.turned h t e (.connect sink) rest).owed id) ((Op.connect sink).exec h e σ.nmos).2 := by
  have hconnecting : σ.Connecting id := ⟨t, _, by rw [hops]; exact List.mem_cons_self, hconn⟩
  rcases H.promises with ⟨hidle, -⟩ | ⟨-, hsole, hp⟩
  · exact absurd hconnecting hidle
  have hocc : σ.nmos.sm.occur h.host (.request (.addSink e.env sink)) =
      some (σ.nmos.sm.addSink h.host e.env sink).2 := rfl
  have hsink : sink.id = id ∧ sink.useSdp = true := by simpa [Op.connects] using hconn
  obtain ⟨news, hqueued, ⟨-, hnews⟩ | ⟨hno, -⟩⟩ := queued_occur id H.ordered.keyed hocc H.live hlive'
  · have hqueued' : ((Op.connect sink).exec h e σ.nmos).2.queued .sink id = σ.nmos.queued .sink id ++ news := hqueued
    have hwhole := owed_turned (h := h) (e := e) id H.ordered hops
    have hnext : ((Op.connect sink).exec h e σ.nmos).1 = [] := rfl
    rw [if_neg (by simp [Op.work?]), hnext, List.countP_nil, hqueued', List.count_append, hnews] at hwhole
    have howed : (σ.turned h t e (.connect sink) rest).owed id = σ.owed id + 1 := by omega
    refine ⟨hsole.done hops hconn (by simp [Op.exec]), ?_⟩
    rw [howed]
    exact hp.congr hsender
  · exact absurd ⟨e.env, sink, rfl, hsink.1, hok⟩ hno

/-- An activation begins a connection, unless it has no sink to change; then it gives the receiver no sender. -/
theorem promises_promoted {a : ReceiverActivation} {sdp : Text} (H : σ.Kept id v)
    (hops : σ.threads.ops t = .promoteReceiver id a sdp :: rest) (hid : σ.nmos.receivers.contains id = true)
    (hactive : ((Op.promoteReceiver id a sdp).exec h e σ.nmos).2.activeSender? id = some a.activeSenderId)
    (hpreserved : ((Op.promoteReceiver id a sdp).exec h e σ.nmos).2.preserved id = a.activeSenderId)
    (howed : (σ.turned h t e (.promoteReceiver id a sdp) rest).owed id = σ.owed id)
    (hidle : ¬ σ.Connecting id) (hapart : a.activeSenderId ≠ [] → σ.owed id = 0) :
    ¬ (σ.turned h t e (.promoteReceiver id a sdp) rest).Connecting id ∧
        Promises id a.activeSenderId ((σ.turned h t e (.promoteReceiver id a sdp) rest).owed id)
          ((Op.promoteReceiver id a sdp).exec h e σ.nmos).2 ∨
      (σ.turned h t e (.promoteReceiver id a sdp) rest).Connecting id ∧
        ((σ.turned h t e (.promoteReceiver id a sdp) rest).threads.Sole fun op => op.connects id = true) ∧
        Promises id a.activeSenderId ((σ.turned h t e (.promoteReceiver id a sdp) rest).owed id + 1)
          ((Op.promoteReceiver id a sdp).exec h e σ.nmos).2 := by
  rw [howed]
  rcases H.promises with ⟨-, hp⟩ | ⟨hconnecting, -⟩
  · have hexec : ((Op.promoteReceiver id a sdp).exec h e σ.threads.shared).1 =
        (if a.changesSink sdp then [.readSink id a sdp] else []) ++ [.readBack id] := by
      have hid : σ.threads.shared.receivers.contains id = true := hid
      simp only [Op.exec, if_pos hid]
    obtain ⟨hnone, hsome⟩ := hp.promoted hactive hpreserved
    by_cases hnew : a.masterEnable = true ∧ sdp ≠ []
    · refine .inr ⟨?_, Pool.sole_turned hidle hops fun op' hop' => by simp [(Op.connects_exec _).1 op' hop'],
        hsome hapart⟩
      refine Pool.ahead_of_mem_exec (?_ : Op.readSink id a sdp ∈ _) ?_
      · rw [hexec]
        simp [ReceiverActivation.changesSink, hnew.1, hnew.2]
      · simp [Op.connects, hnew.1]
    · refine .inl ⟨fun hahead => ?_, hnone ?_⟩
      · rcases Pool.ahead_turned hops hahead with ⟨op', hop', hconn⟩ | hahead
        · rw [hexec] at hop'
          rcases List.mem_append.mp hop' with hop' | hop'
          · obtain ⟨hchanges, hop'⟩ := List.mem_ite_nil_right.mp hop'
            rw [List.mem_singleton.mp hop'] at hconn
            simp_all [Op.connects, ReceiverActivation.changesSink]
          · rw [List.mem_singleton.mp hop'] at hconn
            cases hconn
        · exact hidle hahead
      · by_contra hsender
        have hmem : Op.promoteReceiver id a sdp ∈ σ.threads.ops t := by rw [hops]; exact List.mem_cons_self
        have hsdp := H.sensible t _ hmem hsender
        simp_all [ReceiverActivation.activeSenderId]
  · exact absurd hconnecting hidle

/-- A registration is owed no more when it writes the receiver. -/
theorem owed_written {sink : StreamSink} {tp : List ReceiverTp} {push : Bool} (H : σ.Kept id v)
    (hops : σ.threads.ops t = .writeReceiver id sink tp push :: rest) :
    σ.owed id = (σ.turned h t e (.writeReceiver id sink tp push) rest).owed id + 1 := by
  have hpush : push = true := by
    by_contra hno
    exact H.lists_none hops (.inr (by simp [Op.work?, hno]))
  subst hpush
  have hwhole := owed_turned (h := h) (e := e) id H.ordered hops
  have hqueued : ((Op.writeReceiver id sink tp true).exec h e σ.nmos).2.queued .sink id =
      σ.nmos.queued .sink id := rfl
  have hnext : ((Op.writeReceiver id sink tp true).exec h e σ.nmos).1 = [.collectReceiver id] := rfl
  have hwork : (Op.writeReceiver id sink tp true).work? = some (.write true, .sink, id) := rfl
  rw [if_pos hwork, hnext, List.countP_singleton, if_neg (by simp [Op.work?]), hqueued] at hwhole
  omega

/-- A receiver that is removed is owed a registration: its sink is there. -/
theorem owed_erased (H : σ.Kept id v) (hops : σ.threads.ops t = .eraseReceiver id :: rest) : 0 < σ.owed id := by
  have hdoing : σ.Doing .erase .sink id := ⟨t, _, by rw [hops]; exact List.mem_cons_self, rfl⟩
  cases hlast : (σ.nmos.queued .sink id).getLast? with
  | none =>
      have hdead := H.heard.erased (List.getLast?_eq_none_iff.mp hlast) hdoing
      rw [H.live] at hdead
      cases hdead
  | some b =>
      have hb : true = b := H.live.symm.trans (H.heard.queue b hlast)
      subst hb
      have hcount := List.count_pos_iff.mpr (List.mem_of_getLast? hlast)
      rw [owed]
      omega

/-- What the worker and the other threads do to a subscription. -/
theorem promises_turned (hdecode : h.host.decodeUrl [] = []) (H : σ.Kept id v)
    (hops : σ.threads.ops t = op :: rest) (hlive' : (op.exec h e σ.nmos).2.sm.live .sink id = true)
    (hfull : op ≠ .fullRegistration)
    (hconnected : ∀ sink, op = .connect sink → sink.id = id → sink.useSdp = true →
      (σ.nmos.sm.addSink h.host e.env sink).1 = .ok)
    (hapart : ∀ v', op.change? id σ.nmos = some v' → ¬ σ.Connecting id ∧ (v' ≠ [] → σ.owed id = 0)) :
    ¬ (σ.turned h t e op rest).Connecting id ∧
        Promises id ((op.change? id σ.nmos).getD v) ((σ.turned h t e op rest).owed id) (op.exec h e σ.nmos).2 ∨
      (σ.turned h t e op rest).Connecting id ∧
        ((σ.turned h t e op rest).threads.Sole fun op => op.connects id = true) ∧
        Promises id ((op.change? id σ.nmos).getD v) ((σ.turned h t e op rest).owed id + 1)
          (op.exec h e σ.nmos).2 := by
  cases (Op.subscribes_exec op : Op.Subscribes h e id σ.nmos op _) with
  | kept hpromote hwrite herase hsender =>
      have hchange : op.change? id σ.nmos = none := by
        cases op with
        | promoteReceiver id' a sdp =>
            refine if_neg ?_
            rintro ⟨rfl, hid⟩
            rw [hpromote a sdp rfl] at hid
            cases hid
        | _ => rfl
      rw [hchange, Option.getD_none]
      by_cases hadds : ∃ sink, op = .connect sink ∧ op.connects id = true
      · obtain ⟨sink, rfl, hconn⟩ := hadds
        have hsink : sink.id = id ∧ sink.useSdp = true := by simpa [Op.connects] using hconn
        exact .inl (promises_connected H hops hlive' hconn (hconnected sink rfl hsink.1 hsink.2) hsender)
      · have hconnect : ∀ sink, op = .connect sink → op.connects id = false := fun sink heq =>
          Bool.eq_false_iff.mpr fun hconn => hadds ⟨sink, heq, hconn⟩
        refine H.promises_of_same (connecting_turned hops H.live hpromote hconnect) (sole_turned hops hpromote)
          fun n hp => ?_
        rw [owed_turned_same hdecode H hops hlive' hfull hwrite hconnect]
        exact hp.congr hsender
  | promoted a sdp heq hid hactive hpreserved =>
      subst heq
      have hchange : (Op.promoteReceiver id a sdp).change? id σ.nmos = some a.activeSenderId :=
        if_pos ⟨rfl, hid⟩
      obtain ⟨hidle, hapart⟩ := hapart _ hchange
      rw [hchange, Option.getD_some]
      exact promises_promoted H hops hid hactive hpreserved
        (owed_turned_same hdecode H hops hlive' hfull (by simp) (by simp)) hidle hapart
  | written sink tp push heq hactive hpreserved =>
      subst heq
      refine H.promises_of_same (connecting_turned hops H.live (by simp) (by simp)) (sole_turned hops (by simp))
        fun n hp => ?_
      rw [owed_written H hops, Nat.add_right_comm] at hp
      exact hp.written hactive hpreserved
  | erased heq hpreserved =>
      subst heq
      obtain ⟨m, hm⟩ : ∃ m, σ.owed id = m + 1 := Nat.exists_eq_add_one.mpr (owed_erased H hops)
      refine H.promises_of_same (connecting_turned hops H.live (by simp) (by simp)) (sole_turned hops (by simp))
        fun n hp => ?_
      rw [owed_turned_same hdecode H hops hlive' hfull (by simp) (by simp), hm, Nat.add_right_comm]
      rw [hm, Nat.add_right_comm] at hp
      exact hp.erased hpreserved

theorem change?_turn (hops : σ.threads.ops t = op :: rest) :
    σ.change? h id (.turn t e) = op.change? id σ.nmos := by
  rw [change?, hops]
  rfl

theorem sensible_step {l : Label} (H : ∀ t, ∀ op ∈ σ.threads.ops t, op.Sensible)
    (hs : σ.step h l = some σ') : ∀ t, ∀ op ∈ σ'.threads.ops t, op.Sensible := by
  intro t' op' hop'
  rcases step_cases hs with ⟨ev, sm, -, -, rfl⟩ | ⟨found, -, rfl⟩ | ⟨t, op, -, hstart, -, -, rfl⟩ |
    ⟨t, e, op, rest, -, -, hops, rfl⟩
  · exact H t' op' hop'
  · exact H t' op' hop'
  · have hop' : op' ∈ if t' = t then [op] else σ.threads.ops t' := Pool.ops_started t' ▸ hop'
    split at hop'
    · rw [List.mem_singleton.mp hop']
      cases op <;> trivial
    · exact H t' op' hop'
  · have hop' : op' ∈ if t' = t then (op.exec h e σ.nmos).1 ++ rest else σ.threads.ops t' :=
      Pool.ops_turned t' ▸ hop'
    split at hop'
    · rcases List.mem_append.mp hop' with hnext | hrest
      · exact Op.sensible_exec op op' hnext
      · exact H t op' (by rw [hops]; exact List.mem_cons_of_mem _ hrest)
    · exact H t' op' hop'

theorem Reachable.sensible (H : σ.Reachable h) : ∀ t, ∀ op ∈ σ.threads.ops t, op.Sensible := by
  obtain ⟨env, now, before, sm, e₀, labels, -, hrun⟩ := H
  refine run_keeps (J := fun σ : System => ∀ t, ∀ op ∈ σ.threads.ops t, op.Sensible) (P := fun _ _ => True)
    (fun _ _ _ H _ hs => sensible_step H hs) (fun t op hop => ?_) (along_of_forall fun _ _ => trivial) hrun
  simp only [boot] at hop
  split at hop
  · simp only [Op.boot, List.mem_cons, List.not_mem_nil, or_false] at hop
    rcases hop with rfl | rfl | rfl | rfl <;> trivial
  · cases hop

/-- **A step keeps a subscription**, and a change is the last one after it. -/
theorem kept_step {l : Label} (hdecode : h.host.decodeUrl [] = []) (H : σ.Kept id v)
    (honly : σ.OnlyChanges h id l) (hapart : σ.Apart h id l) (hs : σ.step h l = some σ') :
    σ'.Kept id ((σ.change? h id l).getD v) := by
  have hheard := heard_step H.heard H.ordered hs
  have hordered := orderly_step H.ordered hs
  have hsensible := sensible_step H.sensible hs
  have hlive := honly.stays σ' hs
  rcases step_cases hs with ⟨ev, sm, rfl, hsm, rfl⟩ | ⟨found, rfl, rfl⟩ | ⟨t, op, rfl, hstart, -, hidle, rfl⟩ |
    ⟨t, e, op, rest, rfl, -, hops, rfl⟩
  · refine ⟨hheard, hordered, hsensible, hlive, H.unlisted, ?_⟩
    have hsame : NmosManager.SameSender id σ.nmos (σ.nmos.hear sm) := ⟨rfl, rfl⟩
    obtain ⟨news, hqueued, ⟨⟨env, sink, rfl, hid, hok⟩, hnews⟩ | ⟨hno, hnews⟩⟩ :=
      queued_occur id H.ordered.keyed hsm H.live hlive
    · have hchange : σ.change? h id (.stream (.request (.addSink env sink))) = some [] := if_pos ⟨hid, hok⟩
      have howed : owed id { σ with threads := { σ.threads with shared := σ.nmos.hear sm } } = σ.owed id + 1 := by
        rw [owed, owed, hqueued, List.count_append, hnews, Nat.add_assoc]
      obtain ⟨hidle, -⟩ := hapart _ hchange
      rw [hchange, Option.getD_some, howed]
      rcases H.promises with ⟨-, hp⟩ | ⟨hconnecting, -⟩
      · exact .inl ⟨hidle, hp.updated hsame⟩
      · exact absurd hconnecting hidle
    · have hchange : σ.change? h id (.stream ev) = none := by
        cases ev with
        | request r =>
            cases r with
            | addSink env sink => exact if_neg fun hadds => hno ⟨env, sink, rfl, hadds⟩
            | _ => rfl
        | _ => rfl
      have howed : owed id { σ with threads := { σ.threads with shared := σ.nmos.hear sm } } = σ.owed id := by
        rw [owed, owed, hqueued, List.count_append, hnews, Nat.add_zero]
      rw [hchange, Option.getD_none, howed]
      exact H.promises.imp (fun hp => ⟨hp.1, hp.2.congr hsame⟩) fun hp => ⟨hp.1, hp.2.1, hp.2.2.congr hsame⟩
  · refine ⟨hheard, hordered, hsensible, hlive, H.unlisted, ?_⟩
    have howed : owed id { σ with threads := { σ.threads with shared := { σ.nmos with
        pendingEvents := σ.nmos.pendingEvents ++ [if found then .registryUpdated else .registryLost] } } } =
        σ.owed id := by
      rw [owed, owed, NmosManager.queued_discover]
    rw [show σ.change? h id (.discover found) = none from rfl, Option.getD_none, howed]
    exact H.promises.imp (fun hp => ⟨hp.1, hp.2.congr ⟨rfl, rfl⟩⟩) fun hp => ⟨hp.1, hp.2.1, hp.2.2.congr ⟨rfl, rfl⟩⟩
  · have hop : ¬ (op = .getSinks ∨ op.work? = some (.write false, .sink, id)) ∧
        ¬ op.connects id = true := by
      cases op <;> first | cases hstart | exact ⟨by simp [Op.work?], by simp [Op.connects]⟩
    have hconnecting : Connecting id { σ with threads := σ.threads.started t op } ↔ σ.Connecting id :=
      Pool.ahead_started hidle hop.2
    have howed : owed id { σ with threads := σ.threads.started t op } = σ.owed id := by
      have hops : (σ.threads.started t op).ops 0 = if 0 = t then [op] else σ.threads.ops 0 := Pool.ops_started 0
      rw [owed, owed, hops]
      split
      · rename_i ht
        subst ht
        rw [hidle, List.countP_singleton, if_neg (by simp [Op.work?_of_startsOn hstart])]
        rfl
      · rfl
    refine ⟨hheard, hordered, hsensible, hlive, ?_, ?_⟩
    · exact fun hahead => H.unlisted ((Pool.ahead_started hidle hop.1).mp hahead)
    · rw [show σ.change? h id (.start t op) = none from rfl, Option.getD_none, howed, hconnecting]
      refine H.promises.imp_right fun hp => ⟨hp.1, ?_, hp.2.2⟩
      exact hp.2.1.started hop.2
  · rw [change?_turn hops]
    refine ⟨hheard, hordered, hsensible, hlive, fun hahead => ?_, ?_⟩
    · rcases Pool.ahead_turned hops hahead with ⟨op', hop', hbad⟩ | hahead
      · refine unlisted_exec (fun hbad => H.unlisted ⟨t, op, ?_, hbad⟩) (fun hfull => ?_) op' hop' hbad
        · rw [hops]
          exact List.mem_cons_self
        · exact honly.handles t e rest rfl (hfull ▸ hops)
      · exact H.unlisted hahead
    · refine promises_turned hdecode H hops hlive (fun hfull => honly.handles t e rest rfl (hfull ▸ hops))
        (fun sink hop => honly.connected t e sink rest rfl (hop ▸ hops)) fun v' hchange => ?_
      exact hapart v' ((change?_turn hops).trans hchange)

/-- **Runs.** -/
theorem kept_run {labels : List Label} (hdecode : h.host.decodeUrl [] = []) (H : σ.Kept id v)
    (honly : Along (step h) (OnlyChanges h id) σ labels) (hapart : Along (step h) (Apart h id) σ labels)
    (hrun : run (step h) σ labels = some σ') : σ'.Kept id ((lastChange h id σ labels).getD v) := by
  induction labels generalizing σ v with
  | nil =>
      obtain rfl : σ = σ' := by simpa using hrun
      exact H
  | cons l labels ih =>
      rw [run_cons] at hrun
      obtain ⟨σ₁, hs, hrun⟩ := Option.bind_eq_some_iff.mp hrun
      have hkept := ih (kept_step hdecode H honly.1 hapart.1 hs) (honly.2 σ₁ hs) (hapart.2 σ₁ hs) hrun
      have hlast : (lastChange h id σ (l :: labels)).getD v =
          (lastChange h id σ₁ labels).getD ((σ.change? h id l).getD v) := by
        rw [lastChange, hs, Option.bind_some]
        cases lastChange h id σ₁ labels <;> rfl
      rw [hlast]
      exact hkept

/-- A receiver with nothing left to do about it, when no connection is under way and the side
map has nothing for it. -/
theorem kept_of_settled (hreach : σ.Reachable h) (hsettled : σ.Settled .sink id) (hidle : ¬ σ.Connecting id)
    (hactive : σ.nmos.activeSender? id = some v) (hpreserved : σ.nmos.preserved id = []) : σ.Kept id v := by
  obtain ⟨hmirrored, hheard, hord⟩ := hreach.mirrored id
  have hhas : σ.nmos.has .sink id = true := by
    obtain ⟨rr, hrr, -⟩ := Option.map_eq_some_iff.mp hactive
    exact SortedMap.contains_eq_true.mpr ⟨rr, hrr⟩
  have hlive := (hmirrored.here hsettled.queue hhas).resolve_right (hsettled.done _)
  have howed : σ.owed id = 0 := by
    rw [owed, hsettled.queue, List.count_nil, Nat.add_zero]
    refine List.countP_eq_zero.mpr fun op hop => ?_
    simpa using fun hwork => hsettled.done (.write true) ⟨0, op, hop, hwork⟩
  refine ⟨hheard, hord, hreach.sensible, hlive, ?_, .inl ⟨hidle, ?_⟩⟩
  · rintro ⟨t, op, hop, rfl | hwork⟩
    · exact hsettled.listed ⟨t, _, hop, rfl⟩
    · exact hsettled.done _ ⟨t, op, hop, hwork⟩
  · rw [howed]
    exact .zero hactive hpreserved

/-- **The subscription of a receiver survives the events of its sink**, in every run from a state
in which nothing is left to do about it, when the changes come apart: once the worker has handled
the events, the active sender is what the last change gave the receiver. -/
theorem subscription_kept (h : NmosHost) (hdecode : h.host.decodeUrl [] = []) (id : UInt8) (σ : System)
    (hreach : σ.Reachable h) (hsettled : σ.Settled .sink id) (hidle : ¬ σ.Connecting id) (v : Text)
    (hactive : σ.nmos.activeSender? id = some v) (hpreserved : σ.nmos.preserved id = []) (labels : List Label)
    (honly : Along (step h) (OnlyChanges h id) σ labels) (hapart : Along (step h) (Apart h id) σ labels)
    (σ' : System) (hrun : run (step h) σ labels = some σ') (hqueue : σ'.nmos.queued .sink id = [])
    (hdone : ∀ w, ¬ σ'.Doing w .sink id) (hidle' : ¬ σ'.Connecting id) :
    σ'.nmos.activeSender? id = some ((lastChange h id σ labels).getD v) := by
  have H := kept_run hdecode (kept_of_settled hreach hsettled hidle hactive hpreserved) honly hapart hrun
  have howed : σ'.owed id = 0 := by
    rw [owed, hqueue, List.count_nil, Nat.add_zero]
    refine List.countP_eq_zero.mpr fun op hop => ?_
    simpa using fun hwork => hdone (.write true) ⟨0, op, hop, hwork⟩
  rcases H.promises with ⟨-, hp⟩ | ⟨hconnecting, -⟩
  · rw [howed] at hp
    cases hp with
    | zero ha => exact ha
  · exact absurd hconnecting hidle'

/-- What `OnlyChanges` asks for. -/
def onlyChanges (h : NmosHost) (id : UInt8) (σ : System) (l : Label) : Bool :=
  (σ.step h l).all (fun σ' => σ'.nmos.sm.live .sink id) &&
    match l with
    | .turn t e =>
      match (σ.threads.ops t).head? with
      | some (.connect sink) =>
        !(sink.id = id && sink.useSdp) || (σ.nmos.sm.addSink h.host e.env sink).1 = .ok
      | some .fullRegistration => false
      | _ => true
    | _ => true

theorem onlyChanges_of_check {l : Label} (hcheck : σ.onlyChanges h id l = true) : σ.OnlyChanges h id l := by
  obtain ⟨hstays, hcheck⟩ := Bool.and_eq_true_iff.mp hcheck
  refine ⟨fun σ' hs => ?_, ?_, ?_⟩
  · rw [hs] at hstays
    exact hstays
  · rintro t e sink rest rfl hops hid huse
    simp only [hops, List.head?_cons] at hcheck
    simpa [hid, huse] using hcheck
  · rintro t e rest rfl hops
    simp [hops] at hcheck

/-- What `Apart` asks for, where two threads have anything to do. -/
def apart (h : NmosHost) (id : UInt8) (σ : System) (l : Label) : Bool :=
  (σ.change? h id l).all fun v =>
    ([0, 1].all fun t => (σ.threads.ops t).all fun op => !op.connects id) && (v = [] || σ.owed id = 0)

theorem apart_of_check {l : Label} (hquiet : σ.Quiet 2) (hcheck : σ.apart h id l = true) : σ.Apart h id l := by
  intro v hchange
  rw [apart, hchange, Option.all_some, Bool.and_eq_true] at hcheck
  obtain ⟨hthreads, howed⟩ := hcheck
  refine ⟨?_, fun hv => by simpa [hv] using howed⟩
  rintro ⟨t, op, hop, hconn⟩
  have hall : t ∈ [0, 1] := by
    by_contra ht
    rw [hquiet t (by simp at ht; omega)] at hop
    cases hop
  have := List.all_eq_true.mp (List.all_eq_true.mp hthreads t hall) op hop
  simp [hconn] at this

theorem settled_of_quiet (id : UInt8) (hquiet : σ.Quiet 2) (hqueue : σ.nmos.pendingEvents.isEmpty = true)
    (hidle : (σ.threads.ops 0).isEmpty ∧ (σ.threads.ops 1).isEmpty) :
    σ.Settled .sink id ∧ ¬ σ.Connecting id := by
  have hops := hquiet.idle hidle.1 hidle.2
  refine ⟨settled_of_idle (List.isEmpty_iff.mp hqueue) hops, ?_⟩
  rintro ⟨t, op, hop, -⟩
  rw [hops] at hop
  cases hop

/-- The state of a receiver before and after a run, and its last change. -/
def Told (before after : Text) (change : Option Text) (labels : List Label) (σ σ' : System) : Prop :=
  (((σ.threads.ops 0).isEmpty ∧ (σ.threads.ops 1).isEmpty) ∧ σ.nmos.pendingEvents.isEmpty ∧
      σ.nmos.activeSender? 1 = some before ∧ σ.nmos.preserved 1 = []) ∧
    ((σ'.threads.ops 0).isEmpty ∧ (σ'.threads.ops 1).isEmpty) ∧ σ'.nmos.pendingEvents.isEmpty ∧
      σ'.nmos.activeSender? 1 = some after ∧ lastChange {} 1 σ labels = change

instance (before after : Text) (change : Option Text) (labels : List Label) (σ σ' : System) :
    Decidable (Told before after change labels σ σ') := instDecidableAnd

theorem subscription_kept_once : ∃ σ σ' : System, lastChange {} 1 σ (NmosManager.connection "s".toList ++ NmosManager.handling) =
      some "s".toList ∧ σ'.nmos.activeSender? 1 = some "s".toList := by
  obtain ⟨σ, σ', hreach, hquiet, halong, hrun, hquiet', ⟨hidle, hqueue, hactive, hpreserved⟩,
      hidle', hqueue', -, hlast⟩ :=
    along_afterSample {} 2 (soleSink (SessionManager.versionSdp "1".toList)).1
      (soleSink (SessionManager.versionSdp "1".toList)).2 (NmosManager.connection "s".toList ++ NmosManager.handling)
      (P := fun σ l => OnlyChanges {} 1 σ l ∧ Apart {} 1 σ l) (fun σ l => σ.onlyChanges {} 1 l && σ.apart {} 1 l)
      (Told [] "s".toList (some "s".toList) (NmosManager.connection "s".toList ++ NmosManager.handling)) (by omega) (by decide)
      (fun σ l hq hcheck => ⟨onlyChanges_of_check (Bool.and_eq_true_iff.mp hcheck).1,
        apart_of_check hq (Bool.and_eq_true_iff.mp hcheck).2⟩) (by decide +kernel)
  obtain ⟨hsettled, hconn⟩ := settled_of_quiet 1 hquiet hqueue hidle
  obtain ⟨hsettled', hconn'⟩ := settled_of_quiet 1 hquiet' hqueue' hidle'
  refine ⟨σ, σ', hlast, ?_⟩
  rw [subscription_kept {} rfl 1 σ hreach hsettled hconn [] hactive hpreserved _
    (halong.imp fun _ _ h => h.1) (halong.imp fun _ _ h => h.2) σ' hrun hsettled'.queue hsettled'.done hconn', hlast]
  rfl

/-- Two connections in a row, and the receiver has no sender. -/
theorem subscription_lost : ∃ (σ : System) (labels : List Label) (σ' : System), σ.Reachable {} ∧
    σ.Settled .sink 1 ∧ ¬ σ.Connecting 1 ∧ σ.nmos.preserved 1 = [] ∧
    Along (step {}) (OnlyChanges {} 1) σ labels ∧ run (step {}) σ labels = some σ' ∧
    σ'.Settled .sink 1 ∧ ¬ σ'.Connecting 1 ∧
    lastChange {} 1 σ labels = some "t".toList ∧ σ'.nmos.activeSender? 1 = some [] := by
  obtain ⟨σ, σ', hreach, hquiet, halong, hrun, hquiet', ⟨hidle, hqueue, -, hpreserved⟩,
      hidle', hqueue', hactive, hlast⟩ :=
    along_afterSample {} 2 (soleSink (SessionManager.versionSdp "1".toList)).1
      (soleSink (SessionManager.versionSdp "1".toList)).2
      (NmosManager.connection "s".toList ++ NmosManager.connection "t".toList ++ NmosManager.handling ++ NmosManager.handling)
      (P := OnlyChanges {} 1) (onlyChanges {} 1)
      (Told [] [] (some "t".toList) (NmosManager.connection "s".toList ++ NmosManager.connection "t".toList ++ NmosManager.handling ++ NmosManager.handling))
      (by omega) (by decide) (fun σ l _ hcheck => onlyChanges_of_check hcheck) (by decide +kernel)
  obtain ⟨hsettled, hconn⟩ := settled_of_quiet 1 hquiet hqueue hidle
  obtain ⟨hsettled', hconn'⟩ := settled_of_quiet 1 hquiet' hqueue' hidle'
  exact ⟨σ, _, σ', hreach, hsettled, hconn, hpreserved, halong, hrun, hsettled', hconn', hlast, hactive⟩

end System
end Aes67Daemon
