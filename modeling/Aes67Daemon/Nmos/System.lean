import Aes67Daemon.Lib.Run
import Aes67Daemon.Lib.Pool
import Aes67Daemon.Nmos.Manager

/-!
# The threads of the NMOS manager

The NMOS manager is entered by many threads: `init` and then the registration
worker, one thread for each connection to the Node API, and the threads that call
the session manager.  An `Op` is what a thread does in one critical section, with
the local variables it needs; `Op.exec` does it and says what the thread does next,
as the functions of the source go on.

Thread 0 runs `init` and is the worker after it; what the worker turns to next is
left open.  The other threads serve requests on the staged half.  A request to the
session manager is one step.

## Main definitions

* `Op`, `Op.exec` — the steps of a thread.
* `System`, `Label`, `System.step` — the interleaving of the threads.
* `System.boot`, `System.Reachable` — where the runs start.
* `NmosFunction`, `System.function_alone` — the functions of the source are what their
  steps do without interruption.
-/
namespace Aes67Daemon

open Text

/-- What a thread does in one critical section. -/
inductive Op
  -- `patch_sender_staged`, `patch_receiver_staged`
  | patchSender (id : UInt8) (body : Except Text (Patch SenderTpPatch))
  | patchReceiver (id : UInt8) (body : Except Text (Patch ReceiverTpPatch))
  | resetStaged (k : Kind) (id : UInt8)
  -- `apply_sender_activation`
  | promoteSender (id : UInt8)
  | readSource (id : UInt8)
  | rebuildSender (id : UInt8) (src : StreamSource)
  -- `apply_receiver_activation`
  | snapshotReceiver (id : UInt8)
  | resolveSdp (id : UInt8) (a : ReceiverActivation)
  | promoteReceiver (id : UInt8) (a : ReceiverActivation) (sdp : Text)
  | readSink (id : UInt8) (a : ReceiverActivation) (sdp : Text)
  | connect (sink : StreamSink)
  | readBack (id : UInt8)
  | storeSink (id : UInt8) (sink : StreamSink)
  -- `process_scheduled_activations`
  | takeDue
  | stamp (k : Kind) (id : UInt8)
  -- `register_source`, `register_source_local`
  | getSource (id : UInt8) (push : Bool)
  | senderTp (id : UInt8) (src : StreamSource) (push : Bool)
  | writeSender (id : UInt8) (src : StreamSource) (tp : List SenderTp) (push : Bool)
  | collectSender (id : UInt8)
  -- `unregister_source`
  | eraseSender (id : UInt8)
  -- `register_sink`, `register_sink_local`
  | getSink (id : UInt8) (push : Bool)
  | writeReceiver (id : UInt8) (sink : StreamSink) (tp : List ReceiverTp) (push : Bool)
  | collectReceiver (id : UInt8)
  -- `unregister_sink`
  | eraseReceiver (id : UInt8)
  -- `full_registration`
  | fullRegistration
  | getSources
  | getSinks
  | collectAll
  | register (doc : Doc)
  | unregister (type : DocType) (id : Text)
  -- `registration_worker`, `init`
  | nextEvent
  | startServer

namespace Op

/-- `apply_sender_activation` or `apply_receiver_activation`, and the end of the
function that calls it. -/
def apply (k : Kind) (id : UInt8) : List Op :=
  [match k with
    | .source => .promoteSender id
    | .sink => .snapshotReceiver id, .resetStaged k id]

/-- What a thread does with an activation that is due. -/
def due (pa : PendingActivation) : List Op := .stamp pa.kind pa.daemonId :: apply pa.kind pa.daemonId

/-- What a request does after the PATCH. -/
def afterPatch {τ : Type} (k : Kind) (id : UInt8) : Except Text (Endpoint τ) → List Op
  | .ok staged => if staged.act.immediate then apply k id else []
  | .error _ => []

/-- How the worker handles an event. -/
def handle : NmosEvent → List Op
  | .added .source id => [.getSource id true]
  | .removed .source id => [.eraseSender id]
  | .added .sink id => [.getSink id true]
  | .removed .sink id => [.eraseReceiver id]
  | .registryUpdated => [.fullRegistration]
  | .registryLost => []

/-- Execute an operation: what is done next in its place, and the state. -/
def exec (h : NmosHost) (e : NmosEnv) (op : Op) (s : NmosManager) : List Op × NmosManager :=
  match op with
  | .patchSender id body =>
    let (ret, s') := s.patchSenderStaged e id body
    (afterPatch .source id ret, s')
  | .patchReceiver id body =>
    let (ret, s') := s.patchReceiverStaged e id body
    (afterPatch .sink id ret, s')
  | .resetStaged k id => ([], s.resetStaged k id)
  | .promoteSender id => if s.senders.contains id then ([.readSource id], s.promoteSender id) else ([], s)
  | .readSource id =>
    match s.sm.getSource id with
    | some src => ([.rebuildSender id src], s)
    | none => ([], s)
  | .rebuildSender id src => ([], s.rebuildSender h e id src)
  | .snapshotReceiver id =>
    match s.receivers.find? id with
    | some rr =>
      if rr.snapshot.connects then ([.resolveSdp id rr.snapshot], s)
      else ([.promoteReceiver id rr.snapshot []], s)
    | none => ([], s)
  | .resolveSdp id a =>
    let sdp := s.resolveSdp h e a.senderId
    if sdp = [] then ([], s)
    else if (seek "m=audio".toList sdp).isNone then ([], s)
    else ([.promoteReceiver id (a.withTp (s.receiverTp h sdp)) sdp], s)
  | .promoteReceiver id a sdp =>
    if s.receivers.contains id then
      ((if a.changesSink sdp then [.readSink id a sdp] else []) ++ [.readBack id], s.promoteReceiver id a)
    else ([], s)
  | .readSink id a sdp =>
    match s.sm.getSink id with
    | some sink => ([.connect (a.target sdp sink)], s)
    | none => ([], s)
  | .connect sink => ([], s.addSink h e sink)
  | .readBack id =>
    match s.sm.getSink id with
    | some sink => ([.storeSink id sink], s)
    | none => ([], s)
  | .storeSink id sink => ([], s.storeSink id sink)
  | .takeDue =>
    let (due, s') := s.takeDue e.now
    (due.flatMap Op.due, s')
  | .stamp k id => ([], s.stamp e k id)
  | .getSource id push =>
    match s.sm.getSource id with
    | some src => ([.senderTp id src push], s)
    | none => ([], s)
  | .senderTp id src push => ([.writeSender id src (s.senderTp h e src) push], s)
  | .writeSender id src tp push =>
    (if push then [.collectSender id] else [], s.writeSender h e id src tp)
  | .collectSender id =>
    match s.senders.find? id with
    | some sr => ((NmosManager.senderDocs sr ++ [Doc.device s.deviceJson]).map Op.register, s)
    | none => ([], s)
  | .eraseSender id =>
    match s.senders.find? id with
    | some sr =>
      let s' := s.eraseSender h e id
      ([.register (.device s'.deviceJson), .unregister .sender sr.senderId,
        .unregister .flow sr.flowId, .unregister .source sr.sourceId], s')
    | none => ([], s)
  | .getSink id push =>
    match s.sm.getSink id with
    | some sink => ([.writeReceiver id sink (s.sinkTp h sink) push], s)
    | none => ([], s)
  | .writeReceiver id sink tp push =>
    (if push then [.collectReceiver id] else [], s.writeReceiver h e id sink tp)
  | .collectReceiver id =>
    match s.receivers.find? id with
    | some rr =>
      ([.register (.receiver (NmosManager.receiverJson h e rr)), .register (.device s.deviceJson)], s)
    | none => ([], s)
  | .eraseReceiver id =>
    match s.receivers.find? id with
    | some rr =>
      let s' := s.eraseReceiver h e id
      ([.register (.device s'.deviceJson), .unregister .receiver rr.receiverId], s')
    | none => ([], s)
  | .fullRegistration => ([.getSources, .getSinks, .collectAll], s)
  | .getSources => (s.sm.getSources.map fun src => .getSource src.id false, s)
  | .getSinks => (s.sm.getSinks.map fun sink => .getSink sink.id false, s)
  | .collectAll => ((s.docs h e).map Op.register, s)
  | .register doc => ([], s.registerResource doc)
  | .unregister type id => ([], s.unregisterResource type id)
  | .nextEvent =>
    match s.pendingEvents with
    | ev :: evs => (handle ev, { s with pendingEvents := evs })
    | [] => ([], s)
  | .startServer =>
    ([], { s with
      secInterfaceIpStr := if h.host.config.isDualLeg then ipText (e.env.secondaryIp h.host) else []
      serving := true })

/-- What the worker turns to, and what the other threads serve. -/
def startsOn (t : ℕ) : Op → Bool
  | .nextEvent | .takeDue | .fullRegistration => t == 0
  | .patchSender _ _ | .patchReceiver _ _ => t != 0
  | _ => false

/-- What is left of `init` once the observers are registered, and the first thing
the worker does. -/
def boot : List Op := [.getSources, .getSinks, .startServer, .fullRegistration]

end Op

/-! ## The interleaving -/

/-- The NMOS manager, its threads, and the last reading of the steady clock. -/
structure System where
  threads : Pool NmosManager Op
  clock : ℕ := 0

/-- A step of the system. -/
inductive Label
  /-- The session manager does something on a thread of its own. -/
  | stream (ev : Event)
  /-- A registry is discovered, or lost. -/
  | discover (found : Bool)
  /-- The worker turns to something, or a request arrives. -/
  | start (t : ℕ) (op : Op)
  | turn (t : ℕ) (e : NmosEnv)

namespace System

/-- The state the threads share. -/
abbrev nmos (σ : System) : NmosManager := σ.threads.shared

/-- One step; `none` when it cannot be taken, or has no defined outcome. -/
def step (h : NmosHost) (σ : System) : Label → Option System
  | .stream ev => (σ.nmos.sm.occur h.host ev).map fun sm =>
      { σ with threads := { σ.threads with shared := σ.nmos.hear sm } }
  | .discover found =>
    some { σ with threads := { σ.threads with shared := { σ.nmos with
      pendingEvents := σ.nmos.pendingEvents ++
        [if found then .registryUpdated else .registryLost] } } }
  | .start t op =>
    if op.startsOn t && σ.nmos.serving then
      (σ.threads.start t op).map fun c => { σ with threads := c } else none
  | .turn t e =>
    if σ.clock ≤ e.now then
      (σ.threads.turn (Op.exec h e) t).map fun c => { threads := c, clock := e.now } else none

/-- The NMOS manager when its observers are registered. -/
def boot (h : NmosHost) (e : NmosEnv) (sm : SessionManager) : System :=
  { threads :=
    { shared := NmosManager.rebuildDeviceJson h e { sm := sm }
      ops := fun t => if t = 0 then Op.boot else [] }
    clock := e.now }

/-- The states of a run: the session manager has started and done something, and then
the NMOS manager starts. -/
def Reachable (h : NmosHost) (σ : System) : Prop :=
  ∃ env now before sm e labels, run (SessionManager.occur h.host)
    (SessionManager.start h.host env now) before = some sm ∧ run (step h) (boot h e sm) labels = some σ

theorem Reachable.run {h : NmosHost} {σ σ' : System} {labels : List Label} (H : σ.Reachable h)
    (hrun : run (step h) σ labels = some σ') : σ'.Reachable h := by
  obtain ⟨env, now, before, sm, e, labels₀, hsm, hrun₀⟩ := H
  refine ⟨env, now, before, sm, e, labels₀ ++ labels, hsm, ?_⟩
  rw [run_append, hrun₀]
  exact hrun

/-- The system after a thread has executed `op` and still has `rest` to do. -/
def turned (h : NmosHost) (t : ℕ) (e : NmosEnv) (op : Op) (rest : List Op) (σ : System) : System :=
  { threads := σ.threads.turned (Op.exec h e) t op rest, clock := e.now }

/-- What a step can do. -/
theorem step_cases {h : NmosHost} {σ σ' : System} {l : Label} (hs : σ.step h l = some σ') :
    (∃ ev sm, l = .stream ev ∧ σ.nmos.sm.occur h.host ev = some sm ∧
      σ' = { σ with threads := { σ.threads with shared := σ.nmos.hear sm } }) ∨
    (∃ found, l = .discover found ∧
      σ' = { σ with threads := { σ.threads with shared := { σ.nmos with
        pendingEvents := σ.nmos.pendingEvents ++
          [if found then .registryUpdated else .registryLost] } } }) ∨
    (∃ t op, l = .start t op ∧ op.startsOn t = true ∧ σ.nmos.serving = true ∧ σ.threads.ops t = [] ∧
      σ' = { σ with threads := σ.threads.started t op }) ∨
    (∃ t e op rest, l = .turn t e ∧ σ.clock ≤ e.now ∧ σ.threads.ops t = op :: rest ∧
      σ' = σ.turned h t e op rest) := by
  cases l with
  | stream ev =>
      obtain ⟨sm, hsm, rfl⟩ := Option.map_eq_some_iff.mp hs
      exact .inl ⟨ev, sm, rfl, hsm, rfl⟩
  | discover found => exact .inr (.inl ⟨found, rfl, (Option.some.inj hs).symm⟩)
  | start t op =>
      rw [step] at hs
      split at hs
      · rename_i hguard
        rw [Bool.and_eq_true] at hguard
        obtain ⟨c, hc, rfl⟩ := Option.map_eq_some_iff.mp hs
        obtain ⟨hidle, rfl⟩ := Pool.start_eq_some.mp hc
        exact .inr (.inr (.inl ⟨t, op, rfl, hguard.1, hguard.2, hidle, rfl⟩))
      · cases hs
  | turn t e =>
      rw [step] at hs
      split at hs
      · rename_i hclock
        obtain ⟨c, hc, rfl⟩ := Option.map_eq_some_iff.mp hs
        obtain ⟨op, rest, hops, rfl⟩ := Pool.turn_eq_some.mp hc
        exact .inr (.inr (.inr ⟨t, e, op, rest, rfl, hclock, hops, rfl⟩))
      · cases hs

end System

/-! ## Without interruption -/

section
variable {h : NmosHost} {e : NmosEnv} {s : NmosManager} {id : UInt8}

-- the equations of the operations, once for all that follows
attribute [local simp] Op.exec

theorem finishes_applySenderActivation :
    Finishes (Op.exec h e) [.promoteSender id] s (s.applySenderActivation h e id) := by
  rw [NmosManager.applySenderActivation]
  refine .next ?_
  simp only [Op.exec]
  split
  · refine .next ?_
    cases hsrc : (s.promoteSender id).sm.getSource id with
    | none =>
        simp only [Op.exec, hsrc]
        exact .done _
    | some src =>
        simp only [Op.exec, hsrc]
        exact .single rfl
  · exact .done s

theorem finishes_enactReceiver (a : ReceiverActivation) (sdp : Text) (hid : s.receivers.contains id = true) :
    Finishes (Op.exec h e) [.promoteReceiver id a sdp] s (s.enactReceiver h e id a sdp) := by
  have hback : ∀ s : NmosManager, Finishes (Op.exec h e) [.readBack id] s
      (match s.sm.getSink id with
        | some sink => s.storeSink id sink
        | none => s) := by
    intro s
    refine .next ?_
    cases hsink : s.sm.getSink id with
    | none =>
        simp only [Op.exec, hsink]
        exact .done s
    | some sink =>
        simp only [Op.exec, hsink]
        exact .single rfl
  rw [NmosManager.enactReceiver]
  refine .next ?_
  simp only [Op.exec, if_pos hid, List.append_nil]
  split
  · refine .append (.next ?_) (hback _)
    cases hsink : (s.promoteReceiver id a).sm.getSink id with
    | none =>
        simp only [Op.exec, hsink]
        exact .done _
    | some sink =>
        simp only [Op.exec, hsink]
        exact .single rfl
  · exact hback _

/-- **`apply_receiver_activation` is what its steps do**, when no other thread interferes. -/
theorem finishes_applyReceiverActivation :
    Finishes (Op.exec h e) [.snapshotReceiver id] s (s.applyReceiverActivation h e id) := by
  rw [NmosManager.applyReceiverActivation]
  refine .next ?_
  cases hrr : s.receivers.find? id with
  | none =>
      simp only [Op.exec, hrr]
      exact .done s
  | some rr =>
      have hid : s.receivers.contains id = true := SortedMap.contains_eq_true.mpr ⟨rr, hrr⟩
      simp only [Op.exec, hrr, List.append_nil]
      split
      · refine .next ?_
        simp only [Op.exec, List.append_nil]
        split
        · exact .done s
        · split
          · exact .done s
          · exact finishes_enactReceiver _ _ hid
      · exact finishes_enactReceiver _ _ hid

theorem finishes_registerSourceLocal :
    Finishes (Op.exec h e) [.getSource id false] s (s.registerSourceLocal h e id) := by
  rw [NmosManager.registerSourceLocal]
  refine .next ?_
  cases hsrc : s.sm.getSource id with
  | none =>
      simp only [Op.exec, hsrc]
      exact .done s
  | some src =>
      simp only [Op.exec, hsrc, List.append_nil]
      exact .next (.next (.done _))

theorem finishes_registerSinkLocal :
    Finishes (Op.exec h e) [.getSink id false] s (s.registerSinkLocal h e id) := by
  rw [NmosManager.registerSinkLocal]
  refine .next ?_
  cases hsink : s.sm.getSink id with
  | none =>
      simp only [Op.exec, hsink]
      exact .done s
  | some sink =>
      simp only [Op.exec, hsink, List.append_nil]
      exact .next (.done _)

/-- **`full_registration` is what its steps do**, when no other thread interferes. -/
theorem finishes_fullRegistration :
    Finishes (Op.exec h e) [.fullRegistration] s (s.fullRegistration h e) := by
  have hsources : ∀ s : NmosManager, Finishes (Op.exec h e) [.getSources] s
      ((s.sm.getSources.map StreamSource.id).foldl (NmosManager.registerSourceLocal h e) s) := by
    intro s
    refine .next ?_
    simp only [Op.exec, List.append_nil]
    rw [show (fun src : StreamSource => Op.getSource src.id false) =
      (fun id => Op.getSource id false) ∘ StreamSource.id from rfl, ← List.map_map]
    exact .foldl (fun s id => finishes_registerSourceLocal) _ s
  have hsinks : ∀ s : NmosManager, Finishes (Op.exec h e) [.getSinks] s
      ((s.sm.getSinks.map StreamSink.id).foldl (NmosManager.registerSinkLocal h e) s) := by
    intro s
    refine .next ?_
    simp only [Op.exec, List.append_nil]
    rw [show (fun sink : StreamSink => Op.getSink sink.id false) =
      (fun id => Op.getSink id false) ∘ StreamSink.id from rfl, ← List.map_map]
    exact .foldl (fun s id => finishes_registerSinkLocal) _ s
  have hall : ∀ s : NmosManager, Finishes (Op.exec h e) [.collectAll] s
      ((s.docs h e).foldl (fun s doc => s.registerResource doc) s) := by
    intro s
    refine .next ?_
    simp only [Op.exec, List.append_nil]
    exact .foldl (fun s doc => .single rfl) _ s
  exact .next ((hsources s).append ((hsinks _).append (hall _)))

end

/-- The functions whose steps the threads take, as far as they are functions of their own. -/
inductive NmosFunction
  | applySenderActivation (id : UInt8)
  | applyReceiverActivation (id : UInt8)
  | registerSourceLocal (id : UInt8)
  | registerSinkLocal (id : UInt8)
  | fullRegistration

namespace NmosFunction

/-- The first step of a function. -/
def first : NmosFunction → Op
  | applySenderActivation id => .promoteSender id
  | applyReceiverActivation id => .snapshotReceiver id
  | registerSourceLocal id => .getSource id false
  | registerSinkLocal id => .getSink id false
  | fullRegistration => .fullRegistration

/-- A function as a whole. -/
def call (h : NmosHost) (e : NmosEnv) : NmosFunction → NmosManager → NmosManager
  | applySenderActivation id, s => s.applySenderActivation h e id
  | applyReceiverActivation id, s => s.applyReceiverActivation h e id
  | registerSourceLocal id, s => s.registerSourceLocal h e id
  | registerSinkLocal id, s => s.registerSinkLocal h e id
  | fullRegistration, s => s.fullRegistration h e

theorem finishes (h : NmosHost) (e : NmosEnv) (f : NmosFunction) (s : NmosManager) :
    Finishes (Op.exec h e) [f.first] s (f.call h e s) := by
  cases f with
  | applySenderActivation id => exact finishes_applySenderActivation
  | applyReceiverActivation id => exact finishes_applyReceiverActivation
  | registerSourceLocal id => exact finishes_registerSourceLocal
  | registerSinkLocal id => exact finishes_registerSinkLocal
  | fullRegistration => exact finishes_fullRegistration

end NmosFunction

/-! ## Sample runs -/

/-- A run whose session manager has lived through `before` when the NMOS manager starts. -/
def sampleRun (h : NmosHost) (before : List Event) (labels : List Label) : Option System :=
  (run (SessionManager.occur h.host) (SessionManager.start h.host {} 0) before).bind fun sm =>
    run (System.step h) (System.boot h {} sm) labels

/-- The state after a sample run is reachable. -/
theorem reachable_sampleRun (h : NmosHost) (before : List Event) (labels : List Label)
    (P : System → Prop) [DecidablePred P]
    (hrun : (sampleRun h before labels).map (fun σ => decide (P σ)) = some true) :
    ∃ σ, σ.Reachable h ∧ P σ := by
  obtain ⟨σ, hσ, hP⟩ := Option.map_eq_some_iff.mp hrun
  obtain ⟨sm, hsm, hlabels⟩ := Option.bind_eq_some_iff.mp hσ
  exact ⟨σ, ⟨{}, 0, before, sm, {}, labels, hsm, hlabels⟩, of_decide_eq_true hP⟩

/-- Only the first threads have anything to do. -/
def System.Quiet (n : ℕ) (σ : System) : Prop := ∀ t, n ≤ t → σ.threads.ops t = []

theorem System.Quiet.idle {σ : System} (hq : σ.Quiet 2) (h0 : (σ.threads.ops 0).isEmpty = true)
    (h1 : (σ.threads.ops 1).isEmpty = true) (t : ℕ) : σ.threads.ops t = [] :=
  match t with
  | 0 => List.isEmpty_iff.mp h0
  | 1 => List.isEmpty_iff.mp h1
  | t + 2 => hq (t + 2) (by omega)

/-- The thread a step is about. -/
def Label.thread : Label → ℕ
  | .start t _ | .turn t _ => t
  | .stream _ | .discover _ => 0

theorem System.quiet_step {h : NmosHost} {n : ℕ} {σ σ' : System} {l : Label} (H : σ.Quiet n)
    (hl : l.thread < n) (hs : σ.step h l = some σ') : σ'.Quiet n := by
  intro t' ht'
  rcases step_cases hs with ⟨ev, sm, -, -, rfl⟩ | ⟨found, -, rfl⟩ | ⟨t, op, rfl, -, -, -, rfl⟩ |
    ⟨t, e, op, rest, rfl, -, -, rfl⟩
  · exact H t' ht'
  · exact H t' ht'
  · have hne : t' ≠ t := ne_of_gt (lt_of_lt_of_le hl ht')
    exact (Pool.ops_started t').trans (by rw [if_neg hne, H t' ht'])
  · have hne : t' ≠ t := ne_of_gt (lt_of_lt_of_le hl ht')
    exact (Pool.ops_turned t').trans (by rw [if_neg hne, H t' ht'])

theorem quiet_sampleRun {h : NmosHost} {n : ℕ} {before : List Event} {labels : List Label} {σ : System}
    (hn : 0 < n) (hlabels : ∀ l ∈ labels, l.thread < n) (hrun : sampleRun h before labels = some σ) :
    σ.Reachable h ∧ σ.Quiet n := by
  obtain ⟨sm, hsm, hrun⟩ := Option.bind_eq_some_iff.mp hrun
  have h0 : (System.boot h {} sm).Quiet n := fun t ht => if_neg (by omega)
  have hkeep : ∀ (σ : System) l σ', σ.Quiet n → l.thread < n → σ.step h l = some σ' → σ'.Quiet n :=
    fun _ _ _ hq hl hs => System.quiet_step hq hl hs
  exact ⟨⟨{}, 0, before, sm, {}, labels, hsm, hrun⟩, run_keeps hkeep h0 (along_of_forall hlabels) hrun⟩

/-- A sample run after which no thread has anything to do and the queue is empty. -/
theorem idle_sampleRun (h : NmosHost) (before : List Event) (labels : List Label) (P : System → Prop)
    [DecidablePred P] (hlabels : ∀ l ∈ labels, l.thread < 2)
    (hrun : (sampleRun h before labels).map (fun σ => decide (((σ.threads.ops 0).isEmpty ∧
      (σ.threads.ops 1).isEmpty) ∧ σ.nmos.pendingEvents.isEmpty ∧ P σ)) = some true) :
    ∃ σ, sampleRun h before labels = some σ ∧ σ.Reachable h ∧ (∀ t, σ.threads.ops t = []) ∧
      σ.nmos.pendingEvents = [] ∧ P σ := by
  obtain ⟨σ, hσ, hdone⟩ := Option.map_eq_some_iff.mp hrun
  obtain ⟨⟨hidle0, hidle1⟩, hqueue, hP⟩ := of_decide_eq_true hdone
  obtain ⟨hreach, hquiet⟩ := quiet_sampleRun (by omega) hlabels hσ
  exact ⟨σ, hσ, hreach, hquiet.idle hidle0 hidle1, List.isEmpty_iff.mp hqueue, hP⟩

/-- A sample run whose steps all pass a check that looks at the first threads only. -/
theorem along_sampleRun (h : NmosHost) (n : ℕ) (before : List Event) (labels : List Label)
    {P : System → Label → Prop} (check : System → Label → Bool) (Q : System → Prop) [DecidablePred Q]
    (hn : 0 < n) (himp : ∀ σ l, σ.Quiet n → check σ l = true → P σ l)
    (hrun : ((run (SessionManager.occur h.host) (SessionManager.start h.host {} 0) before).bind fun sm =>
      (run (System.step h) (System.boot h {} sm) labels).map fun σ =>
        decide (Along (System.step h) (fun σ l => l.thread < n ∧ check σ l = true)
          (System.boot h {} sm) labels ∧ Q σ)) = some true) :
    ∃ sm σ, run (SessionManager.occur h.host) (SessionManager.start h.host {} 0) before = some sm ∧
      Along (System.step h) P (System.boot h {} sm) labels ∧
      run (System.step h) (System.boot h {} sm) labels = some σ ∧ σ.Quiet n ∧ Q σ := by
  obtain ⟨sm, hsm, hrun⟩ := Option.bind_eq_some_iff.mp hrun
  obtain ⟨σ, hσ, hdone⟩ := Option.map_eq_some_iff.mp hrun
  obtain ⟨hcheck, hQ⟩ := of_decide_eq_true hdone
  have h0 : (System.boot h {} sm).Quiet n := fun t ht => if_neg (by omega)
  have hkeep : ∀ (σ : System) l σ', σ.Quiet n → l.thread < n ∧ check σ l = true →
      σ.step h l = some σ' → σ'.Quiet n := fun _ _ _ hq hl hs => System.quiet_step hq hl.1 hs
  exact ⟨sm, σ, hsm, Along.imp_of_invariant hkeep (fun σ l hq hl => himp σ l hq hl.2) h0 hcheck, hσ,
    run_keeps hkeep h0 hcheck hσ, hQ⟩

/-- The same for what follows a sample run. -/
theorem along_afterSample (h : NmosHost) (n : ℕ) (before : List Event) (first labels : List Label)
    {P : System → Label → Prop} (check : System → Label → Bool) (Q : System → System → Prop)
    [∀ σ σ', Decidable (Q σ σ')] (hn : 0 < n) (hfirst : ∀ l ∈ first, l.thread < n)
    (himp : ∀ σ l, σ.Quiet n → check σ l = true → P σ l)
    (hrun : ((sampleRun h before first).bind fun σ =>
      (run (System.step h) σ labels).map fun σ' =>
        decide (Along (System.step h) (fun σ l => l.thread < n ∧ check σ l = true) σ labels ∧ Q σ σ')) =
          some true) :
    ∃ σ σ', σ.Reachable h ∧ σ.Quiet n ∧ Along (System.step h) P σ labels ∧
      run (System.step h) σ labels = some σ' ∧ σ'.Quiet n ∧ Q σ σ' := by
  obtain ⟨σ, hσ, hrun⟩ := Option.bind_eq_some_iff.mp hrun
  obtain ⟨σ', hσ', hdone⟩ := Option.map_eq_some_iff.mp hrun
  obtain ⟨hcheck, hQ⟩ := of_decide_eq_true hdone
  obtain ⟨hreach, hquiet⟩ := quiet_sampleRun hn hfirst hσ
  have hkeep : ∀ (σ : System) l σ', σ.Quiet n → l.thread < n ∧ check σ l = true →
      σ.step h l = some σ' → σ'.Quiet n := fun _ _ _ hq hl hs => System.quiet_step hq hl.1 hs
  exact ⟨σ, σ', hreach, hquiet,
    Along.imp_of_invariant hkeep (fun σ l hq hl => himp σ l hq hl.2) hquiet hcheck, hσ',
    run_keeps hkeep hquiet hcheck hσ', hQ⟩

/-- Turns of one thread. -/
def turns (n t : ℕ) (e : NmosEnv) : List Label := List.replicate n (.turn t e)

/-- A call in which the driver registers a primary leg under a handle. -/
def Env.accepting (handle : Handle) : Env := .answering none (.ok handle) (.error (.driver 1))

/-- A registration of one sink, and `init` and the worker up to the first heartbeat. -/
def soleSink (sdp : Text) : List Event × List Label :=
  ([.request (.addSink (.accepting 7) (stereoSink 1 "a".toList sdp))], turns 13 0 {})

/-- The same with one source. -/
def soleSource : List Event × List Label :=
  ([.request (.addSource (.accepting 7) (stereoSource 1 "a".toList))], turns 17 0 {})

/-- A request that activates what it stages. -/
def activateNow {π : Type} (p : Patch π) : Except Text (Patch π) :=
  .ok { p with mode := some "activate_immediate".toList }

/-! ## A function alone -/

namespace System
variable {h : NmosHost} {e : NmosEnv} {σ : System} {t : ℕ}

/-- Turns of one thread at one time of the clock are turns in its pool. -/
theorem run_turns {n : ℕ} {c : Pool NmosManager Op} (hclock : σ.clock ≤ e.now)
    (hrun : run (fun c t => c.turn (Op.exec h e) t) σ.threads (List.replicate (n + 1) t) = some c) :
    run (step h) σ (turns (n + 1) t e) = some { threads := c, clock := e.now } := by
  induction n generalizing σ with
  | zero =>
      rw [List.replicate_one, run_cons] at hrun
      obtain ⟨c₁, hturn, hc⟩ := Option.bind_eq_some_iff.mp hrun
      obtain rfl := Option.some.inj hc
      simp [turns, run_cons, step, hclock, hturn]
  | succ n ih =>
      rw [List.replicate_succ, run_cons] at hrun
      obtain ⟨c₁, hturn, hrest⟩ := Option.bind_eq_some_iff.mp hrun
      have hstep : σ.step h (.turn t e) = some { threads := c₁, clock := e.now } := by
        simp [step, hclock, hturn]
      rw [turns, List.replicate_succ, run_cons, hstep, Option.bind_some]
      exact ih (σ := { threads := c₁, clock := e.now }) le_rfl hrest

/-- **A function that is not interrupted**: turns of its thread that follow each other do what
the function does as a whole, and all that this thread and the others have to do otherwise
is as before. -/
theorem function_alone (h : NmosHost) (e : NmosEnv) (σ : System) (t : ℕ) (f : NmosFunction) (rest : List Op)
    (hclock : σ.clock ≤ e.now) (hops : σ.threads.ops t = f.first :: rest) :
    ∃ n, run (step h) σ (turns n t e) =
      some { threads := { shared := f.call h e σ.nmos, ops := Function.update σ.threads.ops t rest }
             clock := e.now } := by
  obtain ⟨n, hn, hrun⟩ := (f.finishes h e σ.nmos).exists_run t
  obtain ⟨k, rfl⟩ : ∃ k, n = k + 1 := Nat.exists_eq_add_one.mpr hn
  exact ⟨k + 1, run_turns hclock (hrun σ.threads rest rfl hops)⟩

/-- The next step of a thread is a full registration, and then it is done. -/
def Registers (t : ℕ) (σ : System) : Bool :=
  match σ.threads.ops t with
  | [.fullRegistration] => true
  | _ => false

theorem registers_iff : σ.Registers t = true ↔ σ.threads.ops t = [.fullRegistration] := by
  unfold Registers
  split
  · rename_i hops
    simp [hops]
  · rename_i hops
    simpa using hops

/-- After `init` the worker registers two senders and a receiver. -/
theorem function_alone_registration :
    ∃ σ : System, σ.Reachable {} ∧ (σ.nmos.sm.getSources.length = 2 ∧ σ.nmos.sm.getSinks.length = 1) ∧
      ∃ n, run (step {}) σ (turns n 0 {}) =
        some { threads := { shared := σ.nmos.fullRegistration {} {}, ops := Function.update σ.threads.ops 0 [] }
               clock := 0 } := by
  obtain ⟨σ, hreach, hops, hclock, hcount⟩ := reachable_sampleRun {}
    [.request (.addSource (.accepting 7) (stereoSource 1 "a".toList)),
      .request (.addSource (.accepting 8) (stereoSource 2 "b".toList)),
      .request (.addSink (.accepting 9) (stereoSink 1 "c".toList (redundantSdp "239.1.1.1".toList "239.2.2.2".toList)))]
    (turns 11 0 {}) (fun σ => σ.Registers 0 = true ∧ σ.clock = 0 ∧
      σ.nmos.sm.getSources.length = 2 ∧ σ.nmos.sm.getSinks.length = 1) (by decide +kernel)
  exact ⟨σ, hreach, hcount, function_alone {} {} σ 0 .fullRegistration [] hclock.le (registers_iff.mp hops)⟩

end System

end Aes67Daemon
