import Aes67Daemon.Nmos.Manager
import Aes67Daemon.Nmos.MapThreads

/-!
# The activations of the channel mapping API

`POST map/activations` applies an action at once or keeps it for a later time;
`is08_activations_` holds what is kept, under the ids that
`is08_activation_counter_` gives, and its mutex covers each look-up, insertion and
erasure, but not what comes between them.  Every request is served by a thread of its
own; the worker takes what is due and applies it.

An operation is what a thread does in one critical section.  The increment of the
counter is a load and a store.  The first pass of an action is one step, as in
`MapThreads`.  `Json.write` stands for Boost's JSON writer, which renders the action of
a request; the reader is a parameter.

The log records what happened in order, and an activation is numbered by its position
there when it is accepted.  The code keeps neither.

## Main definitions

* `Is08PendingActivation` — what is kept of an activation.
* `CmOp`, `CmOp.exec` — the steps of the handlers and of the worker.
* `CmEvent` — what happened.
* `CmThreads.step` — the interleaving.
-/
namespace Aes67Daemon

open Text CmHost

/-! ## Times -/

/-- `parse_tai_str`. -/
def parseTaiStr (t : Text) : Option ℤ :=
  match breakAt ':' t with
  | none => none
  | some (secs, nanos) => do
    let sec ← stoll secs
    let nsec ← stoll nanos
    pure (wrap64 (sec * nanosPerSec + nsec))

/-- `ns_to_tai_str`. -/
def nsToTaiStr (ns : ℤ) : Text := Json.printInt (ns / nanosPerSec) ++ ':' :: Json.printInt (ns % nanosPerSec)

/-! ## Requests -/

/-- The `mode` of an activation. -/
inductive CmMode
  | immediate
  | relative
  | absolute
  deriving DecidableEq

namespace CmMode

def text : CmMode → Text
  | immediate => "activate_immediate".toList
  | relative => "activate_scheduled_relative".toList
  | absolute => "activate_scheduled_absolute".toList

def ofText (t : Text) : Option CmMode := [immediate, relative, absolute].find? fun m => m.text == t

end CmMode

/-- `Is08PendingActivation`. -/
structure Is08PendingActivation where
  mode : CmMode
  requestedTime : Text := []
  activationTime : Text := []
  deadlineNs : ℤ := 0
  actionJson : Text := []
  lockedOutputs : List Text := []
  deriving DecidableEq

/-- What the POST handler takes from a request. -/
structure CmPost where
  mode : CmMode
  action : Ptree
  requestedTime : Text

namespace CmPost

/-- The text at a path of two keys, empty if there is none. -/
def textAt (pt : Ptree) (outer inner : Text) : Text :=
  (((pt.child? outer).bind fun t => t.child? inner).map Ptree.data).getD []

/-- Take a request apart. -/
def ofBody (readJson : Text → Option Ptree) (body : Text) : Option CmPost := do
  let pt ← readJson body
  let mode ← CmMode.ofText (textAt pt "activation".toList "mode".toList)
  let action ← pt.child? "action".toList
  pure ⟨mode, action, textAt pt "activation".toList "requested_time".toList⟩

/-- The outputs that an action names. -/
def outputs (p : CmPost) : List Text := p.action.children.map Prod.fst

/-- `raw_action_json`. -/
def rawActionJson (p : CmPost) : Text := Json.write p.action

/-- The activation that is kept. -/
def pending (p : CmPost) (now span : ℤ) (actionJson : Text) : Is08PendingActivation :=
  let deadlineNs := if p.mode = .relative then wrap64 (now + span) else span
  { mode := p.mode
    requestedTime := p.requestedTime
    activationTime := if p.mode = .relative then nsToTaiStr deadlineNs else p.requestedTime
    deadlineNs := deadlineNs
    actionJson := actionJson
    lockedOutputs := p.outputs }

end CmPost

/-! ## Threads -/

/-- What a thread does in one critical section. -/
inductive CmOp
  /-- The POST handler, up to the lock tests. -/
  | post (body : Text)
  /-- `is08_output_locked` for the outputs that are left. -/
  | testLocks (p : CmPost) (outputs : List Text)
  /-- `++is08_activation_counter_`. -/
  | loadCounter (p : CmPost)
  | storeCounter (p : CmPost) (n : UInt64)
  /-- The first pass, and the times of a scheduled activation. -/
  | validate (p : CmPost) (id : Text)
  | insert (id : Text) (pa : Is08PendingActivation)
  /-- The second pass: of the immediate activation with a number, or of one that was
  due. -/
  | change (immediate : Option ℕ) (op : MapOp)
  /-- `is08_process_scheduled_activations`, up to the end of the lock. -/
  | takeDue
  /-- `is08_apply_action_json` of an activation that was due. -/
  | fire (serial : ℕ) (pa : Is08PendingActivation)
  /-- The DELETE handler. -/
  | delete (id : Text)
  /-- The handler of `GET map/activations`. -/
  | list

/-- What happened. -/
inductive CmEvent
  /-- A request is answered with an error. -/
  | refused (status : ℕ) (err : Text)
  /-- An immediate activation has passed the first pass. -/
  | activated (serial : ℕ) (id : Text)
  /-- A scheduled activation is answered with 202. -/
  | accepted (serial : ℕ) (id : Text) (pa : Is08PendingActivation)
  /-- `GET map/activations` is answered. -/
  | listed (activations : List (Text × ℕ))
  /-- A DELETE is answered with 204. -/
  | deleted (serial : ℕ)
  /-- The worker has taken an activation, with what it read from the clock. -/
  | taken (serial : ℕ) (now : ℤ)
  /-- The worker applies an activation. -/
  | fired (serial : ℕ)
  deriving DecidableEq

/-- The state that the threads share. -/
structure CmState where
  sm : SessionManager
  /-- `is08_activations_`, with the numbers of the activations. -/
  activations : SortedMap Text (ℕ × Is08PendingActivation) := .empty
  counter : UInt64 := 0
  log : List CmEvent := []

namespace CmState

def append (s : CmState) (events : List CmEvent) : CmState := { s with log := s.log ++ events }

/-- `is08_output_locked`. -/
def outputLocked (s : CmState) (output : Text) : Bool :=
  s.activations.entries.any fun e => output ∈ e.2.2.lockedOutputs

/-- What is due, as the worker takes it. -/
def due (s : CmState) (now : ℤ) : List (ℕ × Is08PendingActivation) :=
  (s.activations.entries.filter fun e => e.2.2.deadlineNs ≤ now).map Prod.snd

end CmState

/-- The error of a request that is not what the handler expects. -/
def schemaError : Text := "Could not match the request to the schema".toList

/-- The error of a request for an output that is locked. -/
def lockedError (output : Text) : Text :=
  "Output ".toList ++ quoted output ++ " is locked by another activation. No changes will be made.".toList

/-- Execute an operation: what is done next in its place, and the state. -/
def CmOp.exec (h : CmHost) (readJson : Text → Option Ptree) (env : Env) (now : ℤ) (op : CmOp) (s : CmState) :
    Option (List CmOp × CmState) :=
  match op with
  | post body =>
    match CmPost.ofBody readJson body with
    | none => some ([], s.append [.refused 400 schemaError])
    | some p =>
      -- Boost's writer throws at a root that is not an object
      if p.action.data.isEmpty then some ([testLocks p p.outputs], s) else some ([], s.append [.refused 500 []])
  | testLocks p [] => some ([loadCounter p], s)
  | testLocks p (output :: outputs) =>
    if s.outputLocked output then some ([], s.append [.refused 423 (lockedError output)])
    else some ([testLocks p outputs], s)
  | loadCounter p => some ([storeCounter p (s.counter + 1)], s)
  | storeCounter p n => some ([validate p (ofNat n.toNat)], { s with counter := n })
  | validate p id =>
    match h.is08ApplyActionJson readJson (fun _ => env) p.rawActionJson true s.sm with
    | none => none
    | some (.error err, _) => some ([], s.append [.refused 400 err])
    | some (.ok canonical, _) =>
      if p.mode = .immediate then
        some ((MapThreads.accepted h readJson s.sm p.rawActionJson).map fun w => change (some s.log.length) (.item w),
          s.append [.activated s.log.length id])
      else
        match parseTaiStr p.requestedTime with
        | none => some ([], s.append [.refused 400 "Invalid or missing requested_time".toList])
        | some span => some ([insert id (p.pending now span canonical)], s)
  | insert id pa =>
    some ([], { s with activations := s.activations.insert id (s.log.length, pa) }.append
      [.accepted s.log.length id pa])
  | change immediate op =>
    (op.exec h.host env s.sm).map fun r => (r.1.map (change immediate), { s with sm := r.2 })
  | takeDue =>
    some ((s.due now).map fun e : ℕ × Is08PendingActivation => fire e.1 e.2,
      { s with activations := s.activations.eraseIf fun _ e => e.2.deadlineNs ≤ now }.append
        ((s.due now).map fun e : ℕ × Is08PendingActivation => .taken e.1 now))
  | fire serial pa =>
    some ((MapThreads.accepted h readJson s.sm pa.actionJson).map fun w => change none (.item w),
      s.append [.fired serial])
  | delete id =>
    match s.activations.find? id with
    | none => some ([], s.append [.refused 404 "Not Found".toList])
    | some e => some ([], { s with activations := s.activations.erase id }.append [.deleted e.1])
  | list => some ([], s.append [.listed (s.activations.entries.map fun e => (e.1, e.2.1))])

/-- What a thread is started for. -/
inductive CmRequest
  | post (body : Text)
  | delete (id : Text)
  | list
  | processScheduled

def CmRequest.op : CmRequest → CmOp
  | post body => .post body
  | delete id => .delete id
  | list => .list
  | processScheduled => .takeDue

/-- The threads. -/
abbrev CmThreads := Pool CmState CmOp

/-- What happens next. -/
inductive CmLabel
  | start (t : ℕ) (request : CmRequest)
  /-- A thread executes its next operation, with the answers of the outside world and
  the time it reads. -/
  | turn (t : ℕ) (env : Env) (now : ℤ)

namespace CmThreads

/-- The threads when the server starts. -/
def boot (sm : SessionManager) : CmThreads := { shared := { sm := sm }, ops := fun _ => [] }

/-- One step. -/
def step (h : CmHost) (readJson : Text → Option Ptree) (c : CmThreads) : CmLabel → Option CmThreads
  | .start t request => c.start t request.op
  | .turn t env now => c.turn? (fun op => op.exec h readJson env now) t

end CmThreads
/-! ## What the operations do -/

/-- The activation that an operation is to apply. -/
def CmOp.firing? : CmOp → Option ℕ
  | fire serial _ => some serial
  | _ => none

/-- An event that does not change which activations wait. -/
def CmEvent.quiet : CmEvent → Bool
  | refused _ _ | activated _ _ => true
  | _ => false

/-- What an operation does to the activations and the log, and what it leaves to be
done. -/
inductive CmOp.Effect (now : ℤ) (s : CmState) : CmOp → List CmOp → CmState → Prop
  | other {op : CmOp} {next : List CmOp} {s' : CmState} {events : List CmEvent} (hop : op.firing? = none)
      (hactivations : s'.activations = s.activations) (hlog : s'.log = s.log ++ events)
      (hquiet : ∀ e ∈ events, e.quiet = true) (hnext : next.filterMap firing? = []) : Effect now s op next s'
  | inserted (id : Text) (pa : Is08PendingActivation) : Effect now s (.insert id pa) []
      ({ s with activations := s.activations.insert id (s.log.length, pa) }.append
        [.accepted s.log.length id pa])
  | took : Effect now s .takeDue ((s.due now).map fun e : ℕ × Is08PendingActivation => fire e.1 e.2)
      ({ s with activations := s.activations.eraseIf fun _ e => e.2.deadlineNs ≤ now }.append
        ((s.due now).map fun e : ℕ × Is08PendingActivation => .taken e.1 now))
  | fired {serial : ℕ} {pa : Is08PendingActivation} {next : List CmOp} (hnext : next.filterMap firing? = []) :
      Effect now s (.fire serial pa) next (s.append [.fired serial])
  | deleted {id : Text} {serial : ℕ} {pa : Is08PendingActivation}
      (hfind : s.activations.find? id = some (serial, pa)) : Effect now s (.delete id) []
        ({ s with activations := s.activations.erase id }.append [.deleted serial])
  | listed : Effect now s .list [] (s.append [.listed (s.activations.entries.map fun e => (e.1, e.2.1))])

theorem CmOp.effect {h : CmHost} {readJson : Text → Option Ptree} {env : Env} {now : ℤ} {op : CmOp}
    {s s' : CmState} {next : List CmOp} (hexec : op.exec h readJson env now s = some (next, s')) :
    op.Effect now s next s' := by
  have hrefused : ∀ {op : CmOp} {status err}, op.firing? = none →
      op.Effect now s [] (s.append [.refused status err]) := fun hop =>
    .other hop rfl rfl (by simp [CmEvent.quiet]) rfl
  have hitems : ∀ immediate work, (List.map (fun w => change immediate (.item w)) work).filterMap firing? = [] :=
    fun immediate work => by simp [List.filterMap_map, Function.comp_def, firing?]
  cases op with
  | post body =>
      simp only [exec] at hexec
      split at hexec
      · cases hexec
        exact hrefused rfl
      · split at hexec <;> cases hexec
        · exact .other rfl rfl (List.append_nil _).symm (by simp) rfl
        · exact hrefused rfl
  | testLocks p outputs =>
      cases outputs with
      | nil =>
          cases hexec
          exact .other rfl rfl (List.append_nil _).symm (by simp) rfl
      | cons output outputs =>
          simp only [exec] at hexec
          split at hexec <;> cases hexec
          · exact hrefused rfl
          · exact .other rfl rfl (List.append_nil _).symm (by simp) rfl
  | loadCounter p =>
      cases hexec
      exact .other rfl rfl (List.append_nil _).symm (by simp) rfl
  | storeCounter p n =>
      cases hexec
      exact .other rfl rfl (List.append_nil _).symm (by simp) rfl
  | validate p id =>
      simp only [exec] at hexec
      split at hexec
      · cases hexec
      · cases hexec
        exact hrefused rfl
      · split at hexec
        · cases hexec
          exact .other rfl rfl rfl (by simp [CmEvent.quiet]) (hitems _ _)
        · split at hexec <;> cases hexec
          · exact hrefused rfl
          · exact .other rfl rfl (List.append_nil _).symm (by simp) rfl
  | insert id pa =>
      cases hexec
      exact .inserted id pa
  | change immediate op =>
      obtain ⟨r, -, heq⟩ := Option.map_eq_some_iff.mp hexec
      cases heq
      exact .other rfl rfl (List.append_nil _).symm (by simp)
        (by simp [List.filterMap_map, Function.comp_def, firing?])
  | takeDue =>
      cases hexec
      exact .took
  | fire serial pa =>
      cases hexec
      exact .fired (hitems _ _)
  | delete id =>
      simp only [exec] at hexec
      split at hexec <;> cases hexec
      · exact hrefused rfl
      · rename_i e hfind
        exact .deleted hfind
  | list =>
      cases hexec
      exact .listed

end Aes67Daemon
