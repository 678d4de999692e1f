import Aes67Daemon.Lib.Pool
import Aes67Daemon.Nmos.Activated

/-!
# Activations in several threads

Every request to the channel mapping API is served by a thread of its own, and an
activation that is due is applied by the worker.  A round of the second pass reads the
record of a stream, changes one channel of it and adds the stream again; the session
manager takes its lock for each of these calls, and nothing keeps another thread out
between them.  What that thread has written to the same stream is then overwritten.

The first pass is one step: it looks only at which streams there are and how many
channels they have, and no activation changes that.  What the threads have written and
were asked to write is recorded for the statements; the code keeps no such record.

## Main definitions

* `MapOp`, `MapOp.exec` — what a thread does under one lock.
* `MapThreads`, `MapThreads.step` — the threads.
* `MapThreads.Fresh` — a stream is added again as it was read, with one channel changed.
* `MapThreads.NoneLost`, `MapThreads.none_lost` — no assignment is lost.
-/
namespace Aes67Daemon

open Text CmHost

/-- What a thread that applies an activation does next. -/
inductive MapOp
  /-- The top of the loop: `get_source`, or `get_sink` for an ALSA output. -/
  | item (w : Is08WorkItem)
  /-- `get_sink`, with the record of the source in hand. -/
  | getSink (w : Is08WorkItem) (src : StreamSource)
  /-- `add_source` of the record with the ALSA channel `c` in it. -/
  | addSource (w : Is08WorkItem) (src : StreamSource) (c : UInt8)
  /-- `add_sink` of the record with the ALSA output in it. -/
  | addSink (w : Is08WorkItem) (sink : StreamSink)
  deriving DecidableEq

namespace MapOp

/-- The item an operation is part of. -/
def work : MapOp → Is08WorkItem
  | item w | getSink w _ | addSource w _ _ | addSink w _ => w

/-- What an operation asks of the session manager to change. -/
def request (env : Env) : MapOp → Option Request
  | item _ | getSink _ _ => none
  | addSource w src c =>
    (setChannel? src.map w.outputChannel c).map fun map => .addSource env { src with map := map }
  | addSink w sink =>
    (setChannel? sink.map w.inputChannel w.outputId).map fun map => .addSink env { sink with map := map }

/-- Execute an operation: what is done next in its place, and the state. -/
def exec (host : Host) (env : Env) (op : MapOp) (s : SessionManager) :
    Option (List MapOp × SessionManager) :=
  match op with
  | item w =>
    if w.isSenderOutput then
      match s.getSource w.outputId with
      | none => some ([], s)
      | some src =>
        if w.clear then some ([], s)
        else if w.inputIsSink then some ([getSink w src], s)
        else some ([addSource w src w.inputId], s)
    else if w.clear then some ([], s)
    else
      match s.getSink w.inputId with
      | none => some ([], s)
      | some sink => some ([addSink w sink], s)
  | getSink w src =>
    match s.getSink w.inputId with
    | none => some ([], s)
    | some sink => (channelAt? sink.map w.inputChannel).map fun c => ([addSource w src c], s)
  | addSource .. | addSink .. =>
    (op.request env).bind fun r => (s.serve host r).map fun served => ([], served.2)

/-- What an operation writes: the item and the ALSA channel. -/
def writes : MapOp → Option (Is08WorkItem × UInt8)
  | item _ | getSink _ _ => none
  | addSource w _ c => some (w, c)
  | addSink w _ => some (w, w.outputId)

/-- The map of the stream as it was read. -/
def snapshot : MapOp → List UInt8
  | item _ | getSink _ _ => []
  | addSource _ src _ => src.map
  | addSink _ sink => sink.map

end MapOp

/-- The state that the threads share, and what was asked and done. -/
structure MapState where
  sm : SessionManager
  /-- The items with an input each thread was asked to apply. -/
  asked : ℕ → List Is08WorkItem := fun _ => []
  /-- What each thread has written. -/
  written : ℕ → List (Is08WorkItem × UInt8) := fun _ => []

/-- The threads. -/
abbrev MapThreads := Pool MapState MapOp

/-- What happens next. -/
inductive MapLabel
  /-- An idle thread goes through the first pass of an action. -/
  | accept (t : ℕ) (actionJson : Text)
  /-- A thread executes its next operation. -/
  | turn (t : ℕ) (env : Env)

namespace MapThreads

/-- The threads when the server starts. -/
def boot (sm : SessionManager) : MapThreads := { shared := { sm := sm }, ops := fun _ => [] }

/-- The items of an action, if it is accepted. -/
def accepted (h : CmHost) (readJson : Text → Option Ptree) (s : SessionManager) (actionJson : Text) :
    List Is08WorkItem :=
  ((readJson actionJson).bind fun action => (h.resolveAction s action).toOption).elim [] work

/-- The items that have an input. -/
def requested (work : List Is08WorkItem) : List Is08WorkItem := work.filter fun w => !w.clear

/-- A thread has gone through the first pass. -/
def accept (t : ℕ) (work : List Is08WorkItem) (c : MapThreads) : MapThreads :=
  { shared := { c.shared with asked := Function.update c.shared.asked t (c.shared.asked t ++ requested work) }
    ops := Function.update c.ops t (work.map .item) }

/-- A thread has executed `op`. -/
def done (t : ℕ) (op : MapOp) (rest next : List MapOp) (s : SessionManager) (c : MapThreads) : MapThreads :=
  { shared :=
      { c.shared with
        sm := s
        written := Function.update c.shared.written t (c.shared.written t ++ op.writes.toList) }
    ops := Function.update c.ops t (next ++ rest) }

/-- One step. -/
def step (h : CmHost) (readJson : Text → Option Ptree) (c : MapThreads) : MapLabel → Option MapThreads
  | .accept t actionJson =>
    match c.ops t with
    | [] => some (c.accept t (accepted h readJson c.shared.sm actionJson))
    | _ :: _ => none
  | .turn t env =>
    match c.ops t with
    | [] => none
    | op :: rest => (op.exec h.host env c.shared.sm).map fun r => c.done t op rest r.1 r.2

/-! ## Statements -/

/-- The ALSA channel that was last written to a channel. -/
def lastWritten (written : List (Is08WorkItem × UInt8)) (d : StreamChannel) : Option UInt8 :=
  (written.reverse.find? fun x => x.1.assign.target = d).map Prod.snd

/-- No assignment of a thread is lost. -/
structure NoneLost (c : MapThreads) : Prop where
  /-- The maps hold what each thread last wrote. -/
  there : ∀ t d v, lastWritten (c.shared.written t) d = some v → c.shared.sm.alsaAt d = some v
  /-- A thread that is done has written what it was asked to. -/
  complete : ∀ t, c.ops t = [] → (c.shared.written t).map Prod.fst = c.shared.asked t
  /-- What was requested with an ALSA channel was written with it. -/
  asRequested : ∀ t, ∀ x ∈ c.shared.written t, ∀ a, x.1.assign.operand = .const a → a = some x.2

/-- No channel is changed by two threads; and when a thread adds a stream again, its map
is still the one that was read, and the outside world lets the stream be added. -/
def Fresh (h : CmHost) (readJson : Text → Option Ptree) (c : MapThreads) : MapLabel → Prop
  | .accept t actionJson => ∀ w ∈ requested (accepted h readJson c.shared.sm actionJson),
      ∀ t', t' ≠ t → ∀ v ∈ c.shared.asked t', v.assign.target ≠ w.assign.target
  | .turn t env => ∀ op rest r, c.ops t = op :: rest → op.request env = some r →
      c.shared.sm.channels r.kind r.id = some op.snapshot ∧ r.Granted h.host c.shared.sm

end MapThreads

/-! ## Operations -/

namespace MapOp
variable {host : Host} {env : Env} {s s' : SessionManager} {op : MapOp} {next : List MapOp}

/-- What is known of an operation that is part of an accepted activation. -/
def Ready (s : SessionManager) (op : MapOp) : Prop :=
  s.Ready op.work ∧
  match op with
  | item _ => True
  | getSink w src => w.clear = false ∧ w.isSenderOutput = true ∧ w.inputIsSink = true ∧ src.id = w.outputId
  | addSource w src c => w.clear = false ∧ w.isSenderOutput = true ∧ src.id = w.outputId ∧
      (w.inputIsSink = false → c = w.inputId)
  | addSink w sink => w.clear = false ∧ w.isSenderOutput = false ∧ sink.id = w.inputId

/-- An operation that reads: the state stays, and what is done next is part of the same
item. -/
structure Reads (env : Env) (s s' : SessionManager) (op : MapOp) (next : List MapOp) : Prop where
  writes : op.writes = none
  stays : s' = s
  requested : MapThreads.requested (next.map work) = MapThreads.requested [op.work]
  ready : ∀ op' ∈ next, op'.Ready s

/-- An operation that adds a stream again. -/
structure Adds (host : Host) (env : Env) (s s' : SessionManager) (op : MapOp) (next : List MapOp)
    (r : Request) (c : UInt8) : Prop where
  last : next = []
  clear : op.work.clear = false
  writes : op.writes = some (op.work, c)
  request : op.request env = some r
  adds : r.removes = false
  target : op.work.assign.target = ⟨r.kind, r.id, op.work.assign.target.index⟩
  lt : op.work.assign.target.index < op.snapshot.length
  channels : r.channels = op.snapshot.set op.work.assign.target.index c
  operand : ∀ a, op.work.assign.operand = .const a → a = some c
  served : ∃ ret, s.serve host r = some (ret, s')

theorem getSource_of_ready {w : Is08WorkItem} (H : s.Ready w) (hclear : w.clear = false)
    (hsender : w.isSenderOutput = true) : ∃ src, s.getSource w.outputId = some src ∧ src.id = w.outputId := by
  obtain ⟨map, hmap, -⟩ := SessionManager.alsaAt_isSome (H hclear).2.2.1
  rw [Is08WorkItem.target_source hsender] at hmap
  obtain ⟨src, hsrc, -⟩ := Option.map_eq_some_iff.mp hmap
  refine ⟨src, hsrc, ?_⟩
  obtain ⟨info, -, rfl⟩ := Option.map_eq_some_iff.mp hsrc
  rfl

theorem getSink_of_ready {w : Is08WorkItem} (H : s.Ready w) (hclear : w.clear = false)
    (hsink : w.isSenderOutput = false ∨ w.inputIsSink = true) :
    ∃ sink, s.getSink w.inputId = some sink ∧ sink.id = w.inputId := by
  have hchannels : ∃ map, s.channels .sink w.inputId = some map := by
    cases hsender : w.isSenderOutput with
    | true =>
        have hoperand := (H hclear).2.2.2
        rw [Is08WorkItem.operand_sink hsender (hsink.resolve_left (by simp [hsender])), Operand.eval_cell] at hoperand
        obtain ⟨map, hmap, -⟩ := SessionManager.alsaAt_isSome hoperand
        exact ⟨map, hmap⟩
    | false =>
        obtain ⟨map, hmap, -⟩ := SessionManager.alsaAt_isSome (H hclear).2.2.1
        rw [Is08WorkItem.target_sink hsender] at hmap
        exact ⟨map, hmap⟩
  obtain ⟨map, hmap⟩ := hchannels
  obtain ⟨sink, hget, -⟩ := Option.map_eq_some_iff.mp hmap
  refine ⟨sink, hget, ?_⟩
  obtain ⟨info, -, rfl⟩ := Option.map_eq_some_iff.mp hget
  rfl

theorem exec_item {w : Is08WorkItem} (hready : s.Ready w) (h : (item w).exec host env s = some (next, s')) :
    Reads env s s' (item w) next := by
  cases hclear : w.clear with
  | true =>
      have hdone : (item w).exec host env s = some ([], s) := by
        simp only [exec, hclear, if_true]
        split
        · split <;> rfl
        · rfl
      rw [hdone] at h
      cases h
      exact ⟨rfl, rfl, by simp [MapThreads.requested, work, hclear], by simp⟩
  | false =>
      cases hsender : w.isSenderOutput with
      | true =>
          obtain ⟨src, hsrc, hid⟩ := getSource_of_ready hready hclear hsender
          cases hsink : w.inputIsSink with
          | true =>
              simp only [exec, hsender, hsrc, hclear, hsink, if_true, Bool.false_eq_true, if_false] at h
              cases h
              refine ⟨rfl, rfl, rfl, fun op' hop' => ?_⟩
              rw [List.mem_singleton.mp hop']
              exact ⟨hready, hclear, hsender, hsink, hid⟩
          | false =>
              simp only [exec, hsender, hsrc, hclear, hsink, if_true, Bool.false_eq_true, if_false] at h
              cases h
              refine ⟨rfl, rfl, rfl, fun op' hop' => ?_⟩
              rw [List.mem_singleton.mp hop']
              exact ⟨hready, hclear, hsender, hid, fun _ => rfl⟩
      | false =>
          obtain ⟨sink, hget, hid⟩ := getSink_of_ready hready hclear (.inl hsender)
          simp only [exec, hsender, hget, hclear, Bool.false_eq_true, if_false] at h
          cases h
          refine ⟨rfl, rfl, rfl, fun op' hop' => ?_⟩
          rw [List.mem_singleton.mp hop']
          exact ⟨hready, hclear, hsender, hid⟩

/-- **What an operation does**: it reads, or it adds a stream again. -/
theorem exec_cases (H : op.Ready s) (h : op.exec host env s = some (next, s')) :
    Reads env s s' op next ∨ ∃ r c, Adds host env s s' op next r c := by
  obtain ⟨hready, hop⟩ := H
  cases op with
  | item w => exact .inl (exec_item hready h)
  | getSink w src =>
      left
      obtain ⟨hclear, hsender, hsink, hid⟩ := hop
      obtain ⟨sink, hget, -⟩ := getSink_of_ready (w := w) hready hclear (.inr hsink)
      simp only [exec, hget] at h
      obtain ⟨c, -, heq⟩ := Option.map_eq_some_iff.mp h
      cases heq
      refine ⟨rfl, rfl, rfl, fun op' hop' => ?_⟩
      rw [List.mem_singleton.mp hop']
      refine ⟨hready, hclear, hsender, hid, fun hno => ?_⟩
      rw [hsink] at hno
      cases hno
  | addSource w src c =>
      right
      obtain ⟨hclear, hsender, hid, hconst⟩ := hop
      obtain ⟨r, hr, h⟩ := Option.bind_eq_some_iff.mp h
      obtain ⟨⟨ret, t⟩, hserve, heq⟩ := Option.map_eq_some_iff.mp h
      cases heq
      obtain ⟨map, hset, rfl⟩ := Option.map_eq_some_iff.mp hr
      obtain ⟨-, hlt, rfl⟩ := SessionManager.setChannel?_eq_some.mp hset
      have htarget := Is08WorkItem.target_source hsender
      refine ⟨_, c, rfl, hclear, rfl, hr, rfl, ?_, ?_, ?_, fun a ha => ?_, ⟨ret, hserve⟩⟩
      · exact htarget.trans (congrArg₂ (StreamChannel.mk .source) hid.symm (congrArg StreamChannel.index htarget).symm)
      · exact (congrArg StreamChannel.index htarget).symm ▸ hlt
      · exact congrArg (src.map.set · c) (congrArg StreamChannel.index htarget).symm
      · cases hsink : w.inputIsSink with
        | true =>
            have hcell := Is08WorkItem.operand_sink hsender hsink
            rw [show (addSource w src c).work = w from rfl, hcell] at ha
            cases ha
        | false =>
            have halsa := Is08WorkItem.operand_alsa hsender hsink
            rw [show (addSource w src c).work = w from rfl, halsa] at ha
            cases ha
            rw [hconst hsink]
  | addSink w sink =>
      right
      obtain ⟨hclear, hsender, hid⟩ := hop
      obtain ⟨r, hr, h⟩ := Option.bind_eq_some_iff.mp h
      obtain ⟨⟨ret, t⟩, hserve, heq⟩ := Option.map_eq_some_iff.mp h
      cases heq
      obtain ⟨map, hset, rfl⟩ := Option.map_eq_some_iff.mp hr
      obtain ⟨-, hlt, rfl⟩ := SessionManager.setChannel?_eq_some.mp hset
      have htarget := Is08WorkItem.target_sink hsender
      refine ⟨_, w.outputId, rfl, hclear, rfl, hr, rfl, ?_, ?_, ?_, fun a ha => ?_, ⟨ret, hserve⟩⟩
      · exact htarget.trans (congrArg₂ (StreamChannel.mk .sink) hid.symm (congrArg StreamChannel.index htarget).symm)
      · exact (congrArg StreamChannel.index htarget).symm ▸ hlt
      · exact congrArg (sink.map.set · w.outputId) (congrArg StreamChannel.index htarget).symm
      · rw [show (addSink w sink).work = w from rfl, Is08WorkItem.operand_output hsender] at ha
        cases ha
        rfl

end MapOp

/-! ## What a step keeps -/

namespace MapThreads
variable {h : CmHost} {readJson : Text → Option Ptree} {c c' : MapThreads} {l : MapLabel}

theorem lastWritten_append (written : List (Is08WorkItem × UInt8)) (x : Is08WorkItem × UInt8) (d : StreamChannel) :
    lastWritten (written ++ [x]) d = if x.1.assign.target = d then some x.2 else lastWritten written d := by
  rw [lastWritten, List.reverse_append, List.reverse_singleton, List.singleton_append, List.find?_cons]
  by_cases hd : x.1.assign.target = d <;> simp [hd, lastWritten]

theorem lastWritten_eq_some {written : List (Is08WorkItem × UInt8)} {d : StreamChannel} {v : UInt8}
    (hlast : lastWritten written d = some v) : ∃ x ∈ written, x.1.assign.target = d := by
  obtain ⟨x, hx, -⟩ := Option.map_eq_some_iff.mp hlast
  have htarget := List.find?_some hx
  exact ⟨x, List.mem_reverse.mp (List.mem_of_find?_eq_some hx), of_decide_eq_true htarget⟩

/-- The invariant of fresh runs. -/
structure Inv (c : MapThreads) : Prop where
  there : ∀ t d v, lastWritten (c.shared.written t) d = some v → c.shared.sm.alsaAt d = some v
  apart : ∀ t t', t ≠ t' → ∀ v ∈ c.shared.asked t, ∀ w ∈ c.shared.asked t', v.assign.target ≠ w.assign.target
  accounted : ∀ t, c.shared.asked t = (c.shared.written t).map Prod.fst ++ requested ((c.ops t).map MapOp.work)
  ready : ∀ t, ∀ op ∈ c.ops t, op.Ready c.shared.sm
  asRequested : ∀ t, ∀ x ∈ c.shared.written t, ∀ a, x.1.assign.operand = .const a → a = some x.2

theorem inv_boot (sm : SessionManager) : (boot sm).Inv where
  there _ _ _ h := by cases h
  apart _ _ _ _ h := by cases h
  accounted _ := rfl
  ready _ _ h := by cases h
  asRequested _ _ h := by cases h

theorem ready_of_mem_accepted {s : SessionManager} {actionJson : Text} {w : Is08WorkItem}
    (hw : w ∈ accepted h readJson s actionJson) : s.Ready w := by
  unfold accepted at hw
  cases hgroups : (readJson actionJson).bind fun action => (h.resolveAction s action).toOption with
  | none => rw [hgroups] at hw; cases hw
  | some groups =>
      rw [hgroups] at hw
      obtain ⟨action, -, hok⟩ := Option.bind_eq_some_iff.mp hgroups
      exact ready_of_accepted (toOption_eq_some hok) w hw

theorem requested_append (v w : List Is08WorkItem) : requested (v ++ w) = requested v ++ requested w :=
  List.filter_append ..

/-- An action that changes no channel another thread changes keeps the invariant. -/
theorem Inv.accept (H : c.Inv) {t : ℕ} {actionJson : Text} (hidle : c.ops t = [])
    (hfresh : Fresh h readJson c (.accept t actionJson)) :
    (c.accept t (accepted h readJson c.shared.sm actionJson)).Inv where
  there := H.there
  apart t₁ t₂ hne v hv w hw := by
    simp only [MapThreads.accept, Function.update_apply] at hv hw
    split at hv
    · rename_i ht
      subst ht
      rw [if_neg hne.symm] at hw
      rcases List.mem_append.mp hv with hv | hv
      · exact H.apart _ _ hne v hv w hw
      · exact fun heq => hfresh v hv t₂ hne.symm w hw heq.symm
    · split at hw
      · rename_i ht
        subst ht
        rcases List.mem_append.mp hw with hw | hw
        · exact H.apart _ _ hne v hv w hw
        · exact hfresh w hw t₁ hne v hv
      · exact H.apart _ _ hne v hv w hw
  accounted t' := by
    simp only [MapThreads.accept, Function.update_apply]
    split
    · rename_i ht
      subst ht
      have hdone := H.accounted t'
      rw [hidle] at hdone
      have hwork : MapOp.work ∘ MapOp.item = id := rfl
      rw [hdone, List.map_map, hwork, List.map_id]
      simp [requested]
    · exact H.accounted t'
  ready t' op hop := by
    simp only [MapThreads.accept, Function.update_apply] at hop
    split at hop
    · obtain ⟨w, hw, rfl⟩ := List.mem_map.mp hop
      exact ⟨ready_of_mem_accepted hw, trivial⟩
    · exact H.ready t' op hop
  asRequested := H.asRequested

/-- An operation that reads keeps the invariant. -/
theorem Inv.reads (H : c.Inv) {t : ℕ} {env : Env} {op : MapOp} {rest next : List MapOp} {s' : SessionManager}
    (hops : c.ops t = op :: rest) (hreads : MapOp.Reads env c.shared.sm s' op next) :
    (c.done t op rest next s').Inv := by
  obtain ⟨hwrites, rfl, hrequested, hready⟩ := hreads
  have hwritten : Function.update c.shared.written t (c.shared.written t ++ op.writes.toList) = c.shared.written := by
    rw [hwrites, Option.toList_none, List.append_nil, Function.update_eq_self]
  exact
    { there := by simpa only [done, hwritten] using H.there
      apart := H.apart
      accounted := by
        intro t'
        simp only [done, hwritten, Function.update_apply]
        split
        · rename_i ht
          subst ht
          rw [H.accounted t', hops, List.map_append, requested_append, hrequested, ← requested_append]
          rfl
        · exact H.accounted t'
      ready := by
        intro t' op' hop'
        simp only [done, Function.update_apply] at hop'
        split at hop'
        · rcases List.mem_append.mp hop' with hop' | hop'
          · exact hready op' hop'
          · exact H.ready t op' (by rw [hops]; exact List.mem_cons_of_mem _ hop')
        · exact H.ready t' op' hop'
      asRequested := by simpa only [done, hwritten] using H.asRequested }

/-- **What adding a stream again does**, if it was added as it was read. -/
theorem alsaAt_adds {s s' : SessionManager} {host : Host} {env : Env} {op : MapOp} {next : List MapOp} {r : Request}
    {v : UInt8} (hadds : MapOp.Adds host env s s' op next r v) (hsnapshot : s.channels r.kind r.id = some op.snapshot)
    (hgranted : r.Granted host s) :
    s'.alsaAt = Function.update s.alsaAt op.work.assign.target (some v) ∧
      ∀ d, (s'.alsaAt d).isSome = (s.alsaAt d).isSome := by
  have hold := hsnapshot
  rw [SessionManager.channels_eq, Option.map_eq_some_iff] at hold
  obtain ⟨old, hold, -⟩ := hold
  obtain ⟨s'', hok⟩ := (SessionManager.serve_ok_iff hadds.adds hold).mpr hgranted
  obtain ⟨ret, hserve⟩ := hadds.served
  rw [hok, Option.some.injEq, Prod.mk.injEq] at hserve
  obtain ⟨-, rfl⟩ := hserve
  have hafter := SessionManager.alsaAt_serve_set hadds.adds hsnapshot hadds.lt hadds.channels hok
  rw [← hadds.target] at hafter
  refine ⟨hafter, fun d => ?_⟩
  rw [hafter, Function.update_apply]
  split
  · rename_i hd
    rw [hd, SessionManager.alsaAt, hadds.target, hsnapshot, Option.bind_some, List.getElem?_eq_getElem hadds.lt]
    rfl
  · rfl

/-- Adding a stream again as it was read, with one channel changed, keeps the invariant. -/
theorem Inv.adds (H : c.Inv) {t : ℕ} {host : Host} {env : Env} {op : MapOp} {rest next : List MapOp}
    {s' : SessionManager} {r : Request} {v : UInt8} (hops : c.ops t = op :: rest)
    (hadds : MapOp.Adds host env c.shared.sm s' op next r v)
    (hsnapshot : c.shared.sm.channels r.kind r.id = some op.snapshot) (hgranted : r.Granted host c.shared.sm) :
    (c.done t op rest next s').Inv := by
  obtain ⟨hafter, hsome⟩ := alsaAt_adds hadds hsnapshot hgranted
  have hasked : op.work ∈ c.shared.asked t := by
    rw [H.accounted t, hops]
    simp [requested, hadds.clear]
  have hwritten : op.writes.toList = [(op.work, v)] := by rw [hadds.writes]; rfl
  exact
    { there := by
        intro t' d v' hlast
        simp only [done, hwritten, Function.update_apply] at hlast
        simp only [done, hafter, Function.update_apply]
        split at hlast
        · rename_i ht
          subst ht
          rw [lastWritten_append] at hlast
          split at hlast
          · rename_i hd
            rw [if_pos hd.symm]
            exact hlast
          · rename_i hd
            rw [if_neg fun heq => hd heq.symm]
            exact H.there _ _ _ hlast
        · rename_i ht
          have hd : d ≠ op.work.assign.target := by
            obtain ⟨x, hx, rfl⟩ := lastWritten_eq_some hlast
            have hmem : x.1 ∈ c.shared.asked t' := by
              rw [H.accounted t']
              exact List.mem_append_left _ (List.mem_map_of_mem hx)
            exact H.apart t' t ht _ hmem _ hasked
          rw [if_neg hd]
          exact H.there _ _ _ hlast
      apart := H.apart
      accounted := by
        intro t'
        simp only [done, hwritten, Function.update_apply, hadds.last, List.nil_append]
        split
        · rename_i ht
          subst ht
          rw [H.accounted t', hops]
          simp [requested, hadds.clear]
        · exact H.accounted t'
      ready := by
        intro t' op' hop'
        have hmem : op' ∈ c.ops t' := by
          simp only [done, hadds.last, List.nil_append, Function.update_apply] at hop'
          split at hop'
          · rename_i ht
            rw [ht, hops]
            exact List.mem_cons_of_mem _ hop'
          · exact hop'
        exact ⟨(H.ready t' op' hmem).1.of_isSome hsome, (H.ready t' op' hmem).2⟩
      asRequested := by
        intro t' x hx a ha
        simp only [done, hwritten, Function.update_apply] at hx
        split at hx
        · rcases List.mem_append.mp hx with hx | hx
          · exact H.asRequested t x hx a ha
          · rw [List.mem_singleton.mp hx] at ha ⊢
            exact hadds.operand a ha
        · exact H.asRequested t' x hx a ha }

theorem inv_step (hinv : c.Inv) (hfresh : Fresh h readJson c l) (hstep : step h readJson c l = some c') :
    c'.Inv := by
  cases l with
  | accept t actionJson =>
      cases hops : c.ops t with
      | nil =>
          simp only [step, hops] at hstep
          cases hstep
          exact hinv.accept hops hfresh
      | cons op rest =>
          simp only [step, hops] at hstep
          cases hstep
  | turn t env =>
      cases hops : c.ops t with
      | nil =>
          simp only [step, hops] at hstep
          cases hstep
      | cons op rest =>
          simp only [step, hops] at hstep
          obtain ⟨⟨next, s'⟩, hexec, rfl⟩ := Option.map_eq_some_iff.mp hstep
          have hready := hinv.ready t op (by rw [hops]; exact List.mem_cons_self)
          rcases MapOp.exec_cases hready hexec with hreads | ⟨r, v, hadds⟩
          · exact hinv.reads hops hreads
          · obtain ⟨hsnapshot, hgranted⟩ := hfresh op rest r hops hadds.request
            exact hinv.adds hops hadds hsnapshot hgranted

theorem noneLost_of_inv (H : c.Inv) : c.NoneLost where
  there := H.there
  complete t hidle := by
    rw [H.accounted t, hidle]
    simp [requested]
  asRequested := H.asRequested

/-- **No update is lost** in a run in which no channel is changed by two threads, and
every stream is added again as it was read, with one channel changed. -/
theorem none_lost {h : CmHost} {readJson : Text → Option Ptree} {sm : SessionManager} {labels : List MapLabel}
    {c : MapThreads} (hfresh : Along (step h readJson) (Fresh h readJson) (boot sm) labels)
    (hrun : run (step h readJson) (boot sm) labels = some c) : c.NoneLost :=
  noneLost_of_inv (run_keeps (fun _ _ _ hinv hfresh hstep => inv_step hinv hfresh hstep) (inv_boot sm) hfresh hrun)

/-! ## Sample runs -/

/-- The item that puts a channel of source 1 on an ALSA channel. -/
def channelItem (channel : ℕ) (alsaChannel : UInt8) : Is08WorkItem :=
  { alsaItem {} 1 alsaChannel with outputChannel := channel }

/-- A source, before any activation. -/
def oneSource : Option SessionManager :=
  run (SessionManager.step {}) (.create {})
    [.addSource (.answering none (.ok 7) (.error (.driver 1))) (stereoSource 1 "a".toList)]

/-- Another one besides. -/
def twoSources : Option SessionManager :=
  oneSource.bind fun sm => sm.step {} (.addSource (.answering none (.ok 8) (.error (.driver 1))) (stereoSource 2 "b".toList))

/-- Whether a step of one of the threads below `n` is fresh, by what the session manager answers, where
no other thread was asked anything. -/
def freshBelow (h : CmHost) (readJson : Text → Option Ptree) (n : ℕ) (c : MapThreads) : MapLabel → Bool
  | .accept t actionJson => decide (t < n) &&
      (requested (accepted h readJson c.shared.sm actionJson)).all fun w => (List.range n).all fun t' =>
        t' = t || (c.shared.asked t').all fun v => v.assign.target ≠ w.assign.target
  | .turn t env =>
    match (c.ops t).head?.bind fun op => (op.request env).map fun r => (op, r) with
    | none => true
    | some (op, r) => c.shared.sm.channels r.kind r.id = some op.snapshot ∧ r.removes = false ∧
        (c.shared.sm.serve h.host r).map Prod.fst = some .ok

theorem fresh_of_freshBelow {n : ℕ} (hasked : ∀ t, n ≤ t → c.shared.asked t = []) (hl : freshBelow h readJson n c l = true) :
    Fresh h readJson c l := by
  cases l with
  | accept t actionJson =>
      obtain ⟨-, hall⟩ := Bool.and_eq_true_iff.mp hl
      intro w hw t' hne v hv
      rcases Nat.lt_or_ge t' n with hlt | hge
      · have hthread := List.all_eq_true.mp (List.all_eq_true.mp hall w hw) t' (List.mem_range.mpr hlt)
        rw [Bool.or_eq_true, decide_eq_true_eq] at hthread
        exact of_decide_eq_true (List.all_eq_true.mp (hthread.resolve_left hne) v hv)
      · rw [hasked t' hge] at hv
        cases hv
  | turn t env =>
      intro op rest r hops hrequest
      simp only [freshBelow, hops, List.head?_cons, Option.bind_some, hrequest, Option.map_some,
        decide_eq_true_eq] at hl
      obtain ⟨hsnapshot, hadds, hok⟩ := hl
      have hold := hsnapshot
      rw [SessionManager.channels_eq, Option.map_eq_some_iff] at hold
      obtain ⟨old, hold, -⟩ := hold
      obtain ⟨⟨_, s'⟩, hserve, rfl⟩ := Option.map_eq_some_iff.mp hok
      exact ⟨hsnapshot, (SessionManager.serve_ok_iff hadds hold).mp ⟨s', hserve⟩⟩

/-- A step of a thread below `n` asks nothing of the others. -/
theorem asked_of_freshBelow {n : ℕ} (hasked : ∀ t, n ≤ t → c.shared.asked t = []) (hl : freshBelow h readJson n c l = true)
    (hstep : step h readJson c l = some c') : ∀ t, n ≤ t → c'.shared.asked t = [] := by
  intro t ht
  cases l with
  | accept t' actionJson =>
      have hlt : t' < n := of_decide_eq_true (Bool.and_eq_true_iff.mp hl).1
      cases hops : c.ops t' with
      | nil =>
          simp only [step, hops, Option.some.injEq] at hstep
          rw [← hstep]
          exact (Function.update_of_ne (by omega) _ _).trans (hasked t ht)
      | cons op rest =>
          simp only [step, hops] at hstep
          cases hstep
  | turn t' env =>
      cases hops : c.ops t' with
      | nil =>
          simp only [step, hops] at hstep
          cases hstep
      | cons op rest =>
          simp only [step, hops] at hstep
          obtain ⟨_, -, rfl⟩ := Option.map_eq_some_iff.mp hstep
          exact hasked t ht

/-- A run of threads below `n` is fresh when its steps are. -/
theorem along_fresh {n : ℕ} {labels : List MapLabel} (hasked : ∀ t, n ≤ t → c.shared.asked t = [])
    (hrun : Along (step h readJson) (fun c l => freshBelow h readJson n c l = true) c labels) :
    Along (step h readJson) (Fresh h readJson) c labels := by
  induction labels generalizing c with
  | nil => trivial
  | cons l labels ih =>
      obtain ⟨hl, hrest⟩ := along_cons.mp hrun
      refine along_cons.mpr ⟨fresh_of_freshBelow hasked hl, fun c' hc' => ?_⟩
      exact ih (asked_of_freshBelow hasked hl hc') (hrest c' hc')

/-- Two threads that read and write different sources by turns; then one of them changes the source of
the other, which is done with it. -/
def byTurns : List MapLabel :=
  [.accept 0 (actionText {} (channelItem 0 5)), .accept 1 (actionText {} (alsaItem {} 2 6)), .turn 0 {}, .turn 1 {},
    .turn 0 (.answering none (.ok 9) (.error (.driver 1))), .turn 1 (.answering none (.ok 10) (.error (.driver 1))),
    .accept 1 (actionText {} (channelItem 1 7)), .turn 1 {}, .turn 1 (.answering none (.ok 11) (.error (.driver 1)))]

/-- All of their assignments are there. -/
theorem none_lost_byTurns : ∃ sm c, twoSources = some sm ∧ run (step {} Json.read) (boot sm) byTurns = some c ∧
    c.shared.written 0 = [(channelItem 0 5, 5)] ∧
    c.shared.written 1 = [(alsaItem {} 2 6, 6), (channelItem 1 7, 7)] ∧
    [⟨.source, 1, 0⟩, ⟨.source, 1, 1⟩, ⟨.source, 2, 0⟩].map c.shared.sm.alsaAt = [some 5, some 7, some 6] ∧
    c.NoneLost := by
  have heval : (twoSources.bind fun sm => run (step {} Json.read) (boot sm) byTurns).map (fun c =>
      (c.shared.written 0, c.shared.written 1,
        [⟨.source, 1, 0⟩, ⟨.source, 1, 1⟩, ⟨.source, 2, 0⟩].map c.shared.sm.alsaAt)) =
      some ([(channelItem 0 5, 5)], [(alsaItem {} 2 6, 6), (channelItem 1 7, 7)], [some 5, some 7, some 6]) := by
    decide +kernel
  have hfresh : twoSources.map (fun sm => decide (Along (step {} Json.read)
      (fun c l => freshBelow {} Json.read 2 c l = true) (boot sm) byTurns)) = some true := by decide +kernel
  obtain ⟨c, hrun, heq⟩ := Option.map_eq_some_iff.mp heval
  obtain ⟨sm, hsm, hrun⟩ := Option.bind_eq_some_iff.mp hrun
  simp only [Prod.mk.injEq] at heq
  obtain ⟨hwritten0, hwritten1, hat⟩ := heq
  rw [hsm, Option.map_some, Option.some.injEq] at hfresh
  exact ⟨sm, c, hsm, hrun, hwritten0, hwritten1, hat,
    none_lost (along_fresh (fun _ _ => rfl) (of_decide_eq_true hfresh)) hrun⟩

/-- Two threads change different channels of one source: both have read it before either
writes, and the first assignment is lost. -/
theorem update_lost : ∃ sm c, oneSource = some sm ∧
    run (step {} Json.read) (boot sm) [.accept 0 (actionText {} (channelItem 0 5)),
      .accept 1 (actionText {} (channelItem 1 6)), .turn 0 {}, .turn 1 {},
      .turn 0 (.answering none (.ok 8) (.ok 9)), .turn 1 (.answering none (.ok 10) (.ok 11))] = some c ∧
    c.ops 0 = [] ∧ c.ops 1 = [] ∧ c.shared.asked 0 = [channelItem 0 5] ∧ c.shared.asked 1 = [channelItem 1 6] ∧
    c.shared.sm.alsaAt ⟨.source, 1, 0⟩ = some 0 ∧ ¬ c.NoneLost := by
  have heval : (oneSource.bind fun sm => run (step {} Json.read) (boot sm)
      [.accept 0 (actionText {} (channelItem 0 5)), .accept 1 (actionText {} (channelItem 1 6)),
        .turn 0 {}, .turn 1 {}, .turn 0 (.answering none (.ok 8) (.ok 9)),
        .turn 1 (.answering none (.ok 10) (.ok 11))]).map
      (fun c => ((c.ops 0, c.ops 1), (c.shared.asked 0, c.shared.asked 1),
        lastWritten (c.shared.written 0) ⟨.source, 1, 0⟩, c.shared.sm.alsaAt ⟨.source, 1, 0⟩)) =
      some (([], []), ([channelItem 0 5], [channelItem 1 6]), some 5, some 0) := by decide +kernel
  obtain ⟨c, hrun, heq⟩ := Option.map_eq_some_iff.mp heval
  obtain ⟨sm, hsm, hrun⟩ := Option.bind_eq_some_iff.mp hrun
  simp only [Prod.mk.injEq] at heq
  obtain ⟨⟨hidle0, hidle1⟩, ⟨hasked0, hasked1⟩, hwritten, hat⟩ := heq
  refine ⟨sm, c, hsm, hrun, hidle0, hidle1, hasked0, hasked1, hat, fun H => ?_⟩
  have hthere := (H.there 0 _ _ hwritten).symm.trans hat
  cases hthere

end MapThreads
end Aes67Daemon
