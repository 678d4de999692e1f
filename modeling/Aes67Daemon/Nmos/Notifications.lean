import Aes67Daemon.Lib.Diff
import Aes67Daemon.Nmos.Introspection
import Aes67Daemon.Session.SinkUpdate

/-!
# Notifications of the control protocol

`is12_notify_worker` works the properties of every monitor out once a second and queues
what has changed since the second before to the sessions that subscribe to the monitor.
Where the second before had not listed the monitor there is nothing to compare with, and
nothing is queued: who keeps a copy of the properties misses what changed while a stream
was removed and added again, and keeps the old values where the properties come out
empty.

The worker copies the list of the monitors, works their properties out one by one, and
then notifies.  Other threads run between these steps, but not while it notifies: what
they change then is read in the next round, and who stops to subscribe then was not
subscribed all the time.  A message is answered in one step.

## Main definitions

* `Is12`, `Is12Label`, `Is12.step` — the control protocol and the rest of the daemon.
* `Tick` — what a round of the worker has listed and queued.
* `Reproduces` — the notifications lead from the properties of one tick to those of a
  later one.
* `Is12.Gapless` — a step that does not leave a subscriber behind.
* `Is12.reproduces_iff` — the notifications of a run reproduce the properties exactly
  when every step is gapless.
-/
namespace Aes67Daemon

open Text

/-! ## The worker -/

/-- The properties that are not as they were; none where nothing is known. -/
def changedProps (prev : Option (List NcPropEntry)) (props : List NcPropEntry) : List NcPropEntry :=
  match prev with
  | none => []
  | some prev =>
    props.filter fun p =>
      match prev.find? fun pp => pp.level = p.level ∧ pp.index = p.index with
      | none => true
      | some pp => pp.jsonValue ≠ p.jsonValue

/-- A session is notified, if it subscribes to the object. -/
def Is12Session.notified (oid : ℤ) (props : List NcPropEntry) (session : Is12Session) : Is12Session :=
  if session.subscribed.contains oid then
    { session with outbox := session.outbox ++ props.map (.notification oid) }
  else session

/-- `current`: the objects of a round and their properties. -/
abbrev CurrentProps := List (ℤ × List NcPropEntry)

/-- `last_known`. -/
abbrev LastKnown := SortedMap ℤ (List NcPropEntry)

/-- The sessions are notified of one object after another. -/
def notifySessions : CurrentProps → SortedMap ℕ Is12Session → LastKnown → SortedMap ℕ Is12Session × LastKnown
  | [], sessions, lastKnown => (sessions, lastKnown)
  | (oid, props) :: current, sessions, lastKnown =>
    notifySessions current
      (sessions.mapVal fun _ session => session.notified oid (changedProps (lastKnown.find? oid) props))
      (lastKnown.insert oid props)

/-- What the worker has copied, and what it has worked out of it. -/
structure NotifyWork where
  left : List (Kind × UInt8)
  current : CurrentProps := []

/-- A round of the worker: what it lists, and the sessions before and after it. -/
structure Tick where
  current : CurrentProps
  before : SortedMap ℕ Is12Session
  after : SortedMap ℕ Is12Session

/-- The control protocol and the rest of the daemon. -/
structure Is12 where
  system : System
  counters : MonitorCounters := .empty
  sessions : SortedMap ℕ Is12Session := .empty
  lastKnown : LastKnown := .empty
  /-- What the worker is at, when it does not sleep. -/
  work : Option NotifyWork := none
  /-- The rounds so far. -/
  ticks : List Tick := []

/-- A step. -/
inductive Is12Label
  /-- Something else happens in the daemon. -/
  | system (l : Label)
  | connect (n : ℕ)
  | disconnect (n : ℕ)
  | message (n : ℕ) (msg : Text) (envs : ℕ → MonitorEnv)
  /-- The worker awakes and copies the list of monitors. -/
  | copy
  /-- The worker works the properties of one monitor out. -/
  | compute (e : MonitorEnv)
  /-- The worker notifies, and sleeps. -/
  | notify

namespace Is12

/-- The state when the worker starts. -/
def start (σ : System) : Is12 := { system := σ }

/-- The properties of the next monitor. -/
def computed (h : NmosHost) (e : MonitorEnv) (τ : Is12) (m : Kind × UInt8) (left : List (Kind × UInt8))
    (current : CurrentProps) : Is12 :=
  let r := τ.system.nmos.ncpMonitorProps h e m.1 m.2 τ.counters
  { τ with
    counters := r.2
    work := some { left := left, current := current ++ [(monitorOid m.1 m.2, r.1)] } }

/-- The sessions are notified of what is current. -/
def notified (τ : Is12) (current : CurrentProps) : Is12 :=
  let r := notifySessions current τ.sessions τ.lastKnown
  { τ with
    sessions := r.1
    lastKnown := r.2.eraseIf fun oid _ => !current.any fun c => c.1 = oid
    work := none
    ticks := τ.ticks ++ [⟨current, τ.sessions, r.1⟩] }

/-- One step; `none` when it cannot be taken, or has no defined outcome. -/
def step (h : NmosHost) (readJson : Text → Option Ptree) (τ : Is12) : Is12Label → Option Is12
  | .system l => (τ.system.step h l).map fun σ => { τ with system := σ }
  | .connect n =>
    if τ.sessions.contains n then none else some { τ with sessions := τ.sessions.insert n {} }
  | .disconnect n => some { τ with sessions := τ.sessions.erase n }
  | .message n msg envs =>
    (τ.sessions.find? n).bind fun session =>
      (τ.system.nmos.handleIs12Message h envs readJson msg session τ.counters).map fun r =>
        { τ with sessions := τ.sessions.insert n r.1, counters := r.2 }
  | .copy =>
    match τ.work with
    | none => some { τ with work := some { left := τ.system.nmos.monitors } }
    | some _ => none
  | .compute e =>
    match τ.work with
    | some ⟨m :: left, current⟩ => some (τ.computed h e m left current)
    | _ => none
  | .notify =>
    match τ.work with
    | some ⟨[], current⟩ => some (τ.notified current)
    | _ => none

end Is12

/-! ## What a client is told -/

/-- What a client writes down of a property. -/
def NcPropEntry.entry (p : NcPropEntry) : (ℤ × ℤ) × Text := ((p.level, p.index), p.jsonValue)

/-- The value of each property. -/
def propValues (props : List NcPropEntry) : ℤ × ℤ → Option Text := Diff.values (props.map NcPropEntry.entry)

/-- The property that a notification about an object is about. -/
def Is12Message.about? (oid : ℤ) : Is12Message → Option NcPropEntry
  | notification oid' p => if oid' = oid then some p else none
  | _ => none

/-- A client has a session that subscribes to the object. -/
def Subscribed (sessions : SortedMap ℕ Is12Session) (n : ℕ) (oid : ℤ) : Prop :=
  ∃ session, sessions.find? n = some session ∧ session.subscribed.contains oid = true

namespace Tick

/-- The properties of an object, if the round lists it. -/
def props? (t : Tick) (oid : ℤ) : Option (List NcPropEntry) := Diff.values t.current oid

/-- What was queued to a client about an object. -/
def queued (n : ℕ) (oid : ℤ) (t : Tick) : List NcPropEntry :=
  match t.before.find? n, t.after.find? n with
  | some before, some after => (after.outbox.drop before.outbox.length).filterMap (Is12Message.about? oid)
  | _, _ => []

end Tick

/-- The notifications lead from the properties of one tick to those of a later one, for a
client that is subscribed all the time. -/
def Reproduces (n : ℕ) (oid : ℤ) (ticks : List Tick) : Prop :=
  ∀ first between last, first :: (between ++ [last]) <:+: ticks →
    (∀ t ∈ first :: (between ++ [last]), Subscribed t.before n oid) →
      ∀ props props', first.props? oid = some props → last.props? oid = some props' →
        Diff.overwrite (propValues props) (((between ++ [last]).flatMap (Tick.queued n oid)).map NcPropEntry.entry) =
          propValues props'

/-- A step that does not leave a subscriber behind: an object that is to be notified of was
listed in the tick before and has properties, or they are those of the last tick that
listed it. -/
def Is12.Gapless (n : ℕ) (oid : ℤ) (τ : Is12) : Is12Label → Prop
  | .notify =>
    ∀ current, τ.work = some ⟨[], current⟩ → ∀ props', Diff.values current oid = some props' →
      Subscribed τ.sessions n oid → ∀ first gap props, first :: gap <:+ τ.ticks →
        (∀ t ∈ first :: gap, Subscribed t.before n oid) → first.props? oid = some props →
          (∀ t ∈ gap, t.props? oid = none) →
            (gap = [] ∧ props' ≠ []) ∨ propValues props = propValues props'
  | _ => True

/-! ## What a step can do -/

namespace Is12
variable {h : NmosHost} {readJson : Text → Option Ptree} {τ τ' : Is12} {l : Is12Label}

/-- What a step leaves alone, and what it does to the worker. -/
inductive Moves (h : NmosHost) (τ τ' : Is12) : Is12Label → Prop
  | other {l : Is12Label} (hl : l ≠ .notify) (hsystem : τ'.system = τ.system ∨ ∃ l, τ.system.step h l = some τ'.system)
    (hlast : τ'.lastKnown = τ.lastKnown) (hwork : τ'.work = τ.work) (hticks : τ'.ticks = τ.ticks) : Moves h τ τ' l
  | copy (hwork : τ.work = none)
    (hs : τ' = { τ with work := some { left := τ.system.nmos.monitors } }) : Moves h τ τ' .copy
  | compute {e : MonitorEnv} {m : Kind × UInt8} {left : List (Kind × UInt8)} {current : CurrentProps}
    (hwork : τ.work = some ⟨m :: left, current⟩) (hs : τ' = τ.computed h e m left current) : Moves h τ τ' (.compute e)
  | notify {current : CurrentProps} (hwork : τ.work = some ⟨[], current⟩) (hs : τ' = τ.notified current) :
    Moves h τ τ' .notify

theorem moves_step (hs : τ.step h readJson l = some τ') : Moves h τ τ' l := by
  cases l with
  | system l =>
      obtain ⟨σ, hσ, rfl⟩ := Option.map_eq_some_iff.mp hs
      exact .other (by simp) (.inr ⟨l, hσ⟩) rfl rfl rfl
  | connect n =>
      rw [step] at hs
      split at hs
      · cases hs
      · obtain rfl := Option.some.inj hs
        exact .other (by simp) (.inl rfl) rfl rfl rfl
  | disconnect n =>
      obtain rfl := Option.some.inj hs
      exact .other (by simp) (.inl rfl) rfl rfl rfl
  | message n msg envs =>
      obtain ⟨session, -, hs⟩ := Option.bind_eq_some_iff.mp hs
      obtain ⟨r, -, rfl⟩ := Option.map_eq_some_iff.mp hs
      exact .other (by simp) (.inl rfl) rfl rfl rfl
  | copy =>
      rw [step] at hs
      split at hs
      · exact .copy ‹_› (Option.some.inj hs).symm
      · cases hs
  | compute e =>
      rw [step] at hs
      split at hs
      · exact .compute ‹_› (Option.some.inj hs).symm
      · cases hs
  | notify =>
      rw [step] at hs
      split at hs
      · exact .notify ‹_› (Option.some.inj hs).symm
      · cases hs

end Is12

/-! ## What a round queues -/

section
variable {sessions : SortedMap ℕ Is12Session} {lastKnown : LastKnown} {current : CurrentProps} {n : ℕ} {oid : ℤ}

/-- What is queued to a session. -/
def notes (lastKnown : LastKnown) (current : CurrentProps) (session : Is12Session) : List Is12Message :=
  current.flatMap fun c =>
    if session.subscribed.contains c.1 then (changedProps (lastKnown.find? c.1) c.2).map (.notification c.1) else []

/-- The sessions after a round. -/
theorem notifySessions_find? (hnodup : (current.map Prod.fst).Nodup) :
    (notifySessions current sessions lastKnown).1.find? n =
      (sessions.find? n).map fun session =>
        { session with outbox := session.outbox ++ notes lastKnown current session } := by
  induction current generalizing sessions lastKnown with
  | nil => cases hn : sessions.find? n <;> simp [notifySessions, notes, hn]
  | cons c current ih =>
      obtain ⟨oid, props⟩ := c
      rw [List.map_cons, List.nodup_cons] at hnodup
      have hnotes : ∀ session : Is12Session,
          notes (lastKnown.insert oid props) current session = notes lastKnown current session := by
        intro session
        refine List.flatMap_congr fun c hc => ?_
        have hne : c.1 ≠ oid := fun heq => hnodup.1 (List.mem_map.mpr ⟨c, hc, heq⟩)
        rw [SortedMap.find?_insert_of_ne _ _ hne]
      rw [notifySessions, ih hnodup.2, SortedMap.find?_mapVal, Option.map_map]
      refine congrArg (Option.map · _) (funext fun session => ?_)
      have hsub : (session.notified oid (changedProps (lastKnown.find? oid) props)).subscribed = session.subscribed := by
        rw [Is12Session.notified]
        split <;> rfl
      have hsame : notes (lastKnown.insert oid props) current
          (session.notified oid (changedProps (lastKnown.find? oid) props)) = notes lastKnown current session := by
        rw [hnotes, notes, notes, hsub]
      simp only [Function.comp_apply, hsame]
      simp only [notes, List.flatMap_cons, Is12Session.notified]
      split
      · simp only [List.append_assoc]
      · rfl

/-- What the worker knows after a round. -/
theorem notifySessions_known (hnodup : (current.map Prod.fst).Nodup) :
    (notifySessions current sessions lastKnown).2.find? oid = (Diff.values current oid).or (lastKnown.find? oid) := by
  induction current generalizing sessions lastKnown with
  | nil => rfl
  | cons c current ih =>
      rw [List.map_cons, List.nodup_cons] at hnodup
      rw [notifySessions, ih hnodup.2, SortedMap.find?_insert, Diff.values_cons]
      by_cases heq : oid = c.1
      · have hnone : Diff.values current oid = none := by
          refine Option.eq_none_iff_forall_ne_some.mpr fun props hprops => hnodup.1 ?_
          exact heq ▸ List.mem_map_of_mem ((Diff.values_eq_some hnodup.2).mp hprops)
        rw [hnone, if_pos heq, if_pos heq]
        rfl
      · rw [if_neg heq, if_neg heq]

theorem filterMap_about? {props : List NcPropEntry} {oid' : ℤ} :
    (props.map (Is12Message.notification oid')).filterMap (Is12Message.about? oid) =
      if oid' = oid then props else [] := by
  rw [List.filterMap_map]
  by_cases heq : oid' = oid
  · rw [if_pos heq]
    refine (List.filterMap_congr fun p _ => ?_).trans List.filterMap_some
    exact if_pos heq
  · rw [if_neg heq]
    exact List.filterMap_eq_nil_iff.mpr fun p _ => if_neg heq

/-- What is queued to a subscriber about an object. -/
theorem filterMap_notes {session : Is12Session} (hnodup : (current.map Prod.fst).Nodup)
    (hsub : session.subscribed.contains oid = true) :
    (notes lastKnown current session).filterMap (Is12Message.about? oid) =
      ((Diff.values current oid).map (changedProps (lastKnown.find? oid))).getD [] := by
  induction current with
  | nil => rfl
  | cons c current ih =>
      rw [List.map_cons, List.nodup_cons] at hnodup
      rw [notes, List.flatMap_cons, List.filterMap_append, ← notes, ih hnodup.2, Diff.values_cons]
      by_cases heq : oid = c.1
      · have hnone : Diff.values current oid = none := by
          refine Option.eq_none_iff_forall_ne_some.mpr fun props hprops => hnodup.1 ?_
          exact heq ▸ List.mem_map_of_mem ((Diff.values_eq_some hnodup.2).mp hprops)
        rw [← heq, if_pos hsub, filterMap_about?, if_pos rfl, hnone, if_pos rfl]
        simp
      · have hempty : (if session.subscribed.contains c.1 then
            (changedProps (lastKnown.find? c.1) c.2).map (Is12Message.notification c.1) else []).filterMap
              (Is12Message.about? oid) = [] := by
          split
          · rw [filterMap_about?, if_neg (Ne.symm heq)]
          · rfl
        rw [hempty, if_neg heq, List.nil_append]

/-- What a round queues to a subscriber. -/
theorem queued_notifySessions (hnodup : (current.map Prod.fst).Nodup) (hsub : Subscribed sessions n oid) :
    Tick.queued n oid ⟨current, sessions, (notifySessions current sessions lastKnown).1⟩ =
      ((Diff.values current oid).map (changedProps (lastKnown.find? oid))).getD [] := by
  obtain ⟨session, hsession, hsub⟩ := hsub
  rw [← filterMap_notes hnodup hsub, Tick.queued]
  simp only [notifySessions_find? hnodup, hsession, Option.map_some, List.drop_left]

end

/-! ## Properties are complete or not there at all -/

/-- The ids of the properties of a monitor. -/
def monitorPropIds : List (ℤ × ℤ) := (monitorProps "" [] false {} {}).map fun p => p.entry.1

/-- The properties of a monitor, or none. -/
def Complete (props : List NcPropEntry) : Prop := props = [] ∨ props.map (fun p => p.entry.1) = monitorPropIds

section
variable {h : NmosHost} {s : NmosManager} {prev props : List NcPropEntry}

theorem complete_ncpMonitorProps (e : MonitorEnv) (k : Kind) (id : UInt8) (m : MonitorCounters) :
    Complete (s.ncpMonitorProps h e k id m).1 := by
  cases k with
  | source =>
      rw [NmosManager.ncpMonitorProps, NmosManager.ncpSenderMonitorProps]
      split
      · exact .inl rfl
      · exact .inr rfl
  | sink =>
      rw [NmosManager.ncpMonitorProps, NmosManager.ncpReceiverMonitorProps]
      split
      · exact .inl rfl
      · exact .inr rfl

theorem Complete.nodup (H : Complete props) : ((props.map NcPropEntry.entry).map Prod.fst).Nodup := by
  rw [List.map_map]
  rcases H with rfl | H
  · exact List.nodup_nil
  · have hids : props.map (Prod.fst ∘ NcPropEntry.entry) = monitorPropIds := H
    rw [hids]
    decide

/-- What is not as it was, as a difference. -/
theorem map_changedProps :
    (changedProps (some prev) props).map NcPropEntry.entry =
      Diff.diff (prev.map NcPropEntry.entry) (props.map NcPropEntry.entry) := by
  have hvalue : ∀ p : NcPropEntry, Diff.values (prev.map NcPropEntry.entry) p.entry.1 =
      (prev.find? fun pp => pp.level = p.level ∧ pp.index = p.index).map NcPropEntry.jsonValue := by
    intro p
    induction prev with
    | nil => rfl
    | cons pp prev ih =>
        rw [List.map_cons, Diff.values_cons, ih, List.find?_cons]
        by_cases heq : p.entry.1 = pp.entry.1
        · have hsame : pp.level = p.level ∧ pp.index = p.index :=
            ⟨(Prod.mk.inj heq).1.symm, (Prod.mk.inj heq).2.symm⟩
          rw [if_pos heq, decide_eq_true hsame]
          rfl
        · have hother : ¬ (pp.level = p.level ∧ pp.index = p.index) := fun hsame =>
            heq (Prod.ext hsame.1.symm hsame.2.symm)
          rw [if_neg heq, decide_eq_false hother]
  rw [Diff.diff, List.filter_map, changedProps]
  refine congrArg _ (List.filter_congr fun p _ => ?_)
  rw [Function.comp_apply, hvalue]
  cases prev.find? fun pp => pp.level = p.level ∧ pp.index = p.index with
  | none => rfl
  | some pp => simp [NcPropEntry.entry]

/-- The properties change into those that the notifications say. -/
theorem overwrite_changedProps (hprev : Complete prev) (H : Complete props) :
    Diff.overwrite (propValues prev) ((changedProps (some prev) props).map NcPropEntry.entry) = propValues props ↔
      props ≠ [] ∨ propValues prev = propValues props := by
  rw [map_changedProps]
  by_cases hempty : props = []
  · subst hempty
    simp [Diff.diff_nil]
  · simp only [hempty, ne_eq, not_false_eq_true, true_or, iff_true]
    refine Diff.overwrite_diff H.nodup fun k hk => ?_
    obtain ⟨v, hv⟩ := Option.isSome_iff_exists.mp hk
    have hmem := (Diff.values_eq_some hprev.nodup).mp hv
    have hids : k ∈ (props.map NcPropEntry.entry).map Prod.fst := by
      obtain ⟨p, hp, hentry⟩ := List.mem_map.mp hmem
      have hprev : prev.map (fun p => p.entry.1) = monitorPropIds := by
        rcases hprev with rfl | hprev
        · cases hp
        · exact hprev
      have hk : k ∈ prev.map fun p => p.entry.1 := List.mem_map.mpr ⟨p, hp, congrArg Prod.fst hentry⟩
      rw [List.map_map]
      rcases H with H | H
      · exact absurd H hempty
      · have hsame : props.map (Prod.fst ∘ NcPropEntry.entry) = monitorPropIds := H
        rw [hsame, ← hprev]
        exact hk
    obtain ⟨⟨k', v'⟩, hv', rfl⟩ := List.mem_map.mp hids
    exact Option.isSome_iff_exists.mpr ⟨v', (Diff.values_eq_some H.nodup).mpr hv'⟩

end

/-! ## Invariants -/

namespace Is12
variable {h : NmosHost} {readJson : Text → Option Ptree} {τ τ' : Is12} {l : Is12Label} {n : ℕ} {oid : ℤ}
  {current : CurrentProps}

/-- What holds between the steps. -/
structure Inv (τ : Is12) : Prop where
  inRange : τ.system.InRange
  /-- No oid is listed twice. -/
  nodup : ∀ w, τ.work = some w →
    (w.current.map Prod.fst ++ w.left.map fun m => monitorOid m.1 m.2).Nodup
  computed : ∀ w, τ.work = some w → ∀ c ∈ w.current, Complete c.2
  complete : ∀ t ∈ τ.ticks, ∀ oid props, t.props? oid = some props → Complete props
  /-- The worker knows what the last round has listed. -/
  known : ∀ oid, τ.lastKnown.find? oid = τ.ticks.getLast?.bind fun t => t.props? oid
  /-- Nothing is queued about what is not listed. -/
  silent : ∀ t ∈ τ.ticks, ∀ n oid, Subscribed t.before n oid → t.props? oid = none → t.queued n oid = []

theorem inv_start {σ : System} (H : σ.InRange) : (start σ).Inv where
  inRange := H
  nodup w hw := by cases hw
  computed w hw := by cases hw
  complete t ht := by cases ht
  known oid := rfl
  silent t ht := by cases ht

/-- A round lists the objects once, each with its properties. -/
theorem Inv.listed (H : τ.Inv) (hwork : τ.work = some ⟨[], current⟩) :
    (current.map Prod.fst).Nodup ∧ ∀ oid props, Diff.values current oid = some props → Complete props := by
  have hnodup := H.nodup _ hwork
  rw [List.map_nil, List.append_nil] at hnodup
  exact ⟨hnodup, fun oid props hprops => H.computed _ hwork (oid, props) ((Diff.values_eq_some hnodup).mp hprops)⟩

theorem inv_notified (H : τ.Inv) (hwork : τ.work = some ⟨[], current⟩) : (τ.notified current).Inv where
  inRange := H.inRange
  nodup w hw := by cases hw
  computed w hw := by cases hw
  complete := by
    intro t ht oid props hprops
    rcases List.mem_append.mp ht with ht | ht
    · exact H.complete t ht oid props hprops
    · obtain rfl := List.mem_singleton.mp ht
      exact (H.listed hwork).2 oid props hprops
  known := by
    intro oid
    have hnodup := (H.listed hwork).1
    have hlast : (τ.notified current).ticks.getLast?.bind (fun t => t.props? oid) = Diff.values current oid := by
      rw [notified, List.getLast?_append]
      rfl
    rw [hlast, notified, SortedMap.find?_eraseIf, notifySessions_known hnodup]
    cases hprops : Diff.values current oid with
    | none =>
        have hgone : (current.any fun c => c.1 = oid) = false := by
          refine List.any_eq_false.mpr fun c hc heq => ?_
          have hfound := (Diff.values_eq_some hnodup).mpr hc
          rw [of_decide_eq_true heq, hprops] at hfound
          cases hfound
        simp [hgone]
    | some props =>
        have hmem := (Diff.values_eq_some hnodup).mp hprops
        have hthere : (current.any fun c => c.1 = oid) = true :=
          List.any_eq_true.mpr ⟨(oid, props), hmem, decide_eq_true rfl⟩
        simp [hthere]
  silent := by
    intro t ht n oid hsub hnone
    rcases List.mem_append.mp ht with ht | ht
    · exact H.silent t ht n oid hsub hnone
    · obtain rfl := List.mem_singleton.mp ht
      rw [queued_notifySessions (H.listed hwork).1 hsub, show Diff.values current oid = none from hnone]
      rfl

theorem inv_step (H : τ.Inv) (hs : τ.step h readJson l = some τ') : τ'.Inv := by
  cases moves_step hs with
  | other hl hsystem hlast hwork hticks =>
      have hrange : τ'.system.InRange := by
        rcases hsystem with heq | ⟨l, hl⟩
        · rw [heq]
          exact H.inRange
        · exact System.inRange_step H.inRange hl
      exact ⟨hrange, hwork ▸ H.nodup, hwork ▸ H.computed, hticks ▸ H.complete, hlast ▸ hticks ▸ H.known,
        hticks ▸ H.silent⟩
  | copy hwork heq =>
      subst heq
      refine ⟨H.inRange, fun w hw => ?_, fun w hw c hc => ?_, H.complete, H.known, H.silent⟩
      · obtain rfl := Option.some.inj hw
        exact NmosManager.nodup_monitorOids H.inRange.resources
      · obtain rfl := Option.some.inj hw
        cases hc
  | compute hwork heq =>
      subst heq
      refine ⟨H.inRange, fun w hw => ?_, fun w hw c hc => ?_, H.complete, H.known, H.silent⟩
      · obtain rfl := Option.some.inj hw
        have hnodup := H.nodup _ hwork
        rw [List.map_cons] at hnodup
        rw [List.map_append, List.append_assoc]
        exact hnodup
      · obtain rfl := Option.some.inj hw
        rcases List.mem_append.mp hc with hc | hc
        · exact H.computed _ hwork c hc
        · obtain rfl := List.mem_singleton.mp hc
          exact complete_ncpMonitorProps _ _ _ _
  | notify hwork heq =>
      subst heq
      exact inv_notified H hwork

/-! ## What a copy of the properties comes to -/

/-- The last of some ticks, of which one lists the object, to do so. -/
theorem exists_last_listed (oid : ℤ) (first : Tick) (between : List Tick) {props : List NcPropEntry}
    (hfirst : first.props? oid = some props) :
    ∃ pre t gap props', first :: between = pre ++ t :: gap ∧ t.props? oid = some props' ∧
      ∀ t' ∈ gap, t'.props? oid = none := by
  induction between using List.reverseRecOn with
  | nil => exact ⟨[], first, [], props, rfl, hfirst, fun t' ht' => by cases ht'⟩
  | append_singleton between last ih =>
      cases hlast : last.props? oid with
      | some props' => exact ⟨first :: between, last, [], props', rfl, hlast, fun t' ht' => by cases ht'⟩
      | none =>
          obtain ⟨pre, t, gap, props', heq, ht, hgap⟩ := ih
          refine ⟨pre, t, gap ++ [last], props', ?_, ht, fun t' ht' => ?_⟩
          · rw [← List.cons_append, heq, List.append_assoc, List.cons_append]
          · rcases List.mem_append.mp ht' with ht' | ht'
            · exact hgap t' ht'
            · rw [List.mem_singleton.mp ht', hlast]

/-- What a round makes of the properties of the last round that listed an object. -/
theorem Inv.overwrite_queued (H : τ.Inv) (hwork : τ.work = some ⟨[], current⟩) {first : Tick} {gap : List Tick}
    {props props' : List NcPropEntry} (hticks : first :: gap <:+ τ.ticks)
    (hsub : ∀ t ∈ first :: gap, Subscribed t.before n oid) (hnow : Subscribed τ.sessions n oid)
    (hfirst : first.props? oid = some props) (hgap : ∀ t ∈ gap, t.props? oid = none)
    (hlast : Diff.values current oid = some props') {last : Tick}
    (heq : last = ⟨current, τ.sessions, (notifySessions current τ.sessions τ.lastKnown).1⟩) :
    Diff.overwrite (propValues props) (((gap ++ [last]).flatMap (Tick.queued n oid)).map NcPropEntry.entry) =
        propValues props' ↔
      (gap = [] ∧ props' ≠ []) ∨ propValues props = propValues props' := by
  have hmem : ∀ t ∈ first :: gap, t ∈ τ.ticks := fun t ht => hticks.subset ht
  have hsilent : gap.flatMap (Tick.queued n oid) = [] := List.flatMap_eq_nil_iff.mpr fun t ht =>
    H.silent t (hmem t (List.mem_cons_of_mem _ ht)) n oid (hsub t (List.mem_cons_of_mem _ ht)) (hgap t ht)
  have hqueued : last.queued n oid = changedProps (τ.lastKnown.find? oid) props' := by
    rw [heq, queued_notifySessions (H.listed hwork).1 hnow, hlast]
    rfl
  have hcomplete : Complete props' := (H.listed hwork).2 oid props' hlast
  rw [List.flatMap_append, hsilent, List.nil_append, List.flatMap_singleton, hqueued, H.known]
  obtain ⟨earlier, hearlier⟩ := hticks
  cases gap using List.reverseRecOn with
  | nil =>
      have hknown : (τ.ticks.getLast?.bind fun t => t.props? oid) = some props := by
        rw [← hearlier, List.getLast?_append]
        exact hfirst
      rw [hknown, overwrite_changedProps (H.complete first (hmem first List.mem_cons_self) oid props hfirst) hcomplete]
      simp
  | append_singleton gap t =>
      have hknown : (τ.ticks.getLast?.bind fun t => t.props? oid) = none := by
        rw [← hearlier, ← List.cons_append, ← List.append_assoc, List.getLast?_append]
        exact hgap t (by simp)
      rw [hknown]
      simp [changedProps]

/-- A round reproduces the properties exactly when it is gapless. -/
theorem reproduces_notified (H : τ.Inv) (hwork : τ.work = some ⟨[], current⟩) :
    Reproduces n oid (τ.notified current).ticks ↔ Reproduces n oid τ.ticks ∧ τ.Gapless n oid .notify := by
  have hticks : (τ.notified current).ticks =
      τ.ticks ++ [⟨current, τ.sessions, (notifySessions current τ.sessions τ.lastKnown).1⟩] := rfl
  generalize hlast : Tick.mk current τ.sessions (notifySessions current τ.sessions τ.lastKnown).1 = last at hticks
  have hbefore : last.before = τ.sessions := by rw [← hlast]
  have hprops : ∀ oid, last.props? oid = Diff.values current oid := fun oid => by rw [← hlast]; rfl
  rw [hticks]
  constructor
  · intro hall
    refine ⟨fun first between t hin => hall first between t (hin.trans (List.prefix_append _ _).isInfix), ?_⟩
    intro current' hcurrent props' hvalues hnow first gap props hsuffix hsub hfirst hgap
    obtain rfl : current = current' := congrArg NotifyWork.current (Option.some.inj (hwork.symm.trans hcurrent))
    refine (H.overwrite_queued hwork hsuffix hsub hnow hfirst hgap hvalues hlast.symm).mp ?_
    refine hall first gap last ?_ ?_ props props' hfirst ((hprops oid).trans hvalues)
    · exact List.infix_concat_iff.mpr (.inl (List.suffix_concat_iff.mpr (.inr ⟨first :: gap, rfl, hsuffix⟩)))
    · intro t ht
      rw [← List.cons_append, List.mem_append, List.mem_singleton] at ht
      rcases ht with ht | rfl
      · exact hsub t ht
      · exact hbefore ▸ hnow
  · rintro ⟨hold, hgapless⟩ first between t hin hsub props props' hfirst ht
    rcases List.infix_concat_iff.mp hin with hsuffix | hin
    · rcases List.suffix_concat_iff.mp hsuffix with hnil | ⟨ticks, heq, hlog⟩
      · cases hnil
      · rw [← List.cons_append] at heq
        obtain ⟨rfl, hone⟩ := List.append_inj' heq rfl
        obtain rfl : t = last := List.singleton_inj.mp hone
        have hnow : Subscribed τ.sessions n oid := hbefore ▸ hsub t (by simp)
        have hsubs : ∀ t ∈ first :: between, Subscribed t.before n oid := fun t ht =>
          hsub t (List.mem_append_left _ ht)
        -- the ticks up to the last one that listed the object lead to its properties then
        obtain ⟨pre, m, gap, known, hsplit, hm, hgap⟩ := exists_last_listed oid first between hfirst
        have hend : m :: gap <:+ τ.ticks := (hsplit ▸ List.suffix_append pre (m :: gap)).trans hlog
        have hrest : Diff.overwrite (propValues known)
            (((gap ++ [t]).flatMap (Tick.queued n oid)).map NcPropEntry.entry) = propValues props' := by
          have hsubm : ∀ t ∈ m :: gap, Subscribed t.before n oid := fun t ht =>
            hsubs t (hsplit ▸ List.mem_append_right _ ht)
          have hvalues := (hprops oid).symm.trans ht
          exact (H.overwrite_queued hwork hend hsubm hnow hm hgap hvalues hlast.symm).mpr
            (hgapless current hwork props' hvalues hnow m gap known hend hsubm hm hgap)
        cases pre with
        | nil =>
            obtain ⟨rfl, rfl⟩ := List.cons.inj hsplit
            obtain rfl := Option.some.inj (hfirst.symm.trans hm)
            exact hrest
        | cons first' pre =>
            rw [List.cons_append, List.cons.injEq] at hsplit
            obtain ⟨rfl, rfl⟩ := hsplit
            have hpre : first :: (pre ++ [m]) <+: first :: (pre ++ m :: gap) := ⟨gap, by simp⟩
            have hknown := hold first pre m (hpre.isInfix.trans hlog.isInfix)
              (fun t ht => hsubs t (hpre.subset ht)) props known hfirst hm
            rw [List.append_assoc, List.cons_append, List.append_cons, List.flatMap_append, List.map_append,
              Diff.overwrite_append, hknown]
            exact hrest
    · exact hold first between t hin hsub props props' hfirst ht

theorem reproduces_step (H : τ.Inv) (hs : τ.step h readJson l = some τ') :
    Reproduces n oid τ'.ticks ↔ Reproduces n oid τ.ticks ∧ τ.Gapless n oid l := by
  cases moves_step hs with
  | other hl hsystem hlast hwork hticks =>
      rw [hticks]
      cases l with
      | notify => exact absurd rfl hl
      | _ => exact (and_iff_left trivial).symm
  | copy hwork heq | compute hwork heq =>
      subst heq
      exact (and_iff_left trivial).symm
  | notify hwork heq =>
      subst heq
      exact reproduces_notified H hwork

/-- **The notifications of a run reproduce the properties of an object to a client exactly
when every step is gapless.** -/
theorem reproduces_iff {σ : System} {labels : List Is12Label} (hσ : σ.Reachable h)
    (hrun : run (Is12.step h readJson) (start σ) labels = some τ) (n : ℕ) (oid : ℤ) :
    Reproduces n oid τ.ticks ↔ Along (Is12.step h readJson) (Gapless n oid) (start σ) labels := by
  have hstart : Reproduces n oid (start σ).ticks := by
    intro first between last hin
    cases List.infix_nil.mp hin
  rw [run_decides_of (P := fun τ => Reproduces n oid τ.ticks) (fun _ _ _ H hs => inv_step H hs)
    (fun _ _ _ H hs => reproduces_step H hs) (inv_start hσ.inRange) hrun]
  exact and_iff_right hstart

/-! ### Sample runs -/

/-- A message that subscribes to the monitor of one receiver. -/
def subscribeMsg : Text := "\x7b\"messageType\": 3, \"subscriptions\": [101]\x7d".toList

/-- The message is read; nothing else is. -/
def readSubscribe (msg : Text) : Option Ptree :=
  if msg = subscribeMsg then
    some (.node [] [("messageType".toList, .leaf "3".toList),
      ("subscriptions".toList, .node [] [([], .leaf "101".toList)])])
  else none

/-- A client connects and subscribes. -/
def subscribing : List Is12Label := [.connect 0, .message 0 subscribeMsg fun _ => {}]

/-- A round of the worker, one monitor after another. -/
def round (envs : List MonitorEnv) : List Is12Label := .copy :: envs.map .compute ++ [.notify]

/-- A sink that has an SDP is there when the worker starts. -/
def sampleRounds (labels : List Is12Label) : Option Is12 :=
  let sample := soleSink (SessionManager.versionSdp "1".toList)
  (sampleRun {} sample.1 sample.2).bind fun σ => run (Is12.step {} readSubscribe) (start σ) labels

/-- A round as a client sees it: whether it subscribes, the values it is told, and the value
of a property. -/
def seen (n : ℕ) (oid : ℤ) (id : ℤ × ℤ) (t : Tick) : Bool × List Text × List Text :=
  ((t.before.find? n).any fun session => session.subscribed.contains oid,
    (t.queued n oid).map NcPropEntry.jsonValue, ((t.props? oid).bind fun props => propValues props id).toList)

theorem exists_sampleRounds {labels : List Is12Label} {id : ℤ × ℤ} {rounds : List (Bool × List Text × List Text)}
    (hrun : (sampleRounds labels).map (fun τ => τ.ticks.map (seen 0 101 id)) = some rounds) :
    ∃ σ τ, σ.Reachable {} ∧ run (Is12.step {} readSubscribe) (start σ) labels = some τ ∧
      τ.ticks.map (seen 0 101 id) = rounds := by
  obtain ⟨τ, hτ, hseen⟩ := Option.map_eq_some_iff.mp hrun
  rw [sampleRounds] at hτ
  obtain ⟨σ, hσ, hlabels⟩ := Option.bind_eq_some_iff.mp hτ
  obtain ⟨sm, hsm, hσ⟩ := Option.bind_eq_some_iff.mp hσ
  exact ⟨σ, τ, ⟨{}, 0, _, sm, {}, _, hsm, hσ⟩, hlabels, hseen⟩

/-- The link of the receiver goes down. -/
theorem reproduces_iff_sole : ∃ σ τ labels, σ.Reachable {} ∧ run (Is12.step {} readSubscribe) (start σ) labels = some τ ∧
    τ.ticks.map (seen 0 101 (4, 1)) = [(true, [], ["1".toList]),
      (true, ["3".toList, "\"Interface link down\"".toList, "1".toList], ["3".toList])] ∧
    (Reproduces 0 101 τ.ticks ↔ Along (Is12.step {} readSubscribe) (Gapless 0 101) (start σ) labels) := by
  have hrounds : (sampleRounds (subscribing ++ round [{}] ++ round [{ link0Up := false }])).map
      (fun τ => τ.ticks.map (seen 0 101 (4, 1))) = some [(true, [], ["1".toList]),
        (true, ["3".toList, "\"Interface link down\"".toList, "1".toList], ["3".toList])] := by
    decide +kernel
  obtain ⟨σ, τ, hσ, hrun, hseen⟩ := exists_sampleRounds hrounds
  exact ⟨σ, τ, _, hσ, hrun, hseen, reproduces_iff hσ hrun 0 101⟩

/-- The receiver is removed and added again, and meanwhile its link goes down. -/
def recreation : List Is12Label :=
  subscribing ++ round [{}] ++
    (Label.stream (.request (.removeSink {} 1)) :: .start 0 .nextEvent :: turns 4 0 {}).map .system ++ round [] ++
    (Label.stream (.request (.addSink (.accepting 7) (stereoSink 1 "a".toList (SessionManager.versionSdp "1".toList)))) ::
      .start 0 .nextEvent :: turns 5 0 {}).map .system ++ round [{ link0Up := false }]

/-- Nobody is told that the link is down. -/
theorem notifications_missed : ∃ σ τ, σ.Reachable {} ∧
    run (Is12.step {} readSubscribe) (start σ) recreation = some τ ∧ ¬ Reproduces 0 101 τ.ticks := by
  have hrounds : (sampleRounds recreation).map (fun τ => τ.ticks.map (seen 0 101 (4, 1))) =
      some [(true, [], ["1".toList]), (true, [], []), (true, [], ["3".toList])] := by decide +kernel
  obtain ⟨σ, τ, hσ, hrun, hseen⟩ := exists_sampleRounds hrounds
  refine ⟨σ, τ, hσ, hrun, fun hall => ?_⟩
  obtain ⟨first, rest, hticks, hfirst, hrest⟩ := List.map_eq_cons_iff.mp hseen
  obtain ⟨gap, rest, rfl, hgap, hrest⟩ := List.map_eq_cons_iff.mp hrest
  obtain ⟨last, rest, rfl, hlast, hrest⟩ := List.map_eq_cons_iff.mp hrest
  obtain rfl := List.map_eq_nil_iff.mp hrest
  have hsub : ∀ t ∈ first :: ([gap] ++ [last]), Subscribed t.before 0 101 := by
    intro t ht
    have hsees : (seen 0 101 (4, 1) t).1 = true := by
      simp only [List.cons_append, List.nil_append, List.mem_cons, List.not_mem_nil, or_false] at ht
      rcases ht with rfl | rfl | rfl
      · rw [hfirst]
      · rw [hgap]
      · rw [hlast]
    rw [seen] at hsees
    cases hsession : t.before.find? 0 with
    | none =>
        rw [hsession] at hsees
        cases hsees
    | some session =>
        rw [hsession] at hsees
        exact ⟨session, hsession, hsees⟩
  have hvalue : ∀ (t : Tick) b notes (v : Text), seen 0 101 (4, 1) t = (b, notes, [v]) →
      ∃ props, t.props? 101 = some props ∧ propValues props (4, 1) = some v := by
    intro t b notes v ht
    have hlist : ((t.props? 101).bind fun props => propValues props (4, 1)).toList = [v] :=
      congrArg (fun x => x.2.2) ht
    exact Option.bind_eq_some_iff.mp (Option.toList_eq_singleton_iff.mp hlist)
  have hsilent : ∀ (t : Tick) b vs, seen 0 101 (4, 1) t = (b, [], vs) → t.queued 0 101 = [] := by
    intro t b vs ht
    exact List.map_eq_nil_iff.mp (congrArg (fun x => x.2.1) ht)
  obtain ⟨props, hprops, hbefore⟩ := hvalue first _ _ _ hfirst
  obtain ⟨props', hprops', hafter⟩ := hvalue last _ _ _ hlast
  have hsame := hall first [gap] last (hticks ▸ List.infix_rfl) hsub props props' hprops hprops'
  rw [List.singleton_append, List.flatMap_cons, List.flatMap_singleton, hsilent gap _ _ hgap,
    hsilent last _ _ hlast] at hsame
  have hlink := congrFun hsame (4, 1)
  rw [hafter] at hlink
  exact absurd (hbefore.symm.trans hlink) (by decide)

end Is12

end Aes67Daemon
