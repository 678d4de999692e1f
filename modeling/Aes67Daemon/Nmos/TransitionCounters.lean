import Aes67Daemon.Lib.Changes
import Aes67Daemon.Lib.Pool
import Aes67Daemon.Lib.Run
import Aes67Daemon.Nmos.AutoReset

/-!
# Transition counters in several threads

Every Get of a monitor works the properties of the monitor out, in a thread of its own, and
so does the notify worker.  A call looks the receiver or sender up, works its statuses out,
stores them with their transitions counted, and reads the counters back; for each of these
it takes a lock and gives it back, and nothing keeps another thread out between them.

The statuses that were stored under an oid are recorded for the statements; the code keeps
the last of them only.

## Main definitions

* `MonitorOp`, `MonitorOp.exec` — what a call does under one lock.
* `MonitorThreads`, `MonitorThreads.step` — the threads.
* `MonitorThreads.Counts` — a step counts the transitions.
* `MonitorThreads.counts_iff` — the runs in which every step does.
-/
namespace Aes67Daemon

open Text

/-! ## The four statuses -/

/-- The statuses of a monitor whose transitions are counted. -/
inductive MonitorStatus
  | link
  | secondary
  | sync
  | tertiary
  deriving DecidableEq

/-- The index of the property that is the counter. -/
def MonitorStatus.counterIndex : MonitorStatus → ℤ
  | link => 3
  | secondary => 6
  | sync => 9
  | tertiary => 13

/-- A status of a reading. -/
def MonitorReading.status (r : MonitorReading) : MonitorStatus → Health
  | .link => r.link.1
  | .secondary => r.secondary.1
  | .sync => r.sync.1
  | .tertiary => r.tertiary.1

namespace NcMonitorCounters

/-- The status that was last observed. -/
def last (c : NcMonitorCounters) : MonitorStatus → Option Health
  | .link => c.linkStatus
  | .secondary => c.secondaryStatus
  | .sync => c.syncStatus
  | .tertiary => c.tertiaryStatus

/-- The counter of a status. -/
def count (c : NcMonitorCounters) : MonitorStatus → Int32
  | .link => c.linkTransitions
  | .secondary => c.secondaryTransitions
  | .sync => c.syncTransitions
  | .tertiary => c.tertiaryTransitions

/-- Nothing was observed, and nothing counted. -/
@[simp] theorem last_new (κ : MonitorStatus) : ({} : NcMonitorCounters).last κ = none := by cases κ <;> rfl

@[simp] theorem count_new (κ : MonitorStatus) : ({} : NcMonitorCounters).count κ = 0 := by cases κ <;> rfl

@[simp] theorem last_observe (r : MonitorReading) (c : NcMonitorCounters) (κ : MonitorStatus) :
    (c.observe r).last κ = some (r.status κ) := by
  cases κ <;> rfl

@[simp] theorem count_observe (r : MonitorReading) (c : NcMonitorCounters) (κ : MonitorStatus) :
    (c.observe r).count κ = transitions (c.last κ) (r.status κ) (c.count κ) := by
  cases κ <;> rfl

@[simp] theorem last_autoReset (c : NcMonitorCounters) (b : Bool) (κ : MonitorStatus) :
    { c with autoReset := b }.last κ = c.last κ := by
  cases κ <;> rfl

@[simp] theorem count_autoReset (c : NcMonitorCounters) (b : Bool) (κ : MonitorStatus) :
    { c with autoReset := b }.count κ = c.count κ := by
  cases κ <;> rfl

end NcMonitorCounters

namespace MonitorCounters
variable {m : MonitorCounters} {oid oid' : ℤ}

@[simp] theorem at_empty (oid : ℤ) : MonitorCounters.at oid .empty = {} := by
  simp [MonitorCounters.at]

@[simp] theorem at_insert_self (oid : ℤ) (c : NcMonitorCounters) (m : MonitorCounters) :
    MonitorCounters.at oid (m.insert oid c) = c := by
  simp [MonitorCounters.at]

theorem at_insert_of_ne (hne : oid' ≠ oid) (c : NcMonitorCounters) (m : MonitorCounters) :
    MonitorCounters.at oid' (m.insert oid c) = m.at oid' := by
  rw [MonitorCounters.at, MonitorCounters.at, SortedMap.find?_insert_of_ne _ _ hne]

end MonitorCounters

/-! ## One counter -/

/-- A counter that is incremented is one more, unless it is the last `int`. -/
theorem toInt_add_one_eq_iff (n : Int32) : (n + 1).toInt = n.toInt + 1 ↔ n ≠ Int32.maxValue := by
  constructor
  · rintro hadd rfl
    exact absurd hadd (by decide)
  · intro hne
    have hlow := n.le_toInt
    have hhigh := n.toInt_le
    have hmax : n.toInt ≠ Int32.maxValue.toInt := fun heq => hne (Int32.toInt_inj.mp heq)
    have hlast : Int32.maxValue.toInt = 2 ^ 31 - 1 := by decide
    rw [Int32.toInt_add, show (1 : Int32).toInt = 1 by decide]
    exact Int.bmod_eq_of_le (by omega) (by omega)

/-- **An observation is counted** exactly when the counter has room for it. -/
theorem toInt_transitions_eq_iff {statuses : List Health} {last : Option Health} (status : Health) {n : Int32}
    (hlast : last = statuses.getLast?) (hn : n.toInt = changes statuses) :
    (transitions last status n).toInt = changes (statuses ++ [status]) ↔
      (last ≠ none → last ≠ some status → n ≠ Int32.maxValue) := by
  rw [changes_concat, ← hlast, transitions]
  by_cases hfirst : last = none
  · simp [hfirst, hn]
  by_cases hsame : last = some status
  · simp [hsame, hn]
  · rw [if_pos ⟨hfirst, hsame⟩, if_neg (not_or.mpr ⟨hfirst, hsame⟩), Nat.cast_add, Nat.cast_one, ← hn,
      toInt_add_one_eq_iff]
    exact ⟨fun h _ _ => h, fun h => h hfirst hsame⟩

/-! ## The threads -/

/-- The resource that a monitor is of. -/
def monitorResource : Kind → String
  | .source => "sender"
  | .sink => "receiver"

/-- The id of the sender or receiver, and whether it is active. -/
def NmosManager.monitored? (s : NmosManager) : Kind → UInt8 → Option (Text × Bool)
  | .source, id => (s.senders.find? id).map fun sr => (sr.senderId, sr.active.masterEnable)
  | .sink, id => (s.receivers.find? id).map fun rr => (rr.receiverId, rr.active.masterEnable)

/-- The statuses of a sender or receiver. -/
def monitorReading (h : NmosHost) (e : MonitorEnv) : Kind → Bool → MonitorReading
  | .source => senderReading h e
  | .sink => receiverReading h e

/-- What a thread that works the properties of a monitor out does next. -/
inductive MonitorOp
  /-- The record of the sender or receiver is looked up, and the statuses are worked out. -/
  | lookUp (k : Kind) (id : UInt8)
  /-- `update_monitor_counters`. -/
  | update (k : Kind) (id : UInt8) (resourceId : Text) (active : Bool) (r : MonitorReading)
  /-- The counters are read back; `past` is what had been stored once the call stored `r`. -/
  | readBack (k : Kind) (id : UInt8) (resourceId : Text) (active : Bool) (r : MonitorReading)
      (past : List MonitorReading)

/-- The state that the threads share. -/
structure MonitorShared where
  nmos : NmosManager
  counters : MonitorCounters := .empty
  /-- What was stored under each oid, the last at the end. -/
  observed : ℤ → List MonitorReading := fun _ => []
  /-- What the last call of each thread has returned. -/
  returned : ℕ → List NcPropEntry := fun _ => []

namespace MonitorShared

/-- A reading was stored. -/
def stored (oid : ℤ) (r : MonitorReading) (s : MonitorShared) : MonitorShared :=
  { s with
    counters := updateMonitorCounters oid r s.counters
    observed := Function.update s.observed oid (s.observed oid ++ [r]) }

/-- A call has returned. -/
def answered (t : ℕ) (props : List NcPropEntry) (s : MonitorShared) : MonitorShared :=
  { s with returned := Function.update s.returned t props }

end MonitorShared

/-- A thread `t` executes an operation: what is done next in its place, and the state. -/
def MonitorOp.exec (h : NmosHost) (e : MonitorEnv) (t : ℕ) : MonitorOp → MonitorShared → List MonitorOp × MonitorShared
  | lookUp k id, s =>
    match s.nmos.monitored? k id with
    | none => ([], s.answered t [])
    | some (resourceId, active) => ([update k id resourceId active (monitorReading h e k active)], s)
  | update k id resourceId active r, s =>
    ([readBack k id resourceId active r (s.observed (monitorOid k id) ++ [r])], s.stored (monitorOid k id) r)
  | readBack k id resourceId active r _, s =>
    ([], s.answered t (monitorProps (monitorResource k) resourceId active r (s.counters.at (monitorOid k id))))

/-- The threads. -/
abbrev MonitorThreads := Pool MonitorShared MonitorOp

/-- What happens next. -/
inductive MonitorLabel
  /-- The rest of the daemon goes on. -/
  | nmos (s : NmosManager)
  /-- An idle thread, of a Get or the notify worker, calls the props function of a monitor. -/
  | call (t : ℕ) (k : Kind) (id : UInt8)
  /-- A thread executes its next operation. -/
  | turn (t : ℕ) (e : MonitorEnv)
  /-- A Set is served. -/
  | set (c : Is12Command)

namespace MonitorThreads

/-- The threads when the server starts. -/
def boot (s : NmosManager) : MonitorThreads := { shared := { nmos := s }, ops := fun _ => [] }

/-- One step. -/
def step (h : NmosHost) (c : MonitorThreads) : MonitorLabel → Option MonitorThreads
  | .nmos s => some { c with shared := { c.shared with nmos := s } }
  | .call t k id => c.start t (.lookUp k id)
  | .turn t e => c.turn (MonitorOp.exec h e t) t
  | .set cmd =>
    if cmd.mlevel = 1 ∧ cmd.mindex = 2 then
      (c.shared.nmos.is12Command h {} cmd c.shared.counters).map fun r =>
        { c with shared := { c.shared with counters := r.2 } }
    else none

end MonitorThreads

/-! ## Statements -/

/-- What an operation of thread `t` does to the counters is to count transitions. -/
def MonitorOp.Counts (t : ℕ) (s s' : MonitorShared) : MonitorOp → Prop
  | lookUp _ _ => s'.counters = s.counters
  | update k id _ _ r =>
    -- the counters of the oid count the statuses stored up to now, and no other oid is touched
    (∀ κ : MonitorStatus, ((s'.counters.at (monitorOid k id)).count κ).toInt =
      changes ((s.observed (monitorOid k id) ++ [r]).map fun r => r.status κ)) ∧
    ∀ oid, oid ≠ monitorOid k id → s'.counters.find? oid = s.counters.find? oid
  | readBack _ _ _ _ _ past =>
    -- what is returned has counted all that was stored up to the reading of the call itself
    s'.counters = s.counters ∧
    ∀ κ : MonitorStatus, ∃ n : ℤ, ⟨4, κ.counterIndex, Json.printInt n⟩ ∈ s'.returned t ∧
      (changes (past.map fun r => r.status κ) : ℤ) ≤ n

/-- No counter that is the last `int` is incremented. -/
def MonitorOp.HasRoom (m : MonitorCounters) : MonitorOp → Prop
  | update k id _ _ r => ∀ κ : MonitorStatus, (m.at (monitorOid k id)).last κ ≠ none →
      (m.at (monitorOid k id)).last κ ≠ some (r.status κ) → (m.at (monitorOid k id)).count κ ≠ Int32.maxValue
  | _ => True

namespace MonitorThreads

/-- A step counts transitions. -/
def Counts (h : NmosHost) (c : MonitorThreads) : MonitorLabel → Prop
  | .turn t e => ∀ op rest, c.ops t = op :: rest → op.Counts t c.shared (op.exec h e t c.shared).2
  | _ => True

/-- A step finds room in the counters. -/
def HasRoom (c : MonitorThreads) : MonitorLabel → Prop
  | .turn t _ => ∀ op rest, c.ops t = op :: rest → op.HasRoom c.shared.counters
  | _ => True

end MonitorThreads

/-! ## A call that is not interrupted -/

namespace MonitorShared
variable {s : MonitorShared} {k : Kind} {id : UInt8}

/-- A call that no other thread interferes with. -/
def called (h : NmosHost) (e : MonitorEnv) (t : ℕ) (k : Kind) (id : UInt8) (s : MonitorShared) : MonitorShared :=
  match s.nmos.monitored? k id with
  | none => s.answered t []
  | some (resourceId, active) =>
    let s' := s.stored (monitorOid k id) (monitorReading h e k active)
    s'.answered t (monitorProps (monitorResource k) resourceId active (monitorReading h e k active)
      (s'.counters.at (monitorOid k id)))

theorem nmos_called (h : NmosHost) (e : MonitorEnv) (t : ℕ) : (s.called h e t k id).nmos = s.nmos := by
  rw [called]
  split <;> rfl

end MonitorShared

/-! ## The counters -/

namespace MonitorShared
variable {s s' : MonitorShared} {oid : ℤ} {r : MonitorReading} {κ : MonitorStatus}

/-- The statuses of a kind that were stored under an oid. -/
def seen (s : MonitorShared) (oid : ℤ) (κ : MonitorStatus) : List Health := (s.observed oid).map fun r => r.status κ

/-- The counters say how often what was stored has changed. -/
structure Exact (s : MonitorShared) : Prop where
  last : ∀ oid κ, (s.counters.at oid).last κ = (s.seen oid κ).getLast?
  count : ∀ oid κ, ((s.counters.at oid).count κ).toInt = changes (s.seen oid κ)

@[simp] theorem seen_answered (t : ℕ) (props : List NcPropEntry) : (s.answered t props).seen = s.seen := rfl

theorem returned_answered_self (t : ℕ) (props : List NcPropEntry) : (s.answered t props).returned t = props :=
  Function.update_self ..

theorem observed_stored (oid' : ℤ) : (s.stored oid r).observed oid' =
    if oid' = oid then s.observed oid ++ [r] else s.observed oid' :=
  Function.update_apply ..

theorem seen_stored_self : (s.stored oid r).seen oid κ = s.seen oid κ ++ [r.status κ] := by
  rw [seen, observed_stored, if_pos rfl, List.map_append]
  rfl

theorem seen_stored_of_ne {oid' : ℤ} (hne : oid' ≠ oid) : (s.stored oid r).seen oid' κ = s.seen oid' κ := by
  rw [seen, observed_stored, if_neg hne, seen]

theorem at_stored_self : (s.stored oid r).counters.at oid = (s.counters.at oid).observe r :=
  MonitorCounters.at_insert_self ..

theorem at_stored_of_ne {oid' : ℤ} (hne : oid' ≠ oid) : (s.stored oid r).counters.at oid' = s.counters.at oid' :=
  MonitorCounters.at_insert_of_ne hne ..

/-- **A reading is counted** exactly when there is room for it. -/
theorem count_stored_iff (H : s.Exact) (oid : ℤ) (r : MonitorReading) :
    (∀ κ, (((s.stored oid r).counters.at oid).count κ).toInt = changes ((s.stored oid r).seen oid κ)) ↔
      ∀ κ, (s.counters.at oid).last κ ≠ none → (s.counters.at oid).last κ ≠ some (r.status κ) →
        (s.counters.at oid).count κ ≠ Int32.maxValue := by
  refine forall_congr' fun κ => ?_
  rw [at_stored_self, seen_stored_self, NcMonitorCounters.count_observe]
  exact toInt_transitions_eq_iff _ (H.last oid κ) (H.count oid κ)

theorem Exact.stored (H : s.Exact)
    (hcount : ∀ κ, (((s.stored oid r).counters.at oid).count κ).toInt = changes ((s.stored oid r).seen oid κ)) :
    (s.stored oid r).Exact := by
  constructor
  · intro oid' κ
    by_cases hoid : oid' = oid
    · subst hoid
      rw [at_stored_self, seen_stored_self, NcMonitorCounters.last_observe, List.getLast?_concat]
    · rw [at_stored_of_ne hoid, seen_stored_of_ne hoid]
      exact H.last oid' κ
  · intro oid' κ
    by_cases hoid : oid' = oid
    · subst hoid
      exact hcount κ
    · rw [at_stored_of_ne hoid, seen_stored_of_ne hoid]
      exact H.count oid' κ

/-- What has been stored stays stored. -/
theorem prefix_observed_stored (oid' : ℤ) : s.observed oid' <+: (s.stored oid r).observed oid' := by
  rw [observed_stored]
  split
  · rename_i hoid
    subst hoid
    exact List.prefix_append ..
  · exact List.prefix_refl _

end MonitorShared

/-- A Set does not touch what is counted. -/
theorem NmosManager.at_is12Command_set {h : NmosHost} {s : NmosManager} {e : MonitorEnv} {cmd : Is12Command}
    {m m' : MonitorCounters} {r : Is12Result} (hset : cmd.IsSet) (hs : s.is12Command h e cmd m = some (r, m'))
    (oid : ℤ) : ∃ b, m'.at oid = { m.at oid with autoReset := b } := by
  rw [is12Command_set hset] at hs
  split at hs
  · obtain ⟨-, rfl⟩ := Prod.mk.inj (Option.some.inj hs)
    by_cases hoid : oid = cmd.oid
    · subst hoid
      exact ⟨cmd.value, MonitorCounters.at_insert_self ..⟩
    · exact ⟨(m.at oid).autoReset, MonitorCounters.at_insert_of_ne hoid ..⟩
  · obtain ⟨-, rfl⟩ := Prod.mk.inj (Option.some.inj hs)
    exact ⟨(m.at oid).autoReset, rfl⟩

/-! ## A step -/

/-- What a thread has recorded is a part of what was stored. -/
def MonitorOp.Recorded (observed : ℤ → List MonitorReading) : MonitorOp → Prop
  | readBack k id _ _ _ past => past <+: observed (monitorOid k id)
  | _ => True

namespace MonitorOp
variable {h : NmosHost} {e : MonitorEnv} {t : ℕ} {op : MonitorOp} {s : MonitorShared}

theorem Recorded.mono {observed observed' : ℤ → List MonitorReading} (hmore : ∀ oid, observed oid <+: observed' oid)
    (H : op.Recorded observed) : op.Recorded observed' := by
  cases op with
  | lookUp | update => trivial
  | readBack k id resourceId active r past => exact List.IsPrefix.trans H (hmore _)

/-- What an operation leaves to be done is recorded as it was stored. -/
theorem recorded_exec {op' : MonitorOp} (hop' : op' ∈ (op.exec h e t s).1) :
    op'.Recorded (op.exec h e t s).2.observed := by
  cases op with
  | lookUp k id =>
      rw [exec] at hop'
      split at hop'
      · cases hop'
      · rw [List.mem_singleton.mp hop']
        trivial
  | update k id resourceId active r =>
      rw [List.mem_singleton.mp hop', Recorded, exec, MonitorShared.observed_stored, if_pos rfl]
  | readBack k id resourceId active r past => cases hop'

/-- What has been stored stays stored. -/
theorem prefix_observed_exec (oid : ℤ) : s.observed oid <+: (op.exec h e t s).2.observed oid := by
  cases op with
  | lookUp k id =>
      rw [exec]
      split <;> exact List.prefix_refl _
  | update k id resourceId active r => exact MonitorShared.prefix_observed_stored oid
  | readBack k id resourceId active r past => exact List.prefix_refl _

/-- An operation that finds room keeps the counters exact. -/
theorem exact_exec (H : s.Exact) (hroom : op.HasRoom s.counters) : (op.exec h e t s).2.Exact := by
  cases op with
  | lookUp k id =>
      rw [exec]
      split <;> exact ⟨H.last, H.count⟩
  | update k id resourceId active r => exact H.stored ((MonitorShared.count_stored_iff H _ r).mpr hroom)
  | readBack k id resourceId active r past => exact ⟨H.last, H.count⟩

end MonitorOp

/-- A counter among the properties of its monitor. -/
theorem mem_monitorProps_counter (type : String) (resourceId : Text) (active : Bool) (r : MonitorReading)
    (c : NcMonitorCounters) (κ : MonitorStatus) :
    ⟨4, κ.counterIndex, Json.printInt (c.count κ).toInt⟩ ∈ monitorProps type resourceId active r c := by
  cases κ <;> simp [monitorProps, MonitorStatus.counterIndex, NcMonitorCounters.count]

namespace MonitorThreads
variable {h : NmosHost} {c c' : MonitorThreads} {l : MonitorLabel}

/-- The counters are exact, and so is what the threads have recorded. -/
structure Exact (c : MonitorThreads) : Prop where
  shared : c.shared.Exact
  recorded : ∀ t, ∀ op ∈ c.ops t, op.Recorded c.shared.observed

/-- **Where the counters are exact an operation counts** exactly when it finds room. -/
theorem counts_exec_iff (H : c.Exact) {t : ℕ} {e : MonitorEnv} {op : MonitorOp} {rest : List MonitorOp}
    (hops : c.ops t = op :: rest) :
    op.Counts t c.shared (op.exec h e t c.shared).2 ↔ op.HasRoom c.shared.counters := by
  cases op with
  | lookUp k id =>
      refine iff_of_true ?_ trivial
      rw [MonitorOp.exec]
      split <;> rfl
  | update k id resourceId active r =>
      have hcount := MonitorShared.count_stored_iff H.shared (monitorOid k id) r
      simp only [MonitorShared.seen, MonitorShared.observed_stored, if_true] at hcount
      refine Iff.trans (and_iff_left fun oid hne => ?_) hcount
      exact SortedMap.find?_insert_of_ne _ _ hne
  | readBack k id resourceId active r past =>
      have hrecorded : (MonitorOp.readBack k id resourceId active r past).Recorded c.shared.observed :=
        H.recorded t _ (by rw [hops]; exact List.mem_cons_self)
      have hpast : past <+: c.shared.observed (monitorOid k id) := hrecorded
      refine iff_of_true ⟨rfl, fun κ => ?_⟩ trivial
      refine ⟨((c.shared.counters.at (monitorOid k id)).count κ).toInt, ?_, ?_⟩
      · rw [MonitorOp.exec, MonitorShared.returned_answered_self]
        exact mem_monitorProps_counter ..
      · rw [H.shared.count]
        exact_mod_cast changes_le_of_prefix (hpast.map _)

theorem counts_iff_hasRoom (H : c.Exact) (l : MonitorLabel) : c.Counts h l ↔ c.HasRoom l := by
  cases l with
  | nmos s => exact Iff.rfl
  | call t k id => exact Iff.rfl
  | turn t e => exact forall_congr' fun op => forall_congr' fun rest => forall_congr' (counts_exec_iff H)
  | set cmd => exact Iff.rfl

/-- A step that finds room keeps the counters exact. -/
theorem Exact.step (H : c.Exact) (hroom : c.HasRoom l) (hs : step h c l = some c') : c'.Exact := by
  cases l with
  | nmos s =>
      obtain rfl := Option.some.inj hs
      exact ⟨⟨H.shared.last, H.shared.count⟩, H.recorded⟩
  | call t k id =>
      obtain ⟨-, rfl⟩ := Pool.start_eq_some.mp hs
      refine ⟨H.shared, fun t' op hop => ?_⟩
      rw [Pool.ops_started] at hop
      split at hop
      · rw [List.mem_singleton.mp hop]
        trivial
      · exact H.recorded t' op hop
  | turn t e =>
      obtain ⟨op, rest, hops, rfl⟩ := Pool.turn_eq_some.mp hs
      refine ⟨MonitorOp.exact_exec H.shared (hroom op rest hops), fun t' op' hop' => ?_⟩
      rw [Pool.ops_turned] at hop'
      split at hop'
      · rename_i ht
        subst ht
        rcases List.mem_append.mp hop' with hop' | hop'
        · exact MonitorOp.recorded_exec hop'
        · exact (H.recorded t' op' (by rw [hops]; exact List.mem_cons_of_mem _ hop')).mono MonitorOp.prefix_observed_exec
      · exact (H.recorded t' op' hop').mono MonitorOp.prefix_observed_exec
  | set cmd =>
      obtain ⟨hset, hs⟩ := Option.ite_none_right_eq_some.mp hs
      obtain ⟨⟨r, m'⟩, hcommand, rfl⟩ := Option.map_eq_some_iff.mp hs
      refine ⟨⟨fun oid κ => ?_, fun oid κ => ?_⟩, H.recorded⟩
      · obtain ⟨b, hb⟩ := NmosManager.at_is12Command_set ⟨hset.1, hset.2⟩ hcommand oid
        rw [hb, NcMonitorCounters.last_autoReset]
        exact H.shared.last oid κ
      · obtain ⟨b, hb⟩ := NmosManager.at_is12Command_set ⟨hset.1, hset.2⟩ hcommand oid
        rw [hb, NcMonitorCounters.count_autoReset]
        exact H.shared.count oid κ

theorem exact_boot (s : NmosManager) : (boot s).Exact := by
  refine ⟨⟨fun oid κ => ?_, fun oid κ => ?_⟩, fun t op hop => absurd hop List.not_mem_nil⟩
  · simp [boot, MonitorShared.seen]
  · simp [boot, MonitorShared.seen]

/-- **In every run of any number of threads the transitions are counted, and reported with the
reading of the call itself, exactly when no update finds a counter it has to increment at the
last `int`.** -/
theorem counts_iff (h : NmosHost) (s : NmosManager) (labels : List MonitorLabel) :
    Along (step h) (Counts h) (boot s) labels ↔ Along (step h) HasRoom (boot s) labels :=
  along_iff_of_invariant (J := Exact) (fun _ _ _ H hroom hs => H.step hroom hs) (fun _ l H => counts_iff_hasRoom H l)
    (exact_boot s)

/-! ## A link that goes up and down -/

/-- A call of a thread that is idle and is not interrupted. -/
theorem run_call {t : ℕ} {k : Kind} {id : UInt8} {e : MonitorEnv} {resourceId : Text} {active : Bool}
    (hidle : c.ops t = []) (hmon : c.shared.nmos.monitored? k id = some (resourceId, active)) :
    ∃ c', run (step h) c [.call t k id, .turn t e, .turn t e, .turn t e] = some c' ∧ c'.ops t = [] ∧
      c'.shared = c.shared.called h e t k id := by
  simp [run_cons, step, Pool.start, Pool.turn, hidle, Pool.started, Pool.turned, MonitorOp.exec, hmon,
    MonitorShared.called]

/-- A sender is there. -/
def soleSender : NmosManager := { sm := {}, senders := SortedMap.empty.insert 1 { senderId := "1".toList } }

/-- Gets of its monitor, while the link of the interface goes down and up. -/
def flapping : ℕ → List MonitorLabel
  | 0 => []
  | n + 1 =>
    let e : MonitorEnv := { link0Up := n % 2 = 0 }
    flapping n ++ [.call 0 .source 1, .turn 0 e, .turn 0 e, .turn 0 e]

/-- What the `n`-th of these Gets finds. -/
def flapped (n : ℕ) : Health := if n % 2 = 0 then .healthy else .unhealthy

theorem flapped_succ_ne (n : ℕ) : flapped n ≠ flapped (n + 1) := by
  unfold flapped
  split <;> split
  · omega
  · decide
  · decide
  · omega

/-- Every Get stores what it finds. -/
theorem run_flapping (n : ℕ) : ∃ c, run (step {}) (boot soleSender) (flapping n) = some c ∧ c.ops 0 = [] ∧
    c.shared.nmos = soleSender ∧ c.shared.seen 201 .link = (List.range n).map flapped := by
  induction n with
  | zero => exact ⟨boot soleSender, rfl, rfl, rfl, rfl⟩
  | succ n ih =>
      obtain ⟨c, hrun, hidle, hnmos, hseen⟩ := ih
      have hmon : c.shared.nmos.monitored? .source 1 = some ("1".toList, true) := by
        rw [hnmos]
        decide +kernel
      have hlink : ∀ up : Bool, (monitorReading {} { link0Up := up } .source true).status .link =
          if up then Health.healthy else Health.unhealthy := by
        intro up
        cases up <;> rfl
      have hstatus : (monitorReading {} { link0Up := n % 2 = 0 } .source true).status .link = flapped n := by
        rw [hlink, flapped]
        simp
      obtain ⟨c', hcall, hidle', hshared⟩ := run_call (h := {}) (e := { link0Up := n % 2 = 0 }) hidle hmon
      refine ⟨c', by rw [flapping, run_append, hrun]; exact hcall, hidle', ?_, ?_⟩
      · rw [hshared, MonitorShared.nmos_called, hnmos]
      · have hoid : monitorOid .source 1 = 201 := by decide
        simp only [hshared, MonitorShared.called, hmon, MonitorShared.seen_answered, hoid]
        rw [MonitorShared.seen_stored_self, hseen, hstatus, List.range_succ, List.map_append]
        rfl

theorem changes_flapped (n : ℕ) : changes ((List.range (n + 1)).map flapped) = n := by
  induction n with
  | zero => rfl
  | succ n ih =>
      have hlast : ((List.range (n + 1)).map flapped).getLast? = some (flapped n) := by
        rw [List.range_succ, List.map_append]
        exact List.getLast?_concat
      rw [List.range_succ, List.map_append, List.map_singleton, changes_concat, ih, hlast]
      simp [flapped_succ_ne]

theorem not_counts_flapping {n : ℕ} (hn : 2 ^ 31 ≤ n) :
    ¬ Along (step {}) (Counts {}) (boot soleSender) (flapping (n + 1)) := by
  intro H
  obtain ⟨c, hrun, -, -, hseen⟩ := run_flapping (n + 1)
  have hexact : c.Exact := run_keeps (J := Exact)
    (fun _ _ _ hJ hcounts hs => hJ.step ((counts_iff_hasRoom hJ _).mp hcounts) hs) (exact_boot soleSender) H hrun
  have hcount := hexact.shared.count 201 .link
  rw [hseen, changes_flapped] at hcount
  have hlast := ((c.shared.counters.at 201).count .link).toInt_lt
  omega

/-- No `int` can count that often. -/
theorem flapping_not_counted : ¬ Along (step {}) (Counts {}) (boot soleSender) (flapping (2 ^ 31 + 1)) :=
  not_counts_flapping le_rfl

end MonitorThreads
end Aes67Daemon
