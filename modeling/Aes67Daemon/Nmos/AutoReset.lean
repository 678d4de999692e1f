import Aes67Daemon.Lib.JsonValue
import Aes67Daemon.Nmos.Introspection

/-!
# The property that can be set

Of the properties of the control protocol a client can set one, 4p14 of a monitor.  A Set
is stored under its oid without a look at the receiver or sender that the monitor would be
of, and where its value is missing or no boolean, `true` is stored; a Get asks for the
receiver or sender first.

## Main definitions

* `setValue?` — the boolean of a Set, in its message.
* `NmosManager.SetAgrees` — a Set and the Gets after it agree.
* `NcpWorld.step` — commands, and what else changes the state they find.
* `NcpWorld.set_agrees_iff` — the runs in which every Set does.
-/
namespace Aes67Daemon

open Text

/-- The monitor that an oid would be of. -/
def monitorAt (oid : ℤ) : Option (Kind × UInt8) :=
  match monitorOf .sink oid with
  | some id => some (.sink, id)
  | none => (monitorOf .source oid).map (Prod.mk .source)

namespace Is12Command

/-- `Get` of 4p14. -/
structure IsGet (c : Is12Command) : Prop where
  mlevel : c.mlevel = 1
  mindex : c.mindex = 1
  propertyId : c.propertyId = (4, 14)

/-- `Set` of any property. -/
structure IsSet (c : Is12Command) : Prop where
  mlevel : c.mlevel = 1
  mindex : c.mindex = 2

end Is12Command

/-- The boolean that a Set has for its value. -/
def setValue? (cmd : JsonValue) : Option Bool :=
  (cmd.at? ["arguments".toList, "value".toList]).bind JsonValue.bool?

namespace NmosManager

/-- The status that a command is answered with. -/
def is12Status (h : NmosHost) (e : MonitorEnv) (s : NmosManager) (c : Is12Command) (m : MonitorCounters) : Option ℕ :=
  (s.is12Command h e c m).map fun r => r.1.status

/-- A Set agrees with Get; `value` is the boolean that it has. -/
structure SetAgrees (h : NmosHost) (s : NmosManager) (m : MonitorCounters) (c : Is12Command) (value : Option Bool) :
    Prop where
  /-- With a boolean 4p14 can be set where it can be got. -/
  answers : value.isSome → c.propertyId = (4, 14) → ∀ e e' g, Is12Command.IsGet g → g.oid = c.oid →
    (s.is12Status h e c m = some 200 ↔ s.is12Status h e' g m = some 200)
  /-- What is set is got, whatever is asked of other objects in between. -/
  kept : ∀ b, value = some b → ∀ e r m', s.is12Command h e c m = some (r, m') → r.status = 200 →
    ∀ envs cs results m₂, (∀ d ∈ cs, d.oid ≠ c.oid) → s.is12Commands h envs cs m' = some (results, m₂) →
      ∀ e' g, Is12Command.IsGet g → g.oid = c.oid →
        ∃ m₃, s.is12Command h e' g m₂ = some ({ status := 200, valueJson := boolText b }, m₃)
  /-- A Set that is refused, or has no boolean, changes nothing. -/
  unchanged : ∀ e r m', s.is12Command h e c m = some (r, m') → r.status ≠ 200 ∨ value = none → m' = m

/-- A Set of 4p14 with a boolean is for a monitor that there is, and one without finds the value
stored that it is taken for. -/
def SetGuard (s : NmosManager) (m : MonitorCounters) (c : Is12Command) (value : Option Bool) : Prop :=
  c.propertyId = (4, 14) → ∀ k id, monitorAt c.oid = some (k, id) →
    (value.isSome → s.has k id = true) ∧
    (value = none → ∃ counters, m.find? c.oid = some counters ∧ counters.autoReset = c.value)

variable {h : NmosHost} {s : NmosManager} {e : MonitorEnv} {m m' : MonitorCounters} {c : Is12Command} {oid : ℤ}

/-! ## Set -/

theorem is12Command_set (hset : c.IsSet) : s.is12Command h e c m =
    if (monitorAt c.oid).isSome ∧ c.propertyId = (4, 14) then
      some ({ status := 200 }, m.insert c.oid { m.at c.oid with autoReset := c.value })
    else some ({ status := 405, errorMessage := "PropertyReadOnly".toList }, m) := by
  have hmonitor : (monitorOf .sink c.oid).isSome ∨ (monitorOf .source c.oid).isSome ↔ (monitorAt c.oid).isSome := by
    unfold monitorAt
    cases monitorOf .sink c.oid with
    | none => simp
    | some id => simp
  rw [is12Command, if_neg (by simp [hset.mlevel]), if_neg (by simp [hset.mlevel]), if_neg (by simp [hset.mindex]),
    if_pos ⟨hset.mlevel, hset.mindex⟩]
  exact if_congr (and_congr_left' hmonitor) rfl rfl

/-- A boolean is taken as it is. -/
theorem value_of_setValue? {cmd : JsonValue} {b : Bool} (hvalue : setValue? cmd = some b) :
    (Is12Command.ofTree cmd.ptree).value = b := by
  obtain ⟨v, hv, hb⟩ := Option.bind_eq_some_iff.mp hvalue
  obtain rfl : v = .bool b := by
    cases v with
    | bool b' => exact congrArg _ (Option.some.inj hb)
    | null | number | string | array | object => cases hb
  have hpath : ∀ key ∈ ["arguments".toList, "value".toList], key ≠ [] := by decide
  have htree := cmd.at?_ptree hpath
  rw [hv, Option.map_some, Ptree.at?] at htree
  obtain ⟨args, hargs, htree⟩ := Option.bind_eq_some_iff.mp htree
  rw [Ptree.at?] at htree
  obtain ⟨value, hchild, htree⟩ := Option.bind_eq_some_iff.mp htree
  obtain rfl : value = _ := Option.some.inj htree
  rw [Is12Command.value, Is12Command.ofTree, hargs, Option.bind_some, hchild, Option.bind_some]
  cases b with
  | false => decide
  | true => decide

/-! ## Get -/

/-- The oid of a monitor is that of its stream. -/
theorem monitorOid_of_monitorOf {k : Kind} {id : UInt8} (hof : monitorOf k oid = some id) : monitorOid k id = oid := by
  obtain ⟨hrange, hid⟩ := Option.ite_none_right_eq_some.mp hof
  obtain rfl := Option.some.inj hid
  have hbase : monitorOid k (UInt8.ofNat (oid - monitorOid k 0).toNat) =
      monitorOid k 0 + (UInt8.ofNat (oid - monitorOid k 0).toNat).toNat := by
    cases k <;> rfl
  rw [hbase, UInt8.toNat_ofNat']
  omega

theorem monitorOid_of_monitorAt {k : Kind} {id : UInt8} (hat : monitorAt oid = some (k, id)) : monitorOid k id = oid := by
  unfold monitorAt at hat
  split at hat
  · rename_i hof
    obtain ⟨rfl, rfl⟩ := Prod.mk.inj (Option.some.inj hat)
    exact monitorOid_of_monitorOf hof
  · obtain ⟨id', hof, heq⟩ := Option.map_eq_some_iff.mp hat
    obtain ⟨rfl, rfl⟩ := Prod.mk.inj heq
    exact monitorOid_of_monitorOf hof

theorem ncpProps_monitor {k : Kind} {id : UInt8} (hat : monitorAt oid = some (k, id)) :
    s.ncpProps h e oid m = s.ncpMonitorProps h e k id m := by
  have hne : oid ≠ kDeviceManagerOid := by
    have hlt := lt_monitorOid k id
    rw [monitorOid_of_monitorAt hat] at hlt
    unfold kDeviceManagerOid
    omega
  rw [ncpProps, if_neg hne]
  rw [monitorAt] at hat
  cases hsink : monitorOf .sink oid with
  | some id' =>
    rw [hsink] at hat
    obtain ⟨rfl, rfl⟩ := Prod.mk.inj (Option.some.inj hat)
    rfl
  | none =>
    rw [hsink] at hat
    obtain ⟨id', hof, heq⟩ := Option.map_eq_some_iff.mp hat
    obtain ⟨rfl, rfl⟩ := Prod.mk.inj heq
    rw [hof]
    rfl

/-- An object that is no monitor has no such property. -/
theorem ncpProps_other (hat : monitorAt oid = none) : (s.ncpProps h e oid m).2 = m ∧
    (4, 14) ∉ (s.ncpProps h e oid m).1.map fun p => (p.level, p.index) := by
  rw [monitorAt] at hat
  rw [ncpProps]
  split
  · refine ⟨rfl, ?_⟩
    rw [show (ncpDeviceManagerProps h).map (fun p => (p.level, p.index)) = [(3, 1), (3, 2), (3, 3), (3, 4), (3, 5), (3, 6),
      (3, 7), (3, 8), (3, 9), (3, 10)] from rfl]
    decide
  · cases hsink : monitorOf .sink oid with
    | some id =>
      rw [hsink] at hat
      cases hat
    | none =>
      rw [hsink] at hat
      rw [Option.map_eq_none_iff.mp hat]
      exact ⟨rfl, List.not_mem_nil⟩

/-- The properties of a monitor, if there is what it is of. -/
theorem ncpMonitorProps_eq (k : Kind) (id : UInt8) :
    (s.has k id = false ∧ s.ncpMonitorProps h e k id m = ([], m)) ∨
    (s.has k id = true ∧ ∃ type resourceId active r, s.ncpMonitorProps h e k id m =
      (monitorProps type resourceId active r ((updateMonitorCounters (monitorOid k id) r m).at (monitorOid k id)),
        updateMonitorCounters (monitorOid k id) r m)) := by
  cases k with
  | sink =>
      cases hfind : s.receivers.find? id with
      | none =>
          left
          simp [has, SortedMap.contains, ncpMonitorProps, ncpReceiverMonitorProps, hfind]
      | some rr =>
          right
          refine ⟨by simp [has, SortedMap.contains, hfind], "receiver", rr.receiverId, rr.active.masterEnable,
            receiverReading h e rr.active.masterEnable, ?_⟩
          simp [ncpMonitorProps, ncpReceiverMonitorProps, hfind]
  | source =>
      cases hfind : s.senders.find? id with
      | none =>
          left
          simp [has, SortedMap.contains, ncpMonitorProps, ncpSenderMonitorProps, hfind]
      | some sr =>
          right
          refine ⟨by simp [has, SortedMap.contains, hfind], "sender", sr.senderId, sr.active.masterEnable,
            senderReading h e sr.active.masterEnable, ?_⟩
          simp [ncpMonitorProps, ncpSenderMonitorProps, hfind]

theorem autoReset_update (oid : ℤ) (r : MonitorReading) (m : MonitorCounters) :
    ((updateMonitorCounters oid r m).at oid).autoReset = (m.at oid).autoReset := by
  simp [updateMonitorCounters, MonitorCounters.at, NcMonitorCounters.observe]

/-- A Get of 4p14 is answered with 200 where there is what the monitor is of ... -/
theorem status_get_iff (hget : c.IsGet) : s.is12Status h e c m = some 200 ↔
    ∃ k id, monitorAt c.oid = some (k, id) ∧ s.has k id = true := by
  rw [is12Status, is12Command_get hget.mlevel hget.mindex, Option.map_some, Option.some.injEq, status_is12Get,
    hget.propertyId]
  cases hat : monitorAt c.oid with
  | none => simp [(ncpProps_other (h := h) (s := s) (e := e) (m := m) hat).2]
  | some monitor =>
      obtain ⟨k, id⟩ := monitor
      have hsame : (∃ k' id', some (k, id) = some (k', id') ∧ s.has k' id' = true) ↔ s.has k id = true := by simp
      rw [ncpProps_monitor hat, hsame]
      obtain ⟨hno, hprops⟩ | ⟨hhas, type, resourceId, active, r, hprops⟩ := ncpMonitorProps_eq (h := h) (s := s) (e := e)
        (m := m) k id
      · rw [hprops, hno]
        simp
      · rw [hprops, hhas]
        simp [monitorProps]

/-- ... and the value is what the counters have. -/
theorem is12Command_get_autoReset (hget : c.IsGet) {k : Kind} {id : UInt8} (hat : monitorAt c.oid = some (k, id))
    (hhas : s.has k id = true) : ∃ m', s.is12Command h e c m =
      some ({ status := 200, valueJson := boolText (m.at c.oid).autoReset }, m') := by
  rw [is12Command_get hget.mlevel hget.mindex, ncpProps_monitor hat, hget.propertyId]
  obtain ⟨hno, -⟩ | ⟨-, type, resourceId, active, r, hprops⟩ := ncpMonitorProps_eq (h := h) (s := s) (e := e) (m := m) k id
  · rw [hno] at hhas
    cases hhas
  · refine ⟨updateMonitorCounters (monitorOid k id) r m, ?_⟩
    rw [hprops, monitorOid_of_monitorAt hat, ← autoReset_update c.oid r m]
    rfl

/-! ## Commands in between -/

theorem find?_ncpProps {oid' : ℤ} (hne : oid ≠ oid') : (s.ncpProps h e oid' m).2.find? oid = m.find? oid := by
  cases hat : monitorAt oid' with
  | none => rw [(ncpProps_other hat).1]
  | some monitor =>
      obtain ⟨k, id⟩ := monitor
      rw [ncpProps_monitor hat]
      obtain ⟨-, hprops⟩ | ⟨-, type, resourceId, active, r, hprops⟩ := ncpMonitorProps_eq (h := h) (s := s) (e := e)
        (m := m) k id
      · rw [hprops]
      · rw [hprops, updateMonitorCounters, monitorOid_of_monitorAt hat, SortedMap.find?_insert_of_ne _ _ hne]

/-- A command changes the counters of its own object only. -/
theorem find?_is12Command {r : Is12Result} (hs : s.is12Command h e c m = some (r, m')) (hne : oid ≠ c.oid) :
    m'.find? oid = m.find? oid := by
  rw [is12Command] at hs
  split at hs
  · obtain ⟨-, rfl⟩ := Prod.mk.inj (Option.some.inj hs)
    rfl
  split at hs
  · obtain ⟨classId, -, heq⟩ := Option.map_eq_some_iff.mp hs
    obtain ⟨-, rfl⟩ := Prod.mk.inj heq
    rfl
  split at hs
  · obtain ⟨-, rfl⟩ := Prod.mk.inj (Option.some.inj hs)
    exact find?_ncpProps hne
  split at hs
  · split at hs
    · obtain ⟨-, rfl⟩ := Prod.mk.inj (Option.some.inj hs)
      exact SortedMap.find?_insert_of_ne _ _ hne
    · obtain ⟨-, rfl⟩ := Prod.mk.inj (Option.some.inj hs)
      rfl
  split at hs
  · obtain ⟨-, rfl⟩ := Prod.mk.inj (Option.some.inj hs)
    rfl
  split at hs <;>
  · obtain ⟨-, rfl⟩ := Prod.mk.inj (Option.some.inj hs)
    rfl

theorem find?_is12Commands {envs : ℕ → MonitorEnv} {cs : List Is12Command} {results : List (ℤ × Is12Result)}
    (hs : s.is12Commands h envs cs m = some (results, m')) (hne : ∀ d ∈ cs, d.oid ≠ oid) :
    m'.find? oid = m.find? oid := by
  induction cs generalizing envs m results with
  | nil =>
      obtain ⟨-, rfl⟩ := Prod.mk.inj (Option.some.inj hs)
      rfl
  | cons d cs ih =>
      obtain ⟨hd, hne⟩ := List.forall_mem_cons.mp hne
      rw [is12Commands] at hs
      obtain ⟨⟨result, m₁⟩, hfirst, hs⟩ := Option.bind_eq_some_iff.mp hs
      obtain ⟨⟨rest, m₂⟩, hrest, hs⟩ := Option.bind_eq_some_iff.mp hs
      obtain ⟨-, rfl⟩ := Prod.mk.inj (Option.some.inj hs)
      exact (ih hrest hne).trans (find?_is12Command hfirst hd.symm)

/-! ## A Set -/

/-- What is stored is what was there. -/
theorem insert_autoReset_eq_iff (b : Bool) : m.insert oid { m.at oid with autoReset := b } = m ↔
    ∃ c, m.find? oid = some c ∧ c.autoReset = b := by
  constructor
  · intro heq
    have hfind := congrArg (SortedMap.find? · oid) heq
    simp only [SortedMap.find?_insert, if_true] at hfind
    exact ⟨_, hfind.symm, rfl⟩
  · rintro ⟨c, hfind, rfl⟩
    refine SortedMap.insert_of_find?_some ?_
    rw [MonitorCounters.at, hfind]
    rfl

/-- The arguments of a command for 4p14. -/
def autoResetArgs : Ptree :=
  .node [] [("id".toList, .node [] [("level".toList, .leaf "4".toList), ("index".toList, .leaf "14".toList)])]

/-- A command that gets 4p14. -/
def getAutoReset (oid : ℤ) : Is12Command where
  handle := 0
  oid := oid
  mlevel := 1
  mindex := 1
  args := some autoResetArgs

theorem isGet_getAutoReset (oid : ℤ) : (getAutoReset oid).IsGet := by
  have hid : (autoResetArgs.intAt ["id", "level"], autoResetArgs.intAt ["id", "index"]) = (4, 14) := by decide +kernel
  exact ⟨rfl, rfl, hid⟩

theorem SetGuard.of_setAgrees {value : Option Bool} (hset : c.IsSet) (A : s.SetAgrees h m c value) :
    s.SetGuard m c value := by
  intro hid k id hat
  have hstored : ∀ e, s.is12Command h e c m =
      some ({ status := 200 }, m.insert c.oid { m.at c.oid with autoReset := c.value }) := fun e => by
    rw [is12Command_set hset, if_pos ⟨by rw [hat]; rfl, hid⟩]
  refine ⟨fun hvalue => ?_, fun hvalue => ?_⟩
  · have hstatus : s.is12Status h {} c m = some 200 := by rw [is12Status, hstored {}]; rfl
    have hget := (A.answers hvalue hid {} {} _ (isGet_getAutoReset c.oid) rfl).mp hstatus
    obtain ⟨k', id', hat', hhas⟩ := (status_get_iff (isGet_getAutoReset c.oid)).mp hget
    obtain ⟨rfl, rfl⟩ := Prod.mk.inj (Option.some.inj (hat.symm.trans hat'))
    exact hhas
  · exact (insert_autoReset_eq_iff c.value).mp (A.unchanged {} _ _ (hstored {}) (.inr hvalue))

theorem SetGuard.setAgrees {value : Option Bool} (hset : c.IsSet) (hvalue : ∀ b, value = some b → c.value = b)
    (G : s.SetGuard m c value) : s.SetAgrees h m c value := by
  refine ⟨fun hsome hid e e' g hget hoid => ?_, fun b hb e r m' hs hstatus envs cs results m₂ hne hcs e' g hget hoid => ?_,
    fun e r m' hs hcase => ?_⟩
  · rw [status_get_iff hget, hoid, is12Status, is12Command_set hset]
    cases hat : monitorAt c.oid with
    | none => simp
    | some monitor =>
        obtain ⟨k, id⟩ := monitor
        have hhas := (G hid k id hat).1 hsome
        simp [hid, hhas]
  · rw [is12Command_set hset] at hs
    split at hs
    · rename_i hcond
      obtain ⟨-, rfl⟩ := Prod.mk.inj (Option.some.inj hs)
      obtain ⟨⟨k, id⟩, hat⟩ := Option.isSome_iff_exists.mp hcond.1
      have hhas := (G hcond.2 k id hat).1 (hb ▸ rfl)
      obtain ⟨m₃, hanswer⟩ := is12Command_get_autoReset (h := h) (e := e') (m := m₂) hget (hoid ▸ hat) hhas
      have hstored : (m₂.at g.oid).autoReset = b := by
        rw [MonitorCounters.at, hoid, find?_is12Commands hcs hne, SortedMap.find?_insert, if_pos rfl]
        exact hvalue b hb
      exact ⟨m₃, hstored ▸ hanswer⟩
    · obtain ⟨rfl, -⟩ := Prod.mk.inj (Option.some.inj hs)
      cases hstatus
  · rw [is12Command_set hset] at hs
    split at hs
    · rename_i hcond
      obtain ⟨rfl, rfl⟩ := Prod.mk.inj (Option.some.inj hs)
      obtain ⟨⟨k, id⟩, hat⟩ := Option.isSome_iff_exists.mp hcond.1
      obtain hrefused | hnone := hcase
      · exact absurd rfl hrefused
      · exact (insert_autoReset_eq_iff c.value).mpr ((G hcond.2 k id hat).2 hnone)
    · obtain ⟨-, rfl⟩ := Prod.mk.inj (Option.some.inj hs)
      rfl

end NmosManager

/-! ## A run -/

/-- What a command finds. -/
structure NcpWorld where
  nmos : NmosManager
  counters : MonitorCounters := .empty

inductive NcpLabel
  /-- The rest of the daemon goes on. -/
  | nmos (s : NmosManager)
  /-- `is12_notify_worker` works the properties of a monitor out. -/
  | observe (e : MonitorEnv) (k : Kind) (id : UInt8)
  | command (e : MonitorEnv) (cmd : JsonValue)

namespace NcpWorld

/-- One step; `none` is an exception. -/
def step (h : NmosHost) (w : NcpWorld) : NcpLabel → Option NcpWorld
  | .nmos s => some { w with nmos := s }
  | .observe e k id => some { w with counters := (w.nmos.ncpMonitorProps h e k id w.counters).2 }
  | .command e cmd =>
    (w.nmos.is12Command h e (.ofTree cmd.ptree) w.counters).map fun r => { w with counters := r.2 }

/-- A Set that is next agrees with Get. -/
def Agrees (h : NmosHost) (w : NcpWorld) : NcpLabel → Prop
  | .command _ cmd => (Is12Command.ofTree cmd.ptree).IsSet →
    w.nmos.SetAgrees h w.counters (.ofTree cmd.ptree) (setValue? cmd)
  | _ => True

/-- A Set that is next is guarded. -/
def Guarded (w : NcpWorld) : NcpLabel → Prop
  | .command _ cmd => (Is12Command.ofTree cmd.ptree).IsSet →
    w.nmos.SetGuard w.counters (.ofTree cmd.ptree) (setValue? cmd)
  | _ => True

/-- **In a run of any commands every Set agrees with Get exactly when every Set of 4p14 on a monitor
oid with a boolean is for a receiver or sender that there is, and every one without a boolean
finds `true`, or what else it is read as, stored already.** -/
theorem set_agrees_iff (h : NmosHost) (w : NcpWorld) (labels : List NcpLabel) :
    Along (step h) (Agrees h) w labels ↔ Along (step h) Guarded w labels := by
  constructor
  · refine Along.imp fun w l hA => ?_
    cases l with
    | nmos s => trivial
    | observe e k id => trivial
    | command e cmd => exact fun hset => NmosManager.SetGuard.of_setAgrees hset (hA hset)
  · refine Along.imp fun w l hG => ?_
    cases l with
    | nmos s => trivial
    | observe e k id => trivial
    | command e cmd =>
        exact fun hset => (hG hset).setAgrees hset fun b hb => NmosManager.value_of_setValue? hb

/-- A command that sets 4p14 of an oid. -/
def setCommand (oid : ℕ) (b : Bool) : JsonValue :=
  .object [("oid".toList, .number (.natural oid)),
    ("methodId".toList, .object [("level".toList, .number (.natural 1)), ("index".toList, .number (.natural 2))]),
    ("arguments".toList, .object [("id".toList, .object [("level".toList, .number (.natural 4)),
      ("index".toList, .number (.natural 14))]), ("value".toList, .bool b)])]

/-- A monitor of no receiver can be set, and not be got. -/
theorem unknown_monitor_not_agrees : ¬ Along (step {}) (Agrees {}) ⟨{ sm := {} }, .empty⟩ [.command {} (setCommand 100 false)] := by
  intro H
  have hset : (Is12Command.ofTree (setCommand 100 false).ptree).IsSet :=
    ⟨by decide +kernel, by decide +kernel⟩
  have hguard := NmosManager.SetGuard.of_setAgrees hset (H.1 hset) (by decide +kernel) .sink 0 (by decide +kernel)
  exact absurd (hguard.1 (by decide +kernel)) (by decide)

end NcpWorld
end Aes67Daemon
