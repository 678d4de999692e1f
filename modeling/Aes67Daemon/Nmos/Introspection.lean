import Aes67Daemon.Nmos.ControlProtocol
import Aes67Daemon.Nmos.Worker

/-!
# Introspection

A client of the control protocol asks the root block for its members, the class manager
for the class of a member, and the member for its properties.  What it is told comes
from tables that are written by hand, and the oids are reckoned from the ids of streams;
they are apart because no stream has an id above `stream_id_max`.

## Main definitions

* `System.InRange` — the ids of streams, and of the resources that are kept of them.
* `Described` — a member is what its class descriptor says.
* `NmosManager.Introspects`, `System.introspects` — what a client finds out is right.
-/
namespace Aes67Daemon

open Text

/-! ## Ids -/

/-- The stream that an operation has read, and goes on to write resources for. -/
def Op.writes? : Op → Option (Kind × UInt8)
  | .senderTp id _ _ | .writeSender id _ _ _ => some (.source, id)
  | .writeReceiver id _ _ _ => some (.sink, id)
  | _ => none

namespace Op
variable {h : NmosHost} {e : NmosEnv} {s : NmosManager} {k : Kind} {id : UInt8} {op op' : Op}

theorem writes?_of_mem {next : List Op} (hnext : ∀ op' ∈ next, op'.writes? = none) (hop' : op' ∈ next)
    (hwrites : op'.writes? = some (k, id)) : False := by
  rw [hnext op' hop'] at hwrites
  cases hwrites

/-- A stream that resources are written for was read from the session manager. -/
theorem writes?_exec (hop' : op' ∈ (op.exec h e s).1) (hwrites : op'.writes? = some (k, id)) :
    op.writes? = some (k, id) ∨ ∃ info, (s.sm.books.table k).find? id = some info := by
  have happly : ∀ (k' : Kind) (id' : UInt8), ∀ op'' ∈ apply k' id', op''.writes? = none := by
    intro k' id' op'' hop''
    rcases mem_apply_cases hop'' with rfl | rfl | rfl <;> rfl
  cases op with
  | patchSender id' body | patchReceiver id' body =>
      exact (writes?_of_mem (happly _ _) (mem_afterPatch hop') hwrites).elim
  | takeDue =>
      obtain ⟨pa, -, hop'⟩ := List.mem_flatMap.mp hop'
      rcases mem_due_cases hop' with rfl | hop'
      · cases hwrites
      · exact (writes?_of_mem (happly _ _) hop' hwrites).elim
  | getSource id' push =>
      right
      simp only [exec] at hop'
      cases hget : s.sm.getSource id' with
      | none =>
          rw [hget] at hop'
          cases hop'
      | some src =>
          rw [hget] at hop'
          rw [List.mem_singleton.mp hop'] at hwrites
          cases hwrites
          obtain ⟨info, hinfo, -⟩ := Option.map_eq_some_iff.mp hget
          exact ⟨info, hinfo⟩
  | getSink id' push =>
      right
      simp only [exec] at hop'
      cases hget : s.sm.getSink id' with
      | none =>
          rw [hget] at hop'
          cases hop'
      | some sink =>
          rw [hget] at hop'
          rw [List.mem_singleton.mp hop'] at hwrites
          cases hwrites
          obtain ⟨info, hinfo, -⟩ := Option.map_eq_some_iff.mp hget
          exact ⟨info, hinfo⟩
  | senderTp id' src push =>
      left
      rw [List.mem_singleton.mp hop'] at hwrites
      exact hwrites
  | getSources =>
      obtain ⟨src, -, rfl⟩ := List.mem_map.mp hop'
      cases hwrites
  | getSinks =>
      obtain ⟨sink, -, rfl⟩ := List.mem_map.mp hop'
      cases hwrites
  | collectAll =>
      obtain ⟨doc, -, rfl⟩ := List.mem_map.mp hop'
      cases hwrites
  | collectSender id' =>
      simp only [exec] at hop'
      split at hop'
      · obtain ⟨doc, -, rfl⟩ := List.mem_map.mp hop'
        cases hwrites
      · cases hop'
  | nextEvent =>
      simp only [exec] at hop'
      split at hop'
      · rename_i ev evs _
        rcases ev with ⟨_ | _, _⟩ | ⟨_ | _, _⟩ | _ | _ <;> simp [handle] at hop' <;> simp [hop', writes?] at hwrites
      · cases hop'
  | _ =>
      refine (writes?_of_mem ?_ hop' hwrites).elim
      simp only [exec]
      repeat' split
      all_goals simp [writes?]

/-- Resources are there that were there before, or that an operation has written. -/
theorem has_or_writes (hhas : (op.exec h e s).2.has k id = true) :
    s.has k id = true ∨ op.writes? = some (k, id) := by
  cases moves_exec h e k id s op with
  | silent hop hnext hsame => exact .inl (hsame.has ▸ hhas)
  | connect sink hop hnext hs =>
      rw [hs] at hhas
      exact .inl (by cases k <;> exact hhas)
  | event ev evs hop hqueue hnext hs =>
      rw [hs] at hhas
      exact .inl (by cases k <;> exact hhas)
  | read hop hop' hnext hs => exact .inl (hs ▸ hhas)
  | lost hop hnone hnext hs => exact .inl (hs ▸ hhas)
  | write hop hnext hsm hqueue _ =>
      cases op with
      | getSource id' push =>
          left
          simp only [exec] at hhas
          split at hhas <;> exact hhas
      | getSink id' push =>
          left
          simp only [exec] at hhas
          split at hhas <;> exact hhas
      | senderTp id' src push | writeSender id' src tp push | writeReceiver id' sink tp push =>
          right
          cases hop
          rfl
      | _ => cases hop
  | erase hop hnext hsm hqueue hgone =>
      rw [hgone] at hhas
      cases hhas
  | list hop hs hnext hcover => exact .inl (hs ▸ hhas)

end Op

/-- No resources are kept under an id above `stream_id_max`. -/
def NmosManager.InRange (s : NmosManager) : Prop := ∀ k id, s.has k id = true → id.toNat ≤ streamIdMax

namespace System
variable {h : NmosHost} {σ σ' : System}

/-- The ids of streams, and of the resources that are kept of them, are in range. -/
structure InRange (σ : System) : Prop where
  streams : σ.nmos.sm.InRange
  writes : ∀ t, ∀ op ∈ σ.threads.ops t, ∀ k id, op.writes? = some (k, id) → id.toNat ≤ streamIdMax
  resources : σ.nmos.InRange

theorem inRange_turned (H : σ.InRange) {t : ℕ} {e : NmosEnv} {op : Op} {rest : List Op}
    (hops : σ.threads.ops t = op :: rest) : (σ.turned h t e op rest).InRange where
  streams := by
    show (op.exec h e σ.nmos).2.sm.InRange
    rcases Op.sm_exec op with hsm | ⟨sink, -, hsm⟩
    · rw [hsm]
      exact H.streams
    · have hocc : σ.nmos.sm.occur h.host (.request (.addSink e.env sink)) =
          some (σ.nmos.sm.addSink h.host e.env sink).2 := rfl
      rw [hsm]
      exact SessionManager.inRange_occur H.streams hocc
  writes := by
    intro t' op' hop' k id hwrites
    have hop' : op' ∈ if t' = t then (op.exec h e σ.nmos).1 ++ rest else σ.threads.ops t' :=
      Pool.ops_turned t' ▸ hop'
    split at hop'
    · rcases List.mem_append.mp hop' with hnext | hrest
      · rcases Op.writes?_exec hnext hwrites with hold | ⟨info, hinfo⟩
        · exact H.writes t op (by rw [hops]; exact List.mem_cons_self) k id hold
        · exact H.streams k id info hinfo
      · exact H.writes t op' (by rw [hops]; exact List.mem_cons_of_mem _ hrest) k id hwrites
    · exact H.writes t' op' hop' k id hwrites
  resources := by
    intro k id hhas
    rcases Op.has_or_writes hhas with hold | hwrites
    · exact H.resources k id hold
    · exact H.writes t op (by rw [hops]; exact List.mem_cons_self) k id hwrites

theorem inRange_step {l : Label} (H : σ.InRange) (hs : σ.step h l = some σ') : σ'.InRange := by
  rcases step_cases hs with ⟨ev, sm, -, hsm, rfl⟩ | ⟨found, -, rfl⟩ | ⟨t, op, -, hstart, -, hidle, rfl⟩ |
    ⟨t, e, op, rest, -, -, hops, rfl⟩
  · exact ⟨SessionManager.inRange_occur H.streams hsm, H.writes, fun k id hhas =>
      H.resources k id (by cases k <;> exact hhas)⟩
  · exact ⟨H.streams, H.writes, fun k id hhas => H.resources k id (by cases k <;> exact hhas)⟩
  · refine ⟨H.streams, fun t' op' hop' k id hwrites => ?_, H.resources⟩
    have hop' : op' ∈ if t' = t then [op] else σ.threads.ops t' := Pool.ops_started t' ▸ hop'
    split at hop'
    · rw [List.mem_singleton.mp hop'] at hwrites
      cases op <;> first | cases hstart | cases hwrites
    · exact H.writes t' op' hop' k id hwrites
  · exact inRange_turned H hops

/-- **The ids are in range in every reachable state.** -/
theorem Reachable.inRange (H : σ.Reachable h) : σ.InRange := by
  obtain ⟨env, now, before, sm, e, labels, hbefore, hrun⟩ := H
  have hsm : sm.InRange := run_keeps (P := fun _ _ => True)
    (fun _ _ _ H _ hs => SessionManager.inRange_occur H hs) (SessionManager.inRange_start now)
    (along_of_forall fun _ _ => trivial) hbefore
  have hboot : (boot h e sm).InRange := by
    refine ⟨hsm, fun t op hop k id hwrites => ?_, fun k id hhas => ?_⟩
    · have hop : op ∈ if t = 0 then Op.boot else [] := hop
      split at hop
      · simp only [Op.boot, List.mem_cons, List.not_mem_nil, or_false] at hop
        rcases hop with rfl | rfl | rfl | rfl <;> cases hwrites
      · cases hop
    · cases k <;> cases hhas
  exact run_keeps (P := fun _ _ => True) (fun _ _ _ H _ hs => inRange_step H hs) hboot
    (along_of_forall fun _ _ => trivial) hrun

end System

/-! ## Oids -/

/-- The oid of a monitor leads back to its stream. -/
theorem monitorOf_monitorOid (k : Kind) {id : UInt8} (hid : id.toNat ≤ streamIdMax) :
    monitorOf k (monitorOid k id) = some id := by
  have hbase : monitorOid k id = monitorOid k 0 + id.toNat := by cases k <;> rfl
  have hlt : id.toNat < 64 := by
    unfold streamIdMax at hid
    omega
  rw [monitorOf, hbase, if_pos (by omega), add_sub_cancel_left]
  simp

theorem monitorOf_of_ne {k k' : Kind} (hne : k ≠ k') {id : UInt8} (hid : id.toNat ≤ streamIdMax) :
    monitorOf k (monitorOid k' id) = none := by
  unfold streamIdMax at hid
  cases k <;> cases k' <;> simp [monitorOf, monitorOid, kReceiverMonitorOidBase, kSenderMonitorOidBase] at hne ⊢
  · omega
  · omega

/-- Different monitors have different oids. -/
theorem monitorOid_inj {k k' : Kind} {id id' : UInt8} (hid : id.toNat ≤ streamIdMax)
    (hid' : id'.toNat ≤ streamIdMax) (heq : monitorOid k id = monitorOid k' id') : k = k' ∧ id = id' := by
  have hof := monitorOf_monitorOid k hid
  by_cases hk : k = k'
  · subst hk
    rw [heq, monitorOf_monitorOid k hid', Option.some.injEq] at hof
    exact ⟨rfl, hof.symm⟩
  · rw [heq, monitorOf_of_ne hk hid'] at hof
    cases hof

/-- The oids of the managers and of the root block are below those of the monitors. -/
theorem lt_monitorOid (k : Kind) (id : UInt8) : 100 ≤ monitorOid k id := by
  cases k with
  | source =>
      simp only [monitorOid, kSenderMonitorOidBase]
      omega
  | sink =>
      simp only [monitorOid, kReceiverMonitorOidBase]
      omega

namespace NmosManager
variable {h : NmosHost} {s : NmosManager}

theorem mem_monitors {k : Kind} {id : UInt8} : (k, id) ∈ s.monitors ↔ s.has k id = true := by
  have hmem : ∀ {α : Type} (m : SortedMap UInt8 α), (∃ a, (id, a) ∈ m.entries) ↔ m.contains id = true := by
    intro α m
    simp only [SortedMap.mem_entries, SortedMap.contains_eq_true]
  cases k with
  | source => simp [monitors, has, ← hmem]
  | sink => simp [monitors, has, ← hmem]

theorem nodup_monitors (s : NmosManager) : s.monitors.Nodup := by
  have hnodup : ∀ {α : Type} (k : Kind) (m : SortedMap UInt8 α), (m.entries.map fun e => (k, e.1)).Nodup := by
    intro α k m
    have hkeys := m.keys_nodup.map (f := fun id => (k, id)) fun id id' heq => (Prod.mk.inj heq).2
    rwa [List.map_map] at hkeys
  refine (hnodup .sink _).append (hnodup .source _) fun m hm hm' => ?_
  obtain ⟨e, -, rfl⟩ := List.mem_map.mp hm
  obtain ⟨e', -, heq⟩ := List.mem_map.mp hm'
  cases (Prod.mk.inj heq).1

/-- The monitors have oids of their own. -/
theorem nodup_monitorOids (H : s.InRange) : (s.monitors.map fun m => monitorOid m.1 m.2).Nodup := by
  refine s.nodup_monitors.map_on fun m hm m' hm' heq => ?_
  obtain ⟨hk, hid⟩ := monitorOid_inj (H _ _ (mem_monitors.mp hm)) (H _ _ (mem_monitors.mp hm')) heq
  exact Prod.ext hk hid

/-! ## What a client finds out -/

/-- A command is answered with a status. -/
def Answers (h : NmosHost) (s : NmosManager) (c : Is12Command) (status : ℕ) : Prop :=
  ∀ e m, ∃ r m', s.is12Command h e c m = some (r, m') ∧ r.status = status

/-- A member is what its class descriptor says. -/
structure Described (h : NmosHost) (s : NmosManager) (d : NcMemberDescriptor) (cd : NcClassDescriptor) : Prop where
  /-- `GetControlClass` answers with the descriptor. -/
  controlClass : ∀ c : Is12Command, c.oid = kClassManagerOid → c.mlevel = 3 → c.mindex = 1 →
    c.classId = some d.classId →
    ∀ e m, s.is12Command h e c m = some ({ status := 200, valueJson := cd.json }, m)
  /-- `Get` answers for the properties in the descriptor. -/
  sound : ∀ p ∈ cd.properties, ∀ c : Is12Command, c.oid = d.oid → c.mlevel = 1 → c.mindex = 1 →
    c.propertyId = (p.level, p.index) → s.Answers h c 200
  /-- `Get` answers for no other. -/
  complete : ∀ c : Is12Command, c.oid = d.oid → c.mlevel = 1 → c.mindex = 1 →
    ∀ e m r m', s.is12Command h e c m = some (r, m') → r.status = 200 →
      ∃ p ∈ cd.properties, c.propertyId = (p.level, p.index)
  /-- Every method in the descriptor answers, for some arguments. -/
  methods : ∀ p ∈ cd.methods, ∃ args, ∀ c : Is12Command, c.oid = d.oid → c.mlevel = p.level →
    c.mindex = p.index → c.args = some args → s.Answers h c 200

/-- What a client finds out about the objects is right. -/
structure Introspects (h : NmosHost) (s : NmosManager) : Prop where
  /-- `GetMemberDescriptors` answers with the members. -/
  listed : ∀ c : Is12Command, c.oid = kRootBlockOid → c.mlevel = 2 → c.mindex = 1 →
    ∀ e m, s.is12Command h e c m = some ({ status := 200, valueJson := s.ncpMemberDescriptorsJson }, m)
  oids : (s.ncpMemberDescriptors.map NcMemberDescriptor.oid).Nodup
  root : kRootBlockOid ∉ s.ncpMemberDescriptors.map NcMemberDescriptor.oid
  described : ∀ d ∈ s.ncpMemberDescriptors, ∃ cd, s.Described h d cd

/-! ### The dispatch -/

section
variable {e : MonitorEnv} {c : Is12Command} {m : MonitorCounters}

theorem is12Command_members (hoid : c.oid = kRootBlockOid) (hlevel : c.mlevel = 2) (hindex : c.mindex = 1) :
    s.is12Command h e c m = some ({ status := 200, valueJson := s.ncpMemberDescriptorsJson }, m) := by
  rw [is12Command, if_pos ⟨hoid, hlevel, hindex⟩]

theorem is12Command_class (hoid : c.oid = kClassManagerOid) (hlevel : c.mlevel = 3) (hindex : c.mindex = 1)
    {classId : List ℤ} (hclass : c.classId = some classId) {cd : NcClassDescriptor}
    (hcd : ncpClassDescriptor classId = some cd) :
    s.is12Command h e c m = some ({ status := 200, valueJson := cd.json }, m) := by
  have hne : classId ≠ [] := by
    rintro rfl
    cases hcd
  rw [is12Command, if_neg (by simp [hlevel]), if_pos ⟨hoid, hlevel, hindex⟩, hclass, Option.map_some, if_neg hne, hcd]

theorem is12Command_get (hlevel : c.mlevel = 1) (hindex : c.mindex = 1) :
    s.is12Command h e c m = some (is12Get (s.ncpProps h e c.oid m).1 c.propertyId, (s.ncpProps h e c.oid m).2) := by
  rw [is12Command, if_neg (by simp [hlevel]), if_neg (by simp [hlevel]), if_pos ⟨hlevel, hindex⟩]
  rfl

theorem is12Command_receiver {id : UInt8} (hof : monitorOf .sink c.oid = some id) (hlevel : c.mlevel = 4)
    (hindex : c.mindex = 1 ∨ c.mindex = 2) :
    s.is12Command h e c m = some (is12PacketCounters (s.receivers.contains id), m) := by
  rw [is12Command, if_neg (by simp [hlevel]), if_neg (by simp [hlevel]), if_neg (by simp [hlevel]),
    if_neg (by simp [hlevel]), if_pos ⟨hlevel, hindex⟩, hof]

theorem is12Command_sender {id : UInt8} (hno : monitorOf .sink c.oid = none)
    (hof : monitorOf .source c.oid = some id) (hlevel : c.mlevel = 4) (hindex : c.mindex = 1) :
    s.is12Command h e c m = some (is12PacketCounters (s.senders.contains id), m) := by
  rw [is12Command, if_neg (by simp [hlevel]), if_neg (by simp [hlevel]), if_neg (by simp [hlevel]),
    if_neg (by simp [hlevel]), if_pos ⟨hlevel, .inl hindex⟩, hno, if_pos ⟨hlevel, hindex⟩, hof]

end

/-- `Get` finds the properties that are listed. -/
theorem status_is12Get {props : List NcPropEntry} {id : ℤ × ℤ} :
    (is12Get props id).status = 200 ↔ id ∈ props.map fun p => (p.level, p.index) := by
  rw [is12Get]
  cases hfind : props.find? fun p => p.level = id.1 ∧ p.index = id.2 with
  | none =>
      have hnone := List.find?_eq_none.mp hfind
      have hmem : id ∉ props.map fun p => (p.level, p.index) := by
        intro hmem
        obtain ⟨p, hp, rfl⟩ := List.mem_map.mp hmem
        exact hnone p hp (by simp)
      simp only [hmem, iff_false]
      split <;> simp
  | some p =>
      have hp := List.find?_some hfind
      simp only [decide_eq_true_eq] at hp
      simp only [true_iff]
      exact List.mem_map.mpr ⟨p, List.mem_of_find?_eq_some hfind, Prod.ext hp.1 hp.2⟩

/-- A member whose properties are those in its class descriptor. -/
theorem described_of {d : NcMemberDescriptor} {cd : NcClassDescriptor}
    (hcd : ncpClassDescriptor d.classId = some cd)
    (hprops : ∀ e m, (s.ncpProps h e d.oid m).1.map (fun p => (p.level, p.index)) =
      cd.properties.map fun p => (p.level, p.index))
    (hmethods : ∀ p ∈ cd.methods, ∃ args, ∀ c : Is12Command, c.oid = d.oid → c.mlevel = p.level →
      c.mindex = p.index → c.args = some args → s.Answers h c 200) : s.Described h d cd where
  controlClass c hoid hlevel hindex hclass e m := is12Command_class hoid hlevel hindex hclass hcd
  sound := by
    intro p hp c hoid hlevel hindex hid e m
    refine ⟨_, _, is12Command_get hlevel hindex, status_is12Get.mpr ?_⟩
    rw [hoid, hprops, hid]
    exact List.mem_map_of_mem hp
  complete := by
    intro c hoid hlevel hindex e m r m' hanswer hstatus
    rw [is12Command_get hlevel hindex] at hanswer
    cases hanswer
    have hmem := status_is12Get.mp hstatus
    rw [hoid, hprops] at hmem
    obtain ⟨p, hp, hid⟩ := List.mem_map.mp hmem
    exact ⟨p, hp, hid.symm⟩
  methods := hmethods

/-! ### The members -/

/-- The arguments that ask for a class. -/
def classIdArgs (classId : List ℤ) : Ptree :=
  .node [] [("classId".toList, .node [] (classId.map fun n => ([], .leaf (Json.printInt n))))]

theorem described_deviceManager :
    ∃ cd, s.Described h ⟨kDeviceManagerOid, "DeviceManager".toList, [1, 3, 1]⟩ cd := by
  refine ⟨_, described_of rfl (fun e m => ?_) (fun p hp => ?_)⟩
  · rfl
  · cases hp

theorem described_classManager :
    ∃ cd, s.Described h ⟨kClassManagerOid, "ClassManager".toList, [1, 3, 2]⟩ cd := by
  refine ⟨_, described_of rfl (fun e m => ?_) (fun p hp => ?_)⟩
  · rfl
  · obtain rfl := List.mem_singleton.mp hp
    refine ⟨classIdArgs [1, 1], fun c hoid hlevel hindex hargs e m => ?_⟩
    have hclass : c.classId = some [1, 1] := by
      rw [Is12Command.classId, hargs]
      decide
    exact ⟨_, _, is12Command_class hoid hlevel hindex hclass rfl, rfl⟩

theorem described_receiver {id : UInt8} (hid : id.toNat ≤ streamIdMax) (hhas : s.has .sink id = true) :
    ∃ cd, s.Described h (monitorMember .sink id) cd := by
  have hof := monitorOf_monitorOid .sink hid
  obtain ⟨rr, hrr⟩ := SortedMap.contains_eq_true.mp hhas
  refine ⟨_, described_of rfl (fun e m => ?_) (fun p hp => ?_)⟩
  · have hne : monitorOid .sink id ≠ kDeviceManagerOid := by
      have hlt := lt_monitorOid .sink id
      unfold kDeviceManagerOid
      omega
    rw [monitorMember, ncpProps, if_neg hne, hof]
    simp only [ncpReceiverMonitorProps, hrr]
    rfl
  · refine ⟨.leaf [], fun c hoid hlevel hindex hargs e m => ?_⟩
    have hmethod : c.mlevel = 4 ∧ (c.mindex = 1 ∨ c.mindex = 2) := by
      rw [hlevel, hindex]
      rcases List.mem_pair.mp hp with rfl | rfl
      · exact ⟨rfl, .inl rfl⟩
      · exact ⟨rfl, .inr rfl⟩
    rw [← show c.oid = monitorOid .sink id from hoid] at hof
    refine ⟨_, _, is12Command_receiver hof hmethod.1 hmethod.2, ?_⟩
    rw [show s.receivers.contains id = true from hhas]
    rfl

theorem described_sender {id : UInt8} (hid : id.toNat ≤ streamIdMax) (hhas : s.has .source id = true) :
    ∃ cd, s.Described h (monitorMember .source id) cd := by
  have hof := monitorOf_monitorOid .source hid
  have hno : monitorOf .sink (monitorOid .source id) = none := monitorOf_of_ne (by simp) hid
  obtain ⟨sr, hsr⟩ := SortedMap.contains_eq_true.mp hhas
  refine ⟨_, described_of rfl (fun e m => ?_) (fun p hp => ?_)⟩
  · have hne : monitorOid .source id ≠ kDeviceManagerOid := by
      have hlt := lt_monitorOid .source id
      unfold kDeviceManagerOid
      omega
    rw [monitorMember, ncpProps, if_neg hne, hno, hof]
    simp only [ncpSenderMonitorProps, hsr]
    rfl
  · obtain rfl := List.mem_singleton.mp hp
    refine ⟨.leaf [], fun c hoid hlevel hindex hargs e m => ?_⟩
    rw [← show c.oid = monitorOid .source id from hoid] at hof hno
    refine ⟨_, _, is12Command_sender hno hof hlevel hindex, ?_⟩
    rw [show s.senders.contains id = true from hhas]
    rfl

theorem introspects_of_inRange (H : s.InRange) : s.Introspects h where
  listed c hoid hlevel hindex e m := is12Command_members hoid hlevel hindex
  oids := by
    have hoids : s.ncpMemberDescriptors.map NcMemberDescriptor.oid =
        kDeviceManagerOid :: kClassManagerOid :: s.monitors.map fun m => monitorOid m.1 m.2 := by
      simp only [ncpMemberDescriptors, List.map_cons, List.map_map]
      refine congrArg (fun l => kDeviceManagerOid :: kClassManagerOid :: l) (List.map_congr_left fun m _ => ?_)
      obtain ⟨k, id⟩ := m
      cases k <;> rfl
    rw [hoids]
    have hbelow : ∀ oid ∈ s.monitors.map (fun m => monitorOid m.1 m.2), 100 ≤ oid := by
      intro oid hoid
      obtain ⟨m, -, rfl⟩ := List.mem_map.mp hoid
      exact lt_monitorOid m.1 m.2
    refine List.nodup_cons.mpr ⟨fun hmem => ?_, List.nodup_cons.mpr ⟨fun hmem => ?_, nodup_monitorOids H⟩⟩
    · rcases List.mem_cons.mp hmem with heq | hmem
      · cases heq
      · exact absurd (hbelow _ hmem) (by decide)
    · exact absurd (hbelow _ hmem) (by decide)
  root := by
    intro hmem
    obtain ⟨d, hd, heq⟩ := List.mem_map.mp hmem
    simp only [ncpMemberDescriptors, List.mem_cons, List.mem_map] at hd
    rcases hd with rfl | rfl | ⟨⟨k, id⟩, -, rfl⟩
    · cases heq
    · cases heq
    · have hlt := lt_monitorOid k id
      have hoid : (monitorMember k id).oid = monitorOid k id := by cases k <;> rfl
      rw [← hoid, heq] at hlt
      exact absurd hlt (by decide)
  described := by
    intro d hd
    simp only [ncpMemberDescriptors, List.mem_cons, List.mem_map] at hd
    rcases hd with rfl | rfl | ⟨⟨k, id⟩, hm, rfl⟩
    · exact described_deviceManager
    · exact described_classManager
    · have hhas := mem_monitors.mp hm
      cases k with
      | sink => exact described_receiver (H .sink id hhas) hhas
      | source => exact described_sender (H .source id hhas) hhas

end NmosManager

namespace System
variable {h : NmosHost} {σ : System}

/-- **Introspection is sound and complete** in every reachable state. -/
theorem introspects (H : σ.Reachable h) : σ.nmos.Introspects h :=
  NmosManager.introspects_of_inRange H.inRange.resources

theorem introspects_sole : ∃ σ : System,
    σ.nmos.ncpMemberDescriptors.map NcMemberDescriptor.oid = [kDeviceManagerOid, kClassManagerOid, monitorOid .sink 1] ∧
      σ.nmos.Introspects {} := by
  obtain ⟨σ, hσ, hoids⟩ := reachable_sampleRun {} (soleSink []).1 (soleSink []).2
    (fun σ => σ.nmos.ncpMemberDescriptors.map NcMemberDescriptor.oid =
      [kDeviceManagerOid, kClassManagerOid, monitorOid .sink 1]) (by decide +kernel)
  exact ⟨σ, hoids, introspects hσ⟩

end System
end Aes67Daemon
