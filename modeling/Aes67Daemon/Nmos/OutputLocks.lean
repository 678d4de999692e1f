import Aes67Daemon.Nmos.Lifecycle
import Aes67Daemon.Nmos.ReadBack

/-!
# Output locks

A scheduled activation locks the outputs it names while it waits.  The locks are tested
when a request comes in, the action is validated after that, and the activation is kept
under the id of a shared counter at last, each step on its own; in between, other
requests do the same.  The locks are exclusive in every run in which what was tested
still holds when it is relied on: when an activation is kept, and when an immediate one
has been validated.

## Main definitions

* `CmThreads.Exclusive` — what the locks are for.
* `CmOp.StillUnlocked` — the lock test, where its outcome is relied on.
* `CmThreads.locks_exclusive` — the runs in which the locks are exclusive.
-/
namespace Aes67Daemon

open MapThreads (requested accepted)

/-! ## Statements -/

namespace CmThreads

/-- The locks are exclusive. -/
structure Exclusive (h : CmHost) (c : CmThreads) : Prop where
  /-- No output is locked by two activations. -/
  disjoint : ∀ e ∈ c.shared.activations.entries, ∀ e' ∈ c.shared.activations.entries, e.1 ≠ e'.1 →
    ∀ output ∈ e.2.2.lockedOutputs, output ∉ e'.2.2.lockedOutputs
  /-- An activation that waits is stored under its id. -/
  stored : ∀ serial id pa, Waiting c.shared.log serial id pa → c.shared.activations.find? id = some (serial, pa)
  /-- When an immediate activation is about to change an output, no activation that was
  accepted before it locks that output. -/
  unlocked : ∀ t n op rest, c.ops t = .change (some n) op :: rest → op.writes.isSome = true →
    ∀ id serial pa, c.shared.activations.find? id = some (serial, pa) → serial < n →
      h.outputUuid op.work ∉ pa.lockedOutputs

end CmThreads

/-- What was tested still holds where it is relied on: no activation has the id or locks
an output of one that is about to be kept, and none locks an output that an immediate
activation is to change when it has been validated. -/
def CmOp.StillUnlocked (h : CmHost) (readJson : Text → Option Ptree) (s : CmState) : CmOp → Prop
  | insert id pa => s.activations.find? id = none ∧ ∀ output ∈ pa.lockedOutputs, s.outputLocked output = false
  | validate p _ => p.mode = .immediate →
      ∀ w ∈ requested (accepted h readJson s.sm p.rawActionJson), s.outputLocked (h.outputUuid w) = false
  | _ => True

instance decidableStillUnlocked (h : CmHost) (readJson : Text → Option Ptree) (s : CmState) :
    ∀ op : CmOp, Decidable (op.StillUnlocked h readJson s)
  | .insert _ _ => inferInstanceAs (Decidable (_ ∧ _))
  | .validate p _ => inferInstanceAs (Decidable (p.mode = .immediate → _))
  | .post _ | .testLocks _ _ | .loadCounter _ | .storeCounter _ _ | .change _ _ | .takeDue | .fire _ _
  | .delete _ | .list => isTrue trivial

/-- The same for the next operation of a thread. -/
def CmThreads.StillUnlocked (h : CmHost) (readJson : Text → Option Ptree) (c : CmThreads) : CmLabel → Prop
  | .start _ _ => True
  | .turn t _ _ => ∀ op ∈ (c.ops t).head?, op.StillUnlocked h readJson c.shared

instance decidableTurnUnlocked (h : CmHost) (readJson : Text → Option Ptree) (c : CmThreads) :
    ∀ l, Decidable (c.StillUnlocked h readJson l)
  | .start _ _ => isTrue trivial
  | .turn t _ _ => inferInstanceAs (Decidable (∀ op ∈ (c.ops t).head?, op.StillUnlocked h readJson c.shared))

/-! ## What an operation leaves to be changed -/

namespace MapOp
variable {host : Host} {env : Env} {s s' : SessionManager} {op op' : MapOp} {next : List MapOp}

/-- An operation that comes after the first of an item with an input. -/
def Begun : MapOp → Prop
  | item _ => True
  | op => op.work.clear = false

theorem clear_of_writes (hbegun : op.Begun) (hwrites : op.writes.isSome = true) : op.work.clear = false := by
  cases op with
  | item w => cases hwrites
  | getSink w src => cases hwrites
  | addSource w src c => exact hbegun
  | addSink w sink => exact hbegun

theorem work_of_writes {x : Is08WorkItem × UInt8} (hwrites : op.writes = some x) : op.work = x.1 := by
  cases op with
  | item w => cases hwrites
  | getSink w src => cases hwrites
  | addSource w src c =>
      cases hwrites
      rfl
  | addSink w sink =>
      cases hwrites
      rfl

/-- What is left to be done is about the same item. -/
theorem exec_next (hbegun : op.Begun) (hexec : op.exec host env s = some (next, s')) (hop' : op' ∈ next) :
    op'.work = op.work ∧ op'.Begun := by
  cases op with
  | item w =>
      cases hclear : w.clear with
      | true =>
          have hnext : next = [] := by
            simp only [exec, hclear, if_true] at hexec
            split at hexec
            · split at hexec <;> cases hexec <;> rfl
            · cases hexec
              rfl
          rw [hnext] at hop'
          cases hop'
      | false =>
          simp only [exec, hclear, Bool.false_eq_true, if_false] at hexec
          split at hexec
          · split at hexec
            · cases hexec
              cases hop'
            · split at hexec <;> cases hexec <;> rw [List.mem_singleton.mp hop'] <;> exact ⟨rfl, hclear⟩
          · split at hexec <;> cases hexec
            · cases hop'
            · rw [List.mem_singleton.mp hop']
              exact ⟨rfl, hclear⟩
  | getSink w src =>
      simp only [exec] at hexec
      split at hexec
      · cases hexec
        cases hop'
      · obtain ⟨c, -, heq⟩ := Option.map_eq_some_iff.mp hexec
        cases heq
        rw [List.mem_singleton.mp hop']
        exact ⟨rfl, hbegun⟩
  | addSource w src c =>
      obtain ⟨r, -, hserve⟩ := Option.bind_eq_some_iff.mp hexec
      obtain ⟨_, -, heq⟩ := Option.map_eq_some_iff.mp hserve
      cases heq
      cases hop'
  | addSink w sink =>
      obtain ⟨r, -, hserve⟩ := Option.bind_eq_some_iff.mp hexec
      obtain ⟨_, -, heq⟩ := Option.map_eq_some_iff.mp hserve
      cases heq
      cases hop'

end MapOp

namespace CmState
variable {s : CmState} {output : Text}

theorem outputLocked_eq_false : s.outputLocked output = false ↔
    ∀ id e, s.activations.find? id = some e → output ∉ e.2.lockedOutputs := by
  simp [outputLocked, ← SortedMap.mem_entries]

end CmState

namespace CmOp
variable {h : CmHost} {readJson : Text → Option Ptree} {env : Env} {now : ℤ} {op : CmOp} {s s' : CmState}
  {next : List CmOp} {n : ℕ} {m : MapOp}

/-- What is stored after an operation was stored before, or was just kept. -/
theorem Effect.find?_imp (heffect : op.Effect now s next s') {id : Text} {e : ℕ × Is08PendingActivation}
    (hfind : s'.activations.find? id = some e) :
    s.activations.find? id = some e ∨ op = .insert id e.2 ∧ e.1 = s.log.length := by
  cases heffect with
  | other hop hactivations hlog hquiet hnext => exact .inl (hactivations ▸ hfind)
  | inserted id' pa =>
      replace hfind : (s.activations.insert id' (s.log.length, pa)).find? id = some e := hfind
      rw [SortedMap.find?_insert] at hfind
      split at hfind
      · rename_i hid
        cases hfind
        exact .inr ⟨by rw [hid], rfl⟩
      · exact .inl hfind
  | took =>
      have hold := Option.filter_eq_some_iff.mp ((SortedMap.find?_eraseIf ..).symm.trans hfind)
      exact .inl hold.1
  | fired hnext => exact .inl hfind
  | @deleted id' serial pa hfind' =>
      replace hfind : (s.activations.erase id').find? id = some e := hfind
      rw [SortedMap.find?_erase] at hfind
      split at hfind
      · cases hfind
      · exact .inl hfind
  | listed => exact .inl hfind

theorem Effect.log_length_le (heffect : op.Effect now s next s') : s.log.length ≤ s'.log.length := by
  cases heffect with
  | other hop hactivations hlog hquiet hnext => simp [hlog]
  | inserted | took | fired | deleted | listed => simp [CmState.append]

/-- Where the changes of an immediate activation come from: it has been validated, or
there was one before. -/
theorem change_of_mem (hexec : op.exec h readJson env now s = some (next, s')) (hmem : .change (some n) m ∈ next) :
    (∃ p id w, op = .validate p id ∧ p.mode = .immediate ∧ m = .item w ∧
        w ∈ accepted h readJson s.sm p.rawActionJson ∧ n = s.log.length ∧ n < s'.log.length) ∨
      ∃ m', op = .change (some n) m' ∧ ∃ sm', ∃ rest, m'.exec h.host env s.sm = some (rest, sm') ∧ m ∈ rest := by
  cases op with
  | post body =>
      simp only [exec] at hexec
      split at hexec
      · cases hexec
        cases hmem
      · split at hexec <;> cases hexec <;> simp at hmem
  | testLocks p outputs =>
      cases outputs with
      | nil =>
          cases hexec
          simp at hmem
      | cons output outputs =>
          simp only [exec] at hexec
          split at hexec <;> cases hexec <;> simp at hmem
  | loadCounter p =>
      cases hexec
      simp at hmem
  | storeCounter p n' =>
      cases hexec
      simp at hmem
  | validate p id =>
      left
      simp only [exec] at hexec
      split at hexec
      · cases hexec
      · cases hexec
        cases hmem
      · split at hexec
        · rename_i hmode
          cases hexec
          obtain ⟨w, hw, heq⟩ := List.mem_map.mp hmem
          cases heq
          exact ⟨p, id, w, rfl, hmode, rfl, hw, rfl, by simp [CmState.append]⟩
        · split at hexec <;> cases hexec <;> simp at hmem
  | insert id pa =>
      cases hexec
      cases hmem
  | change immediate m' =>
      right
      obtain ⟨r, hr, heq⟩ := Option.map_eq_some_iff.mp hexec
      cases heq
      obtain ⟨m'', hm'', heq⟩ := List.mem_map.mp hmem
      cases heq
      exact ⟨m', rfl, r.2, r.1, hr, hm''⟩
  | takeDue =>
      cases hexec
      simp at hmem
  | fire serial pa =>
      cases hexec
      simp at hmem
  | delete id =>
      simp only [exec] at hexec
      split at hexec <;> cases hexec <;> cases hmem
  | list =>
      cases hexec
      cases hmem

end CmOp
/-! ## The runs -/

namespace CmThreads
variable {h : CmHost} {readJson : Text → Option Ptree} {c c' : CmThreads} {l : CmLabel}

/-- What is known of the changes of an immediate activation with number `n`: no
activation that was accepted before it locks the output. -/
structure Unlocked (h : CmHost) (c : CmThreads) (n : ℕ) (op : MapOp) : Prop where
  begun : op.Begun
  lt : n < c.shared.log.length
  free : op.work.clear = false → ∀ id e, c.shared.activations.find? id = some e → e.1 < n →
    h.outputUuid op.work ∉ e.2.lockedOutputs

/-- The activations are kept, no output is locked twice, and what immediate activations
are to change is not locked. -/
structure Locks (h : CmHost) (c : CmThreads) : Prop where
  kept : Kept c
  disjoint : ∀ id e id' e', c.shared.activations.find? id = some e → c.shared.activations.find? id' = some e' →
    id ≠ id' → ∀ output ∈ e.2.lockedOutputs, output ∉ e'.2.lockedOutputs
  unlocked : ∀ t n op, .change (some n) op ∈ c.ops t → Unlocked h c n op

theorem locks_boot (h : CmHost) (sm : SessionManager) : Locks h (boot sm) where
  kept := kept_boot sm
  disjoint := by
    intro id e id' e' hfind
    cases hfind
  unlocked := by
    intro t n op hop
    cases hop

theorem Locks.exclusive (H : Locks h c) : Exclusive h c where
  disjoint := by
    intro e he e' he'
    exact H.disjoint e.1 e.2 e'.1 e'.2 (SortedMap.mem_entries.mp he) (SortedMap.mem_entries.mp he')
  stored serial id pa hwait := (H.kept.stored id serial pa).mpr hwait
  unlocked := by
    intro t n op rest hops hwrites id serial pa hfind hlt
    have hunlocked := H.unlocked t n op (by rw [hops]; exact List.mem_cons_self)
    exact hunlocked.free (MapOp.clear_of_writes hunlocked.begun hwrites) id (serial, pa) hfind hlt

theorem StillUnlocked.freeId (hstill : StillUnlocked h readJson c l) : FreeId c l := by
  cases l with
  | start t request => trivial
  | turn t env now =>
      intro id pa rest hops
      exact (hstill (.insert id pa) (by rw [hops]; rfl)).1

/-- What was not locked for a change is not locked after another operation. -/
theorem Unlocked.of_effect {op : CmOp} {next : List CmOp} {now : ℤ} {n : ℕ} {m m' : MapOp}
    (H : Unlocked h c n m) (heffect : op.Effect now c.shared next c'.shared) (hwork : m'.work = m.work)
    (hbegun : m'.Begun) : Unlocked h c' n m' where
  begun := hbegun
  lt := H.lt.trans_le heffect.log_length_le
  free := by
    intro hclear id e hfind hlt
    rw [hwork] at hclear ⊢
    rcases heffect.find?_imp hfind with hold | ⟨-, hserial⟩
    · exact H.free hclear id e hold hlt
    · have := H.lt
      omega

/-- No output is locked twice after an operation that relies on what still holds. -/
theorem Locks.disjoint_of_effect (H : Locks h c) {op : CmOp} {next : List CmOp} {s' : CmState} {now : ℤ}
    (heffect : op.Effect now c.shared next s') (hstill : op.StillUnlocked h readJson c.shared) {id id' : Text}
    {e e' : ℕ × Is08PendingActivation} (hfind : s'.activations.find? id = some e)
    (hfind' : s'.activations.find? id' = some e') (hne : id ≠ id') :
    ∀ output ∈ e.2.lockedOutputs, output ∉ e'.2.lockedOutputs := by
  intro output hmem hmem'
  rcases heffect.find?_imp hfind with hold | ⟨rfl, -⟩
  · rcases heffect.find?_imp hfind' with hold' | ⟨rfl, -⟩
    · exact H.disjoint id e id' e' hold hold' hne output hmem hmem'
    · exact CmState.outputLocked_eq_false.mp (hstill.2 output hmem') id e hold hmem
  · rcases heffect.find?_imp hfind' with hold' | ⟨heq, -⟩
    · exact CmState.outputLocked_eq_false.mp (hstill.2 output hmem) id' e' hold' hmem'
    · exact hne (CmOp.insert.inj heq).1

/-- An operation leaves no locked output to be changed. -/
theorem Locks.unlocked_of_mem (H : Locks h c) {op : CmOp} {rest next : List CmOp} {env : Env} {now : ℤ} {t : ℕ}
    (hops : c.ops t = op :: rest) (hexec : op.exec h readJson env now c.shared = some (next, c'.shared))
    (hstill : op.StillUnlocked h readJson c.shared) {n : ℕ} {m : MapOp} (hmem : .change (some n) m ∈ next) :
    Unlocked h c' n m := by
  have heffect : op.Effect now c.shared next c'.shared := CmOp.effect hexec
  rcases CmOp.change_of_mem hexec hmem with ⟨p, id, w, rfl, hmode, rfl, hw, rfl, hlt⟩ | ⟨m', rfl, _, _, hm', hm⟩
  · refine ⟨trivial, hlt, fun hclear id' e hfind _ => ?_⟩
    have hrequested : w ∈ requested (accepted h readJson c.shared.sm p.rawActionJson) :=
      List.mem_filter.mpr ⟨hw, by simp [show w.clear = false from hclear]⟩
    rcases heffect.find?_imp hfind with hold | ⟨heq, -⟩
    · exact CmState.outputLocked_eq_false.mp (hstill hmode w hrequested) id' e hold
    · cases heq
  · have hold := H.unlocked t n m' (by rw [hops]; exact List.mem_cons_self)
    obtain ⟨hwork, hbegun⟩ := MapOp.exec_next hold.begun hm' hm
    exact hold.of_effect heffect hwork hbegun

theorem locks_step (H : Locks h c) (hstill : StillUnlocked h readJson c l)
    (hstep : step h readJson c l = some c') : Locks h c' := by
  have hkept := kept_step H.kept hstill.freeId hstep
  cases l with
  | start t request =>
      obtain ⟨hidle, rfl⟩ := Pool.start_eq_some.mp hstep
      refine ⟨hkept, H.disjoint, fun t' n op hop => ?_⟩
      rw [Pool.ops_started] at hop
      split at hop
      · cases request <;> simp [CmRequest.op] at hop
      · have hold := H.unlocked t' n op hop
        exact ⟨hold.begun, hold.lt, hold.free⟩
  | turn t env now =>
      obtain ⟨op, rest, ⟨next, s'⟩, hops, hexec, rfl⟩ := Pool.turn?_eq_some.mp hstep
      have heffect : op.Effect now c.shared next s' := CmOp.effect hexec
      have hnext : op.StillUnlocked h readJson c.shared := hstill op (by rw [hops]; rfl)
      refine ⟨hkept, fun _ _ _ _ => H.disjoint_of_effect heffect hnext, fun t' n m hm => ?_⟩
      rw [Pool.ops_turned] at hm
      split at hm
      · rcases List.mem_append.mp hm with hm | hm
        · exact H.unlocked_of_mem hops hexec hnext hm
        · have hold := H.unlocked t n m (by rw [hops]; exact List.mem_cons_of_mem _ hm)
          exact hold.of_effect heffect rfl hold.begun
      · have hold := H.unlocked t' n m hm
        exact hold.of_effect heffect rfl hold.begun

/-- **The locks are exclusive** in a run in which what was tested still holds where it is
relied on. -/
theorem locks_exclusive {sm : SessionManager} {labels : List CmLabel}
    (hstill : Along (step h readJson) (StillUnlocked h readJson) (boot sm) labels)
    (hrun : run (step h readJson) (boot sm) labels = some c) : Exclusive h c :=
  (run_keeps (fun _ _ _ H hstill hstep => locks_step H hstill hstep) (locks_boot h sm) hstill hrun).exclusive

/-! ## Sample runs -/

/-- A scheduled activation of an output, without a channel. -/
def scheduleOutput (output : Text) : CmRequest := .post (postBody .absolute "5:0".toList (CmHost.groupsText [(output, [])]))

/-- A scheduled activation, and an immediate one of another output. -/
def apartRun (h : CmHost) : List CmLabel :=
  .start 0 (scheduleOutput (h.is08AlsaOutputId 0)) :: turns 0 7 0 ++
    .start 1 (.post (postBody .immediate [] (h.actionText (h.alsaItem 1 5)))) :: turns 1 7 0

theorem exclusive_apart : ∃ sm c, MapThreads.oneSource = some sm ∧
    run (step CmHost.mapHost Json.read) (boot sm) (apartRun CmHost.mapHost) = some c ∧
    c.shared.activations.entries.map Prod.fst = ["1".toList] ∧ (c.ops 1).length = 1 ∧
    Exclusive CmHost.mapHost c := by
  have heval : (MapThreads.oneSource.map fun sm =>
      ((run (step CmHost.mapHost Json.read) (boot sm) (apartRun CmHost.mapHost)).map fun c =>
        (c.shared.activations.entries.map Prod.fst, (c.ops 1).length),
      decide (Along (step CmHost.mapHost Json.read) (StillUnlocked CmHost.mapHost Json.read) (boot sm)
        (apartRun CmHost.mapHost)))) = some (some (["1".toList], 1), true) := by
    decide +kernel
  obtain ⟨sm, hsm, heq⟩ := Option.map_eq_some_iff.mp heval
  simp only [Prod.mk.injEq] at heq
  obtain ⟨hrun, hstill⟩ := heq
  obtain ⟨c, hrun, heq⟩ := Option.map_eq_some_iff.mp hrun
  simp only [Prod.mk.injEq] at heq
  exact ⟨sm, c, hsm, hrun, heq.1, heq.2, locks_exclusive (of_decide_eq_true hstill) hrun⟩

/-- The activation that is kept for it. -/
def scheduledOutput (output : Text) : Is08PendingActivation :=
  { mode := .absolute
    requestedTime := "5:0".toList
    activationTime := "5:0".toList
    deadlineNs := 5000000000
    actionJson := CmHost.groupsText [(output, [])]
    lockedOutputs := [output] }

/-- Two requests test the locks of one output before either activation is kept. -/
def bothTested (h : CmHost) : List CmLabel :=
  .start 0 (scheduleOutput (h.is08OutputId 1)) :: .start 1 (scheduleOutput (h.is08OutputId 1)) ::
    turns 0 3 0 ++ turns 1 3 0 ++ turns 0 4 0 ++ turns 1 4 0

/-- Two requests for different outputs load the counter before either stores it. -/
def bothCounted (h : CmHost) : List CmLabel :=
  .start 0 (scheduleOutput (h.is08AlsaOutputId 0)) :: .start 1 (scheduleOutput (h.is08AlsaOutputId 1)) ::
    turns 0 4 0 ++ turns 1 4 0 ++ turns 0 3 0 ++ turns 1 3 0

/-- An immediate activation is kept waiting after its lock test, while an activation is
scheduled for the same output. -/
def lateChange (h : CmHost) : List CmLabel :=
  .start 0 (.post (postBody .immediate [] (h.actionText (h.alsaItem 1 5)))) :: turns 0 3 0 ++
    .start 1 (scheduleOutput (h.is08OutputId 1)) :: turns 1 7 0 ++ turns 0 4 0

/-- The change of an immediate activation that is about to be made. -/
def changing? : CmOp → Option (ℕ × Is08WorkItem × UInt8)
  | .change (some n) op => op.writes.map fun x => (n, x)
  | _ => none

theorem changing?_eq_some {op : CmOp} {n : ℕ} {x : Is08WorkItem × UInt8} :
    changing? op = some (n, x) ↔ ∃ m, op = .change (some n) m ∧ m.writes = some x := by
  cases op with
  | change immediate m =>
      cases immediate with
      | none => simp [changing?]
      | some n' =>
          simp only [changing?, Option.map_eq_some_iff, Prod.mk.injEq, CmOp.change.injEq, Option.some.injEq]
          constructor
          · rintro ⟨x', hwrites, rfl, rfl⟩
            exact ⟨m, ⟨rfl, rfl⟩, hwrites⟩
          · rintro ⟨m', ⟨rfl, rfl⟩, hwrites⟩
            exact ⟨x, hwrites, rfl, rfl⟩
  | _ => simp [changing?]

/-- **The locks are not exclusive**: two activations lock one output; an activation that
waits is not stored any more; and an immediate activation is about to change an output
that is locked. -/
theorem locks_broken :
    (∃ sm c, MapThreads.oneSource = some sm ∧
      run (step CmHost.mapHost Json.read) (boot sm) (bothTested CmHost.mapHost) = some c ∧
      c.shared.activations.entries = [("1".toList, 0, scheduledOutput (CmHost.mapHost.is08OutputId 1)),
        ("2".toList, 1, scheduledOutput (CmHost.mapHost.is08OutputId 1))] ∧ ¬ Exclusive CmHost.mapHost c) ∧
    (∃ sm c, MapThreads.oneSource = some sm ∧
      run (step CmHost.mapHost Json.read) (boot sm) (bothCounted CmHost.mapHost) = some c ∧
      c.shared.log = [.accepted 0 "1".toList (scheduledOutput (CmHost.mapHost.is08AlsaOutputId 0)),
        .accepted 1 "1".toList (scheduledOutput (CmHost.mapHost.is08AlsaOutputId 1))] ∧
      c.shared.activations.entries = [("1".toList, 1, scheduledOutput (CmHost.mapHost.is08AlsaOutputId 1))] ∧
      ¬ Exclusive CmHost.mapHost c) ∧
    ∃ sm c m, MapThreads.oneSource = some sm ∧
      run (step CmHost.mapHost Json.read) (boot sm) (lateChange CmHost.mapHost) = some c ∧
      c.shared.activations.entries = [("1".toList, 0, scheduledOutput (CmHost.mapHost.is08OutputId 1))] ∧
      c.ops 0 = [.change (some 1) m] ∧ m.writes = some (CmHost.mapHost.alsaItem 1 5, 5) ∧
      ¬ Exclusive CmHost.mapHost c := by
  refine ⟨?_, ?_, ?_⟩
  · have heval : (MapThreads.oneSource.bind fun sm =>
        run (step CmHost.mapHost Json.read) (boot sm) (bothTested CmHost.mapHost)).map
          (fun c => c.shared.activations.entries) =
        some [("1".toList, 0, scheduledOutput (CmHost.mapHost.is08OutputId 1)),
          ("2".toList, 1, scheduledOutput (CmHost.mapHost.is08OutputId 1))] := by decide +kernel
    obtain ⟨c, hrun, hentries⟩ := Option.map_eq_some_iff.mp heval
    obtain ⟨sm, hsm, hrun⟩ := Option.bind_eq_some_iff.mp hrun
    refine ⟨sm, c, hsm, hrun, hentries, fun H => ?_⟩
    refine H.disjoint ("1".toList, 0, _) (by rw [hentries]; exact List.mem_cons_self) ("2".toList, 1, _)
      (by rw [hentries]; exact List.mem_cons_of_mem _ List.mem_cons_self) (by decide)
      (CmHost.mapHost.is08OutputId 1) List.mem_cons_self List.mem_cons_self
  · have heval : (MapThreads.oneSource.bind fun sm =>
        run (step CmHost.mapHost Json.read) (boot sm) (bothCounted CmHost.mapHost)).map
          (fun c => (c.shared.log, c.shared.activations.entries)) =
        some ([.accepted 0 "1".toList (scheduledOutput (CmHost.mapHost.is08AlsaOutputId 0)),
            .accepted 1 "1".toList (scheduledOutput (CmHost.mapHost.is08AlsaOutputId 1))],
          [("1".toList, 1, scheduledOutput (CmHost.mapHost.is08AlsaOutputId 1))]) := by decide +kernel
    obtain ⟨c, hrun, heq⟩ := Option.map_eq_some_iff.mp heval
    obtain ⟨sm, hsm, hrun⟩ := Option.bind_eq_some_iff.mp hrun
    simp only [Prod.mk.injEq] at heq
    obtain ⟨hlog, hentries⟩ := heq
    refine ⟨sm, c, hsm, hrun, hlog, hentries, fun H => ?_⟩
    have hwait : Waiting c.shared.log 0 "1".toList (scheduledOutput (CmHost.mapHost.is08AlsaOutputId 0)) := by
      rw [hlog]
      exact ⟨by simp, by simp, by simp⟩
    have hmem := SortedMap.mem_entries.mpr (H.stored 0 _ _ hwait)
    rw [hentries] at hmem
    simp at hmem
  · have heval : (MapThreads.oneSource.bind fun sm =>
        run (step CmHost.mapHost Json.read) (boot sm) (lateChange CmHost.mapHost)).map
          (fun c => decide (c.shared.activations.entries =
              [("1".toList, 0, scheduledOutput (CmHost.mapHost.is08OutputId 1))]) &&
            decide ((c.ops 0).map changing? = [some (1, CmHost.mapHost.alsaItem 1 5, 5)])) = some true := by
      decide +kernel
    obtain ⟨c, hrun, heq⟩ := Option.map_eq_some_iff.mp heval
    obtain ⟨sm, hsm, hrun⟩ := Option.bind_eq_some_iff.mp hrun
    simp only [Bool.and_eq_true, decide_eq_true_eq] at heq
    obtain ⟨hentries, hops⟩ := heq
    obtain ⟨op, hop, hchanging⟩ := List.map_eq_singleton_iff.mp hops
    obtain ⟨m, rfl, hwrites⟩ := changing?_eq_some.mp hchanging
    refine ⟨sm, c, m, hsm, hrun, hentries, hop, hwrites, fun H => ?_⟩
    refine H.unlocked 0 1 m [] hop (by rw [hwrites]; rfl) "1".toList 0 _
      (SortedMap.mem_entries.mp (by rw [hentries]; exact List.mem_cons_self)) (by decide) ?_
    rw [MapOp.work_of_writes hwrites]
    exact List.mem_cons_self

end CmThreads
end Aes67Daemon
