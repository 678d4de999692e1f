import Aes67Daemon.Nmos.MapActivations

/-!
# The life of a scheduled activation

A scheduled activation is accepted, waits, and is either deleted or taken by the worker
and then applied.  `History` says in which order this may happen, event by event, and
what a listing has to say; that nothing is applied twice, before its time or after it
was deleted follows from it.  The threads make such histories, in every interleaving,
as long as an activation is not kept under an id that another one still has.

## Main definitions

* `Waiting` — an activation was accepted, and neither deleted nor taken.
* `CmEvent.Allowed`, `History` — the lives of activations.
* `Lifecycle`, `History.lifecycle` — what that means for the claims of clients.
* `CmThreads.Kept` — the activations that are stored are those that wait.
* `CmThreads.run_lifecycle` — every run makes a history.
-/
namespace Aes67Daemon

/-! ## Histories -/

/-- An activation was accepted, and neither deleted nor taken. -/
structure Waiting (log : List CmEvent) (serial : ℕ) (id : Text) (pa : Is08PendingActivation) : Prop where
  accepted : .accepted serial id pa ∈ log
  deleted : .deleted serial ∉ log
  taken : ∀ now, .taken serial now ∉ log

/-- What may happen next. -/
def CmEvent.Allowed (log : List CmEvent) : CmEvent → Prop
  | refused _ _ | activated _ _ => True
  | accepted serial _ _ => serial = log.length
  | listed activations => ∀ id serial, (id, serial) ∈ activations ↔ ∃ pa, Waiting log serial id pa
  | deleted serial => ∃ id pa, Waiting log serial id pa
  | taken serial now => ∃ id pa, Waiting log serial id pa ∧ pa.deadlineNs ≤ now
  | fired serial => (∃ now, .taken serial now ∈ log) ∧ .fired serial ∉ log

/-- A list of events, oldest first, each of which was allowed when it happened. -/
inductive History : List CmEvent → Prop
  | nil : History []
  | snoc {log : List CmEvent} {e : CmEvent} (h : History log) (he : e.Allowed log) : History (log ++ [e])

/-- What clients are promised of scheduled activations. -/
structure Lifecycle (log : List CmEvent) : Prop where
  /-- An activation is applied at most once. -/
  once : ∀ serial, log.count (.fired serial) ≤ 1
  /-- It was accepted and taken before it is applied, and not before its time. -/
  due : ∀ before serial after, log = before ++ .fired serial :: after →
    ∃ id pa now, .accepted serial id pa ∈ before ∧ .taken serial now ∈ before ∧ pa.deadlineNs ≤ now
  /-- One that was deleted is not applied. -/
  deleted : ∀ serial, .deleted serial ∈ log → .fired serial ∉ log
  /-- A listing has exactly those that were accepted, and neither deleted nor taken. -/
  listed : ∀ before activations after, log = before ++ .listed activations :: after →
    ∀ id serial, (id, serial) ∈ activations ↔ ∃ pa, Waiting before serial id pa

namespace History
variable {log : List CmEvent} {serial : ℕ} {id id' : Text} {pa pa' : Is08PendingActivation}

/-- What was allowed when it happened. -/
theorem allowed (h : History log) {before after : List CmEvent} {e : CmEvent} (hlog : log = before ++ e :: after) :
    e.Allowed before := by
  induction h generalizing after with
  | nil => simp at hlog
  | @snoc log e' h he ih =>
      rcases List.eq_nil_or_concat after with rfl | ⟨after, e'', rfl⟩
      · obtain ⟨rfl, heq⟩ := List.append_inj' hlog rfl
        cases heq
        exact he
      · rw [List.concat_eq_append, ← List.cons_append, ← List.append_assoc] at hlog
        exact ih (List.append_inj' hlog rfl).1

/-- An activation is numbered by its position. -/
theorem numbered (h : History log) (hmem : .accepted serial id pa ∈ log) :
    log[serial]? = some (.accepted serial id pa) := by
  obtain ⟨before, after, rfl⟩ := List.append_of_mem hmem
  have hserial : serial = before.length := h.allowed rfl
  subst hserial
  simp

theorem accepted_inj (h : History log) (hmem : .accepted serial id pa ∈ log)
    (hmem' : .accepted serial id' pa' ∈ log) : id = id' ∧ pa = pa' := by
  have heq := (h.numbered hmem).symm.trans (h.numbered hmem')
  simpa using heq

theorem serial_lt (h : History log) (hmem : .accepted serial id pa ∈ log) : serial < log.length :=
  (List.getElem?_eq_some_iff.mp (h.numbered hmem)).1

theorem accepted_of_deleted (h : History log) (hmem : .deleted serial ∈ log) :
    ∃ id pa, .accepted serial id pa ∈ log := by
  obtain ⟨before, after, rfl⟩ := List.append_of_mem hmem
  obtain ⟨id, pa, hwait⟩ := h.allowed rfl
  exact ⟨id, pa, List.mem_append_left _ hwait.accepted⟩

theorem accepted_of_taken (h : History log) {now : ℤ} (hmem : .taken serial now ∈ log) :
    ∃ id pa, .accepted serial id pa ∈ log ∧ pa.deadlineNs ≤ now := by
  obtain ⟨before, after, rfl⟩ := List.append_of_mem hmem
  obtain ⟨id, pa, hwait, hdue⟩ := h.allowed rfl
  exact ⟨id, pa, List.mem_append_left _ hwait.accepted, hdue⟩

theorem taken_of_fired (h : History log) (hmem : .fired serial ∈ log) : ∃ now, .taken serial now ∈ log := by
  obtain ⟨before, after, rfl⟩ := List.append_of_mem hmem
  obtain ⟨⟨now, htaken⟩, -⟩ := h.allowed rfl
  exact ⟨now, List.mem_append_left _ htaken⟩

/-- What was deleted is not taken, before or after. -/
theorem not_taken (h : History log) (hmem : .deleted serial ∈ log) (now : ℤ) : .taken serial now ∉ log := by
  induction h with
  | nil => cases hmem
  | @snoc log e h he ih =>
      intro htaken
      rcases List.mem_append.mp hmem with hmem | hmem
      · rcases List.mem_append.mp htaken with htaken | htaken
        · exact ih hmem htaken
        · rw [← List.mem_singleton.mp htaken] at he
          obtain ⟨_, _, hwait, -⟩ := he
          exact hwait.deleted hmem
      · rw [← List.mem_singleton.mp hmem] at he htaken
        obtain ⟨_, _, hwait⟩ := he
        rcases List.mem_append.mp htaken with htaken | htaken
        · exact hwait.taken now htaken
        · cases List.mem_singleton.mp htaken

theorem fired_once (h : History log) (serial : ℕ) : log.count (.fired serial) ≤ 1 := by
  induction h with
  | nil => simp
  | @snoc log e h he ih =>
      rw [List.count_append, List.count_singleton]
      split
      · rename_i heq
        rw [beq_iff_eq.mp heq] at he
        have hnone : log.count (.fired serial) = 0 := List.count_eq_zero.mpr he.2
        omega
      · exact ih

/-- Events that nothing depends on may happen at any time. -/
theorem append_quiet (h : History log) {events : List CmEvent} (hquiet : ∀ e ∈ events, e.quiet = true) :
    History (log ++ events) := by
  induction events generalizing log with
  | nil => rwa [List.append_nil]
  | cons e events ih =>
      have hallowed : e.Allowed log := by
        have he := hquiet e List.mem_cons_self
        cases e with
        | refused | activated => trivial
        | accepted | listed | deleted | taken | fired => cases he
      have hrest := ih (h.snoc hallowed) fun e' he' => hquiet e' (List.mem_cons_of_mem _ he')
      rwa [List.append_assoc] at hrest

/-- Activations that wait and are due may be taken one after another. -/
theorem append_taken (h : History log) {now : ℤ} {serials : List ℕ} (hnodup : serials.Nodup)
    (hdue : ∀ n ∈ serials, ∃ id pa, Waiting log n id pa ∧ pa.deadlineNs ≤ now) :
    History (log ++ serials.map fun n => .taken n now) := by
  induction serials generalizing log with
  | nil => rwa [List.map_nil, List.append_nil]
  | cons n serials ih =>
      obtain ⟨hn, hnodup⟩ := List.nodup_cons.mp hnodup
      have hrest := ih (h.snoc (e := .taken n now) (hdue n List.mem_cons_self)) hnodup fun n' hn' => by
        obtain ⟨id, pa, hwait, hle⟩ := hdue n' (List.mem_cons_of_mem _ hn')
        refine ⟨id, pa, ⟨List.mem_append_left _ hwait.accepted, ?_, fun now' => ?_⟩, hle⟩
        · simpa using hwait.deleted
        · have hne : n' ≠ n := fun heq => hn (heq ▸ hn')
          simpa [hne] using hwait.taken now'
      rw [List.append_assoc] at hrest
      exact hrest

/-- **A history keeps every promise.** -/
theorem lifecycle (h : History log) : Lifecycle log where
  once := h.fired_once
  due before serial after hlog := by
    obtain ⟨⟨now, htaken⟩, -⟩ := h.allowed hlog
    obtain ⟨first, second, rfl⟩ := List.append_of_mem htaken
    rw [List.append_assoc, List.cons_append] at hlog
    have htook : (CmEvent.taken serial now).Allowed first := h.allowed hlog
    obtain ⟨id, pa, hwait, hdue⟩ := htook
    exact ⟨id, pa, now, List.mem_append_left _ hwait.accepted, htaken, hdue⟩
  deleted serial hmem hfired := by
    obtain ⟨now, htaken⟩ := h.taken_of_fired hfired
    exact h.not_taken hmem now htaken
  listed before activations after hlog := h.allowed hlog

end History

/-! ## What waits after an event -/

section
variable {log events : List CmEvent} {serial n : ℕ} {id id' : Text} {pa pa' : Is08PendingActivation}

/-- Events that neither accept, delete nor take an activation leave it as it is. -/
theorem waiting_append_of_notMem (hacc : ∀ id pa, .accepted serial id pa ∉ events) (hdel : .deleted serial ∉ events)
    (htaken : ∀ now, .taken serial now ∉ events) : Waiting (log ++ events) serial id pa ↔ Waiting log serial id pa := by
  constructor
  · intro h
    refine ⟨?_, fun hmem => h.deleted (List.mem_append_left _ hmem),
      fun now hmem => h.taken now (List.mem_append_left _ hmem)⟩
    exact (List.mem_append.mp h.accepted).resolve_right (hacc id pa)
  · intro h
    refine ⟨List.mem_append_left _ h.accepted, fun hmem => ?_, fun now hmem => ?_⟩
    · exact (List.mem_append.mp hmem).elim h.deleted hdel
    · exact (List.mem_append.mp hmem).elim (h.taken now) (htaken now)

theorem waiting_append_quiet (hquiet : ∀ e ∈ events, e.quiet = true) :
    Waiting (log ++ events) serial id pa ↔ Waiting log serial id pa := by
  have hnot : ∀ e : CmEvent, e.quiet = false → e ∉ events := fun e he hmem => by
    rw [hquiet e hmem] at he
    cases he
  exact waiting_append_of_notMem (fun _ _ => hnot _ rfl) (hnot _ rfl) fun _ => hnot _ rfl

theorem waiting_append_deleted :
    Waiting (log ++ [.deleted n]) serial id pa ↔ Waiting log serial id pa ∧ serial ≠ n := by
  by_cases hn : serial = n
  · subst hn
    have hdeleted : ¬ Waiting (log ++ [.deleted serial]) serial id pa := fun h => h.deleted (by simp)
    simp [hdeleted]
  · rw [waiting_append_of_notMem (by simp) (by simp [hn]) (by simp)]
    simp [hn]

theorem waiting_append_taken {now : ℤ} {serials : List ℕ} :
    Waiting (log ++ serials.map fun n => .taken n now) serial id pa ↔
      Waiting log serial id pa ∧ serial ∉ serials := by
  by_cases hmem : serial ∈ serials
  · have htaken : ¬ Waiting (log ++ serials.map fun n => .taken n now) serial id pa := fun h =>
      h.taken now (List.mem_append_right _ (List.mem_map_of_mem hmem))
    simp [htaken, hmem]
  · rw [waiting_append_of_notMem (by simp) (by simp) fun now' h => ?_]
    · simp [hmem]
    · obtain ⟨n, hn, heq⟩ := List.mem_map.mp h
      cases heq
      exact hmem hn

/-- What is accepted next has a number of its own. -/
theorem History.waiting_append_accepted (h : History log) :
    Waiting (log ++ [.accepted log.length id pa]) serial id' pa' ↔
      (serial = log.length ∧ id' = id ∧ pa' = pa) ∨ Waiting log serial id' pa' := by
  by_cases hn : serial = log.length
  · subst hn
    have hdel : .deleted log.length ∉ log := fun hmem => by
      obtain ⟨_, _, hacc⟩ := h.accepted_of_deleted hmem
      exact absurd (h.serial_lt hacc) (lt_irrefl _)
    have htaken : ∀ now, .taken log.length now ∉ log := fun now hmem => by
      obtain ⟨_, _, hacc, -⟩ := h.accepted_of_taken hmem
      exact absurd (h.serial_lt hacc) (lt_irrefl _)
    have hacc : ∀ id pa, .accepted log.length id pa ∉ log := fun id pa hmem =>
      absurd (h.serial_lt hmem) (lt_irrefl _)
    have hnew : ¬ Waiting log log.length id' pa' := fun hwait => hacc _ _ hwait.accepted
    simp only [hnew, or_false, true_and]
    constructor
    · intro hwait
      simpa [hacc] using hwait.accepted
    · rintro ⟨rfl, rfl⟩
      exact ⟨by simp, by simpa using hdel, by simpa using htaken⟩
  · rw [waiting_append_of_notMem (by simp [hn]) (by simp) (by simp)]
    simp [hn]

end
/-! ## The threads -/

namespace CmState
variable {s : CmState} {now : ℤ} {serial : ℕ} {pa : Is08PendingActivation}

theorem mem_due : (serial, pa) ∈ s.due now ↔
    ∃ id, s.activations.find? id = some (serial, pa) ∧ pa.deadlineNs ≤ now := by
  simp [due, ← SortedMap.mem_entries]

end CmState

namespace CmThreads
variable {h : CmHost} {readJson : Text → Option Ptree} {c c' : CmThreads} {l : CmLabel}

/-- The activations that a thread is to apply. -/
def firing (c : CmThreads) (t : ℕ) : List ℕ := (c.ops t).filterMap CmOp.firing?

/-- The activations that are stored are those that wait, and those that were taken are
still to be applied by one thread, or have been applied. -/
structure Kept (c : CmThreads) : Prop where
  history : History c.shared.log
  stored : ∀ id serial pa, c.shared.activations.find? id = some (serial, pa) ↔ Waiting c.shared.log serial id pa
  taken : ∀ t, ∀ n ∈ firing c t, (∃ now, .taken n now ∈ c.shared.log) ∧ .fired n ∉ c.shared.log
  nodup : ∀ t, (firing c t).Nodup
  apart : ∀ t t', t ≠ t' → ∀ n ∈ firing c t, n ∉ firing c t'

theorem kept_boot (sm : SessionManager) : (boot sm).Kept where
  history := .nil
  stored := by
    intro id serial pa
    constructor
    · intro hfind
      cases hfind
    · intro hwait
      cases hwait.accepted
  taken := by
    intro t n hn
    cases hn
  nodup _ := List.nodup_nil
  apart := by
    intro t t' hne n hn
    cases hn

/-- An activation is not kept under an id that another one still has. -/
def FreeId (c : CmThreads) : CmLabel → Prop
  | .start _ _ => True
  | .turn t _ _ => ∀ id pa rest, c.ops t = .insert id pa :: rest → c.shared.activations.find? id = none

/-- An activation is not accepted with an id that was given before. -/
def DistinctIds (c : CmThreads) : CmLabel → Prop
  | .start _ _ => True
  | .turn t _ _ => ∀ id pa rest, c.ops t = .insert id pa :: rest →
      ∀ serial pa', .accepted serial id pa' ∉ c.shared.log

theorem Kept.freeId (H : Kept c) (hdistinct : DistinctIds c l) : FreeId c l := by
  cases l with
  | start t request => trivial
  | turn t env now =>
      intro id pa rest hops
      cases hfind : c.shared.activations.find? id with
      | none => rfl
      | some e => exact absurd ((H.stored id e.1 e.2).mp hfind).accepted (hdistinct id pa rest hops e.1 e.2)

/-- What a thread is to apply has a number that was given. -/
theorem Kept.not_waiting (H : Kept c) {t n : ℕ} (hn : n ∈ firing c t) {id : Text} {pa : Is08PendingActivation} :
    ¬ Waiting c.shared.log n id pa := by
  obtain ⟨⟨now, htaken⟩, -⟩ := H.taken t n hn
  exact fun hwait => hwait.taken now htaken

/-- Threads that have the same activations to apply. -/
theorem Kept.of_firing_eq (H : Kept c) (hfiring : ∀ t, firing c' t = firing c t) {events : List CmEvent}
    (hlog : c'.shared.log = c.shared.log ++ events) (hfired : ∀ n, .fired n ∉ events)
    (hhistory : History c'.shared.log)
    (hstored : ∀ id serial pa, c'.shared.activations.find? id = some (serial, pa) ↔
      Waiting c'.shared.log serial id pa) : Kept c' where
  history := hhistory
  stored := hstored
  taken := by
    intro t n hn
    rw [hfiring] at hn
    obtain ⟨⟨now, htaken⟩, hnot⟩ := H.taken t n hn
    rw [hlog]
    exact ⟨⟨now, List.mem_append_left _ htaken⟩, fun hmem => (List.mem_append.mp hmem).elim hnot (hfired n)⟩
  nodup t := hfiring t ▸ H.nodup t
  apart := by
    intro t t' hne n hn
    rw [hfiring] at hn ⊢
    exact H.apart t t' hne n hn

theorem firing_turned {op : CmOp} {rest next : List CmOp} {s' : CmState} {t : ℕ} (t' : ℕ) :
    firing (c.turned (fun _ _ => (next, s')) t op rest) t' =
      if t' = t then next.filterMap CmOp.firing? ++ rest.filterMap CmOp.firing? else firing c t' := by
  rw [firing, Pool.ops_turned]
  split
  · rw [List.filterMap_append]
  · rfl

theorem kept_start {t : ℕ} {request : CmRequest} (H : Kept c) (hidle : c.ops t = []) :
    Kept (c.started t request.op) := by
  have hfiring : ∀ t', firing (c.started t request.op) t' = firing c t' := by
    intro t'
    rw [firing, Pool.ops_started]
    split
    · rename_i ht
      rw [ht, firing, hidle]
      cases request <;> rfl
    · rfl
  exact H.of_firing_eq hfiring (List.append_nil _).symm (by simp) H.history H.stored

/-- An operation that has nothing to apply, and leaves nothing to be applied. -/
theorem firing_turned_of_none {op : CmOp} {rest next : List CmOp} {s' : CmState} {t : ℕ}
    (hops : c.ops t = op :: rest) (hop : op.firing? = none) (hnext : next.filterMap CmOp.firing? = []) (t' : ℕ) :
    firing (c.turned (fun _ _ => (next, s')) t op rest) t' = firing c t' := by
  rw [firing_turned, hnext, List.nil_append]
  split
  · rename_i ht
    rw [ht, firing, hops, List.filterMap_cons_none hop]
  · rfl

/-! ### One operation -/

section
variable {op : CmOp} {rest next : List CmOp} {t : ℕ} {id : Text} {pa : Is08PendingActivation}

/-- An activation that is kept under an id of its own waits. -/
theorem Kept.inserted (H : Kept c) (hfree : c.shared.activations.find? id = none) (id' : Text) (serial : ℕ)
    (pa' : Is08PendingActivation) :
    (c.shared.activations.insert id (c.shared.log.length, pa)).find? id' = some (serial, pa') ↔
      Waiting (c.shared.log ++ [.accepted c.shared.log.length id pa]) serial id' pa' := by
  rw [H.history.waiting_append_accepted, SortedMap.find?_insert, ← H.stored]
  split
  · rename_i hid
    subst hid
    rw [hfree]
    simp [eq_comm]
  · rename_i hid
    simp [hid]

/-- What is deleted does not wait any more; the others do. -/
theorem Kept.deleted (H : Kept c) {n : ℕ} (hfind : c.shared.activations.find? id = some (n, pa)) (id' : Text)
    (serial : ℕ) (pa' : Is08PendingActivation) :
    (c.shared.activations.erase id).find? id' = some (serial, pa') ↔
      Waiting (c.shared.log ++ [.deleted n]) serial id' pa' := by
  have hwait := (H.stored id n pa).mp hfind
  rw [waiting_append_deleted, ← H.stored, SortedMap.find?_erase]
  split
  · rename_i hid
    subst hid
    rw [hfind]
    simpa [eq_comm] using fun h _ => h
  · rename_i hid
    refine (and_iff_left_of_imp fun hfind' hserial => hid ?_).symm
    subst hserial
    exact (H.history.accepted_inj ((H.stored id' _ pa').mp hfind').accepted hwait.accepted).1

/-- The numbers of what is due. -/
theorem Kept.mem_due (H : Kept c) {now : ℤ} {serial : ℕ} :
    serial ∈ (c.shared.due now).map Prod.fst ↔
      ∃ id pa, Waiting c.shared.log serial id pa ∧ pa.deadlineNs ≤ now := by
  constructor
  · intro hmem
    obtain ⟨e, he, rfl⟩ := List.mem_map.mp hmem
    obtain ⟨id, hfind, hdue⟩ := CmState.mem_due.mp he
    exact ⟨id, e.2, (H.stored id e.1 e.2).mp hfind, hdue⟩
  · rintro ⟨id, pa, hwait, hdue⟩
    exact List.mem_map.mpr ⟨(serial, pa), CmState.mem_due.mpr ⟨id, (H.stored id serial pa).mpr hwait, hdue⟩, rfl⟩

theorem Kept.due_nodup (H : Kept c) (now : ℤ) : ((c.shared.due now).map Prod.fst).Nodup := by
  have hentries : c.shared.activations.entries.Nodup := c.shared.activations.keys_nodup.of_map
  have hkeys := List.inj_on_of_nodup_map c.shared.activations.keys_nodup
  rw [CmState.due, List.map_map]
  refine (hentries.filter _).map_on fun e he e' he' heq => ?_
  have hmem := List.mem_of_mem_filter he
  have hmem' := List.mem_of_mem_filter he'
  have hwait := (H.stored e.1 e.2.1 e.2.2).mp (SortedMap.mem_entries.mp hmem)
  have hwait' := (H.stored e'.1 e'.2.1 e'.2.2).mp (SortedMap.mem_entries.mp hmem')
  have hserial : e.2.1 = e'.2.1 := heq
  rw [← hserial] at hwait'
  exact hkeys hmem hmem' (H.history.accepted_inj hwait.accepted hwait'.accepted).1

/-- What was due does not wait any more; the others do. -/
theorem Kept.took (H : Kept c) (now : ℤ) (id : Text) (serial : ℕ) (pa : Is08PendingActivation) :
    (c.shared.activations.eraseIf fun _ e => e.2.deadlineNs ≤ now).find? id = some (serial, pa) ↔
      Waiting (c.shared.log ++ ((c.shared.due now).map Prod.fst).map fun n => .taken n now) serial id pa := by
  rw [waiting_append_taken, H.mem_due, SortedMap.find?_eraseIf, Option.filter_eq_some_iff, H.stored]
  refine and_congr_right fun hwait => ?_
  simp only [Bool.not_eq_true', decide_eq_false_iff_not]
  constructor
  · rintro hlater ⟨id', pa', hwait', hdue⟩
    obtain ⟨-, rfl⟩ := H.history.accepted_inj hwait.accepted hwait'.accepted
    exact hlater hdue
  · intro hnot hdue
    exact hnot ⟨id, pa, hwait, hdue⟩

/-- The worker has taken what is due. -/
theorem kept_took (H : Kept c) {now : ℤ} (hops : c.ops t = .takeDue :: rest) :
    Kept (c.turned (fun _ _ => ((c.shared.due now).map fun e : ℕ × Is08PendingActivation => .fire e.1 e.2,
      { c.shared with activations := c.shared.activations.eraseIf fun _ e => e.2.deadlineNs ≤ now }.append
        ((c.shared.due now).map fun e : ℕ × Is08PendingActivation => .taken e.1 now))) t .takeDue rest) := by
  set serials := (c.shared.due now).map Prod.fst with hserials
  have hevents : (c.shared.due now).map (fun e : ℕ × Is08PendingActivation => CmEvent.taken e.1 now) =
      serials.map fun n => .taken n now := by
    rw [hserials, List.map_map]
    rfl
  have hfires : ((c.shared.due now).map fun e : ℕ × Is08PendingActivation => CmOp.fire e.1 e.2).filterMap
      CmOp.firing? = serials := by
    rw [hserials, List.filterMap_map, ← List.filterMap_eq_map]
    rfl
  have hwaiting : ∀ n ∈ serials, ∃ id pa, Waiting c.shared.log n id pa ∧ pa.deadlineNs ≤ now := fun n =>
    H.mem_due.mp
  have hrest : firing c t = rest.filterMap CmOp.firing? := by
    rw [firing, hops]
    rfl
  have hnew : ∀ t', ∀ n ∈ serials, n ∉ firing c t' := fun t' n hn hfiring => by
    obtain ⟨id, pa, hwait, -⟩ := hwaiting n hn
    exact H.not_waiting hfiring hwait
  have hfiring : ∀ t', firing (c.turned (fun _ _ => ((c.shared.due now).map fun e => CmOp.fire e.1 e.2,
      { c.shared with activations := c.shared.activations.eraseIf fun _ e => e.2.deadlineNs ≤ now }.append
        (serials.map fun n => .taken n now))) t .takeDue rest) t' =
      if t' = t then serials ++ firing c t else firing c t' := by
    intro t'
    rw [firing_turned, hfires, hrest]
  rw [hevents]
  have hmem : ∀ t' n, n ∈ (if t' = t then serials ++ firing c t else firing c t') →
      (t' = t ∧ n ∈ serials) ∨ n ∈ firing c t' := by
    intro t' n hn
    split at hn
    · rename_i ht
      subst ht
      exact (List.mem_append.mp hn).imp_left fun h => ⟨rfl, h⟩
    · exact .inr hn
  have hfired : ∀ n, .fired n ∈ c.shared.log ++ serials.map (fun n => CmEvent.taken n now) →
      .fired n ∈ c.shared.log := by
    intro n hn
    simpa using hn
  exact
    { history := H.history.append_taken (H.due_nodup now) hwaiting
      stored := H.took now
      taken := by
        intro t' n hn
        rw [hfiring] at hn
        rcases hmem t' n hn with ⟨-, hdue⟩ | hold
        · obtain ⟨id, pa, hwait, -⟩ := hwaiting n hdue
          refine ⟨⟨now, List.mem_append_right _ (List.mem_map_of_mem hdue)⟩, fun h => ?_⟩
          obtain ⟨now', htaken⟩ := H.history.taken_of_fired (hfired n h)
          exact hwait.taken now' htaken
        · obtain ⟨⟨now', htaken⟩, hnot⟩ := H.taken t' n hold
          exact ⟨⟨now', List.mem_append_left _ htaken⟩, fun h => hnot (hfired n h)⟩
      nodup := by
        intro t'
        rw [hfiring]
        split
        · exact (H.due_nodup now).append (H.nodup t) (hnew t)
        · exact H.nodup t'
      apart := by
        intro t₁ t₂ hne n hn hn'
        rw [hfiring] at hn hn'
        rcases hmem t₁ n hn with ⟨ht₁, hdue⟩ | hold
        · rcases hmem t₂ n hn' with ⟨ht₂, -⟩ | hold
          · exact hne (ht₁.trans ht₂.symm)
          · exact hnew t₂ n hdue hold
        · rcases hmem t₂ n hn' with ⟨-, hdue⟩ | hold'
          · exact hnew t₁ n hdue hold
          · exact H.apart t₁ t₂ hne n hold hold' }

/-- The worker applies one that it has taken. -/
theorem kept_fired (H : Kept c) {serial : ℕ} (hops : c.ops t = .fire serial pa :: rest)
    (hnext : next.filterMap CmOp.firing? = []) :
    Kept (c.turned (fun _ _ => (next, c.shared.append [.fired serial])) t (.fire serial pa) rest) := by
  have hthis : firing c t = serial :: rest.filterMap CmOp.firing? := by
    rw [firing, hops]
    rfl
  have hnodup := H.nodup t
  rw [hthis] at hnodup
  obtain ⟨hserial, hnodup⟩ := List.nodup_cons.mp hnodup
  have hmem : serial ∈ firing c t := by
    rw [hthis]
    exact List.mem_cons_self
  obtain ⟨htaken, hnot⟩ := H.taken t serial hmem
  have hfiring : ∀ t', firing (c.turned (fun _ _ => (next, c.shared.append [.fired serial])) t (.fire serial pa)
      rest) t' = if t' = t then rest.filterMap CmOp.firing? else firing c t' := by
    intro t'
    rw [firing_turned, hnext, List.nil_append]
  -- what a thread still has to apply, it had to apply before, and it is not this one
  have hold : ∀ t', ∀ n ∈ if t' = t then rest.filterMap CmOp.firing? else firing c t',
      n ∈ firing c t' ∧ n ≠ serial := by
    intro t' n hn
    split at hn
    · rename_i ht
      subst ht
      rw [hthis]
      exact ⟨List.mem_cons_of_mem _ hn, fun heq => hserial (heq ▸ hn)⟩
    · rename_i ht
      exact ⟨hn, fun heq => H.apart t' t ht n hn (heq ▸ hmem)⟩
  exact
    { history := H.history.snoc ⟨htaken, hnot⟩
      stored := fun id' n pa' => (H.stored id' n pa').trans
        (waiting_append_of_notMem (by simp) (by simp) (by simp)).symm
      taken := by
        intro t' n hn
        rw [hfiring] at hn
        obtain ⟨hn, hne⟩ := hold t' n hn
        obtain ⟨⟨now, htaken⟩, hnot⟩ := H.taken t' n hn
        refine ⟨⟨now, List.mem_append_left _ htaken⟩, fun h => ?_⟩
        rcases List.mem_append.mp h with h | h
        · exact hnot h
        · simp [hne] at h
      nodup := by
        intro t'
        rw [hfiring]
        split
        · exact hnodup
        · exact H.nodup t'
      apart := by
        intro t₁ t₂ hne n hn hn'
        rw [hfiring] at hn hn'
        exact H.apart t₁ t₂ hne n (hold t₁ n hn).1 (hold t₂ n hn').1 }

/-- **One operation keeps it.** -/
theorem kept_turned (H : Kept c) {now : ℤ} {s' : CmState} (hops : c.ops t = op :: rest)
    (hfree : ∀ id pa, op = .insert id pa → c.shared.activations.find? id = none)
    (heffect : op.Effect now c.shared next s') : Kept (c.turned (fun _ _ => (next, s')) t op rest) := by
  cases heffect with
  | other hop hactivations hlog hquiet hnext =>
      refine H.of_firing_eq (firing_turned_of_none hops hop hnext) hlog (fun n hn => ?_) ?_ ?_
      · cases hquiet _ hn
      · rw [Pool.shared_turned, hlog]
        exact H.history.append_quiet hquiet
      · intro id serial pa
        rw [Pool.shared_turned, hactivations, hlog, waiting_append_quiet hquiet]
        exact H.stored id serial pa
  | inserted id pa =>
      exact H.of_firing_eq (firing_turned_of_none hops rfl rfl) rfl (by simp) (H.history.snoc rfl)
        (H.inserted (hfree id pa rfl))
  | took => exact kept_took H hops
  | fired hnext => exact kept_fired H hops hnext
  | deleted hfind =>
      exact H.of_firing_eq (firing_turned_of_none hops rfl rfl) rfl (by simp)
        (H.history.snoc ⟨_, _, (H.stored _ _ _).mp hfind⟩) (H.deleted hfind)
  | listed =>
      refine H.of_firing_eq (firing_turned_of_none hops rfl rfl) rfl (by simp) (H.history.snoc ?_) ?_
      · intro id serial
        rw [← exists_congr fun pa => H.stored id serial pa]
        simp [← SortedMap.mem_entries]
      · intro id serial pa
        exact (H.stored id serial pa).trans (waiting_append_of_notMem (by simp) (by simp) (by simp)).symm

end

/-- One step keeps it. -/
theorem kept_step (H : Kept c) (hfree : FreeId c l) (hstep : step h readJson c l = some c') : Kept c' := by
  cases l with
  | start t request =>
      obtain ⟨hidle, rfl⟩ := Pool.start_eq_some.mp hstep
      exact kept_start H hidle
  | turn t env now =>
      obtain ⟨op, rest, ⟨next, s'⟩, hops, hexec, rfl⟩ := Pool.turn?_eq_some.mp hstep
      refine kept_turned H hops ?_ (CmOp.effect hexec)
      rintro id pa rfl
      exact hfree id pa rest hops

/-- **Every run makes a history.**  As long as ids are distinct, each activation is applied
at most once, not before its time and not after it was deleted, and listings have those
that wait. -/
theorem run_lifecycle {sm : SessionManager} {labels : List CmLabel}
    (hdistinct : Along (step h readJson) DistinctIds (boot sm) labels)
    (hrun : run (step h readJson) (boot sm) labels = some c) : Lifecycle c.shared.log :=
  (run_keeps (fun _ _ _ H hdistinct hstep => kept_step H (H.freeId hdistinct) hstep) (kept_boot sm) hdistinct
    hrun).history.lifecycle

/-! ## Sample runs -/

/-- The text of a request. -/
def postBody (mode : CmMode) (requestedTime actionJson : Text) : Text :=
  '{' :: Json.memberText ("activation".toList,
      '{' :: Json.memberText ("mode".toList, '"' :: mode.text ++ ['"']) ++ ", ".toList ++
        Json.memberText ("requested_time".toList, '"' :: requestedTime ++ ['"']) ++ ['}']) ++ ", ".toList ++
    Json.memberText ("action".toList, actionJson) ++ ['}']

/-- Turns of a thread one after another, with nothing to be answered. -/
def turns (t n : ℕ) (now : ℤ) : List CmLabel := List.replicate n (.turn t {} now)

/-- Whether an id was not given before. -/
def distinctId (c : CmThreads) : CmLabel → Bool
  | .start _ _ => true
  | .turn t _ _ =>
    match c.ops t with
    | .insert id _ :: _ => c.shared.log.all fun
      | .accepted _ id' _ => id' ≠ id
      | _ => true
    | _ => true

theorem distinctIds_of_distinctId (hdistinct : distinctId c l = true) : DistinctIds c l := by
  cases l with
  | start t request => trivial
  | turn t env now =>
      intro id pa rest hops serial pa' hmem
      simp only [distinctId, hops] at hdistinct
      have hne := List.all_eq_true.mp hdistinct _ hmem
      simp at hne

/-- An activation is scheduled and listed; the worker takes it when its time has come. -/
def scheduledRun : List CmLabel :=
  .start 0 (.post (postBody .absolute "5:0".toList (CmHost.actionText {} (MapThreads.channelItem 0 5)))) ::
    turns 0 7 0 ++ [.start 1 .list, .turn 1 {} 1, .start 2 .processScheduled, .turn 2 {} 6000000000,
      .turn 2 {} 0, .start 1 .list, .turn 1 {} 7000000000]

/-- The activation is listed until it is taken, and applied once. -/
theorem lifecycle_scheduled : ∃ sm c, MapThreads.oneSource = some sm ∧
    run (step {} Json.read) (boot sm) scheduledRun = some c ∧
    c.shared.log.drop 1 = [.listed [("1".toList, 0)], .taken 0 6000000000, .fired 0, .listed []] ∧
    Lifecycle c.shared.log := by
  have heval : (MapThreads.oneSource.map fun sm => ((run (step {} Json.read) (boot sm) scheduledRun).map fun c => c.shared.log.drop 1,
      decide (Along (step {} Json.read) (fun c l => distinctId c l = true) (boot sm) scheduledRun))) =
      some (some [.listed [("1".toList, 0)], .taken 0 6000000000, .fired 0, .listed []], true) := by
    decide +kernel
  obtain ⟨sm, hsm, heq⟩ := Option.map_eq_some_iff.mp heval
  simp only [Prod.mk.injEq] at heq
  obtain ⟨hrun, hdistinct⟩ := heq
  obtain ⟨c, hrun, hlog⟩ := Option.map_eq_some_iff.mp hrun
  exact ⟨sm, c, hsm, hrun, hlog,
    run_lifecycle ((of_decide_eq_true hdistinct).imp fun c l => distinctIds_of_distinctId) hrun⟩

end CmThreads
end Aes67Daemon
