import Aes67Daemon.Lib.Ptree
import Aes67Daemon.Lib.Run
import Aes67Daemon.Nmos.Integrity

/-!
# The subscriptions of the Query API

A POST makes the id of its subscription from the resource path and the number of the
subscriptions there are; that number it reads before it takes the lock.  A DELETE, and the
end of a WebSocket connection, take away what stands under the id by then.  As the number
goes down again when a subscription is removed, an id comes back while the subscription
that has it is still there.

Every POST that has been answered is numbered here, and each subscription keeps the number
of its POST; a client knows the id that it was given.

## Main definitions

* `QuerySubscription` — a subscription, and `Posted`, with what its id was made of.
* `QueryThreads.step` — the critical sections of the handlers and the connections.
* `QueryThreads.Independent` — a step leaves the subscriptions of the other clients alone.
* `QueryThreads.independent_iff` — the runs in which all steps do.
-/
namespace Aes67Daemon

open Text

/-- `Subscription`. -/
structure QuerySubscription where
  id : Text
  resourcePath : Text
  sourceId : Text
  flowId : Text
  persist : Bool

/-- `valid_paths`. -/
def validPaths : List Text :=
  ["/nodes".toList, "/devices".toList, "/sources".toList, "/flows".toList, "/senders".toList, "/receivers".toList]

/-- What a POST asks for, if its body is read and the path is one there is. -/
def NmosHost.readSubscription (h : NmosHost) (body : Text) : Option ({path : Text // path ∈ validPaths} × Bool) :=
  (h.host.readJson body).bind fun pt =>
    let resourcePath := ((pt.child? "resource_path".toList).map Ptree.data).getD []
    let persist := ((pt.child? "persist".toList).bind Ptree.getBool?).getD false
    (validPaths.attach.find? fun path => path.1 = resourcePath).map fun path => (path, persist)

/-- The name that an id is made from. -/
def subscriptionName (resourcePath : Text) (size : ℕ) : Text :=
  "subscription-".toList ++ resourcePath ++ '-' :: ofNat size

/-- The subscription of a POST that has read this size. -/
def NmosHost.querySubscription (h : NmosHost) (resourcePath : Text) (persist : Bool) (size : ℕ) : QuerySubscription :=
  let id := h.makeUuid5 h.nodeId (subscriptionName resourcePath size)
  { id := id
    resourcePath := resourcePath
    sourceId := h.makeUuid5 id "ws-source".toList
    flowId := h.makeUuid5 id "ws-flow".toList
    persist := persist }

/-- A subscription, and the size that its id was made from. -/
structure Posted (h : NmosHost) where
  sub : QuerySubscription
  size : ℕ
  valid : sub.resourcePath ∈ validPaths
  made : sub = h.querySubscription sub.resourcePath sub.persist size

/-- The ids of the two are made of the same. -/
def Posted.Same {h : NmosHost} (p q : Posted h) : Prop := p.sub.resourcePath = q.sub.resourcePath ∧ p.size = q.size

structure QueryThreads (h : NmosHost) where
  /-- `subscriptions_`, each with the number of its POST. -/
  subscriptions : SortedMap Text (ℕ × Posted h) := .empty
  /-- The POSTs that have made their subscription and wait for the lock. -/
  posting : List (Posted h) := []
  /-- The POSTs that have been answered. -/
  answered : List (Posted h) := []
  /-- The WebSocket connections, by the number of the POST whose id they were opened with. -/
  connections : List ℕ := []

inductive QueryLabel
  | post (body : Text)
  | insert (i : ℕ)
  | delete (k : ℕ)
  | connect (k : ℕ)
  | disconnect (i : ℕ)
  /-- An exception ends the connection. -/
  | fail (i : ℕ)

namespace QueryThreads
variable {h : NmosHost}

/-- A POST up to the lock; `none` is the answer 400. -/
def preparePost (s : QueryThreads h) (body : Text) : Option (Posted h) :=
  (h.readSubscription body).map fun asked =>
    { sub := h.querySubscription asked.1 asked.2 s.subscriptions.entries.length
      size := s.subscriptions.entries.length
      valid := asked.1.2
      made := rfl }

/-- The rest of a POST, under the lock. -/
def insertPost (s : QueryThreads h) (p : Posted h) : QueryThreads h :=
  { s with
    subscriptions := s.subscriptions.insert p.sub.id (s.answered.length, p)
    answered := s.answered ++ [p] }

/-- The DELETE handler: its status, and the subscriptions. -/
def deleteSubscription (s : QueryThreads h) (id : Text) : ℕ × QueryThreads h :=
  match s.subscriptions.find? id with
  | none => (404, s)
  | some (_, q) => if q.sub.persist then (403, s) else (204, { s with subscriptions := s.subscriptions.erase id })

/-- The end of a connection that has been closed. -/
def closeConnection (s : QueryThreads h) (id : Text) : QueryThreads h :=
  match s.subscriptions.find? id with
  | none => s
  | some (_, q) => if q.sub.persist then s else { s with subscriptions := s.subscriptions.erase id }

/-- The id that the `k`-th POST was answered with. -/
def idOf? (s : QueryThreads h) (k : ℕ) : Option Text := s.answered[k]?.map fun p => p.sub.id

def step (s : QueryThreads h) : QueryLabel → Option (QueryThreads h)
  | .post body => some ((s.preparePost body).elim s fun p => { s with posting := s.posting ++ [p] })
  | .insert i => s.posting[i]?.map fun p => { s with posting := s.posting.eraseIdx i }.insertPost p
  | .delete k => (s.idOf? k).map fun id => (s.deleteSubscription id).2
  | .connect k => (s.idOf? k).map fun id =>
    if s.subscriptions.contains id then { s with connections := s.connections ++ [k] } else s
  | .disconnect i => s.connections[i]?.bind fun k => (s.idOf? k).map fun id =>
    { s with connections := s.connections.eraseIdx i }.closeConnection id
  | .fail i => some { s with connections := s.connections.eraseIdx i }

/-- The POST whose subscription a step may remove. -/
def owner (s : QueryThreads h) : QueryLabel → Option ℕ
  | .delete k => some k
  | .disconnect i => s.connections[i]?
  | _ => none

/-- A step leaves the subscriptions of the others as they are, and a POST that is answered has an
id that no subscription has. -/
structure Independent (s : QueryThreads h) (l : QueryLabel) (s' : QueryThreads h) : Prop where
  others : ∀ e ∈ s.subscriptions.entries, e.2.1 ∉ s.owner l → e ∈ s'.subscriptions.entries
  fresh : ∀ i, l = .insert i → ∀ p ∈ s.posting[i]?, ∀ e ∈ s.subscriptions.entries, e.2.2.sub.id ≠ p.sub.id

/-- The `k`-th subscription has no namesake that would be removed in its place. -/
def Unique (s : QueryThreads h) (k : ℕ) : Prop :=
  ∀ p ∈ s.answered[k]?, ∀ e ∈ s.subscriptions.entries, e.2.1 ≠ k → e.2.2.sub.persist = false → ¬ e.2.2.Same p

/-- A POST finds no subscription of its path that was made at the same size, and a subscription
that is removed has no namesake. -/
def Guarded (s : QueryThreads h) : QueryLabel → Prop
  | .insert i => ∀ p ∈ s.posting[i]?, ∀ e ∈ s.subscriptions.entries, ¬ e.2.2.Same p
  | .delete k => s.Unique k
  | .disconnect i => ∀ k ∈ s.connections[i]?, s.Unique k
  | _ => True

instance (p q : Posted h) : Decidable (p.Same q) := inferInstanceAs (Decidable (_ ∧ _))

instance (s : QueryThreads h) (k : ℕ) : Decidable (s.Unique k) :=
  inferInstanceAs (Decidable (∀ p ∈ s.answered[k]?, ∀ e ∈ s.subscriptions.entries, _))

instance (s : QueryThreads h) : (l : QueryLabel) → Decidable (s.Guarded l)
  | .insert i => inferInstanceAs (Decidable (∀ p ∈ s.posting[i]?, ∀ e ∈ s.subscriptions.entries, ¬ e.2.2.Same p))
  | .delete k => inferInstanceAs (Decidable (s.Unique k))
  | .disconnect i => inferInstanceAs (Decidable (∀ k ∈ s.connections[i]?, s.Unique k))
  | .post _ | .connect _ | .fail _ => .isTrue trivial

/-! ## The ids -/

theorem notMem_of_valid {path : Text} (h : path ∈ validPaths) : '-' ∉ path := by
  have hall : ∀ path ∈ validPaths, '-' ∉ path := by decide +kernel
  exact hall path h

/-- A name tells the path and the size. -/
theorem subscriptionName_inj {p q : Text} {m n : ℕ} (hp : '-' ∉ p) (hq : '-' ∉ q)
    (h : subscriptionName p m = subscriptionName q n) : p = q ∧ m = n := by
  have hcancel : ∀ lead x y : Text, lead ++ p ++ x = lead ++ q ++ y → p ++ x = q ++ y := by
    intro lead x y heq
    rw [List.append_assoc, List.append_assoc] at heq
    exact List.append_cancel_left heq
  have htail : p ++ '-' :: ofNat m = q ++ '-' :: ofNat n := hcancel _ _ _ h
  have hsplit := congrArg (List.splitOn '-') htail
  rw [List.splitOn_append_cons_self_of_not_mem hp, List.splitOn_append_cons_self_of_not_mem hq] at hsplit
  obtain rfl := (List.cons.inj hsplit).1
  have hsize := congrArg digitsValue (List.cons.inj (List.append_cancel_left htail)).2
  rw [digitsValue_ofNat, digitsValue_ofNat] at hsize
  exact ⟨rfl, hsize⟩

/-- **Two ids are the same exactly when path and size are.** -/
theorem id_eq_iff (hinj : Function.Injective2 h.makeUuid5) (p q : Posted h) : p.sub.id = q.sub.id ↔ p.Same q := by
  have hp := congrArg QuerySubscription.id p.made
  have hq := congrArg QuerySubscription.id q.made
  rw [hp, hq, Posted.Same]
  constructor
  · intro heq
    exact subscriptionName_inj (notMem_of_valid p.valid) (notMem_of_valid q.valid) (hinj heq).2
  · rintro ⟨hpath, hsize⟩
    rw [hpath, hsize]
    rfl

/-! ## A step -/

/-- Every subscription stands under its id, and its POST has been answered. -/
structure Keyed (s : QueryThreads h) : Prop where
  id : ∀ e ∈ s.subscriptions.entries, e.2.2.sub.id = e.1
  answered : ∀ e ∈ s.subscriptions.entries, e.2.1 < s.answered.length

variable {s s' : QueryThreads h} {l : QueryLabel}

theorem deleteSubscription_eq (s : QueryThreads h) (id : Text) : (s.deleteSubscription id).2 = s.closeConnection id := by
  unfold deleteSubscription closeConnection
  split
  · rfl
  · split <;> rfl

/-- What is left when a subscription is removed. -/
theorem mem_closeConnection {id : Text} {e : Text × ℕ × Posted h} :
    e ∈ (s.closeConnection id).subscriptions.entries ↔
      e ∈ s.subscriptions.entries ∧ (e.1 = id → e.2.2.sub.persist = true) := by
  obtain ⟨key, n, q⟩ := e
  unfold closeConnection
  split
  · rename_i hnone
    refine (and_iff_left_of_imp fun hmem hkey => ?_).symm
    obtain rfl : key = id := hkey
    exact absurd ((SortedMap.mem_entries.mp hmem).symm.trans hnone) (by simp)
  · rename_i n' q' hfound
    have hsame : key = id → (key, n, q) ∈ s.subscriptions.entries → q = q' := by
      rintro rfl hmem
      have heq := Option.some.inj ((SortedMap.mem_entries.mp hmem).symm.trans hfound)
      exact congrArg Prod.snd heq
    split
    · rename_i hpersist
      exact (and_iff_left_of_imp fun hmem hkey => hsame hkey hmem ▸ hpersist).symm
    · rename_i hpersist
      rw [SortedMap.mem_entries, SortedMap.find?_erase]
      by_cases hkey : key = id
      · simp only [hkey, if_true, reduceCtorEq, false_iff, not_and, forall_const]
        intro hmem
        rw [hsame hkey (hkey ▸ hmem)]
        exact hpersist
      · simp [hkey, SortedMap.mem_entries]

theorem answered_closeConnection (s : QueryThreads h) (id : Text) : (s.closeConnection id).answered = s.answered := by
  unfold closeConnection
  split
  · rfl
  · split <;> rfl

theorem Keyed.closeConnection (K : s.Keyed) (id : Text) : (s.closeConnection id).Keyed := by
  refine ⟨fun e he => K.id e (mem_closeConnection.mp he).1, fun e he => ?_⟩
  rw [answered_closeConnection]
  exact K.answered e (mem_closeConnection.mp he).1

theorem Keyed.insertPost (K : s.Keyed) (p : Posted h) : (s.insertPost p).Keyed := by
  have hentry : ∀ e ∈ (s.insertPost p).subscriptions.entries,
      e = (p.sub.id, s.answered.length, p) ∨ e ∈ s.subscriptions.entries := by
    rintro ⟨key, n, q⟩ he
    rw [SortedMap.mem_entries, QueryThreads.insertPost, SortedMap.find?_insert] at he
    split at he
    · rename_i hkey
      left
      rw [hkey, Option.some.inj he]
    · exact .inr (SortedMap.mem_entries.mpr he)
  have hlength : (s.insertPost p).answered.length = s.answered.length + 1 := by simp [QueryThreads.insertPost]
  refine ⟨fun e he => ?_, fun e he => ?_⟩
  · obtain rfl | he := hentry e he
    · rfl
    · exact K.id e he
  · rw [hlength]
    obtain rfl | he := hentry e he
    · exact Nat.lt_succ_self _
    · exact Nat.lt_succ_of_lt (K.answered e he)

theorem keyed_step (K : s.Keyed) (hs : s.step l = some s') : s'.Keyed := by
  cases l with
  | post body =>
      obtain rfl := Option.some.inj hs
      cases s.preparePost body with
      | none => exact K
      | some p => exact ⟨K.id, K.answered⟩
  | insert i =>
      obtain ⟨p, -, rfl⟩ := Option.map_eq_some_iff.mp hs
      exact Keyed.insertPost (s := { s with posting := s.posting.eraseIdx i }) ⟨K.id, K.answered⟩ p
  | delete k =>
      obtain ⟨id, -, rfl⟩ := Option.map_eq_some_iff.mp hs
      rw [deleteSubscription_eq]
      exact K.closeConnection id
  | connect k =>
      obtain ⟨id, -, rfl⟩ := Option.map_eq_some_iff.mp hs
      split
      · exact ⟨K.id, K.answered⟩
      · exact K
  | disconnect i =>
      obtain ⟨k, -, hs⟩ := Option.bind_eq_some_iff.mp hs
      obtain ⟨id, -, rfl⟩ := Option.map_eq_some_iff.mp hs
      exact Keyed.closeConnection (s := { s with connections := s.connections.eraseIdx i }) ⟨K.id, K.answered⟩ id
  | fail i =>
      obtain rfl := Option.some.inj hs
      exact ⟨K.id, K.answered⟩

/-- A subscription is removed without another one exactly when it has no namesake. -/
theorem others_closeConnection_iff (hinj : Function.Injective2 h.makeUuid5) (K : s.Keyed) {k : ℕ} {id : Text}
    (hid : s.idOf? k = some id) :
    (∀ e ∈ s.subscriptions.entries, e.2.1 ≠ k → e ∈ (s.closeConnection id).subscriptions.entries) ↔ s.Unique k := by
  obtain ⟨p, hp, rfl⟩ := Option.map_eq_some_iff.mp hid
  simp only [Unique, hp, Option.mem_some_iff, forall_eq', mem_closeConnection]
  refine forall₂_congr fun e he => imp_congr_right fun _ => ?_
  rw [and_iff_right he, ← K.id e he, id_eq_iff hinj]
  cases e.2.2.sub.persist with
  | false => simp
  | true => simp

theorem independent_of_same (hsame : s'.subscriptions = s.subscriptions) (hinsert : ∀ i, l ≠ .insert i) :
    s.Independent l s' :=
  ⟨fun _ he _ => hsame ▸ he, fun i hi => absurd hi (hinsert i)⟩

/-- An id that is new leaves all subscriptions as they are. -/
theorem others_insertPost (K : s.Keyed) {p : Posted h}
    (hfresh : ∀ e ∈ s.subscriptions.entries, e.2.2.sub.id ≠ p.sub.id) :
    ∀ e ∈ s.subscriptions.entries, e ∈ (s.insertPost p).subscriptions.entries := by
  rintro ⟨key, n, q⟩ he
  have hne : key ≠ p.sub.id := fun heq => hfresh _ he ((K.id _ he).trans heq)
  rw [SortedMap.mem_entries, QueryThreads.insertPost, SortedMap.find?_insert, if_neg hne]
  exact SortedMap.mem_entries.mp he

/-- **A step leaves the others alone exactly when it is guarded.** -/
theorem independent_step_iff (hinj : Function.Injective2 h.makeUuid5) (K : s.Keyed) (hs : s.step l = some s') :
    s.Independent l s' ↔ s.Guarded l := by
  cases l with
  | post body =>
      obtain rfl := Option.some.inj hs
      refine iff_of_true (independent_of_same ?_ fun i hi => by cases hi) trivial
      cases s.preparePost body with
      | none => rfl
      | some p => rfl
  | insert i =>
      obtain ⟨p, hp, rfl⟩ := Option.map_eq_some_iff.mp hs
      have hguard : s.Guarded (.insert i) ↔ ∀ e ∈ s.subscriptions.entries, e.2.2.sub.id ≠ p.sub.id := by
        simp only [Guarded, hp, Option.mem_some_iff, forall_eq', ← id_eq_iff hinj, Ne]
      rw [hguard]
      constructor
      · intro I
        exact I.fresh i rfl p hp
      · intro hfresh
        refine ⟨fun e he _ => ?_, fun j hj p' hp' => ?_⟩
        · exact others_insertPost (s := { s with posting := s.posting.eraseIdx i }) ⟨K.id, K.answered⟩ hfresh e he
        · obtain rfl := QueryLabel.insert.inj hj
          obtain rfl := Option.some.inj (hp.symm.trans hp')
          exact hfresh
  | delete k =>
      obtain ⟨id, hid, rfl⟩ := Option.map_eq_some_iff.mp hs
      rw [deleteSubscription_eq, show s.Guarded (.delete k) ↔ s.Unique k from .rfl,
        ← others_closeConnection_iff hinj K hid]
      constructor
      · intro I e he hne
        exact I.others e he fun hk => hne (Option.some.inj hk).symm
      · intro hothers
        exact ⟨fun e he hk => hothers e he fun heq => hk (congrArg some heq.symm), fun i hi => by cases hi⟩
  | connect k =>
      obtain ⟨id, -, rfl⟩ := Option.map_eq_some_iff.mp hs
      refine iff_of_true (independent_of_same ?_ fun i hi => by cases hi) trivial
      split <;> rfl
  | disconnect i =>
      obtain ⟨k, hk, hs⟩ := Option.bind_eq_some_iff.mp hs
      obtain ⟨id, hid, rfl⟩ := Option.map_eq_some_iff.mp hs
      have hguard : s.Guarded (.disconnect i) ↔ s.Unique k := by
        simp only [Guarded, hk, Option.mem_some_iff, forall_eq']
      rw [hguard, ← others_closeConnection_iff hinj K hid]
      have hsame : ∀ e, e ∈ (closeConnection { s with connections := s.connections.eraseIdx i } id).subscriptions.entries ↔
          e ∈ (s.closeConnection id).subscriptions.entries := fun e =>
        mem_closeConnection.trans (mem_closeConnection (s := s)).symm
      constructor
      · intro I e he hne
        exact (hsame e).mp (I.others e he fun hmem => hne (Option.some.inj (hk.symm.trans hmem)).symm)
      · intro hothers
        refine ⟨fun e he hmem => (hsame e).mpr (hothers e he fun heq => hmem ?_), fun i hi => by cases hi⟩
        exact hk.trans (congrArg some heq.symm)
  | fail i =>
      obtain rfl := Option.some.inj hs
      exact iff_of_true (independent_of_same rfl fun i hi => by cases hi) trivial

/-! ## A run -/

/-- Every step of a run leaves the subscriptions of the others alone. -/
def AllIndependent (s : QueryThreads h) (labels : List QueryLabel) : Prop :=
  Along step (fun s l => ∀ s', s.step l = some s' → s.Independent l s') s labels

/-- The last step of a run. -/
theorem AllIndependent.last {s s₁ s₂ : QueryThreads h} {labels : List QueryLabel} {l : QueryLabel}
    (H : s.AllIndependent (labels ++ [l])) (hrun : run step s labels = some s₁) (hs : s₁.step l = some s₂) :
    s₁.Independent l s₂ :=
  (Along.right H hrun).1 s₂ hs

/-- A step that cannot be taken is about nothing. -/
def GuardedStep (s : QueryThreads h) (l : QueryLabel) : Prop := (s.step l).isSome → s.Guarded l

instance (s : QueryThreads h) (l : QueryLabel) : Decidable (s.GuardedStep l) :=
  inferInstanceAs (Decidable (_ → _))

/-- **The subscriptions are independent in exactly the runs in which no POST finds a subscription of
its path that was made at the same size, and none is removed while another one of its path and
size stands in its place.** -/
theorem independent_iff (hinj : Function.Injective2 h.makeUuid5) (labels : List QueryLabel) :
    ({} : QueryThreads h).AllIndependent labels ↔ Along step GuardedStep ({} : QueryThreads h) labels := by
  have hstart : ({} : QueryThreads h).Keyed := ⟨fun e he => absurd he List.not_mem_nil, fun e he => absurd he List.not_mem_nil⟩
  refine along_iff_of_invariant (J := Keyed) (fun s l s' K _ hs => keyed_step K hs) (fun s l K => ?_) hstart
  constructor
  · intro hI hsome
    obtain ⟨s', hs⟩ := Option.isSome_iff_exists.mp hsome
    exact (independent_step_iff hinj K hs).mp (hI s' hs)
  · intro hG s' hs
    exact (independent_step_iff hinj K hs).mpr (hG (Option.isSome_iff_exists.mpr ⟨s', hs⟩))

/-- A host whose ids tell what they are made of. -/
def pairIds : NmosHost := { makeUuid5 := NmosManager.pairText }

/-- The body of a POST for the nodes. -/
def nodesBody : Text := "\x7b\"resource_path\": \"/nodes\"\x7d".toList

/-- Two clients subscribe and connect, each in its turn, and the first one leaves. -/
def twoClients : List QueryLabel :=
  [.post nodesBody, .insert 0, .connect 0, .post nodesBody, .insert 0, .connect 1, .disconnect 0]

theorem independent_iff_pairIds : ({} : QueryThreads pairIds).AllIndependent twoClients ∧
    (run step ({} : QueryThreads pairIds) twoClients).map (fun s => s.subscriptions.entries.map fun e => e.2.1) =
      some [1] :=
  ⟨(independent_iff NmosManager.pairText_injective twoClients).mpr (by decide +kernel), by decide +kernel⟩

/-- Two clients subscribe, the first one goes, and a third one comes: it is given the id of the
second. -/
theorem third_client_not_independent : ¬ ({} : QueryThreads pairIds).AllIndependent
    [.post nodesBody, .insert 0, .post nodesBody, .insert 0, .delete 0, .post nodesBody, .insert 0] := by
  intro H
  have htaken : (run step ({} : QueryThreads pairIds)
      [.post nodesBody, .insert 0, .post nodesBody, .insert 0, .delete 0, .post nodesBody]).map (fun s =>
        s.posting[0]?.any fun p => s.subscriptions.entries.any fun e => e.2.2.sub.id = p.sub.id) = some true := by
    decide +kernel
  obtain ⟨s, hrun, htaken⟩ := Option.map_eq_some_iff.mp htaken
  cases hp : s.posting[0]? with
  | none => simp [hp] at htaken
  | some p =>
      obtain ⟨key, n, q, he, hsame⟩ : ∃ key n q, (key, n, q) ∈ s.subscriptions.entries ∧ q.sub.id = p.sub.id := by
        simpa [hp] using htaken
      have hinsert : s.step (.insert 0) = some ({ s with posting := s.posting.eraseIdx 0 }.insertPost p) := by
        rw [QueryThreads.step, hp]
        rfl
      exact (AllIndependent.last (l := .insert 0) H hrun hinsert).fresh 0 rfl p hp _ he hsame

end QueryThreads
end Aes67Daemon
