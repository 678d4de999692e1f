import Aes67Daemon.Nmos.AnswerText

/-!
# Every message is answered

A client of the control protocol may send any text.  The values in its message are taken
with a default where they are missing or not of the type, but for the elements of a
`classId` and of `subscriptions`: where one of these is no integer, an exception leaves the
handler.  A handle that is too large for an `int` is taken as zero.

## Main definitions

* `Ptree.commands?`, `Ptree.subscriptions` — what a message asks for.
* `AnswersAll`, `NmosManager.Robust` — a message is answered.
* `Ptree.Typed`, `Ptree.HandlesFit`, `NmosManager.TextsPlain` — what that takes.
* `NmosManager.robust_iff` — the messages that are answered.
-/
namespace Aes67Daemon

open Text

namespace Ptree

/-- The `messageType` of a message. -/
def messageType (pt : Ptree) : ℤ := ((pt.child? "messageType".toList).bind getInt?).getD (-1)

/-- The commands of a Command message. -/
def commands? (pt : Ptree) : Option (List Ptree) :=
  if pt.messageType = 0 then (pt.child? "commands".toList).map fun cs => cs.children.map Prod.snd else none

/-- The oids of a Subscription message. -/
def subscriptions (pt : Ptree) : List Ptree :=
  if pt.messageType = 3 then (((pt.child? "subscriptions".toList).map children).getD []).map Prod.snd else []

/-- The integer that is the handle of a command or response, of any size. -/
def handle? (t : Ptree) : Option ℤ := (t.child? "handle".toList).bind fun v => extractInt v.data

end Ptree

/-- A text is JSON with a response for each command, in order and with its handle. -/
def AnswersAll (commands : List Ptree) (text : Text) : Prop :=
  ∃ tree responses, Json.read text = some tree ∧ tree.child? "responses".toList = some responses ∧
    List.Forall₂ (fun c r => (r.2.child? "result".toList).isSome ∧ ∀ z ∈ c.handle?, r.2.handle? = some z)
      commands responses.children

/-- A message is handled: no exception leaves the handler, the commands in it are answered with
one message, and only a Subscription message changes the subscriptions. -/
def NmosManager.Robust (h : NmosHost) (envs : ℕ → MonitorEnv) (readJson : Text → Option Ptree) (s : NmosManager)
    (msg : Text) (session : Is12Session) (m : MonitorCounters) : Prop :=
  ∃ session' m', s.handleIs12Message h envs readJson msg session m = some (session', m') ∧
    (∀ commands, (readJson msg).bind Ptree.commands? = some commands →
      ∃ answer, session'.outbox = session.outbox ++ [answer] ∧ AnswersAll commands answer.json) ∧
    ((∀ pt ∈ readJson msg, pt.messageType ≠ 3) → session'.subscribed = session.subscribed)

/-- The command asks for a class. -/
def Is12Command.AsksClass (c : Is12Command) : Prop := c.oid = kClassManagerOid ∧ c.mlevel = 3 ∧ c.mindex = 1

/-- The elements that are taken without a default are integers. -/
structure Ptree.Typed (pt : Ptree) : Prop where
  classId : ∀ commands ∈ pt.commands?, ∀ c ∈ commands, (Is12Command.ofTree c).AsksClass →
    (Is12Command.ofTree c).classId.isSome
  subscriptions : ∀ oid ∈ pt.subscriptions, oid.getLong?.isSome

/-- A handle that is an integer is an `int`. -/
def Ptree.HandlesFit (pt : Ptree) : Prop :=
  ∀ commands ∈ pt.commands?, ∀ c ∈ commands, ∀ z ∈ c.handle?, -2147483648 ≤ z ∧ z ≤ 2147483647

/-- The texts of the state that the answers are spliced from need no escape. -/
def NmosManager.TextsPlain (h : NmosHost) (envs : ℕ → MonitorEnv) (s : NmosManager) (pt : Ptree) : Prop :=
  ∀ commands ∈ pt.commands?, ∀ n c, commands[n]? = some c →
    ∀ t ∈ s.spliced h (envs n) (.ofTree c), PlainText t

/-! ## Handles -/

theorem handle_ofTree_iff {c : Ptree} {z : ℤ} (hz : c.handle? = some z) :
    (Is12Command.ofTree c).handle = z ↔ -2147483648 ≤ z ∧ z ≤ 2147483647 := by
  obtain ⟨v, hchild, hv⟩ := Option.bind_eq_some_iff.mp hz
  have hhandle : (Is12Command.ofTree c).handle = ((some z).filter fun z => -2147483648 ≤ z ∧ z ≤ 2147483647).getD 0 := by
    simp only [Is12Command.ofTree, Ptree.intAt, List.map_cons, List.map_nil, Ptree.at?, hchild, Option.bind_some,
      Ptree.getInt?, hv]
  rw [hhandle]
  by_cases hfits : -2147483648 ≤ z ∧ z ≤ 2147483647
  · rw [Option.filter_some, if_pos (decide_eq_true hfits)]
    exact iff_of_true rfl hfits
  · rw [Option.filter_some, if_neg (by simpa using hfits), Option.getD_none]
    refine iff_of_false ?_ hfits
    rintro rfl
    exact hfits (by decide)

theorem handle?_responseTree (z : ℤ) (result : Ptree) : (responseTree z result).handle? = some z := by
  have hchild : (responseTree z result).child? "handle".toList = some (.leaf (Json.printInt z)) := rfl
  rw [Ptree.handle?, hchild, Option.bind_some, Ptree.data_leaf, extractInt_printInt]

theorem answersAll_iff {commands : List Ptree} {results : List (ℤ × Is12Result)} (hresults : ∀ r ∈ results, r.2.IsPlain) :
    AnswersAll commands (Is12Message.responses results).json ↔
      List.Forall₂ (fun c r => ∀ z ∈ c.handle?, r.1 = z) commands results := by
  obtain ⟨trees, htrees, hread⟩ := read_responses hresults
  have hsame : List.Forall₂ (fun c r => ∀ z ∈ c.handle?, r.1 = z) commands results ↔
      List.Forall₂ (fun (c : Ptree) (r : Text × Ptree) => (r.2.child? "result".toList).isSome ∧
        ∀ z ∈ c.handle?, r.2.handle? = some z) commands (trees.map fun tree => ([], tree)) := by
    rw [List.forall₂_map_right_iff]
    clear hread hresults
    induction htrees generalizing commands with
    | nil => simp
    | @cons r tree results trees hr hrest ih =>
        obtain ⟨result, rfl⟩ := hr
        cases commands with
        | nil => simp
        | cons c commands =>
            rw [List.forall₂_cons, List.forall₂_cons, ih]
            refine and_congr_left' ?_
            simp only [handle?_responseTree, Option.some.injEq]
            exact ⟨fun H => ⟨rfl, H⟩, fun H => H.2⟩
  rw [hsame]
  constructor
  · rintro ⟨tree, responses, htree, hchild, hall⟩
    obtain rfl := Option.some.inj (hread.symm.trans htree)
    obtain rfl : Ptree.node [] (trees.map fun tree => ([], tree)) = responses := Option.some.inj hchild
    exact hall
  · exact fun hall => ⟨_, _, hread, rfl, hall⟩

/-! ## Commands -/

namespace NmosManager
variable {h : NmosHost} {s : NmosManager} {e : MonitorEnv} {envs : ℕ → MonitorEnv} {m m' : MonitorCounters}
  {c : Is12Command} {cs : List Is12Command} {results : List (ℤ × Is12Result)}

theorem isSome_is12Command : (s.is12Command h e c m).isSome ↔ (c.AsksClass → c.classId.isSome) := by
  rw [is12Command]
  split
  · rename_i hroot
    have hno : ¬ c.AsksClass := fun hasks => by
      have hlevel := hroot.2.1.symm.trans hasks.2.1
      cases hlevel
    simp [hno]
  split
  · rename_i hasks
    rw [Option.isSome_map]
    exact ⟨fun hsome _ => hsome, fun H => H hasks⟩
  rename_i hasks
  refine iff_of_true ?_ fun hasks' => absurd hasks' hasks
  repeat' split
  all_goals rfl

theorem isSome_is12Commands : (s.is12Commands h envs cs m).isSome ↔
    ∀ c ∈ cs, c.AsksClass → c.classId.isSome := by
  induction cs generalizing envs m with
  | nil => simp [is12Commands]
  | cons c cs ih =>
      rw [is12Commands, List.forall_mem_cons, ← isSome_is12Command (h := h) (s := s) (e := envs 0) (m := m)]
      cases hfirst : s.is12Command h (envs 0) c m with
      | none => simp
      | some r =>
          obtain ⟨result, m₁⟩ := r
          have hih : (s.is12Commands h (fun n => envs (n + 1)) cs m₁).isSome ↔ _ := ih
          rw [← hih]
          cases hrest : s.is12Commands h (fun n => envs (n + 1)) cs m₁ with
          | none => simp [hrest]
          | some rest => simp [hrest]

/-- There is an answer to each command, in order and with its handle. -/
theorem handles_is12Commands (hs : s.is12Commands h envs cs m = some (results, m')) :
    List.Forall₂ (fun c r => r.1 = c.handle) cs results := by
  induction cs generalizing envs m results with
  | nil =>
      obtain ⟨rfl, -⟩ := Prod.mk.inj (Option.some.inj hs)
      exact .nil
  | cons c cs ih =>
      rw [is12Commands] at hs
      obtain ⟨⟨result, m₁⟩, -, hs⟩ := Option.bind_eq_some_iff.mp hs
      obtain ⟨⟨rest, m₂⟩, hrest, hs⟩ := Option.bind_eq_some_iff.mp hs
      obtain ⟨rfl, rfl⟩ := Prod.mk.inj (Option.some.inj hs)
      exact .cons rfl (ih hrest)

theorem isPlain_is12Commands (hs : s.is12Commands h envs cs m = some (results, m'))
    (hplain : ∀ n c, cs[n]? = some c → ∀ t ∈ s.spliced h (envs n) c, PlainText t) : ∀ r ∈ results, r.2.IsPlain := by
  induction cs generalizing envs m results with
  | nil =>
      obtain ⟨rfl, -⟩ := Prod.mk.inj (Option.some.inj hs)
      simp
  | cons c cs ih =>
      rw [is12Commands] at hs
      obtain ⟨⟨result, m₁⟩, hfirst, hs⟩ := Option.bind_eq_some_iff.mp hs
      obtain ⟨⟨rest, m₂⟩, hrest, hs⟩ := Option.bind_eq_some_iff.mp hs
      obtain ⟨rfl, rfl⟩ := Prod.mk.inj (Option.some.inj hs)
      exact List.forall_mem_cons.mpr ⟨isPlain_is12Command hfirst (hplain 0 c rfl),
        ih hrest fun n d hd => hplain (n + 1) d hd⟩

/-! ## Messages -/

variable {readJson : Text → Option Ptree} {msg : Text} {session session' : Is12Session} {pt : Ptree}

/-- A Command message is answered with what its commands are. -/
theorem handle_commands (hread : readJson msg = some pt) {commands : List Ptree} (hcs : pt.commands? = some commands) :
    s.handleIs12Message h envs readJson msg session m =
      (s.is12Commands h envs (commands.map .ofTree) m).map fun r => (session.push (.responses r.1), r.2) := by
  obtain ⟨htype, hmap⟩ := Option.ite_none_right_eq_some.mp hcs
  obtain ⟨tree, hchild, rfl⟩ := Option.map_eq_some_iff.mp hmap
  have hzero : ((pt.child? "messageType".toList).bind Ptree.getInt?).getD (-1) = 0 := htype
  rw [handleIs12Message, hread]
  simp only [hzero, if_true, hchild, List.map_map]
  rfl

theorem isSome_mapM {α β : Type*} (f : α → Option β) (l : List α) : (l.mapM f).isSome ↔ ∀ a ∈ l, (f a).isSome := by
  induction l with
  | nil => simp
  | cons a l ih =>
      rw [List.mapM_cons, List.forall_mem_cons, ← ih]
      cases f a with
      | none => simp
      | some b =>
          cases l.mapM f with
          | none => simp
          | some bs => simp

/-- Another message is handled where the oids in it are integers ... -/
theorem isSome_handle_other (hread : readJson msg = some pt) (hcs : pt.commands? = none) :
    (s.handleIs12Message h envs readJson msg session m).isSome ↔ ∀ oid ∈ pt.subscriptions, oid.getLong?.isSome := by
  rw [handleIs12Message, hread]
  simp only
  split
  · rename_i htype
    have hzero : pt.messageType = 0 := htype
    have hsubs : pt.subscriptions = [] := if_neg fun hthree => by
      have hcontra := hzero.symm.trans hthree
      cases hcontra
    rw [Ptree.commands?, if_pos hzero, Option.map_eq_none_iff] at hcs
    rw [hcs, hsubs]
    simp
  split
  · rename_i htype
    have hthree : pt.messageType = 3 := htype
    rw [Option.isSome_map, isSome_mapM, Ptree.subscriptions, if_pos hthree, List.forall_mem_map]
  · rename_i hthree
    have hsubs : pt.subscriptions = [] := if_neg hthree
    rw [hsubs]
    simp

/-- ... and only a Subscription message changes the subscriptions. -/
theorem subscribed_handle (hs : s.handleIs12Message h envs readJson msg session m = some (session', m'))
    (hthree : ∀ pt ∈ readJson msg, pt.messageType ≠ 3) : session'.subscribed = session.subscribed := by
  rw [handleIs12Message] at hs
  split at hs
  · obtain ⟨rfl, -⟩ := Prod.mk.inj (Option.some.inj hs)
    rfl
  · rename_i pt hread
    have hne : ((pt.child? "messageType".toList).bind Ptree.getInt?).getD (-1) ≠ 3 := hthree pt hread
    simp only [hne, if_false] at hs
    split at hs
    · split at hs
      · obtain ⟨rfl, -⟩ := Prod.mk.inj (Option.some.inj hs)
        rfl
      · obtain ⟨r, -, heq⟩ := Option.map_eq_some_iff.mp hs
        obtain ⟨rfl, -⟩ := Prod.mk.inj heq
        rfl
    · obtain ⟨rfl, -⟩ := Prod.mk.inj (Option.some.inj hs)
      rfl

theorem handle_unreadable (hread : readJson msg = none) :
    s.handleIs12Message h envs readJson msg session m = some (session, m) := by
  rw [handleIs12Message, hread]

/-- A message has commands or oids. -/
theorem subscriptions_of_commands {commands : List Ptree} (hcs : pt.commands? = some commands) : pt.subscriptions = [] := by
  obtain ⟨hzero, -⟩ := Option.ite_none_right_eq_some.mp hcs
  refine if_neg fun hthree => ?_
  have hcontra := hzero.symm.trans hthree
  cases hcontra

/-- **No exception leaves the handler exactly when the elements that are taken without a default are
integers.** -/
theorem isSome_handle_iff : (s.handleIs12Message h envs readJson msg session m).isSome ↔
    ∀ pt ∈ readJson msg, pt.Typed := by
  cases hread : readJson msg with
  | none => simp [handle_unreadable hread]
  | some pt =>
      simp only [Option.mem_some_iff, forall_eq']
      cases hcs : pt.commands? with
      | none =>
          rw [isSome_handle_other hread hcs]
          exact ⟨fun H => ⟨by simp [hcs], H⟩, Ptree.Typed.subscriptions⟩
      | some commands =>
          rw [handle_commands hread hcs, Option.isSome_map, isSome_is12Commands, List.forall_mem_map]
          constructor
          · intro H
            refine ⟨fun commands' hcs' => ?_, by simp [subscriptions_of_commands hcs]⟩
            obtain rfl := Option.some.inj (hcs.symm.trans hcs')
            exact H
          · exact fun H => H.classId commands hcs

/-- Answers that need no escape are to their commands exactly when the handles fit. -/
theorem handlesFit_iff {commands : List Ptree} (hresults : s.is12Commands h envs (commands.map .ofTree) m = some (results, m'))
    (hplain : ∀ n c, commands[n]? = some c → ∀ t ∈ s.spliced h (envs n) (.ofTree c), PlainText t) :
    AnswersAll commands (Is12Message.responses results).json ↔
      ∀ c ∈ commands, ∀ z ∈ c.handle?, -2147483648 ≤ z ∧ z ≤ 2147483647 := by
  have hall : ∀ r ∈ results, r.2.IsPlain := by
    refine isPlain_is12Commands hresults fun n c hc => ?_
    rw [List.getElem?_map] at hc
    obtain ⟨tree, htree, rfl⟩ := Option.map_eq_some_iff.mp hc
    exact hplain n tree htree
  have hhandles := List.forall₂_map_left_iff.mp (handles_is12Commands hresults)
  rw [answersAll_iff hall]
  clear hresults hplain hall
  induction hhandles with
  | nil => simp
  | @cons c r commands results hr hrest ih =>
      rw [List.forall₂_cons, List.forall_mem_cons]
      refine and_congr (forall₂_congr fun z hz => ?_) ih
      rw [hr]
      exact handle_ofTree_iff hz

/-- **A text is handled without an exception exactly when the elements of a `classId` that a
GetControlClass command has, and of `subscriptions`, are integers.  Where the texts that are
spliced into the answers need no escape, all commands are answered exactly when their handles
fit besides.** -/
theorem robust_iff (h : NmosHost) (envs : ℕ → MonitorEnv) (readJson : Text → Option Ptree) (s : NmosManager)
    (msg : Text) (session : Is12Session) (m : MonitorCounters) :
    (s.Robust h envs readJson msg session m → ∀ pt ∈ readJson msg, pt.Typed) ∧
    ((∀ pt ∈ readJson msg, s.TextsPlain h envs pt) →
      (s.Robust h envs readJson msg session m ↔ ∀ pt ∈ readJson msg, pt.Typed ∧ pt.HandlesFit)) := by
  have htyped : s.Robust h envs readJson msg session m → ∀ pt ∈ readJson msg, pt.Typed := by
    rintro ⟨session', m', hs, -, -⟩
    exact isSome_handle_iff.mp (by rw [hs]; rfl)
  refine ⟨htyped, fun hplain => ⟨fun R pt hread => ⟨htyped R pt hread, fun commands hcs => ?_⟩, fun H => ?_⟩⟩
  · obtain ⟨session', m', hs, hanswers, -⟩ := R
    rw [handle_commands hread hcs] at hs
    obtain ⟨⟨results, m₁⟩, hresults, heq⟩ := Option.map_eq_some_iff.mp hs
    obtain ⟨rfl, rfl⟩ := Prod.mk.inj heq
    obtain ⟨answer, houtbox, hall⟩ := hanswers commands (by rw [hread]; exact hcs)
    obtain rfl : Is12Message.responses results = answer := List.singleton_inj.mp (List.append_cancel_left houtbox)
    exact (handlesFit_iff hresults (hplain pt hread commands hcs)).mp hall
  · obtain ⟨⟨session', m'⟩, hs⟩ := Option.isSome_iff_exists.mp (isSome_handle_iff.mpr fun pt hread => (H pt hread).1)
    refine ⟨session', m', hs, fun commands hcs => ?_, subscribed_handle hs⟩
    obtain ⟨pt, hread, hcs⟩ := Option.bind_eq_some_iff.mp hcs
    rw [handle_commands hread hcs] at hs
    obtain ⟨⟨results, m₁⟩, hresults, heq⟩ := Option.map_eq_some_iff.mp hs
    obtain ⟨rfl, rfl⟩ := Prod.mk.inj heq
    exact ⟨.responses results, rfl,
      (handlesFit_iff hresults (hplain pt hread commands hcs)).mpr ((H pt hread).2 commands hcs)⟩

/-- A class with a text for a number takes the connection down. -/
theorem class_text_not_robust : ¬ NmosManager.Robust {} (fun _ => {}) Json.readRaw { sm := {} }
    ("\x7b\"messageType\": 0, \"commands\": [\x7b\"oid\": 3, \"methodId\": \x7b\"level\": 3, \"index\": 1\x7d, ".toList ++
      "\"arguments\": \x7b\"classId\": [\"x\"]\x7d\x7d]\x7d".toList) {} .empty := by
  rintro ⟨session', m', hs, -, -⟩
  have hnone : (NmosManager.handleIs12Message {} (fun _ => {}) Json.readRaw { sm := {} }
    ("\x7b\"messageType\": 0, \"commands\": [\x7b\"oid\": 3, \"methodId\": \x7b\"level\": 3, \"index\": 1\x7d, ".toList ++
      "\"arguments\": \x7b\"classId\": [\"x\"]\x7d\x7d]\x7d".toList) {} .empty).isSome = false := by decide +kernel
  rw [hs] at hnone
  cases hnone

end NmosManager
end Aes67Daemon
