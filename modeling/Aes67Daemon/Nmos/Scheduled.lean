import Aes67Daemon.Nmos.Canonical
import Aes67Daemon.Nmos.ReadBack

/-!
# Scheduled activations

The canonical text that is applied when an activation is due has the outputs in the
order of their ids, and of an output that occurs more than once only the last
occurrence.  So it stands for the same items only where every occurrence is repeated
by the last one, and has the same effect only where the order does not matter: a
channel of a sink that is fed to several ALSA outputs ends on the last of them, and a
source that takes a channel of a sink gets the number that is there at its turn.

## Main definitions

* `CmHost.idOrder` — the outputs as the canonical text has them.
* `CmHost.FiresAsRequested` — the canonical text stands for the action.
* `CmHost.SameTurns` — when it does, in terms of the action.
* `CmHost.fires_as_requested_iff` — the two are the same for plain keys.
-/
namespace Aes67Daemon

open Text

namespace CmHost
variable {h : CmHost} {s : SessionManager} {groups : List Is08Group}

/-! ## The order of the canonical text -/

/-- The outputs of an action, each at its last occurrence. -/
def lastOccurrences : List Is08Group → List Is08Group
  | [] => []
  | g :: groups =>
    if groups.any fun g' => g'.1 = g.1 then lastOccurrences groups else g :: lastOccurrences groups

/-- The outputs of an action, each at its last occurrence, in the order of their ids. -/
def idOrder (groups : List Is08Group) : List Is08Group :=
  (lastOccurrences groups).mergeSort fun g g' => g.1 ≤ g'.1

theorem mem_of_mem_lastOccurrences {g : Is08Group} (hg : g ∈ lastOccurrences groups) : g ∈ groups := by
  induction groups with
  | nil => cases hg
  | cons g' groups ih =>
      rw [lastOccurrences] at hg
      split at hg
      · exact List.mem_cons_of_mem _ (ih hg)
      · rcases List.mem_cons.mp hg with rfl | hg
        · exact List.mem_cons_self
        · exact List.mem_cons_of_mem _ (ih hg)

theorem pairwise_lastOccurrences : (lastOccurrences groups).Pairwise fun g g' => g.1 ≠ g'.1 := by
  induction groups with
  | nil => exact .nil
  | cons g groups ih =>
      rw [lastOccurrences]
      split
      · exact ih
      · rename_i hnone
        refine List.pairwise_cons.mpr ⟨fun g' hg' heq => hnone ?_, ih⟩
        exact List.any_eq_true.mpr ⟨g', mem_of_mem_lastOccurrences hg', by simp [heq]⟩

/-- Every output has a last occurrence. -/
theorem exists_lastOccurrence {g : Is08Group} (hg : g ∈ groups) : ∃ g' ∈ lastOccurrences groups, g'.1 = g.1 := by
  induction groups generalizing g with
  | nil => cases hg
  | cons g₁ groups ih =>
      rw [lastOccurrences]
      split
      · rename_i hsome
        rcases List.mem_cons.mp hg with rfl | hg
        · obtain ⟨g', hg', heq⟩ := List.any_eq_true.mp hsome
          obtain ⟨g'', hg'', heq'⟩ := ih hg'
          exact ⟨g'', hg'', heq'.trans (of_decide_eq_true heq)⟩
        · exact ih hg
      · rcases List.mem_cons.mp hg with rfl | hg
        · exact ⟨g, List.mem_cons_self, rfl⟩
        · obtain ⟨g', hg', heq⟩ := ih hg
          exact ⟨g', List.mem_cons_of_mem _ hg', heq⟩

/-- After its last occurrence an output does not occur again. -/
theorem split_of_mem_lastOccurrences {g : Is08Group} (hg : g ∈ lastOccurrences groups) :
    ∃ before after, groups = before ++ g :: after ∧ ∀ g' ∈ after, g'.1 ≠ g.1 := by
  induction groups with
  | nil => cases hg
  | cons g₁ groups ih =>
      rw [lastOccurrences] at hg
      split at hg
      · obtain ⟨before, after, rfl, hafter⟩ := ih hg
        exact ⟨g₁ :: before, after, rfl, hafter⟩
      · rename_i hnone
        rcases List.mem_cons.mp hg with rfl | hg
        · refine ⟨[], groups, rfl, fun g' hg' heq => hnone ?_⟩
          exact List.any_eq_true.mpr ⟨g', hg', by simp [heq]⟩
        · obtain ⟨before, after, rfl, hafter⟩ := ih hg
          exact ⟨g₁ :: before, after, rfl, hafter⟩

theorem mem_idOrder {g : Is08Group} : g ∈ idOrder groups ↔ g ∈ lastOccurrences groups := List.mem_mergeSort

theorem pairwise_idOrder : (idOrder groups).Pairwise fun g g' => g.1 < g'.1 := by
  have hle : (idOrder groups).Pairwise fun g g' => g.1 ≤ g'.1 := by
    have hsorted : (idOrder groups).Pairwise fun g g' => decide (g.1 ≤ g'.1) = true := List.pairwise_mergeSort
      (fun a b c hab hbc => by simpa using le_trans (of_decide_eq_true hab) (of_decide_eq_true hbc))
      (fun a b => by simpa using le_total a.1 b.1) (lastOccurrences groups)
    exact hsorted.imp fun hab => of_decide_eq_true hab
  have hne : (idOrder groups).Pairwise fun g g' => g.1 ≠ g'.1 :=
    pairwise_lastOccurrences.perm (List.mergeSort_perm ..).symm fun hab => hab.symm
  exact (hle.and hne).imp fun hab => lt_of_le_of_ne hab.1 hab.2

/-- What is in the map after an action: the last occurrences, and what was there. -/
theorem find?_foldl_insert {m : SortedMap Text (List (Text × Is08WorkItem))} {u : Text}
    {items : List (Text × Is08WorkItem)} :
    (groups.foldl (fun m g => m.insert g.1 g.2) m).find? u = some items ↔
      (u, items) ∈ lastOccurrences groups ∨ (∀ g ∈ groups, g.1 ≠ u) ∧ m.find? u = some items := by
  induction groups generalizing m with
  | nil => simp [lastOccurrences]
  | cons g groups ih =>
      rw [List.foldl_cons, ih, SortedMap.find?_insert, lastOccurrences, List.forall_mem_cons]
      cases hany : groups.any fun g' => g'.1 = g.1 with
      | true =>
          rw [if_pos rfl]
          obtain ⟨g', hg', heq⟩ := List.any_eq_true.mp hany
          have heq := of_decide_eq_true heq
          by_cases hu : u = g.1
          · subst hu
            exact or_congr_right (iff_of_false (fun hall => hall.1 g' hg' heq) fun hall => hall.1.1 rfl)
          · rw [if_neg hu]
            exact or_congr_right (and_congr_left fun _ => ⟨fun hall => ⟨fun heq => hu heq.symm, hall⟩, And.right⟩)
      | false =>
          rw [if_neg Bool.false_ne_true]
          have hnone : ∀ g' ∈ groups, g'.1 ≠ g.1 := by simpa using hany
          rw [List.mem_cons]
          by_cases hu : u = g.1
          · subst hu
            have hnot : (g.1, items) ∉ lastOccurrences groups := fun hmem =>
              hnone _ (mem_of_mem_lastOccurrences hmem) rfl
            have hitems : some g.2 = some items ↔ (g.1, items) = g := by
              rw [Option.some.injEq, Prod.ext_iff]
              exact ⟨fun heq => ⟨rfl, heq.symm⟩, fun heq => heq.2.symm⟩
            rw [if_pos rfl, hitems]
            constructor
            · rintro (hmem | ⟨-, heq⟩)
              · exact absurd hmem hnot
              · exact .inl (.inl heq)
            · rintro ((heq | hmem) | ⟨hall, -⟩)
              · exact .inr ⟨hnone, heq⟩
              · exact absurd hmem hnot
              · exact absurd rfl hall.1
          · have hne : (u, items) ≠ g := fun heq => hu (congrArg Prod.fst heq)
            have hu' : g.1 ≠ u := fun heq => hu heq.symm
            rw [if_neg hu, or_iff_right hne, and_iff_right hu']

/-- **The canonical text has the outputs in the order of their ids**, each at its last
occurrence. -/
theorem entries_canonicalByOutput : (canonicalByOutput groups).entries = idOrder groups := by
  have hsame : canonicalByOutput groups = ⟨idOrder groups, pairwise_idOrder⟩ := by
    refine SortedMap.ext_find? fun u => Option.ext fun items => ?_
    rw [canonicalByOutput, find?_foldl_insert, SortedMap.find?_empty, ← SortedMap.mem_entries, mem_idOrder]
    simp
  rw [hsame]

/-! ## What the canonical text stands for -/

/-- The ids a group names are those of its items. -/
theorem outputUuid_of_mem {output : Text × Ptree} {g : Is08Group} (hg : h.resolveGroup s output = .ok g)
    {x : Text × Is08WorkItem} (hx : x ∈ g.2) : h.outputUuid x.2 = g.1 := by
  obtain ⟨out, hout, hname, hitems⟩ := resolveGroup_eq_ok.mp hg
  obtain ⟨entry, -, hentry⟩ := exists_of_mem_right hitems hx
  rw [hname, outputUuid_eq (resolveOutput_eq_ok hout) (resolveEntry_eq_ok hentry).2]

/-- Every output of an accepted action was resolved. -/
theorem resolved_of_mem {action : Ptree} (haccept : h.resolveAction s action = .ok groups) {g : Is08Group}
    (hg : g ∈ groups) : ∃ output, h.resolveGroup s output = .ok g := by
  obtain ⟨output, -, houtput⟩ := exists_of_mem_right (mapM_eq_ok.mp haccept) hg
  exact ⟨output, houtput⟩

/-- An output whose channel keys are plain is plain, if the ids of the host are. -/
theorem plainGroup_of_resolved (hids : ∀ ns name, PlainText (h.makeUuid5 ns name)) {output : Text × Ptree}
    {g : Is08Group} (hg : h.resolveGroup s output = .ok g) (hkeys : ∀ x ∈ g.2, PlainText x.1) : PlainGroup g := by
  obtain ⟨out, hout, hname, hitems⟩ := resolveGroup_eq_ok.mp hg
  have hid : PlainText output.1 := by
    have hfound := resolveOutput_eq_ok hout
    cases hsender : out.isSenderOutput with
    | true => rw [(hfound.sender hsender).1]; exact hids _ _
    | false => rw [(hfound.alsa hsender).1]; exact hids _ _
  refine ⟨hname ▸ hid, fun x hx => ⟨hkeys x hx, fun hclear => ?_⟩⟩
  obtain ⟨entry, -, hentry⟩ := exists_of_mem_right hitems hx
  have hres := (resolveEntry_eq_ok hentry).2
  have hin := resolveInput_eq_ok (hres.input hclear).2.2
  cases hsink : x.2.inputIsSink with
  | true => rw [hsink] at hin; rw [hin.1]; exact hids _ _
  | false => rw [hsink] at hin; rw [hin.1]; exact hids _ _

/-- **The canonical text of an accepted action with plain keys** is read, and resolved to
the last occurrences of the outputs in the order of their ids. -/
theorem read_canonicalJson (hids : ∀ ns name, PlainText (h.makeUuid5 ns name)) {action : Ptree}
    (haccept : h.resolveAction s action = .ok groups) (hkeys : ∀ g ∈ groups, ∀ x ∈ g.2, PlainText x.1) :
    ∃ tree, Json.read (canonicalJson groups) = some tree ∧ h.resolveAction s tree = .ok (idOrder groups) := by
  have hfrom : ∀ g ∈ idOrder groups, g ∈ groups := fun g hg => mem_of_mem_lastOccurrences (mem_idOrder.mp hg)
  have hplain : ∀ g ∈ idOrder groups, PlainGroup g := fun g hg => by
    obtain ⟨output, houtput⟩ := resolved_of_mem haccept (hfrom g hg)
    exact plainGroup_of_resolved hids houtput (hkeys g (hfrom g hg))
  refine ⟨groupsTree (idOrder groups), ?_, resolve_groupsTree fun g hg => resolved_of_mem haccept (hfrom g hg)⟩
  rw [canonicalJson, entries_canonicalByOutput, read_groupsText hplain]

/-! ## Effects -/

/-- The ALSA output that a channel of a sink was put on last. -/
def lastAlsa (work : List Is08WorkItem) (c : StreamChannel) : Option UInt8 :=
  (work.reverse.find? fun w => !w.clear && !w.isSenderOutput && w.assign.target = c).map Is08WorkItem.outputId

theorem target_kind (w : Is08WorkItem) :
    w.assign.target.kind = if w.isSenderOutput then .source else .sink := by
  unfold Is08WorkItem.assign
  split <;> rfl

/-- **A channel of a sink ends on the last ALSA output** it is fed to. -/
theorem execAll_sink {m : StreamChannel → Option UInt8} {work : List Is08WorkItem} {c : StreamChannel}
    (hc : c.kind = .sink) : Assign.execAll m (assignments work) c = (lastAlsa work c).or (m c) := by
  induction work using List.reverseRecOn with
  | nil => rfl
  | append_singleton work w ih =>
      rw [assignments_append, Assign.execAll_append, assignments_cons, lastAlsa, List.reverse_append,
        List.reverse_singleton, List.singleton_append, List.find?_cons]
      cases hclear : w.clear with
      | true => simpa [lastAlsa] using ih
      | false =>
          rw [if_neg Bool.false_ne_true, assignments_nil, Assign.execAll_cons, Assign.execAll_nil]
          by_cases htarget : w.assign.target = c
          · have hsender : w.isSenderOutput = false := by
              cases hsender : w.isSenderOutput with
              | false => rfl
              | true =>
                  have hkind := target_kind w
                  rw [htarget, hc, hsender] at hkind
                  cases hkind
            rw [← htarget, Assign.exec_target, Is08WorkItem.operand_output hsender]
            simp [hsender]
          · rw [Assign.exec_of_ne fun heq => htarget heq.symm, ih]
            simp [htarget, lastAlsa]

theorem lastAlsa_eq_none {work : List Is08WorkItem} {c : StreamChannel} : lastAlsa work c = none ↔
    ∀ w ∈ work, w.clear = false → w.isSenderOutput = false → w.assign.target ≠ c := by
  rw [lastAlsa, Option.map_eq_none_iff, List.find?_eq_none]
  simp

/-! ## Firing as requested -/

/-- The canonical text that the dry run of an action gives is read and stands for the
action: it is resolved to the same items, and these, in its order, have the same effect
on the maps. -/
def FiresAsRequested (h : CmHost) (readJson : Text → Option Ptree) (actionJson : Text)
    (groups : List Is08Group) (s : SessionManager) : Prop :=
  ∃ canonical tree groups',
    (∀ envs, h.is08ApplyActionJson readJson envs actionJson true s = some (.ok canonical, s)) ∧
    readJson canonical = some tree ∧ h.resolveAction s tree = .ok groups' ∧
    (∀ w, w ∈ work groups' ↔ w ∈ work groups) ∧
    Assign.execAll s.alsaAt (assignments (work groups')) = Assign.execAll s.alsaAt (assignments (work groups))

/-- When the order of the ids, with every output at its last occurrence, does for the
document order. -/
structure SameTurns (m : StreamChannel → Option UInt8) (groups : List Is08Group) : Prop where
  /-- An output that occurs again has every item again in its last occurrence. -/
  repeated : ∀ g ∈ groups, ∀ g' ∈ lastOccurrences groups, g'.1 = g.1 → ∀ x ∈ g.2, ∃ y ∈ g'.2, y.2 = x.2
  /-- The last ALSA output that a channel of a sink is fed to is the same. -/
  sinks : ∀ c, c.kind = .sink → lastAlsa (work (idOrder groups)) c = lastAlsa (work groups) c
  /-- A source takes the same number from a channel of a sink: what the last ALSA output
  before it has left there, or what was there. -/
  sources : ∀ before w after before' after', work groups = before ++ w :: after →
    work (idOrder groups) = before' ++ w :: after' → LastFor w after → LastFor w after' →
    w.clear = false → w.isSenderOutput = true → w.inputIsSink = true →
    (lastAlsa before' ⟨.sink, w.inputId, w.inputChannel.toNat⟩).or (m ⟨.sink, w.inputId, w.inputChannel.toNat⟩) =
      (lastAlsa before ⟨.sink, w.inputId, w.inputChannel.toNat⟩).or (m ⟨.sink, w.inputId, w.inputChannel.toNat⟩)

theorem work_append (groups groups' : List Is08Group) : work (groups ++ groups') = work groups ++ work groups' :=
  List.flatMap_append

theorem work_cons (g : Is08Group) (groups : List Is08Group) : work (g :: groups) = g.2.map Prod.snd ++ work groups :=
  rfl

theorem mem_work_iff {w : Is08WorkItem} : w ∈ work groups ↔ ∃ g ∈ groups, ∃ x ∈ g.2, x.2 = w := by
  simp only [work, List.mem_flatMap, List.mem_map]

theorem work_idOrder_subset {w : Is08WorkItem} (hw : w ∈ work (idOrder groups)) : w ∈ work groups := by
  obtain ⟨g, hg, hx⟩ := mem_work_iff.mp hw
  exact mem_work_iff.mpr ⟨g, mem_of_mem_lastOccurrences (mem_idOrder.mp hg), hx⟩

/-- Every group has the id of the outputs of its items. -/
def Named (h : CmHost) (groups : List Is08Group) : Prop := ∀ g ∈ groups, ∀ x ∈ g.2, h.outputUuid x.2 = g.1

theorem named_of_accepted {action : Ptree} (haccept : h.resolveAction s action = .ok groups) : Named h groups := by
  intro g hg x hx
  obtain ⟨output, houtput⟩ := resolved_of_mem haccept hg
  exact outputUuid_of_mem houtput hx

theorem Named.idOrder (hnamed : Named h groups) : Named h (idOrder groups) := fun g hg =>
  hnamed g (mem_of_mem_lastOccurrences (mem_idOrder.mp hg))

/-- Items for sources that write to the same channel are for the same output. -/
theorem outputUuid_of_target {v w : Is08WorkItem} (hsender : w.isSenderOutput = true)
    (htarget : v.assign.target = w.assign.target) : h.outputUuid v = h.outputUuid w := by
  have hvs : v.isSenderOutput = true := by
    have hkind := target_kind v
    rw [htarget, target_kind, hsender] at hkind
    cases hvs : v.isSenderOutput with
    | true => rfl
    | false => rw [hvs] at hkind; cases hkind
  have hids : v.outputId = w.outputId := by
    rw [Is08WorkItem.target_source hvs, Is08WorkItem.target_source hsender] at htarget
    exact congrArg StreamChannel.id htarget
  rw [outputUuid, outputUuid, hvs, hsender, hids]

/-- The last item for a channel of a source is found in the last occurrence of its
output. -/
theorem work_split {before after : List Is08Group} {g : Is08Group} (hnamed : Named h (before ++ g :: after))
    (hafter : ∀ g' ∈ after, g'.1 ≠ g.1) {p q : List Is08WorkItem} {w : Is08WorkItem}
    (hitems : g.2.map Prod.snd = p ++ w :: q) (hlast : LastFor w q) (hsender : w.isSenderOutput = true) :
    work (before ++ g :: after) = (work before ++ p) ++ w :: (q ++ work after) ∧ LastFor w (q ++ work after) := by
  refine ⟨by rw [work_append, work_cons, hitems]; simp, fun v hv hclear htarget => ?_⟩
  rcases List.mem_append.mp hv with hv | hv
  · exact hlast v hv hclear htarget
  · obtain ⟨g', hg', x, hx, rfl⟩ := mem_work_iff.mp hv
    obtain ⟨y, hy, hyw⟩ := List.mem_map.mp (show w ∈ g.2.map Prod.snd by rw [hitems]; simp)
    have hg := hnamed g (by simp) y hy
    rw [hyw] at hg
    have hg'' := hnamed g' (by simp [hg']) x hx
    exact hafter g' hg' (hg''.symm.trans ((outputUuid_of_target hsender htarget).trans hg))

theorem sender_of_target {v w : Is08WorkItem} (htarget : v.assign.target = w.assign.target) :
    v.isSenderOutput = w.isSenderOutput := by
  have hkind := congrArg StreamChannel.kind htarget
  rw [target_kind, target_kind] at hkind
  cases hv : v.isSenderOutput <;> cases hw : w.isSenderOutput <;> simp [hv, hw] at hkind ⊢

section
variable {m : StreamChannel → Option UInt8}

theorem SameTurns.mem_work (H : SameTurns m groups) {w : Is08WorkItem} :
    w ∈ work (idOrder groups) ↔ w ∈ work groups := by
  refine ⟨work_idOrder_subset, fun hw => ?_⟩
  obtain ⟨g, hg, x, hx, rfl⟩ := mem_work_iff.mp hw
  obtain ⟨g', hg', hkey⟩ := exists_lastOccurrence hg
  exact mem_work_iff.mpr ⟨g', mem_idOrder.mpr hg', H.repeated g hg g' hg' hkey x hx⟩

/-- **The last item for a channel of a source** is the same in both orders. -/
theorem SameTurns.exists_last (H : SameTurns m groups) (hnamed : Named h groups) {v : Is08WorkItem}
    (hv : v ∈ work groups) (hclear : v.clear = false) (hsender : v.isSenderOutput = true) :
    ∃ w before after before' after', work groups = before ++ w :: after ∧
      work (idOrder groups) = before' ++ w :: after' ∧ LastFor w after ∧ LastFor w after' ∧
      w.clear = false ∧ w.assign.target = v.assign.target := by
  obtain ⟨g₁, hg₁, x, hx, rfl⟩ := mem_work_iff.mp hv
  obtain ⟨g, hg, hkey⟩ := exists_lastOccurrence hg₁
  obtain ⟨y, hy, hyx⟩ := H.repeated g₁ hg₁ g hg hkey x hx
  obtain ⟨p, w, q, hitems, ⟨hw, htarget⟩, hq⟩ := Aes67Daemon.exists_last
    (p := fun w : Is08WorkItem => w.clear = false ∧ w.assign.target = x.2.assign.target)
    ⟨y.2, List.mem_map.mpr ⟨y, hy, rfl⟩, by rw [hyx]; exact ⟨hclear, rfl⟩⟩
  have hlast : LastFor w q := fun u hu hclear' heq => hq u hu ⟨hclear', heq.trans htarget⟩
  have hw' : w.isSenderOutput = true := (sender_of_target htarget).trans hsender
  obtain ⟨before, after, hdoc, hafter⟩ := split_of_mem_lastOccurrences hg
  obtain ⟨before', after', hid⟩ := List.append_of_mem (mem_idOrder.mpr hg)
  have hafter' : ∀ g' ∈ after', g'.1 ≠ g.1 := by
    have hsorted : (idOrder groups).Pairwise fun g g' => g.1 < g'.1 := pairwise_idOrder
    rw [hid] at hsorted
    exact fun g' hg' => ((List.pairwise_cons.mp (List.pairwise_append.mp hsorted).2.1).1 g' hg').ne'
  obtain ⟨hsplit, hlast₁⟩ := work_split (hdoc ▸ hnamed) hafter hitems hlast hw'
  obtain ⟨hsplit', hlast₂⟩ := work_split (hid ▸ hnamed.idOrder) hafter' hitems hlast hw'
  exact ⟨w, _, _, _, _, hdoc ▸ hsplit, hid ▸ hsplit', hlast₁, hlast₂, hw, htarget⟩

/-- What a source takes is the same in both orders. -/
theorem SameTurns.operand (H : SameTurns m groups) {w : Is08WorkItem} {before after before' after' : List Is08WorkItem}
    (hdoc : work groups = before ++ w :: after) (hid : work (idOrder groups) = before' ++ w :: after')
    (hlast : LastFor w after) (hlast' : LastFor w after') (hclear : w.clear = false)
    (hsender : w.isSenderOutput = true) :
    w.assign.operand.eval (Assign.execAll m (assignments before')) =
      w.assign.operand.eval (Assign.execAll m (assignments before)) := by
  cases hsink : w.inputIsSink with
  | false =>
      rw [Is08WorkItem.operand_alsa hsender hsink]
      rfl
  | true =>
      rw [Is08WorkItem.operand_sink hsender hsink, Operand.eval_cell, Operand.eval_cell, execAll_sink rfl,
        execAll_sink rfl]
      exact H.sources before w after before' after' hdoc hid hlast hlast' hclear hsender hsink

/-- **Where every turn is the same the effect is the same.** -/
theorem SameTurns.sameEffect (H : SameTurns m groups) (hnamed : Named h groups) :
    Assign.execAll m (assignments (work (idOrder groups))) = Assign.execAll m (assignments (work groups)) := by
  funext c
  cases hc : c.kind with
  | sink => rw [execAll_sink hc, execAll_sink hc, H.sinks c hc]
  | source =>
      by_cases hsome : ∃ v ∈ work groups, v.clear = false ∧ v.assign.target = c
      · obtain ⟨v, hv, hclear, rfl⟩ := hsome
        have hsender : v.isSenderOutput = true := by
          have hkind := target_kind v
          rw [hc] at hkind
          cases hsender : v.isSenderOutput with
          | true => rfl
          | false => rw [hsender] at hkind; cases hkind
        obtain ⟨w, before, after, before', after', hdoc, hid, hlast, hlast', hw, htarget⟩ :=
          H.exists_last hnamed hv hclear hsender
        have hwsender := (sender_of_target htarget).trans hsender
        rw [← htarget, hdoc, hid, execAll_lastFor hw hlast, execAll_lastFor hw hlast']
        exact H.operand hdoc hid hlast hlast' hw hwsender
      · have hnone : ∀ a ∈ assignments (work groups), a.target ≠ c := by
          intro a ha htarget
          obtain ⟨v, hv, rfl⟩ := List.mem_map.mp ha
          obtain ⟨hmem, hclear⟩ := List.mem_filter.mp hv
          exact hsome ⟨v, hmem, by simpa using hclear, htarget⟩
        have hnone' : ∀ a ∈ assignments (work (idOrder groups)), a.target ≠ c := by
          intro a ha htarget
          obtain ⟨v, hv, rfl⟩ := List.mem_map.mp ha
          obtain ⟨hmem, hclear⟩ := List.mem_filter.mp hv
          exact hsome ⟨v, work_idOrder_subset hmem, by simpa using hclear, htarget⟩
        rw [Assign.execAll_of_ne hnone, Assign.execAll_of_ne hnone']

/-- **The same effect with the same items** means that every turn is the same. -/
theorem sameTurns_of_sameEffect (hnamed : Named h groups)
    (hitems : ∀ w, w ∈ work (idOrder groups) ↔ w ∈ work groups)
    (heffect : Assign.execAll m (assignments (work (idOrder groups))) = Assign.execAll m (assignments (work groups))) :
    SameTurns m groups where
  repeated := by
    intro g hg g' hg' hkey x hx
    obtain ⟨g'', hg'', y, hy, hyx⟩ := mem_work_iff.mp ((hitems x.2).mpr (mem_work_iff.mpr ⟨g, hg, x, hx, rfl⟩))
    have hname := hnamed.idOrder g'' hg'' y hy
    rw [hyx, hnamed g hg x hx, ← hkey] at hname
    have hfind : ∀ k ∈ idOrder groups, (canonicalByOutput groups).find? k.1 = some k.2 := fun k hk =>
      SortedMap.mem_entries.mp (entries_canonicalByOutput ▸ hk)
    have hsame := (hfind g' (mem_idOrder.mpr hg')).symm.trans (hname ▸ hfind g'' hg'')
    exact ⟨y, Option.some.inj hsame ▸ hy, hyx⟩
  sinks := by
    intro c hc
    have hcell := congrFun heffect c
    rw [execAll_sink hc, execAll_sink hc] at hcell
    have hnone : lastAlsa (work (idOrder groups)) c = none ↔ lastAlsa (work groups) c = none := by
      rw [lastAlsa_eq_none, lastAlsa_eq_none]
      exact forall_congr' fun w => by rw [hitems]
    cases hid : lastAlsa (work (idOrder groups)) c with
    | none => exact (hnone.mp hid).symm
    | some a =>
        cases hdoc : lastAlsa (work groups) c with
        | none => rw [hnone.mpr hdoc] at hid; cases hid
        | some b => simpa [hid, hdoc] using hcell
  sources := by
    intro before w after before' after' hdoc hid hlast hlast' hclear hsender hsink
    have hcell := congrFun heffect w.assign.target
    rw [hdoc, hid, execAll_lastFor hclear hlast, execAll_lastFor hclear hlast',
      Is08WorkItem.operand_sink hsender hsink, Operand.eval_cell, Operand.eval_cell, execAll_sink rfl,
      execAll_sink rfl] at hcell
    exact hcell

end

/-- **A scheduled activation does what was requested** exactly when, in the order of the
ids, every turn is the one it had in the document. -/
theorem fires_as_requested_iff {h : CmHost} (hids : ∀ ns name, PlainText (h.makeUuid5 ns name))
    {readJson : Text → Option Ptree} (hreader : ∀ t tree, Json.read t = some tree → readJson t = some tree)
    {actionJson : Text} {action : Ptree} {groups : List Is08Group} {s : SessionManager}
    (hread : readJson actionJson = some action) (haccept : h.resolveAction s action = .ok groups)
    (hkeys : ∀ g ∈ groups, ∀ x ∈ g.2, PlainText x.1) :
    FiresAsRequested h readJson actionJson groups s ↔ SameTurns s.alsaAt groups := by
  have hnamed := named_of_accepted haccept
  have hdry : ∀ envs, h.is08ApplyActionJson readJson envs actionJson true s =
      some (.ok (canonicalJson groups), s) := by
    intro envs
    simp [is08ApplyActionJson, hread, haccept]
  obtain ⟨tree, htree, hresolve⟩ := read_canonicalJson hids haccept hkeys
  constructor
  · rintro ⟨canonical, tree', groups', hdry', htree', hresolve', hitems, heffect⟩
    have hcanonical := (hdry fun _ => {}).symm.trans (hdry' fun _ => {})
    simp only [Option.some.injEq, Prod.mk.injEq, Except.ok.injEq, and_true] at hcanonical
    rw [← hcanonical, hreader _ _ htree, Option.some.injEq] at htree'
    rw [← htree', hresolve, Except.ok.injEq] at hresolve'
    subst hresolve'
    exact sameTurns_of_sameEffect hnamed hitems heffect
  · intro H
    exact ⟨_, tree, idOrder groups, hdry, hreader _ _ htree, hresolve, fun _ => H.mem_work, H.sameEffect hnamed⟩

/-! ## Sample actions -/

/-- A host whose ids are plain: the numbers of the characters. -/
def plainHost : CmHost :=
  { makeUuid5 := fun ns name => (ns ++ name).flatMap fun c => '-' :: ofNat c.toNat, alsaChannels := 8 }

theorem plainText_plainHost (ns name : Text) : PlainText (plainHost.makeUuid5 ns name) := by
  have hchar : ∀ d ∈ plainHost.makeUuid5 ns name, d = '-' ∨ d.isDigit = true := by
    intro d hd
    obtain ⟨c, -, hd⟩ := List.mem_flatMap.mp hd
    rcases List.mem_cons.mp hd with rfl | hd
    · exact .inl rfl
    · exact .inr (digits_isDigit hd)
  constructor
  · intro d hd
    rcases hchar d hd with rfl | hdigit
    · decide
    · simp only [Json.plain, Bool.and_eq_true, decide_eq_true_eq, bne_iff_ne]
      rw [Char.isDigit_iff_toNat] at hdigit
      refine ⟨⟨by have : '0'.toNat = 48 := rfl; omega, ?_⟩, ?_⟩ <;> (rintro rfl; revert hdigit; decide)
  · refine Json.isUtf8_of_ascii fun d hd => ?_
    rcases hchar d hd with rfl | hdigit
    · decide
    · rw [Char.isDigit_iff_toNat] at hdigit
      have hnine : '9'.toNat = 57 := rfl
      omega

/-- Outputs that are named once, in the order of their ids. -/
theorem idOrder_of_ordered {groups : List Is08Group} (h : groups.Pairwise fun g g' => g.1 < g'.1) :
    idOrder groups = groups := by
  have hlast : lastOccurrences groups = groups := by
    induction groups with
    | nil => rfl
    | cons g groups ih =>
        obtain ⟨hfirst, h⟩ := List.pairwise_cons.mp h
        have hnone : ¬ (groups.any fun g' => g'.1 = g.1) = true := by
          rw [List.any_eq_true]
          rintro ⟨g', hg', heq⟩
          exact (hfirst g' hg').ne (of_decide_eq_true heq).symm
        rw [lastOccurrences, if_neg hnone, ih h]
  rw [idOrder, hlast]
  exact List.mergeSort_of_pairwise (h.imp fun hlt => decide_eq_true hlt.le)

/-- The place of an item that is the last one for its channel. -/
theorem before_unique {w : Is08WorkItem} {before after before' after' : List Is08WorkItem}
    (heq : before ++ w :: after = before' ++ w :: after') (hlast : LastFor w after) (hlast' : LastFor w after')
    (hclear : w.clear = false) : before = before' := by
  rcases List.append_eq_append_iff.mp heq with ⟨as, rfl, has⟩ | ⟨as, rfl, has⟩
  · rcases List.cons_eq_append_iff.mp has with ⟨rfl, -⟩ | ⟨as', rfl, rfl⟩
    · exact (List.append_nil _).symm
    · exact absurd rfl (hlast w (by simp) hclear)
  · rcases List.cons_eq_append_iff.mp has with ⟨rfl, -⟩ | ⟨as', rfl, rfl⟩
    · exact List.append_nil _
    · exact absurd rfl (hlast' w (by simp) hclear)

/-- The order does not matter to outputs that are named once, in the order of their ids. -/
theorem sameTurns_of_ordered {m : StreamChannel → Option UInt8} {groups : List Is08Group}
    (h : groups.Pairwise fun g g' => g.1 < g'.1) : SameTurns m groups where
  repeated := by
    intro g hg g' hg' hid x hx
    have hnodup : (groups.map Prod.fst).Nodup := List.pairwise_map.mpr (h.imp fun hlt => hlt.ne)
    obtain rfl : g' = g := List.inj_on_of_nodup_map hnodup (mem_of_mem_lastOccurrences hg') hg hid
    exact ⟨x, hx, rfl⟩
  sinks := fun _ _ => by rw [idOrder_of_ordered h]
  sources := by
    intro before w after before' after' hdoc hid hlast hlast' hclear _ _
    rw [idOrder_of_ordered h] at hid
    rw [before_unique (hdoc.symm.trans hid) hlast hlast' hclear]

/-- Two sources, and two sinks on the same ALSA channels. -/
def twoByTwo : List Request :=
  sharedChannel [1, 2] ++ [.addSource (.answering none (.ok 12) (.error (.driver 1))) (stereoSource 2 "b".toList)]

/-- The two channels of a source are connected to two sinks, and a channel of the other source to the
second one. -/
def crossed : List Is08Group :=
  [(plainHost.is08OutputId 1, [("0".toList, plainHost.sinkItem 1 1),
      ("1".toList, { plainHost.sinkItem 1 2 with outputChannel := 1 })]),
    (plainHost.is08OutputId 2, [("0".toList, plainHost.sinkItem 2 2)])]

theorem fires_as_requested_crossed : ∃ s, run (SessionManager.step {}) (.create {}) twoByTwo = some s ∧
    FiresAsRequested plainHost Json.read (groupsText crossed) crossed s := by
  have heval : (run (SessionManager.step {}) (SessionManager.create {}) twoByTwo).map
      (fun s => (Json.read (groupsText crossed)).bind fun action => (plainHost.resolveAction s action).toOption) =
      some (some crossed) := by
    decide +kernel
  obtain ⟨s, hrun, heq⟩ := Option.map_eq_some_iff.mp heval
  obtain ⟨action, hread, haccept⟩ := Option.bind_eq_some_iff.mp heq
  refine ⟨s, hrun, (fires_as_requested_iff plainText_plainHost (fun _ _ h => h) hread (toOption_eq_some haccept) ?_).mpr
    (sameTurns_of_ordered (by decide +kernel))⟩
  decide

/-- Whether the canonical text of an action is resolved to its items, with the same
effect on one channel. -/
def firesAt (h : CmHost) (s : SessionManager) (c : StreamChannel) (groups : List Is08Group) : Bool :=
  match (Json.read (canonicalJson groups)).bind fun tree => (h.resolveAction s tree).toOption with
  | none => false
  | some groups' => (work groups).all (fun w => w ∈ work groups') &&
      Assign.execAll s.alsaAt (assignments (work groups')) c =
        Assign.execAll s.alsaAt (assignments (work groups)) c

theorem firesAt_of_fires {actionJson : Text} {action : Ptree} (hread : Json.read actionJson = some action)
    (haccept : h.resolveAction s action = .ok groups) (hfires : FiresAsRequested h Json.read actionJson groups s)
    (c : StreamChannel) : firesAt h s c groups = true := by
  obtain ⟨canonical, tree, groups', hdry, htree, hresolve, hitems, heffect⟩ := hfires
  have hcanonical := hdry fun _ => {}
  simp only [is08ApplyActionJson, hread, haccept, if_true, Option.some.injEq, Prod.mk.injEq, Except.ok.injEq,
    and_true] at hcanonical
  simp [firesAt, hcanonical, htree, hresolve, Except.toOption, hitems, heffect]

/-- An action that passes the dry run and that its canonical text does not stand for. -/
def Misfires (h : CmHost) (requests : List Request) (actionJson : Text) : Prop :=
  ∃ s action groups, run (SessionManager.step h.host) (.create h.host) requests = some s ∧
    Json.read actionJson = some action ∧ h.resolveAction s action = .ok groups ∧
    ¬ FiresAsRequested h Json.read actionJson groups s

theorem misfires {requests : List Request} {actionJson : Text} (c : StreamChannel)
    (heval : (run (SessionManager.step h.host) (.create h.host) requests).map (fun s =>
      (Json.read actionJson).bind fun action => (h.resolveAction s action).toOption.map (firesAt h s c)) =
        some (some false)) : Misfires h requests actionJson := by
  obtain ⟨s, hrun, heq⟩ := Option.map_eq_some_iff.mp heval
  obtain ⟨action, hread, heq⟩ := Option.bind_eq_some_iff.mp heq
  obtain ⟨groups, haccept, hno⟩ := Option.map_eq_some_iff.mp heq
  have hok := toOption_eq_some haccept
  refine ⟨s, action, groups, hrun, hread, hok, fun hfires => ?_⟩
  rw [firesAt_of_fires hread hok hfires c] at hno
  cases hno

/-- A channel key with a quote makes a text that is no JSON; of an output that occurs
twice the first occurrence is lost; and an ALSA output that is requested after a source
is applied before it. -/
theorem canonical_differs :
    Misfires mapHost (sharedChannel [1])
      (groupsText [(mapHost.is08OutputId 1, [("0\\\"".toList, mapHost.sinkItem 1 1)])]) ∧
    Misfires mapHost (sharedChannel [1])
      (groupsText [(mapHost.is08OutputId 1, [("0".toList, mapHost.sinkItem 1 1)]),
        (mapHost.is08OutputId 1, [("1".toList, { mapHost.sinkItem 1 1 with outputChannel := 1 })])]) ∧
    Misfires mapHost (sharedChannel [1])
      (groupsText [(mapHost.is08OutputId 1, [("0".toList, mapHost.sinkItem 1 1)]),
        (mapHost.is08AlsaOutputId 5,
          [("0".toList, { mapHost.sinkItem 5 1 with isSenderOutput := false })])]) := by
  refine ⟨?_, ?_, ?_⟩
  · exact misfires ⟨.source, 1, 0⟩ (by decide +kernel)
  · exact misfires ⟨.source, 1, 0⟩ (by decide +kernel)
  · exact misfires ⟨.source, 1, 0⟩ (by decide +kernel)

end CmHost
end Aes67Daemon
