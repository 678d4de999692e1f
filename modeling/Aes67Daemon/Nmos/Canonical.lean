import Aes67Daemon.Nmos.Activated

/-!
# The canonical text of an action

A scheduled activation keeps a text that the first pass has written down, and reads it
again when it is due.  Where the channel keys of the action can stand in a JSON string
as they are, the text is read back as the outputs in the order of their ids, each with
the channels of its last occurrence, and is resolved to the same items.

## Main definitions

* `PlainText` — a text that can stand in a JSON string as it is.
* `CmHost.groupsTree` — the tree the canonical text is the text of.
* `CmHost.resolve_groupsTree` — what was written down is resolved to the same items.
-/
namespace Aes67Daemon

open Text

/-- A text that can stand between quotes in a JSON text as it is. -/
def PlainText (t : Text) : Prop := (∀ c ∈ t, Json.plain c = true) ∧ Json.isUtf8 t = true

instance (t : Text) : Decidable (PlainText t) :=
  decidable_of_iff (t.all Json.plain = true ∧ Json.isUtf8 t = true) (by rw [List.all_eq_true]; rfl)

theorem isUtf8_printInt (z : ℤ) : Json.isUtf8 (Json.printInt z) = true := by
  refine Json.isUtf8_of_ascii fun c hc => ?_
  unfold Json.printInt at hc
  split at hc
  · rcases List.mem_cons.mp hc with rfl | hc
    · decide
    · exact Json.ascii_ofNat _ c hc
  · exact Json.ascii_ofNat _ c hc

namespace CmHost
variable {h : CmHost} {s : SessionManager}

/-! ## What the text is the text of -/

/-- The `input` of an item. -/
def inputText (w : Is08WorkItem) : Text := if w.clear then "null".toList else w.inputUuid

/-- The `channel_index` of an item. -/
def indexText (w : Is08WorkItem) : Text :=
  if w.clear then "null".toList else Json.printInt w.inputChannel

/-- The tree of one channel. -/
def channelTree (w : Is08WorkItem) : Ptree :=
  .node [] [("input".toList, .leaf (inputText w)), ("channel_index".toList, .leaf (indexText w))]

/-- The tree of one output. -/
def outputTree (items : List (Text × Is08WorkItem)) : Ptree :=
  .node [] (items.map fun x => (x.1, channelTree x.2))

/-- The tree of outputs with their channels. -/
def groupsTree (groups : List Is08Group) : Ptree :=
  .node [] (groups.map fun g => (g.1, outputTree g.2))

/-- The keys and the input ids of an output can stand in a JSON text as they are. -/
def PlainGroup (g : Is08Group) : Prop :=
  PlainText g.1 ∧ ∀ x ∈ g.2, PlainText x.1 ∧ (x.2.clear = false → PlainText x.2.inputUuid)

/-- The two members of a channel. -/
def channelMembers (w : Is08WorkItem) : List (Text × Text × Ptree) :=
  [("input".toList, if w.clear then "null".toList else '"' :: w.inputUuid ++ ['"'], .leaf (inputText w)),
    ("channel_index".toList, indexText w, .leaf (indexText w))]

theorem channelFragment_eq (x : Text × Is08WorkItem) :
    channelFragment x = Json.memberText (x.1, Json.objectText (channelMembers x.2)) := by
  simp [channelFragment, Json.objectText, channelMembers, Json.memberText, indexText, List.intercalate,
    List.intersperse]

theorem reads_channel {w : Is08WorkItem} (hw : w.clear = false → PlainText w.inputUuid) :
    Json.Reads (Json.objectText (channelMembers w)) (channelTree w) := by
  have hinput : ∀ c ∈ "input".toList, Json.plain c = true := List.all_eq_true.mp (by decide)
  have hindex : ∀ c ∈ "channel_index".toList, Json.plain c = true := List.all_eq_true.mp (by decide)
  refine Json.reads_objectText (channelMembers w) fun m hm => ?_
  simp only [channelMembers, List.mem_cons, List.not_mem_nil, or_false] at hm
  rcases hm with rfl | rfl
  · refine ⟨hinput, ?_⟩
    cases hclear : w.clear with
    | true => simpa [inputText, hclear] using Json.reads_null
    | false => simpa [inputText, hclear] using Json.reads_string (Json.encodes_plain (hw hclear).1)
  · refine ⟨hindex, ?_⟩
    cases hclear : w.clear with
    | true => simpa [indexText, hclear] using Json.reads_null
    | false => simpa [indexText, hclear] using Json.reads_int w.inputChannel

theorem isUtf8_channel {w : Is08WorkItem} (hw : w.clear = false → PlainText w.inputUuid) :
    Json.isUtf8 (Json.objectText (channelMembers w)) = true := by
  refine Json.isUtf8_objectText _ fun m hm => ?_
  simp only [channelMembers, List.mem_cons, List.not_mem_nil, or_false] at hm
  rcases hm with rfl | rfl
  · refine ⟨rfl, ?_⟩
    cases hclear : w.clear with
    | true => rfl
    | false => exact Json.isUtf8_append (Json.isUtf8_append (t := ['"']) rfl (hw hclear).2) rfl
  · refine ⟨rfl, ?_⟩
    cases hclear : w.clear with
    | true => simp only [indexText, hclear, if_true]; rfl
    | false => simpa [indexText, hclear] using isUtf8_printInt w.inputChannel

/-- The members of an output. -/
def outputMembers (items : List (Text × Is08WorkItem)) : List (Text × Text × Ptree) :=
  items.map fun x => (x.1, Json.objectText (channelMembers x.2), channelTree x.2)

theorem outFragment_eq (items : List (Text × Is08WorkItem)) :
    '{' :: outFragment items ++ ['}'] = Json.objectText (outputMembers items) := by
  simp only [outFragment, Json.objectText, outputMembers, List.map_map]
  congr 4
  exact funext channelFragment_eq

theorem reads_output {g : Is08Group} (hg : PlainGroup g) :
    Json.Reads (Json.objectText (outputMembers g.2)) (outputTree g.2) := by
  have hreads := Json.reads_objectText (outputMembers g.2) fun m hm => by
    obtain ⟨x, hx, rfl⟩ := List.mem_map.mp hm
    exact ⟨(hg.2 x hx).1.1, reads_channel (hg.2 x hx).2⟩
  rw [outputMembers, List.map_map] at hreads
  exact hreads

theorem isUtf8_output {g : Is08Group} (hg : PlainGroup g) :
    Json.isUtf8 (Json.objectText (outputMembers g.2)) = true := by
  refine Json.isUtf8_objectText _ fun m hm => ?_
  obtain ⟨x, hx, rfl⟩ := List.mem_map.mp hm
  exact ⟨(hg.2 x hx).1.2, isUtf8_channel (hg.2 x hx).2⟩

/-- The members of an action. -/
def groupsMembers (groups : List Is08Group) : List (Text × Text × Ptree) :=
  groups.map fun g => (g.1, Json.objectText (outputMembers g.2), outputTree g.2)

theorem groupsText_eq (groups : List Is08Group) : groupsText groups = Json.objectText (groupsMembers groups) := by
  have hmember : ∀ g : Is08Group, '"' :: g.1 ++ "\": \x7b".toList ++ outFragment g.2 ++ ['}'] =
      Json.memberText (g.1, Json.objectText (outputMembers g.2)) := by
    intro g
    rw [← outFragment_eq]
    simp [Json.memberText]
  rw [groupsText, Json.objectText, groupsMembers, List.map_map]
  congr 4
  exact funext hmember

/-- **The text of outputs with plain keys is read back.** -/
theorem read_groupsText {groups : List Is08Group} (hplain : ∀ g ∈ groups, PlainGroup g) :
    Json.read (groupsText groups) = some (groupsTree groups) := by
  have hreads := Json.reads_objectText (groupsMembers groups) fun m hm => by
    obtain ⟨g, hg, rfl⟩ := List.mem_map.mp hm
    exact ⟨(hplain g hg).1.1, reads_output (hplain g hg)⟩
  have hutf8 := Json.isUtf8_objectText (groupsMembers groups) fun m hm => by
    obtain ⟨g, hg, rfl⟩ := List.mem_map.mp hm
    exact ⟨(hplain g hg).1.2, isUtf8_output (hplain g hg)⟩
  have hread := Json.read_eq hreads hutf8 (w := []) (by simp)
  rw [List.append_nil, groupsMembers, List.map_map] at hread
  rw [groupsText_eq]
  exact hread

/-! ## What the tree is resolved to -/

/-- An item says what an entry with the same `input` and `channel_index` says. -/
theorem resolveEntry_congr {out : Is08Output} {key : Text} {t t' : Ptree} (hinput : entryInput t = entryInput t')
    (hindex : entryInput t ≠ none → entryChannel t = entryChannel t') :
    h.resolveEntry s out (key, t) = h.resolveEntry s out (key, t') := by
  unfold resolveEntry
  cases hcase : entryInput t with
  | none => simp only [← hinput, hcase]
  | some uuid =>
      have hsame := hindex (by rw [hcase]; simp)
      simp only [← hinput, hcase, hsame]

theorem entryInput_channelTree {w : Is08WorkItem} (hname : w.clear = false → w.inputUuid ≠ "null".toList ∧
    w.inputUuid ≠ []) : entryInput (channelTree w) = if w.clear then none else some w.inputUuid := by
  have hfirst : (channelTree w).child? "input".toList = some (.leaf (inputText w)) := rfl
  rw [entryInput, hfirst]
  cases hclear : w.clear with
  | true => simp [inputText, hclear]
  | false =>
      obtain ⟨hnull, hempty⟩ := hname hclear
      have hnull' : w.inputUuid ≠ ['n', 'u', 'l', 'l'] := hnull
      simp [inputText, hclear, hnull', hempty]

theorem entryChannel_channelTree {w : Is08WorkItem} (hclear : w.clear = false)
    (hrange : -2147483648 ≤ w.inputChannel ∧ w.inputChannel ≤ 2147483647) :
    entryChannel (channelTree w) = w.inputChannel := by
  have hsecond : (channelTree w).child? "channel_index".toList = some (.leaf (indexText w)) := rfl
  have hkept : (some w.inputChannel).filter (fun z => -2147483648 ≤ z ∧ z ≤ 2147483647) = some w.inputChannel :=
    Option.filter_eq_some_iff.mpr ⟨rfl, by simpa using hrange⟩
  rw [entryChannel, hsecond, Option.bind_some, Ptree.getInt?, Ptree.data_leaf, indexText, hclear,
    if_neg (by simp), extractInt_printInt, hkept, Option.getD_some]

theorem entryChannel_range (t : Ptree) :
    -2147483648 ≤ entryChannel t ∧ entryChannel t ≤ 2147483647 := by
  rw [entryChannel]
  cases hget : (t.child? "channel_index".toList).bind Ptree.getInt? with
  | none => decide
  | some z =>
      obtain ⟨leaf, -, hz⟩ := Option.bind_eq_some_iff.mp hget
      simpa using (Option.filter_eq_some_iff.mp hz).2

theorem entryInput_ne {t : Ptree} {uuid : Text} (hinput : entryInput t = some uuid) :
    uuid ≠ "null".toList ∧ uuid ≠ [] := by
  simpa using (Option.filter_eq_some_iff.mp hinput).2

/-- **What was written down for an entry is resolved to the same item.** -/
theorem resolveEntry_channelTree {out : Is08Output} {entry x : Text × _} (hentry : h.resolveEntry s out entry = .ok x) :
    h.resolveEntry s out (x.1, channelTree x.2) = .ok x := by
  obtain ⟨hkey, hres⟩ := resolveEntry_eq_ok hentry
  obtain ⟨key, t⟩ := entry
  rw [hkey, ← hentry]
  have hname : x.2.clear = false → x.2.inputUuid ≠ "null".toList ∧ x.2.inputUuid ≠ [] := fun hclear =>
    entryInput_ne (hres.input hclear).1
  have hread := entryInput_channelTree hname
  have hinput : entryInput (channelTree x.2) = entryInput t := by
    rw [hread]
    cases hclear : x.2.clear with
    | true => exact (hres.clear.mp hclear).symm
    | false => exact (hres.input hclear).1.symm
  refine resolveEntry_congr hinput fun hsome => ?_
  have hclear : x.2.clear = false := by
    cases hclear : x.2.clear with
    | true => rw [hread, hclear] at hsome; exact absurd rfl hsome
    | false => rfl
  obtain ⟨-, hindex, -⟩ := hres.input hclear
  rw [entryChannel_channelTree hclear (hindex ▸ entryChannel_range t), hindex]

theorem resolveGroup_eq_ok {output : Text × Ptree} {g : Is08Group} :
    h.resolveGroup s output = .ok g ↔ ∃ out, h.resolveOutput s output.1 = .ok out ∧ g.1 = output.1 ∧
      List.Forall₂ (fun e x => h.resolveEntry s out e = .ok x) output.2.children g.2 := by
  unfold resolveGroup
  cases hout : h.resolveOutput s output.1 with
  | error e => simp [bind, Except.bind]
  | ok out =>
      simp only [bind, Except.bind, Except.ok.injEq]
      constructor
      · intro hg
        cases hitems : output.2.children.mapM (h.resolveEntry s out) with
        | error e => rw [hitems] at hg; cases hg
        | ok items =>
            rw [hitems] at hg
            cases hg
            exact ⟨out, rfl, rfl, mapM_eq_ok.mp hitems⟩
      · rintro ⟨_, rfl, hname, hitems⟩
        rw [mapM_eq_ok.mpr hitems]
        exact congrArg Except.ok (Prod.ext hname.symm rfl)

/-- **What was written down for an output is resolved to the same items.** -/
theorem resolveGroup_outputTree {output : Text × Ptree} {g : Is08Group} (hg : h.resolveGroup s output = .ok g) :
    h.resolveGroup s (g.1, outputTree g.2) = .ok g := by
  obtain ⟨out, hout, hname, hitems⟩ := resolveGroup_eq_ok.mp hg
  refine resolveGroup_eq_ok.mpr ⟨out, by rw [hname, hout], rfl, ?_⟩
  rw [outputTree, Ptree.children_node, List.forall₂_map_left_iff, List.forall₂_same]
  intro x hx
  obtain ⟨entry, -, hentry⟩ := exists_of_mem_right hitems hx
  exact resolveEntry_channelTree hentry

/-- **What was written down is resolved to the same items**, output by output. -/
theorem resolve_groupsTree {groups : List Is08Group} (hgroups : ∀ g ∈ groups, ∃ output, h.resolveGroup s output = .ok g) :
    h.resolveAction s (groupsTree groups) = .ok groups := by
  rw [resolveAction, mapM_eq_ok, groupsTree, Ptree.children_node, List.forall₂_map_left_iff, List.forall₂_same]
  intro g hg
  obtain ⟨output, houtput⟩ := hgroups g hg
  exact resolveGroup_outputTree houtput

end CmHost
end Aes67Daemon
