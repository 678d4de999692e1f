import Aes67Daemon.Nmos.Crosspoints

/-!
# Activations

What the first pass has checked when it accepts an action, and what an accepted
action has done when it is applied.

## Main definitions

* `CmHost.Resolved` — what the first pass knows of an item.
* `CmHost.ready_of_resolved` — every channel the second pass touches exists.
* `CmHost.AllOrNothing`, `CmHost.all_or_nothing_iff` — when an activation is applied
  as a whole or not at all.
-/
namespace Aes67Daemon

open Text

theorem mapM_eq_ok {ε α β : Type} {f : α → Except ε β} {as : List α} {bs : List β} :
    as.mapM f = .ok bs ↔ List.Forall₂ (fun a b => f a = .ok b) as bs := by
  induction as generalizing bs with
  | nil =>
      rw [List.mapM_nil, List.forall₂_nil_left_iff]
      exact ⟨fun h => (Except.ok.inj h).symm, fun h => by rw [h]; rfl⟩
  | cons a as ih =>
      rw [List.mapM_cons, List.forall₂_cons_left_iff]
      cases hf : f a with
      | error e =>
          refine iff_of_false (by simp [bind, Except.bind]) ?_
          rintro ⟨b, bs', hb, -⟩
          cases hb
      | ok b =>
          cases hrest : as.mapM f with
          | error e =>
              refine iff_of_false (by simp [bind, Except.bind]) ?_
              rintro ⟨b', bs', -, hbs, -⟩
              rw [ih.mpr hbs] at hrest
              cases hrest
          | ok bs₁ =>
              constructor
              · intro h
                cases h
                exact ⟨b, bs₁, rfl, ih.mp hrest, rfl⟩
              · rintro ⟨b', bs', hb, hbs, rfl⟩
                cases hb
                cases hrest.symm.trans (ih.mpr hbs)
                rfl

theorem toOption_eq_some {ε α : Type} {x : Except ε α} {a : α} (h : x.toOption = some a) : x = .ok a := by
  cases x with
  | error e => cases h
  | ok b => cases h; rfl

theorem exists_of_mem_right {α β : Type} {R : α → β → Prop} {as : List α} {bs : List β}
    (h : List.Forall₂ R as bs) {b : β} (hb : b ∈ bs) : ∃ a ∈ as, R a b := by
  induction h with
  | nil => cases hb
  | cons hab _ ih =>
      rcases List.mem_cons.mp hb with rfl | hb
      · exact ⟨_, List.mem_cons_self, hab⟩
      · obtain ⟨a, ha, hr⟩ := ih hb
        exact ⟨a, List.mem_cons_of_mem _ ha, hr⟩

namespace CmHost
variable {h : CmHost} {s : SessionManager}

/-! ## What the first pass checks -/

/-- An output that was found: a source with its channels, or an ALSA channel. -/
structure IsOutput (h : CmHost) (s : SessionManager) (uuid : Text) (out : Is08Output) : Prop where
  named : out.uuid = uuid
  sender : out.isSenderOutput = true →
    uuid = h.is08OutputId out.outId ∧ ∃ src, s.getSource out.outId = some src ∧
      out.channelCount = src.map.length
  alsa : out.isSenderOutput = false →
    uuid = h.is08AlsaOutputId out.outId ∧ out.outId ∈ h.alsaChannelList ∧ out.channelCount = 1

theorem resolveOutput_eq_ok {uuid : Text} {out : Is08Output} (hout : h.resolveOutput s uuid = .ok out) :
    IsOutput h s uuid out := by
  unfold resolveOutput at hout
  split at hout
  · rename_i outId hfind
    obtain ⟨src, hsrc, rfl⟩ := Option.map_eq_some_iff.mp hfind
    have huuid := List.find?_some hsrc
    split at hout
    · rename_i src' hget
      cases hout
      exact ⟨rfl, fun _ => ⟨(beq_iff_eq.mp huuid).symm, src', hget, rfl⟩, by simp⟩
    · cases hout
  · split at hout
    · rename_i outId hfind
      have huuid := List.find?_some hfind
      cases hout
      have hmem := List.mem_of_find?_eq_some hfind
      exact ⟨rfl, by simp, fun _ => ⟨(beq_iff_eq.mp huuid).symm, hmem, rfl⟩⟩
    · cases hout

/-- An input that was found and checked. -/
def IsInput (h : CmHost) (s : SessionManager) (out : Is08Output) (uuid : Text) (channel : ℤ) :
    Bool × UInt8 → Prop
  | (true, id) => uuid = h.is08InputId id ∧
      ∃ sink, s.getSink id = some sink ∧ 0 ≤ channel ∧ channel.toNat < sink.map.length
  | (false, id) => uuid = h.is08AlsaInputId id ∧ out.isSenderOutput = true

theorem resolveInput_eq_ok {out : Is08Output} {uuid : Text} {channel : ℤ} {found : Bool × UInt8}
    (hin : h.resolveInput s out uuid channel = .ok found) : IsInput h s out uuid channel found := by
  unfold resolveInput at hin
  split at hin
  · rename_i inId hfind
    obtain ⟨sink, hsink, rfl⟩ := Option.map_eq_some_iff.mp hfind
    have huuid := List.find?_some hsink
    split at hin
    · rename_i sink' hget
      split at hin
      · cases hin
      · rename_i hrange
        cases hin
        exact ⟨(beq_iff_eq.mp huuid).symm, sink', hget, by omega, by omega⟩
    · cases hin
  · split at hin
    · rename_i inId hfind
      have huuid := List.find?_some hfind
      split at hin
      · rename_i hsender
        cases hin
        exact ⟨(beq_iff_eq.mp huuid).symm, hsender⟩
      · cases hin
    · cases hin

/-- What the first pass knows of the item it makes of an entry. -/
structure Resolved (h : CmHost) (s : SessionManager) (out : Is08Output) (entry : Text × Ptree)
    (w : Is08WorkItem) : Prop where
  sender : w.isSenderOutput = out.isSenderOutput
  outputId : w.outputId = out.outId
  channel : stoi entry.1 = some w.outputChannel
  nonneg : 0 ≤ w.outputChannel
  lt : w.outputChannel.toNat < out.channelCount
  clear : w.clear = true ↔ entryInput entry.2 = none
  input : w.clear = false → entryInput entry.2 = some w.inputUuid ∧
    w.inputChannel = entryChannel entry.2 ∧
    h.resolveInput s out w.inputUuid w.inputChannel = .ok (w.inputIsSink, w.inputId)

theorem resolveEntry_eq_ok {out : Is08Output} {entry item : Text × _}
    (hentry : h.resolveEntry s out entry = .ok item) :
    item.1 = entry.1 ∧ Resolved h s out entry item.2 := by
  unfold resolveEntry at hentry
  cases hchannel : resolveChannel out entry.1 with
  | error e => rw [hchannel] at hentry; cases hentry
  | ok oc =>
      have hrange : stoi entry.1 = some oc ∧ 0 ≤ oc ∧ oc.toNat < out.channelCount := by
        unfold resolveChannel at hchannel
        split at hchannel
        · cases hchannel
        · rename_i z hz
          split at hchannel
          · cases hchannel
          · cases hchannel
            exact ⟨hz, by omega, by omega⟩
      rw [hchannel] at hentry
      simp only [bind, Except.bind] at hentry
      cases hinput : entryInput entry.2 with
      | none =>
          rw [hinput] at hentry
          cases hentry
          exact ⟨rfl, rfl, rfl, hrange.1, hrange.2.1, hrange.2.2, by simp [hinput], by simp⟩
      | some uuid =>
          rw [hinput] at hentry
          simp only at hentry
          cases hresolve : h.resolveInput s out uuid (entryChannel entry.2) with
          | error e => rw [hresolve] at hentry; cases hentry
          | ok found =>
              rw [hresolve] at hentry
              cases hentry
              exact ⟨rfl, rfl, rfl, hrange.1, hrange.2.1, hrange.2.2, by simp [hinput],
                fun _ => ⟨hinput, rfl, hresolve⟩⟩

/-- **Every item of an accepted action was made of an entry** that was checked. -/
theorem mem_work {action : Ptree} {groups : List Is08Group} (haccept : h.resolveAction s action = .ok groups)
    {w : Is08WorkItem} (hw : w ∈ work groups) :
    ∃ output ∈ action.children, ∃ entry ∈ output.2.children, ∃ out,
      h.resolveOutput s output.1 = .ok out ∧ Resolved h s out entry w := by
  obtain ⟨g, hg, hw⟩ := List.mem_flatMap.mp hw
  obtain ⟨item, hitem, rfl⟩ := List.mem_map.mp hw
  have hgroups := mapM_eq_ok.mp haccept
  obtain ⟨output, houtput, hgroup⟩ := exists_of_mem_right hgroups hg
  unfold resolveGroup at hgroup
  cases hout : h.resolveOutput s output.1 with
  | error e => rw [hout] at hgroup; cases hgroup
  | ok out =>
      rw [hout] at hgroup
      simp only [bind, Except.bind] at hgroup
      cases hitems : output.2.children.mapM (h.resolveEntry s out) with
      | error e => rw [hitems] at hgroup; cases hgroup
      | ok items =>
          rw [hitems] at hgroup
          cases hgroup
          obtain ⟨entry, hentry, hresolve⟩ := exists_of_mem_right (mapM_eq_ok.mp hitems) hitem
          exact ⟨output, houtput, entry, hentry, out, hout, (resolveEntry_eq_ok hresolve).2⟩

/-- The id of the output of an item. -/
def outputUuid (h : CmHost) (w : Is08WorkItem) : Text :=
  if w.isSenderOutput then h.is08OutputId w.outputId else h.is08AlsaOutputId w.outputId

theorem alsaAt_isSome_of_channels {c : StreamChannel} {map : List UInt8} (hmap : s.channels c.kind c.id = some map)
    (hlt : c.index < map.length) : (s.alsaAt c).isSome := by
  rw [SessionManager.alsaAt, hmap, Option.bind_some, List.getElem?_eq_getElem hlt]
  rfl

/-- **Every channel an accepted action speaks of exists.** -/
theorem ready_of_resolved {out : Is08Output} {uuid : Text} {entry : Text × Ptree} {w : Is08WorkItem}
    (hout : IsOutput h s uuid out) (hw : Resolved h s out entry w) : s.Ready w := by
  intro hclear
  obtain ⟨-, -, hresolve⟩ := hw.input hclear
  have hin := resolveInput_eq_ok hresolve
  cases hsender : w.isSenderOutput with
  | true =>
      obtain ⟨-, src, hsrc, hcount⟩ := hout.sender (hw.sender.symm.trans hsender)
      have htarget := Is08WorkItem.target_source hsender
      have hsource : s.channels .source w.outputId = some src.map := by
        rw [SessionManager.channels_source, hw.outputId, hsrc]
        rfl
      have hlt : w.outputChannel.toNat < src.map.length := hcount ▸ hw.lt
      cases hsink : w.inputIsSink with
      | true =>
          rw [hsink] at hin
          obtain ⟨-, sink, hget, hnonneg, hlt'⟩ := hin
          have hoperand := Is08WorkItem.operand_sink hsender hsink
          have hmap : s.channels .sink w.inputId = some sink.map := by
            rw [SessionManager.channels_sink, hget]
            rfl
          refine ⟨fun _ => hw.nonneg, fun _ => hnonneg, ?_, ?_⟩
          · rw [htarget]
            exact alsaAt_isSome_of_channels hsource hlt
          · rw [hoperand]
            exact alsaAt_isSome_of_channels (c := ⟨.sink, _, _⟩) hmap hlt'
      | false =>
          have hoperand := Is08WorkItem.operand_alsa hsender hsink
          refine ⟨fun _ => hw.nonneg, by simp, ?_, by rw [hoperand]; rfl⟩
          rw [htarget]
          exact alsaAt_isSome_of_channels hsource hlt
  | false =>
      cases hsink : w.inputIsSink with
      | false =>
          rw [hsink] at hin
          have hout' := hw.sender.symm.trans hsender
          rw [hin.2] at hout'
          cases hout'
      | true =>
          rw [hsink] at hin
          obtain ⟨-, sink, hget, hnonneg, hlt⟩ := hin
          have hassign := Is08WorkItem.assign_sink hsender
          have hmap : s.channels .sink w.inputId = some sink.map := by
            rw [SessionManager.channels_sink, hget]
            rfl
          refine ⟨by simp, fun _ => hnonneg, ?_, by rw [hassign]; rfl⟩
          rw [hassign]
          exact alsaAt_isSome_of_channels (c := ⟨.sink, _, _⟩) hmap hlt

theorem ready_of_accepted {action : Ptree} {groups : List Is08Group}
    (haccept : h.resolveAction s action = .ok groups) : ∀ w ∈ work groups, s.Ready w := by
  intro w hw
  obtain ⟨output, -, entry, -, out, hout, hres⟩ := mem_work haccept hw
  exact ready_of_resolved (resolveOutput_eq_ok hout) hres

/-! ## Applying an action -/

section
variable {readJson : Text → Option Ptree} {envs : ℕ → Env} {actionJson : Text} {action : Ptree}
  {groups : List Is08Group}

theorem apply_unread (hread : readJson actionJson = none) (dryRun : Bool) :
    h.is08ApplyActionJson readJson envs actionJson dryRun s =
      some (.error "Could not match the request to the schema".toList, s) := by
  rw [is08ApplyActionJson, hread]

theorem apply_rejected (hread : readJson actionJson = some action) {err : Text}
    (hreject : h.resolveAction s action = .error err) (dryRun : Bool) :
    h.is08ApplyActionJson readJson envs actionJson dryRun s = some (.error err, s) := by
  simp only [is08ApplyActionJson, hread, hreject]

theorem apply_accepted (hread : readJson actionJson = some action)
    (haccept : h.resolveAction s action = .ok groups) :
    h.is08ApplyActionJson readJson envs actionJson false s =
      (run (SessionManager.applyStep h.host) s (rounds envs (work groups))).map fun s' =>
        (.ok (canonicalJson groups), s') := by
  simp [is08ApplyActionJson, hread, haccept]

end

/-! ## All or nothing -/

/-- An activation that is answered with success has applied every item with an input
and kept every stream; one that is answered with an error has changed no stream. -/
def AllOrNothing (h : CmHost) (readJson : Text → Option Ptree) (envs : ℕ → Env) (actionJson : Text)
    (s : SessionManager) : Prop :=
  match h.is08ApplyActionJson readJson envs actionJson false s with
  | none => False
  | some (.error _, s') => s'.getSources = s.getSources ∧ s'.getSinks = s.getSinks
  | some (.ok _, s') =>
    (∀ action groups, readJson actionJson = some action → h.resolveAction s action = .ok groups →
      Along (SessionManager.applyStep h.host) (SessionManager.Applied h.host) s
        (rounds envs (work groups))) ∧
    (∀ id, (s.getSource id).isSome → (s'.getSource id).isSome) ∧
    ∀ id, (s.getSink id).isSome → (s'.getSink id).isSome

/-- The outside world lets every item of an accepted action add its stream again. -/
def AllGranted (h : CmHost) (readJson : Text → Option Ptree) (envs : ℕ → Env) (actionJson : Text)
    (s : SessionManager) : Prop :=
  ∀ action groups, readJson actionJson = some action → h.resolveAction s action = .ok groups →
    Along (SessionManager.applyStep h.host) (SessionManager.ItemGranted h.host) s
      (rounds envs (work groups))

/-- **An activation is all or nothing** exactly when the first pass turns it down or the
outside world lets every stream be added again. -/
theorem all_or_nothing_iff (h : CmHost) (readJson : Text → Option Ptree) (envs : ℕ → Env)
    (actionJson : Text) (s : SessionManager) :
    AllOrNothing h readJson envs actionJson s ↔ AllGranted h readJson envs actionJson s := by
  unfold AllOrNothing AllGranted
  cases hread : readJson actionJson with
  | none => simp [apply_unread hread]
  | some action =>
      cases haccept : h.resolveAction s action with
      | error err =>
          rw [apply_rejected hread haccept]
          refine iff_of_true ⟨rfl, rfl⟩ ?_
          intro action' groups haction hgroups
          cases haction
          cases haccept.symm.trans hgroups
      | ok groups =>
          have hready := ready_of_accepted haccept
          have hiff : Along (SessionManager.applyStep h.host) (SessionManager.Applied h.host) s
                (rounds envs (work groups)) ↔
              Along (SessionManager.applyStep h.host) (SessionManager.ItemGranted h.host) s
                (rounds envs (work groups)) := SessionManager.along_applied_iff hready
          rw [apply_accepted hread haccept]
          constructor
          · intro hall action' groups' haction hgroups
            cases haction
            cases haccept.symm.trans hgroups
            cases hrun : run (SessionManager.applyStep h.host) s (rounds envs (work groups)) with
            | none => rw [hrun] at hall; exact absurd hall id
            | some s' =>
                rw [hrun] at hall
                exact hiff.mp (hall.1 action groups rfl haccept)
          · intro hgranted
            have happlied := hiff.mpr (hgranted action groups rfl haccept)
            obtain ⟨s', hrun, -, hkeep, -⟩ := SessionManager.run_rounds hready happlied
            rw [hrun]
            refine ⟨?_, fun id hid => ?_, fun id hid => ?_⟩
            · intro action' groups' haction hgroups
              cases haction
              cases haccept.symm.trans hgroups
              exact happlied
            · have hsource := hkeep .source id
              simp only [SessionManager.channels_source, Option.isSome_map] at hsource
              rw [hsource, hid]
            · have hsink := hkeep .sink id
              simp only [SessionManager.channels_sink, Option.isSome_map] at hsink
              rw [hsink, hid]

/-- A source is gone after an activation that was answered with success. -/
theorem not_allOrNothing_of_gone {readJson : Text → Option Ptree} {envs : ℕ → Env} {actionJson canonical : Text}
    {s' : SessionManager} {id : UInt8}
    (happly : h.is08ApplyActionJson readJson envs actionJson false s = some (.ok canonical, s'))
    (hthere : (s.getSource id).isSome) (hgone : s'.getSource id = none) :
    ¬ AllOrNothing h readJson envs actionJson s := by
  rw [AllOrNothing, happly]
  intro hall
  have hkept := hall.2.1 id hthere
  rw [hgone] at hkept
  cases hkept

/-! ## A sample activation -/

/-- The item that puts the first channel of a source on an ALSA channel. -/
def alsaItem (h : CmHost) (source alsaChannel : UInt8) : Is08WorkItem :=
  { isSenderOutput := true
    outputId := source
    outputChannel := 0
    clear := false
    inputId := alsaChannel
    inputUuid := h.is08AlsaInputId alsaChannel }

/-- The text of an action with one item. -/
def actionText (h : CmHost) (w : Is08WorkItem) : Text :=
  groupsText [(h.outputUuid w, [(ofNat w.outputChannel.toNat, w)])]

/-- The driver turns down a source when it is added again: the activation is answered
with success, and the source is gone. -/
theorem not_all_or_nothing : ∃ s, run (SessionManager.step {}) (.create {})
      [.addSource (.answering none (.ok 7) (.error (.driver 1))) (stereoSource 1 "a".toList)] = some s ∧
    (∃ canonical s', is08ApplyActionJson {} Json.read (fun _ => .answering none (.error (.driver 1)) (.ok 8))
      (actionText {} (alsaItem {} 1 5)) false s = some (.ok canonical, s') ∧
      (s.getSource 1).isSome ∧ s'.getSource 1 = none) ∧
    ¬ AllOrNothing {} Json.read (fun _ => .answering none (.error (.driver 1)) (.ok 8))
      (actionText {} (alsaItem {} 1 5)) s := by
  have heval : (run (SessionManager.step {}) (SessionManager.create {})
      [.addSource (.answering none (.ok 7) (.error (.driver 1))) (stereoSource 1 "a".toList)]).map
      (fun s => ((s.getSource 1).isSome, (is08ApplyActionJson {} Json.read
        (fun _ => .answering none (.error (.driver 1)) (.ok 8)) (actionText {} (alsaItem {} 1 5)) false s).map
        fun answer => (answer.1.isOk, answer.2.getSource 1))) = some (true, some (true, none)) := by
    decide +kernel
  obtain ⟨s, hrun, heq⟩ := Option.map_eq_some_iff.mp heval
  simp only [Prod.mk.injEq] at heq
  obtain ⟨hthere, happly⟩ := heq
  obtain ⟨⟨answer, s'⟩, happly, heq⟩ := Option.map_eq_some_iff.mp happly
  simp only [Prod.mk.injEq] at heq
  obtain ⟨hok, hgone⟩ := heq
  cases answer with
  | error err => cases hok
  | ok canonical =>
      exact ⟨s, hrun, ⟨canonical, s', happly, hthere, hgone⟩, not_allOrNothing_of_gone happly hthere hgone⟩

end CmHost
end Aes67Daemon
