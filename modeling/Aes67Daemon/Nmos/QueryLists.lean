import Aes67Daemon.Lib.Percent
import Aes67Daemon.Nmos.Manager
import Aes67Daemon.Nmos.QueryText

/-!
# The lists of the Query API

A client asks for all sources, flows, senders or receivers, or for those with an id or a
label.  The parameters are cut from the query string and used as they are, with their
escapes, and a label is looked for in the whole text of a resource.

## Main definitions

* `getParamValue`, `hasRql`, `queryList` — the handlers.
* `NmosManager.queryResources` — what they go through.
* `QueryAnswer.Exact`, `QueryResource.Guarded` — what is listed is what is asked for, and what that takes.
* `NmosManager.query_exact_iff` — when it is.
-/
namespace Aes67Daemon

open Text

/-! ## The handlers -/

/-- The search of `get_param_value`; the flag says whether a parameter may start here. -/
def getParamFrom (kv : Text) : Bool → Text → Text
  | _, [] => []
  | first, c :: t =>
    if first && kv.isPrefixOf (c :: t) then ((c :: t).drop kv.length).takeWhile (· ≠ '&')
    else getParamFrom kv (c = '&') t

/-- `get_param_value`. -/
def getParamValue (qs : Text) (key : String) : Text := getParamFrom (key.toList ++ ['=']) true qs

/-- `has_rql`. -/
def hasRql (qs : Text) : Bool :=
  getParamValue qs "query.rql" != [] || getParamValue qs "query.ancestry_id" != []

/-- What a handler looks at when it lists resources. -/
structure QueryResource where
  /-- The id that the filter is compared with. -/
  id : Text
  label : Text
  channels : List Text := []
  /-- The texts of the daemon in the document. -/
  texts : List Text
  json : Text

/-- The loop of a handler over the resources: those that it lists, and how many. -/
def queryLoop (idF labelF : Text) : List QueryResource → List QueryResource × ℕ
  | [] => ([], 0)
  | r :: rs =>
    let (listed, count) := queryLoop idF labelF rs
    if idF ≠ [] ∧ r.id ≠ idF then (listed, count)
    else if labelF ≠ [] ∧ jsonFieldMatches r.json "label".toList labelF = false then (listed, count)
    else (r :: listed, count + 1)

/-- What a handler answers: a refusal, or resources and their number in the header. -/
inductive QueryAnswer
  | notImplemented
  | listing (listed : List QueryResource) (limit : ℕ)

/-- A list handler. -/
def queryList (qs : Text) (resources : List QueryResource) : QueryAnswer :=
  if hasRql qs then .notImplemented
  else
    let (listed, count) := queryLoop (getParamValue qs "id") (getParamValue qs "label") resources
    .listing listed count

/-- The lists of the Query API. -/
inductive QueryKind
  | sources
  | flows
  | senders
  | receivers

def SenderResources.querySource (sr : SenderResources) : QueryResource :=
  { id := sr.sourceId
    label := sr.sourceJson.label
    channels := sr.sourceJson.channels
    texts := sr.sourceJson.texts
    json := sr.sourceJson.json }

def SenderResources.queryFlow (sr : SenderResources) : QueryResource :=
  { id := sr.flowId
    label := sr.flowJson.label
    channels := sr.flowJson.channels
    texts := sr.flowJson.texts
    json := sr.flowJson.json }

def SenderResources.querySender (sr : SenderResources) : QueryResource :=
  { id := sr.senderId
    label := sr.senderJson.label
    texts := sr.senderJson.texts
    json := sr.senderJson.json }

/-- A receiver is written anew for every request. -/
def ReceiverResources.queryReceiver (h : NmosHost) (version : Text) (rr : ReceiverResources) : QueryResource :=
  let doc := h.buildReceiverJson version rr.sink rr.receiverId rr.active.peerId
  { id := rr.receiverId
    label := doc.label
    texts := doc.texts
    json := doc.json }

/-- The resources that a handler goes through; `version` is `make_version` for each receiver. -/
def NmosManager.queryResources (h : NmosHost) (version : UInt8 → Text) (s : NmosManager) : QueryKind → List QueryResource
  | .sources => s.senders.entries.map fun e => e.2.querySource
  | .flows => s.senders.entries.map fun e => e.2.queryFlow
  | .senders => s.senders.entries.map fun e => e.2.querySender
  | .receivers => s.receivers.entries.map fun e => e.2.queryReceiver h (version e.1)

/-! ## What is asked for -/

namespace QueryResource

/-- The resource has the id and the label that are asked for. -/
def Wanted (idF labelF : Text) (r : QueryResource) : Prop :=
  (percentDecode idF = [] ∨ r.id = percentDecode idF) ∧ (percentDecode labelF = [] ∨ r.label = percentDecode labelF)

instance (idF labelF : Text) (r : QueryResource) : Decidable (r.Wanted idF labelF) :=
  inferInstanceAs (Decidable (_ ∧ _))

/-- The words of a member with this label are in the text of the resource. -/
def Spells (r : QueryResource) (label : Text) : Prop := jsonFieldMatches r.json "label".toList label = true

/-- The words stand in the text, and not just as the label of the resource: they are those of a channel; or,
where a text of the daemon or the label itself has a quote, whatever the text has. -/
def Elsewhere (r : QueryResource) (label : Text) : Prop :=
  if '"' ∉ label ∧ ∀ t ∈ r.texts, '"' ∉ t then label ∈ r.channels else r.Spells label

instance (r : QueryResource) (label : Text) : Decidable (r.Elsewhere label) :=
  inferInstanceAs (Decidable (if '"' ∉ label ∧ ∀ t ∈ r.texts, '"' ∉ t then label ∈ r.channels
    else jsonFieldMatches r.json "label".toList label = true))

/-- What the query is to a resource.  If the id has an escape, neither what it stands for nor the
parameter itself is the id of the resource, or else the label is another one.  If it has none and is the
id, a label is that of no channel but the resource's own, and a label with an escape is that of a channel
exactly if it stands for the resource's own. -/
structure Guarded (r : QueryResource) (idF labelF : Text) : Prop where
  escapedId : hasEscape idF = true →
    (r.id = percentDecode idF → labelF ≠ [] ∧ r.label ≠ percentDecode labelF) ∧
    (r.id = idF → labelF ≠ [] ∧ r.label ≠ labelF ∧ ¬ r.Elsewhere labelF)
  label : hasEscape idF = false → (idF = [] ∨ r.id = idF) → labelF ≠ [] → hasEscape labelF = false →
    r.Elsewhere labelF → r.label = labelF
  escapedLabel : hasEscape idF = false → (idF = [] ∨ r.id = idF) → hasEscape labelF = true →
    r.label ≠ labelF ∧ (r.Elsewhere labelF ↔ r.label = percentDecode labelF)

end QueryResource

/-- The answer is the list of what is asked for, once each and with their number; RQL may be refused. -/
def QueryAnswer.Exact (qs : Text) (resources : List QueryResource) : QueryAnswer → Prop
  | .notImplemented => hasRql qs = true
  | .listing listed limit =>
    listed = resources.filter (fun r => r.Wanted (getParamValue qs "id") (getParamValue qs "label")) ∧
      limit = listed.length

/-! ## Lists -/

namespace QueryResource
variable {r : QueryResource} {idF labelF v : Text}

/-- A handler lists the resource. -/
def Listed (idF labelF : Text) (r : QueryResource) : Prop :=
  (idF = [] ∨ r.id = idF) ∧ (labelF = [] ∨ r.Spells labelF)

instance (idF labelF : Text) (r : QueryResource) : Decidable (r.Listed idF labelF) :=
  inferInstanceAs (Decidable ((_ ∨ _) ∧ (_ ∨ _ = true)))

theorem queryLoop_eq (idF labelF : Text) (rs : List QueryResource) :
    queryLoop idF labelF rs = (rs.filter (fun r => r.Listed idF labelF), (rs.filter fun r => r.Listed idF labelF).length) := by
  induction rs with
  | nil => rfl
  | cons r rs ih =>
    rw [queryLoop, ih, List.filter_cons]
    simp only
    by_cases hid : idF = [] ∨ r.id = idF
    · by_cases hlabel : labelF = [] ∨ r.Spells labelF
      · have hlisted : r.Listed idF labelF := ⟨hid, hlabel⟩
        have hid' : ¬ (idF ≠ [] ∧ r.id ≠ idF) := by tauto
        have hlabel' : ¬ (labelF ≠ [] ∧ jsonFieldMatches r.json "label".toList labelF = false) := by
          rintro ⟨hne, hfalse⟩
          have hspells := hlabel.resolve_left hne
          rw [Spells, hfalse] at hspells
          cases hspells
        rw [if_neg hid', if_neg hlabel', if_pos (decide_eq_true hlisted), List.length_cons]
      · have hlisted : ¬ r.Listed idF labelF := fun H => hlabel H.2
        have hid' : ¬ (idF ≠ [] ∧ r.id ≠ idF) := by tauto
        have hlabel' : labelF ≠ [] ∧ jsonFieldMatches r.json "label".toList labelF = false :=
          ⟨fun hnil => hlabel (.inl hnil), Bool.eq_false_of_not_eq_true fun htrue => hlabel (.inr htrue)⟩
        rw [if_neg hid', if_pos hlabel', if_neg (by simpa using hlisted)]
    · have hlisted : ¬ r.Listed idF labelF := fun H => hid H.1
      have hid' : idF ≠ [] ∧ r.id ≠ idF := by tauto
      rw [if_pos hid', if_neg (by simpa using hlisted)]

theorem percentDecode_eq_nil_iff {t : Text} : percentDecode t = [] ↔ t = [] := by
  cases t with
  | nil => simp
  | cons c t =>
    by_cases hc : c = '%'
    · subst hc
      rw [percentDecode_percent]
      split <;> simp
    · simp [percentDecode_cons_of_ne hc]

/-- A parameter with an escape does not stand for itself. -/
theorem percentDecode_ne {t : Text} (h : hasEscape t = true) : t ≠ [] ∧ percentDecode t ≠ t := by
  refine ⟨?_, fun hself => ?_⟩
  · rintro rfl
    cases h
  · rw [percentDecode_eq_self_iff, h] at hself
    cases hself

/-- The words of a label are in the text as the label of the resource or elsewhere. -/
theorem spells_iff (hown : r.Spells r.label)
    (hchannels : (∀ t ∈ r.texts, '"' ∉ t) → '"' ∉ v → (r.Spells v ↔ v = r.label ∨ v ∈ r.channels)) :
    r.Spells v ↔ r.label = v ∨ r.Elsewhere v := by
  rw [Elsewhere]
  split
  · rename_i hplain
    rw [hchannels hplain.2 hplain.1, eq_comm]
  · exact (or_iff_right_of_imp fun heq => heq ▸ hown).symm

/-- What is listed is what is wanted exactly where the query is guarded. -/
theorem guarded_iff (hspells : r.Spells labelF ↔ r.label = labelF ∨ r.Elsewhere labelF) :
    r.Guarded idF labelF ↔ (r.Listed idF labelF ↔ r.Wanted idF labelF) := by
  cases hid : hasEscape idF with
  | true =>
    obtain ⟨hne, hdecode⟩ := percentDecode_ne hid
    have hlisted : r.Listed idF labelF ↔ r.id = idF ∧ (labelF = [] ∨ r.label = labelF ∨ r.Elsewhere labelF) := by
      rw [Listed, or_iff_right hne, hspells]
    have hwanted : r.Wanted idF labelF ↔ r.id = percentDecode idF ∧ (labelF = [] ∨ r.label = percentDecode labelF) := by
      rw [Wanted, percentDecode_eq_nil_iff, percentDecode_eq_nil_iff, or_iff_right hne]
    have hnot : ¬ (r.Listed idF labelF ∧ r.Wanted idF labelF) := fun ⟨hl, hw⟩ =>
      hdecode ((hwanted.mp hw).1.symm.trans (hlisted.mp hl).1)
    constructor
    · intro G
      obtain ⟨hdecoded, hraw⟩ := G.escapedId hid
      refine iff_of_false (fun hl => ?_) fun hw => ?_
      · obtain ⟨heq, hlabel⟩ := hlisted.mp hl
        obtain ⟨hsome, hown, helse⟩ := hraw heq
        exact hlabel.elim hsome fun h => h.elim hown helse
      · obtain ⟨heq, hlabel⟩ := hwanted.mp hw
        obtain ⟨hsome, hother⟩ := hdecoded heq
        exact hlabel.elim hsome hother
    · intro hiff
      have hnone : ¬ r.Listed idF labelF := fun hl => hnot ⟨hl, hiff.mp hl⟩
      have hnone' : ¬ r.Wanted idF labelF := fun hw => hnot ⟨hiff.mpr hw, hw⟩
      simp only [hlisted, not_and, not_or] at hnone
      simp only [hwanted, not_and, not_or] at hnone'
      exact ⟨fun _ => ⟨hnone', hnone⟩, fun hplain => absurd (hid.symm.trans hplain) (by decide),
        fun hplain => absurd (hid.symm.trans hplain) (by decide)⟩
  | false =>
    have hplain : ¬ hasEscape idF = true := fun h => absurd (hid.symm.trans h) (by decide)
    have hdecode : percentDecode idF = idF := percentDecode_eq_self_iff.mpr hid
    by_cases hmatch : idF = [] ∨ r.id = idF
    · have hlisted : r.Listed idF labelF ↔ labelF = [] ∨ r.label = labelF ∨ r.Elsewhere labelF := by
        rw [Listed, and_iff_right hmatch, hspells]
      have hwanted : r.Wanted idF labelF ↔ labelF = [] ∨ r.label = percentDecode labelF := by
        rw [Wanted, hdecode, percentDecode_eq_nil_iff, and_iff_right hmatch]
      rw [hlisted, hwanted]
      cases hlabel : hasEscape labelF with
      | true =>
        obtain ⟨hsome, hother⟩ := percentDecode_ne hlabel
        rw [or_iff_right hsome, or_iff_right hsome]
        constructor
        · intro G
          obtain ⟨hown, helse⟩ := G.escapedLabel hid hmatch hlabel
          rw [or_iff_right hown, helse]
        · intro hiff
          have hown : r.label ≠ labelF := fun heq => hother ((hiff.mp (.inl heq)).symm.trans heq)
          refine ⟨fun h => absurd h hplain, fun _ _ _ h => absurd (hlabel.symm.trans h) (by decide), fun _ _ _ => ?_⟩
          exact ⟨hown, by rwa [or_iff_right hown] at hiff⟩
      | false =>
        rw [percentDecode_eq_self_iff.mpr hlabel]
        constructor
        · intro G
          refine or_congr_right' fun hsome => or_iff_left_of_imp fun helse => ?_
          exact G.label hid hmatch hsome hlabel helse
        · intro hiff
          refine ⟨fun h => absurd h hplain, fun _ _ hsome _ helse => ?_,
            fun _ _ h => absurd (hlabel.symm.trans h) (by decide)⟩
          exact (hiff.mp (.inr (.inr helse))).resolve_left hsome
    · have hlisted : ¬ r.Listed idF labelF := fun H => hmatch H.1
      have hwanted : ¬ r.Wanted idF labelF := fun H => hmatch (by simpa only [hdecode] using H.1)
      exact iff_of_true ⟨fun h => absurd h hplain, fun _ H => absurd H hmatch, fun _ H => absurd H hmatch⟩
        (iff_of_false hlisted hwanted)

end QueryResource

theorem filter_eq_filter_iff {α : Type*} (p q : α → Bool) (l : List α) : l.filter p = l.filter q ↔ ∀ a ∈ l, p a = q a := by
  refine ⟨fun heq a ha => ?_, List.filter_congr⟩
  have hmem : a ∈ l.filter p ↔ a ∈ l.filter q := by rw [heq]
  rw [List.mem_filter, List.mem_filter, and_iff_right ha, and_iff_right ha] at hmem
  exact Bool.eq_iff_iff.mpr hmem

theorem exact_queryList_iff {resources : List QueryResource}
    (hspells : ∀ r ∈ resources, ∀ v, r.Spells v ↔ r.label = v ∨ r.Elsewhere v) (qs : Text) :
    (queryList qs resources).Exact qs resources ↔
      (hasRql qs = false → ∀ r ∈ resources, r.Guarded (getParamValue qs "id") (getParamValue qs "label")) := by
  unfold queryList
  split
  · rename_i hrql
    exact iff_of_true hrql fun hfalse => absurd (hrql.symm.trans hfalse) (by decide)
  · rename_i hrql
    rw [QueryResource.queryLoop_eq]
    have hguarded : (∀ r ∈ resources, r.Guarded (getParamValue qs "id") (getParamValue qs "label")) ↔
        resources.filter (fun r => r.Listed (getParamValue qs "id") (getParamValue qs "label")) =
          resources.filter fun r => r.Wanted (getParamValue qs "id") (getParamValue qs "label") := by
      rw [filter_eq_filter_iff]
      exact forall₂_congr fun r hr => (QueryResource.guarded_iff (hspells r hr _)).trans decide_eq_decide.symm
    rw [Bool.not_eq_true] at hrql
    rw [hguarded]
    exact ⟨fun H _ => H.1, fun H => ⟨H hrql, rfl⟩⟩

namespace NmosManager
variable {h : NmosHost} {version : UInt8 → Text} {s : NmosManager} {k : QueryKind} {r : QueryResource}

/-- A resource is found by its own label, and where no text of the daemon has a quote, by no others
than its labels. -/
theorem spells_queryResources (hr : r ∈ s.queryResources h version k) : r.Spells r.label ∧
    ((∀ t ∈ r.texts, '"' ∉ t) → ∀ v, '"' ∉ v → (r.Spells v ↔ v = r.label ∨ v ∈ r.channels)) := by
  cases k with
  | sources =>
    obtain ⟨⟨id, sr⟩, -, rfl⟩ := List.mem_map.mp hr
    have hdoc := sr.sourceJson.fieldValues_members
    refine ⟨jsonFieldMatches_own sr.sourceJson.head_members, fun htexts v hv => ?_⟩
    exact (jsonFieldMatches_document (SourceDoc.tame_members htexts) hv).trans (by rw [hdoc, List.mem_cons]; rfl)
  | flows =>
    obtain ⟨⟨id, sr⟩, -, rfl⟩ := List.mem_map.mp hr
    have hdoc := sr.flowJson.fieldValues_members
    refine ⟨jsonFieldMatches_own sr.flowJson.head_members, fun htexts v hv => ?_⟩
    exact (jsonFieldMatches_document (FlowDoc.tame_members htexts) hv).trans (by rw [hdoc, List.mem_cons]; rfl)
  | senders =>
    obtain ⟨⟨id, sr⟩, -, rfl⟩ := List.mem_map.mp hr
    have hdoc := sr.senderJson.fieldValues_members
    refine ⟨jsonFieldMatches_own sr.senderJson.head_members, fun htexts v hv => ?_⟩
    exact (jsonFieldMatches_document (SenderDoc.tame_members htexts) hv).trans (by rw [hdoc, List.mem_cons]; rfl)
  | receivers =>
    obtain ⟨⟨id, rr⟩, -, rfl⟩ := List.mem_map.mp hr
    have hdoc := (h.buildReceiverJson (version id) rr.sink rr.receiverId rr.active.peerId).fieldValues_members
    refine ⟨jsonFieldMatches_own (ReceiverDoc.head_members _), fun htexts v hv => ?_⟩
    exact (jsonFieldMatches_document (ReceiverDoc.tame_members htexts) hv).trans (by rw [hdoc, List.mem_cons]; rfl)

theorem spells_iff_queryResources (hr : r ∈ s.queryResources h version k) (v : Text) :
    r.Spells v ↔ r.label = v ∨ r.Elsewhere v := by
  obtain ⟨hown, hchannels⟩ := spells_queryResources hr
  exact QueryResource.spells_iff hown fun htexts => hchannels htexts v

/-- **A list is what is asked for exactly when the query is guarded for every resource.** -/
theorem query_exact_iff (h : NmosHost) (version : UInt8 → Text) (s : NmosManager) (k : QueryKind) (qs : Text) :
    (queryList qs (s.queryResources h version k)).Exact qs (s.queryResources h version k) ↔
      (hasRql qs = false →
        ∀ r ∈ s.queryResources h version k, r.Guarded (getParamValue qs "id") (getParamValue qs "label")) :=
  exact_queryList_iff (fun _ hr v => spells_iff_queryResources hr v) qs

/-- A sender of two channels. -/
def stereoSender : SenderResources where
  sourceId := "src".toList
  sourceJson := NmosHost.buildSourceJson {} "0:0".toList { map := [0, 1] } "src".toList

/-- A source is listed for the label of a channel. -/
theorem left_not_exact : ¬ ∀ (h : NmosHost) (version : UInt8 → Text) (s : NmosManager) (k : QueryKind) (qs : Text),
    (queryList qs (s.queryResources h version k)).Exact qs (s.queryResources h version k) := by
  intro H
  obtain ⟨s, hs⟩ : ∃ s : NmosManager, s.senders = SortedMap.empty.insert 0 stereoSender := ⟨{ sm := {}, senders := _ }, rfl⟩
  have hexact := (exact_queryList_iff (fun _ hr v => spells_iff_queryResources hr v) _).mp
    (H {} (fun _ => []) s .sources "label=Left".toList)
  have hentries : (SortedMap.empty.insert 0 stereoSender : SortedMap UInt8 SenderResources).entries = [(0, stereoSender)] := rfl
  have hmem : stereoSender.querySource ∈ s.queryResources {} (fun _ => []) .sources := by
    rw [queryResources, hs, hentries]
    exact List.mem_cons_self
  have hrql : hasRql "label=Left".toList = false := by decide +kernel
  have hguard := hexact hrql _ hmem
  have helse : stereoSender.querySource.Elsewhere "Left".toList := by decide +kernel
  have hparam : getParamValue "label=Left".toList "label" = "Left".toList := by decide +kernel
  rw [hparam] at hguard
  have hlabel := hguard.label (by decide +kernel) (.inl (by decide +kernel)) (by decide +kernel) (by decide +kernel) helse
  exact absurd hlabel (by decide +kernel)

end NmosManager
end Aes67Daemon
