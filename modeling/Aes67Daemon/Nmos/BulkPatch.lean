import Aes67Daemon.Lib.JsonWriter
import Aes67Daemon.Nmos.Untimed

/-!
# Bulk requests

The bulk endpoint takes an array of ids with the parameters of a PATCH each.  The parameters are
written as JSON once more and handed to the function that a PATCH calls.  All scalars are strings
then, and parameters that are no more than a scalar are lost; but a property tree does not tell
strings from other scalars, and a PATCH finds nothing in a scalar.  The reader and the writer are
parameters: of the writer it takes that its texts say the tree again, and that it throws for a scalar.

## Main definitions

* `NmosManager.bulkHandler` — the handler of the bulk endpoints.
* `NmosManager.patches` — PATCH requests one after the other.
* `IsItem` — an item of a bulk request, and the PATCH that it stands for.
* `NmosManager.bulk_eq_patches` — a bulk request is such PATCH requests.
-/
namespace Aes67Daemon

open Text

/-! ## The handlers -/

/-- The code of an answer. -/
def ConnAnswer.code {τ : Type} : ConnAnswer τ → ℕ
  | .ok _ => 200
  | .badRequest _ => 400
  | .notFound => 404

/-- What a bulk request reports of an item. -/
structure BulkReport where
  id : Text
  code : ℕ
  err : Text := []

namespace BulkReport

/-- The text of a report. -/
def text (r : BulkReport) : Text :=
  "\x7b\"id\": \"".toList ++ r.id ++ "\", \"code\": ".toList ++ ofNat r.code ++
    (if r.err = [] then [] else ", \"error\": \"".toList ++ r.err ++ ['"']) ++ ['}']

/-- The text of the answer. -/
def bulkText (rs : List BulkReport) : Text := '[' :: ", ".toList.intercalate (rs.map text) ++ [']']

end BulkReport

/-- The world when a PATCH is staged and when it is activated, for one PATCH after the other. -/
abbrev Worlds := ℕ → NmosEnv × NmosEnv

namespace NmosManager

/-- The end of `patch_sender_staged` and `patch_receiver_staged`: an immediate activation is carried out. -/
def activated {τ : Type} (activate : NmosManager → NmosManager) :
    Except Text (Endpoint τ) × NmosManager → Except Text Unit × NmosManager
  | (.error err, s) => (.error err, s)
  | (.ok staged, s) => (.ok (), if staged.act.immediate then activate s else s)

/-- `patch_sender_staged`. -/
def stageSender (h : NmosHost) (readJson : Text → Except Text Ptree) (w : NmosEnv × NmosEnv) (id : UInt8) (body : Text)
    (s : NmosManager) : Except Text Unit × NmosManager :=
  activated (fun s => (s.applySenderActivation h w.2 id).resetStaged .source id)
    (s.patchSenderStaged w.1 id ((readJson body).map senderPatch))

/-- `patch_receiver_staged`. -/
def stageReceiver (h : NmosHost) (readJson : Text → Except Text Ptree) (w : NmosEnv × NmosEnv) (id : UInt8)
    (body : Text) (s : NmosManager) : Except Text Unit × NmosManager :=
  activated (fun s => (s.applyReceiverActivation h w.2 id).resetStaged .sink id)
    (s.patchReceiverStaged w.1 id ((readJson body).map receiverPatch))

/-- The one of the two that an endpoint calls. -/
def stage (h : NmosHost) (readJson : Text → Except Text Ptree) (k : Kind) (w : NmosEnv × NmosEnv) (id : UInt8)
    (body : Text) (s : NmosManager) : Except Text Unit × NmosManager :=
  match k with
  | .source => s.stageSender h readJson w id body
  | .sink => s.stageReceiver h readJson w id body

/-- The sender or the receiver with an id. -/
def findLocal (k : Kind) (uuid : Text) (s : NmosManager) : Option UInt8 :=
  match k with
  | .source => s.findLocalSender uuid
  | .sink => s.findLocalReceiver uuid

/-- The parameters of an item, written as JSON; an empty object when that fails. -/
def itemBody (writeJson : Ptree → Option Text) (item : Ptree) : Text :=
  ((item.at? ["params".toList]).bind writeJson).getD "\x7b\x7d".toList

/-- The body of the loop of `bulk_handler`. -/
def bulkItem (h : NmosHost) (readJson : Text → Except Text Ptree) (writeJson : Ptree → Option Text) (k : Kind) (w : NmosEnv × NmosEnv) (item : Ptree)
    (s : NmosManager) : BulkReport × NmosManager :=
  let uuid := ((item.at? ["id".toList]).map Ptree.data).getD []
  match s.findLocal k uuid with
  | none => ({ id := uuid, code := 404, err := "not found".toList }, s)
  | some id =>
    match s.stage h readJson k w id (itemBody writeJson item) with
    | (.error err, s') => ({ id := uuid, code := 400, err := err }, s')
    | (.ok (), s') => ({ id := uuid, code := 200 }, s')

/-- The loop of `bulk_handler`. -/
def bulkLoop (h : NmosHost) (readJson : Text → Except Text Ptree) (writeJson : Ptree → Option Text) (k : Kind) :
    Worlds → List (Text × Ptree) → NmosManager → List BulkReport × NmosManager
  | _, [], s => ([], s)
  | w, c :: cs, s =>
    let (r, s) := s.bulkItem h readJson writeJson k (w 0) c.2
    let (rs, s) := bulkLoop h readJson writeJson k (fun i => w (i + 1)) cs s
    (r :: rs, s)

/-- `bulk_handler`: the error of a bad request, or the text of the answer. -/
def bulkHandler (h : NmosHost) (readJson : Text → Except Text Ptree) (writeJson : Ptree → Option Text) (k : Kind) (w : Worlds) (body : Text)
    (s : NmosManager) : Except Text Text × NmosManager :=
  match readJson body with
  | .error _ => (.error "invalid JSON".toList, s)
  | .ok pt =>
    let (rs, s) := s.bulkLoop h readJson writeJson k w pt.children
    (.ok (BulkReport.bulkText rs), s)

/-- The PATCH of the staged half of a sender or a receiver: the code of the answer. -/
def patch (h : NmosHost) (readJson : Text → Except Text Ptree) (k : Kind) (w : NmosEnv × NmosEnv) (uuid body : Text)
    (s : NmosManager) : ℕ × NmosManager :=
  match k with
  | .source => ((s.patchSender h readJson w.1 w.2 uuid body).1.code, (s.patchSender h readJson w.1 w.2 uuid body).2)
  | .sink => ((s.patchReceiver h readJson w.1 w.2 uuid body).1.code, (s.patchReceiver h readJson w.1 w.2 uuid body).2)

/-- PATCH requests one after the other, with the ids in their paths and their bodies. -/
def patches (h : NmosHost) (readJson : Text → Except Text Ptree) (k : Kind) :
    Worlds → List (Text × Text) → NmosManager → List ℕ × NmosManager
  | _, [], s => ([], s)
  | w, r :: rs, s =>
    let (code, s) := s.patch h readJson k (w 0) r.1 r.2
    let (codes, s) := patches h readJson k (fun i => w (i + 1)) rs s
    (code :: codes, s)

variable {h : NmosHost} {readJson : Text → Except Text Ptree} {writeJson : Ptree → Option Text} {k : Kind} {s t : NmosManager} {w w' : NmosEnv × NmosEnv}

/-- A PATCH finds the resource and stages its body. -/
theorem patch_eq (uuid body : Text) : s.patch h readJson k w uuid body =
    match s.findLocal k uuid with
    | none => (404, s)
    | some id =>
      match s.stage h readJson k w id body with
      | (.error _, s') => (400, s')
      | (.ok (), s') => (200, s') := by
  cases k with
  | source =>
    unfold patch findLocal patchSender stage stageSender
    dsimp only
    cases s.findLocalSender uuid with
    | none => rfl
    | some id =>
      dsimp only
      rcases s.patchSenderStaged w.1 id ((readJson body).map senderPatch) with ⟨err | staged, s'⟩
      · rfl
      · rfl
  | sink =>
    unfold patch findLocal patchReceiver stage stageReceiver
    dsimp only
    cases s.findLocalReceiver uuid with
    | none => rfl
    | some id =>
      dsimp only
      rcases s.patchReceiverStaged w.1 id ((readJson body).map receiverPatch) with ⟨err | staged, s'⟩
      · rfl
      · rfl

/-! ## What a body is worth to a PATCH -/

/-- Two bodies in which a PATCH finds the same. -/
def SameFound (readJson : Text → Except Text Ptree) (body body' : Text) : Prop :=
  ∀ {π : Type} (peerKey : Text) (leg : Ptree → π),
    (readJson body).map (readPatch peerKey leg) = (readJson body').map (readPatch peerKey leg)

/-- The world is the same but for its clocks, both when a PATCH is staged and when it is activated. -/
def SameWorlds (w w' : NmosEnv × NmosEnv) : Prop := w.1.SameButClocks w'.1 ∧ w.2.SameButClocks w'.2

theorem SameButTimes.findLocal (H : s.SameButTimes t) (k : Kind) (uuid : Text) : s.findLocal k uuid = t.findLocal k uuid := by
  cases k with
  | source => exact H.findLocalSender uuid
  | sink => exact H.findLocalReceiver uuid

theorem SameButTimes.activated {τ : Type} {p q : Except Text (Endpoint τ) × NmosManager}
    (hanswer : p.1.map Endpoint.untimed = q.1.map Endpoint.untimed) (H : p.2.SameButTimes q.2)
    {f g : NmosManager → NmosManager} (hf : (f p.2).SameButTimes (g q.2)) :
    (NmosManager.activated f p).1 = (NmosManager.activated g q).1 ∧
      (NmosManager.activated f p).2.SameButTimes (NmosManager.activated g q).2 := by
  obtain ⟨err | staged, s⟩ := p
  · obtain ⟨err' | staged', t⟩ := q
    · cases hanswer
      exact ⟨rfl, H⟩
    · cases hanswer
  · obtain ⟨err' | staged', t⟩ := q
    · cases hanswer
    · have himmediate := Endpoint.immediate_untimed (Except.ok.inj hanswer)
      refine ⟨rfl, ?_⟩
      unfold NmosManager.activated
      dsimp only
      rw [himmediate]
      split
      · exact hf
      · exact H

/-- **What a PATCH stages depends neither on the clocks nor on the spelling of the body.** -/
theorem SameButTimes.stage (H : s.SameButTimes t) (hw : SameWorlds w w') {body body' : Text}
    (hbody : SameFound readJson body body') (k : Kind) (id : UInt8) :
    (s.stage h readJson k w id body).1 = (t.stage h readJson k w' id body').1 ∧
      (s.stage h readJson k w id body).2.SameButTimes (t.stage h readJson k w' id body').2 := by
  cases k with
  | source =>
    obtain ⟨hanswer, hstaged⟩ := H.patchSenderStaged w.1 w'.1 id ((readJson body).map senderPatch)
    have hfound : (readJson body').map senderPatch = (readJson body).map senderPatch := (hbody _ _).symm
    unfold NmosManager.stage stageSender
    rw [hfound]
    exact hstaged.activated hanswer ((hstaged.applySenderActivation h w.2 w'.2 id).resetStaged .source id)
  | sink =>
    obtain ⟨hanswer, hstaged⟩ := H.patchReceiverStaged w.1 w'.1 id ((readJson body).map receiverPatch)
    have hfound : (readJson body').map receiverPatch = (readJson body).map receiverPatch := (hbody _ _).symm
    unfold NmosManager.stage stageReceiver
    rw [hfound]
    exact hstaged.activated hanswer ((hstaged.applyReceiverActivation hw.2 h id).resetStaged .sink id)

/-! ## Items -/

/-- An item of a bulk request has an id and parameters, and this text has the same parameters. -/
structure IsItem (item : Ptree) (uuid params : Text) : Prop where
  id : (item.at? ["id".toList]).map Ptree.data = some uuid
  params : ∃ tree, item.at? ["params".toList] = some tree ∧ Json.read params = some tree

/-- What is found in a tree depends on its children. -/
theorem readPatch_congr {π : Type} (peerKey : Text) (leg : Ptree → π) {t t' : Ptree} (h : t.children = t'.children) :
    readPatch peerKey leg t = readPatch peerKey leg t' := by
  have hat : ∀ key path, t.at? (key :: path) = t'.at? (key :: path) := by
    intro key path
    rw [Ptree.at?, Ptree.at?, Ptree.child?, Ptree.child?, h]
  simp only [readPatch, hat]

theorem proper_at {t c : Ptree} {key : Text} (H : Json.Proper t) (h : t.at? [key] = some c) : Json.Proper c := by
  obtain ⟨c', hc', hc⟩ := Option.bind_eq_some_iff.mp h
  obtain rfl := Option.some.inj hc
  obtain ⟨⟨key', c''⟩, hfind, rfl⟩ := Option.map_eq_some_iff.mp hc'
  exact H.child (List.mem_of_find?_eq_some hfind)

/-- **The parameters of an item are worth the same to a PATCH after they have been written again.** -/
theorem IsItem.sameFound (hreader : ∀ t tree, Json.read t = some tree → readJson t = .ok tree)
    (hwriter : ∀ t, Json.Proper t → t.data = [] → ∃ text, writeJson t = some text ∧ Json.read text = some t)
    (hscalar : ∀ t, t.data ≠ [] → writeJson t = none) {item : Ptree} {uuid params : Text}
    (hitem : IsItem item uuid params) (hproper : Json.Proper item) : SameFound readJson (itemBody writeJson item) params := by
  obtain ⟨tree, hat, hread⟩ := hitem.params
  have htree := proper_at hproper hat
  intro π peerKey leg
  rw [hreader _ _ hread, itemBody, hat, Option.bind_some]
  by_cases hdata : tree.data = []
  · obtain ⟨text, hwrite, hagain⟩ := hwriter tree htree hdata
    rw [hwrite, Option.getD_some, hreader _ _ hagain]
  · have hempty : Json.read "\x7b\x7d".toList = some (.leaf []) := rfl
    have hchildren : (Ptree.leaf []).children = tree.children := by
      cases htree with
      | leaf => rfl
      | node => exact absurd rfl hdata
    rw [hscalar tree hdata, Option.getD_none, hreader _ _ hempty]
    exact congrArg Except.ok (readPatch_congr peerKey leg hchildren)

/-- An item of a bulk request and the PATCH that it stands for. -/
theorem SameButTimes.bulkItem (hreader : ∀ t tree, Json.read t = some tree → readJson t = .ok tree)
    (hwriter : ∀ t, Json.Proper t → t.data = [] → ∃ text, writeJson t = some text ∧ Json.read text = some t)
    (hscalar : ∀ t, t.data ≠ [] → writeJson t = none) (H : s.SameButTimes t) (hw : SameWorlds w w') {item : Ptree} {uuid params : Text} (hitem : IsItem item uuid params)
    (hproper : Json.Proper item) (k : Kind) :
    (s.bulkItem h readJson writeJson k w item).1.id = uuid ∧
      (s.bulkItem h readJson writeJson k w item).1.code = (t.patch h readJson k w' uuid params).1 ∧
      (s.bulkItem h readJson writeJson k w item).2.SameButTimes (t.patch h readJson k w' uuid params).2 := by
  have huuid : ((item.at? ["id".toList]).map Ptree.data).getD [] = uuid := by
    rw [hitem.id, Option.getD_some]
  unfold NmosManager.bulkItem
  dsimp only
  rw [huuid, patch_eq, H.findLocal]
  cases t.findLocal k uuid with
  | none => exact ⟨rfl, rfl, H⟩
  | some id =>
    obtain ⟨hanswer, hstaged⟩ := H.stage (h := h) hw (hitem.sameFound hreader hwriter hscalar hproper) k id
    dsimp only
    generalize s.stage h readJson k w id (itemBody writeJson item) = p at hanswer hstaged
    generalize t.stage h readJson k w' id params = q at hanswer hstaged
    obtain ⟨answer, s'⟩ := p
    obtain ⟨answer', t'⟩ := q
    obtain rfl : answer = answer' := hanswer
    cases answer with
    | error err => exact ⟨rfl, rfl, hstaged⟩
    | ok u => exact ⟨rfl, rfl, hstaged⟩

/-- The items of a bulk request and the PATCH requests that they stand for. -/
theorem SameButTimes.bulkLoop (hreader : ∀ t tree, Json.read t = some tree → readJson t = .ok tree)
    (hwriter : ∀ t, Json.Proper t → t.data = [] → ∃ text, writeJson t = some text ∧ Json.read text = some t)
    (hscalar : ∀ t, t.data ≠ [] → writeJson t = none) (k : Kind)
    {cs : List (Text × Ptree)} {reqs : List (Text × Text)} (hproper : ∀ c ∈ cs, Json.Proper c.2)
    (hitems : List.Forall₂ (fun c r => IsItem c.2 r.1 r.2) cs reqs) (H : s.SameButTimes t) {w w' : Worlds}
    (hw : ∀ i, SameWorlds (w i) (w' i)) :
    (s.bulkLoop h readJson writeJson k w cs).1.map BulkReport.id = reqs.map Prod.fst ∧
      (s.bulkLoop h readJson writeJson k w cs).1.map BulkReport.code = (t.patches h readJson k w' reqs).1 ∧
      (s.bulkLoop h readJson writeJson k w cs).2.SameButTimes (t.patches h readJson k w' reqs).2 := by
  induction hitems generalizing s t w w' with
  | nil => exact ⟨rfl, rfl, H⟩
  | @cons c r cs reqs hitem _ ih =>
    obtain ⟨hc, hcs⟩ := List.forall_mem_cons.mp hproper
    obtain ⟨hid, hcode, hstep⟩ := H.bulkItem (h := h) hreader hwriter hscalar (hw 0) hitem hc k
    obtain ⟨hids, hcodes, hrest⟩ := ih hcs hstep fun i => hw (i + 1)
    refine ⟨?_, ?_, hrest⟩
    · simp only [NmosManager.bulkLoop, List.map_cons, hid, hids]
    · simp only [NmosManager.bulkLoop, NmosManager.patches, List.map_cons, hcode, hcodes]

/-- **A bulk request does what its items do as PATCH requests in order**, and reports their codes. -/
theorem bulk_eq_patches (h : NmosHost) (readJson : Text → Except Text Ptree) (writeJson : Ptree → Option Text)
    (hreader : ∀ t tree, Json.read t = some tree → readJson t = .ok tree)
    (hwriter : ∀ t, Json.Proper t → t.data = [] → ∃ text, writeJson t = some text ∧ Json.read text = some t)
    (hscalar : ∀ t, t.data ≠ [] → writeJson t = none) (k : Kind) {w w' : Worlds}
    (hw : ∀ i, SameWorlds (w i) (w' i)) {body : Text} {tree : Ptree} (hbody : Json.read body = some tree)
    {reqs : List (Text × Text)} (hitems : List.Forall₂ (fun c r => IsItem c.2 r.1 r.2) tree.children reqs)
    (s : NmosManager) :
    ∃ reports s', s.bulkHandler h readJson writeJson k w body = (.ok (BulkReport.bulkText reports), s') ∧
      reports.map BulkReport.id = reqs.map Prod.fst ∧
      reports.map BulkReport.code = (s.patches h readJson k w' reqs).1 ∧
      s'.SameButTimes (s.patches h readJson k w' reqs).2 := by
  have hproper : ∀ c ∈ tree.children, Json.Proper c.2 := fun c hc => (Json.proper_of_read hbody).child hc
  obtain ⟨hids, hcodes, hstate⟩ := (SameButTimes.refl s).bulkLoop (h := h) hreader hwriter hscalar k hproper hitems hw
  refine ⟨_, _, ?_, hids, hcodes, hstate⟩
  rw [bulkHandler, hreader _ _ hbody]

/-- A bulk request that moves senders or receivers to another port. -/
def bulkBody (uuids : List Text) : JsonValue :=
  .array (uuids.map fun uuid => .object [("id".toList, .string uuid), ("params".toList, portBody 5006)])

theorem plain_bulkBody {uuids : List Text} (h : ∀ uuid ∈ uuids, (∀ c ∈ uuid, Json.plain c = true) ∧ Json.isUtf8 uuid = true) :
    (bulkBody uuids).Plain := by
  have hkeys : ∀ t ∈ ["id".toList, "params".toList], (∀ c ∈ t, Json.plain c = true) ∧ Json.isUtf8 t = true := by
    have hall : ∀ t ∈ ["id".toList, "params".toList], t.all Json.plain = true ∧ Json.isUtf8 t = true := by decide
    exact fun t ht => ⟨List.all_eq_true.mp (hall t ht).1, (hall t ht).2⟩
  refine .array fun v hv => ?_
  obtain ⟨uuid, huuid, rfl⟩ := List.mem_map.mp hv
  refine .object (fun m hm => hkeys m.1 ?_) fun m hm => ?_
  · simp only [List.mem_cons, List.not_mem_nil, or_false] at hm
    rcases hm with rfl | rfl <;> simp
  · simp only [List.mem_cons, List.not_mem_nil, or_false] at hm
    rcases hm with rfl | rfl
    · exact .string (h uuid huuid).1 (h uuid huuid).2
    · exact plain_portBody 5006

/-- A request that moves a sender to another port twice and asks for one that there is not in between,
now or a second later. -/
theorem bulk_eq_patches_port : ∃ (s : NmosManager) (reports : List BulkReport) (s' : NmosManager),
    s.findLocalSender "s".toList = some 1 ∧ s.findLocalSender "t".toList = none ∧
    s.bulkHandler {} readStrict Json.writeJson .source (fun _ => ({}, {}))
      (bulkBody ["s".toList, "t".toList, "s".toList]).text = (.ok (BulkReport.bulkText reports), s') ∧
    reports.map BulkReport.id = ["s".toList, "t".toList, "s".toList] ∧
    reports.map BulkReport.code = (s.patches {} readStrict .source (fun _ => ({ now := nanosPerSec }, {}))
      [("s".toList, (portBody 5006).text), ("t".toList, (portBody 5006).text), ("s".toList, (portBody 5006).text)]).1 ∧
    s'.SameButTimes (s.patches {} readStrict .source (fun _ => ({ now := nanosPerSec }, {}))
      [("s".toList, (portBody 5006).text), ("t".toList, (portBody 5006).text), ("s".toList, (portBody 5006).text)]).2 := by
  obtain ⟨s, hs, ht⟩ : ∃ s : NmosManager, s.findLocalSender "s".toList = some 1 ∧ s.findLocalSender "t".toList = none :=
    ⟨{ sm := {}, senders := SortedMap.empty.insert 1 { senderId := "s".toList } }, rfl, rfl⟩
  have hplain : (bulkBody ["s".toList, "t".toList, "s".toList]).Plain := by
    have hall : ∀ t ∈ ["s".toList, "t".toList, "s".toList], t.all Json.plain = true ∧ Json.isUtf8 t = true := by decide
    exact plain_bulkBody fun t ht => ⟨List.all_eq_true.mp (hall t ht).1, (hall t ht).2⟩
  have hreader : ∀ t tree, Json.read t = some tree → readStrict t = .ok tree := by
    intro t tree hread
    rw [readStrict, hread]
    rfl
  have hworlds : ∀ i, SameWorlds ((fun _ => ({}, {}) : Worlds) i) ((fun _ => ({ now := nanosPerSec }, {}) : Worlds) i) :=
    fun _ => ⟨⟨rfl, rfl, rfl⟩, ⟨rfl, rfl, rfl⟩⟩
  have hparams := (plain_portBody 5006).read_text
  have hitems : List.Forall₂ (fun c r => IsItem c.2 r.1 r.2) (bulkBody ["s".toList, "t".toList, "s".toList]).ptree.children
      [("s".toList, (portBody 5006).text), ("t".toList, (portBody 5006).text), ("s".toList, (portBody 5006).text)] :=
    .cons ⟨rfl, _, rfl, hparams⟩ (.cons ⟨rfl, _, rfl, hparams⟩ (.cons ⟨rfl, _, rfl, hparams⟩ .nil))
  obtain ⟨reports, s', hbulk, hids, hcodes, hstate⟩ := bulk_eq_patches {} readStrict Json.writeJson hreader
    (fun _ H hdata => Json.read_writeJson H hdata) (fun _ hdata => Json.writeJson_of_data hdata) .source hworlds
    hplain.read_text hitems s
  exact ⟨s, reports, s', hs, ht, hbulk, hids, hcodes, hstate⟩

end NmosManager
end Aes67Daemon
