import Aes67Daemon.Session.Events

/-!
# What the observers are told

The observers hear of a stream when it comes into use and when it goes out of
use.  In every step of the session manager what they are told of a stream agrees
with what becomes of it, so that the last word about a stream is always true.

## Main definitions

* `SessionManager.live` — whether a stream is in use.
* `Fate` — what becomes of a stream in one step, and what is told of it.
* `SessionManager.Keyed` — every record carries the id it is stored under.
* `occur_told` — what is told in a step.
-/
namespace Aes67Daemon

open Text

/-- Whether a notification is of a stream that comes into use, or goes out of use; `none` for
every other notification. -/
def Notification.news (k : Kind) (id : UInt8) : Notification → Option Bool
  | .addSource id' _ _ => if k = .source ∧ id = id' then some true else none
  | .removeSource id' _ => if k = .source ∧ id = id' then some false else none
  | .updateSource _ _ _ => none
  | .addSink id' _ => if k = .sink ∧ id = id' then some true else none
  | .removeSink id' _ => if k = .sink ∧ id = id' then some false else none

/-- What is told of a stream that is in use before, or after, a step. -/
inductive Fate : Bool → Bool → List Bool → Prop
  | kept (live : Bool) : Fate live live []
  | removed : Fate true false [false]
  | added : Fate false true [true]
  | replaced : Fate true true [false, true]

/-- The last word about a stream is true. -/
theorem Fate.live_eq {before after : Bool} {l : List Bool} (h : Fate before after l) :
    l = [] ∧ after = before ∨ l.getLast? = some after := by
  cases h with
  | kept => exact .inl ⟨rfl, rfl⟩
  | removed | added | replaced => exact .inr rfl

namespace SessionManager
variable {host : Host} {env : Env} {s s' : SessionManager}

/-- Whether a stream is in use. -/
def live (k : Kind) (id : UInt8) (s : SessionManager) : Bool :=
  ((s.books.table k).find? id).any k.live

/-- Every record carries the id it is stored under. -/
def Keyed (s : SessionManager) : Prop :=
  ∀ k id info, (s.books.table k).find? id = some info → info.stream.leg0.uiId.toUInt8 = id

/-- What is told of a stream by a list of notifications, newest first. -/
def newsOf (k : Kind) (id : UInt8) (ns : List Notification) : List Bool :=
  ns.reverse.filterMap (Notification.news k id)

/-- What a request tells: `ns`, newest first. -/
structure Tells (r : Request) (ret : Ret) (s s' : SessionManager) (ns : List Notification) : Prop where
  told : s'.notifications = ns ++ s.notifications
  other : ∀ k id, ¬ (k = r.kind ∧ id = r.id) → newsOf k id ns = [] ∧ s'.live k id = s.live k id
  fate : Fate (s.live r.kind r.id) (s'.live r.kind r.id) (newsOf r.kind r.id ns)
  added : true ∈ newsOf r.kind r.id ns ↔ ret = .ok ∧ s'.live r.kind r.id = true

/-- A request that is turned down tells nothing. -/
theorem tells_nothing {r : Request} {ret : Ret} (hret : ret ≠ .ok)
    (htold : s'.notifications = s.notifications) (hlive : ∀ k id, s'.live k id = s.live k id) :
    Tells r ret s s' [] where
  told := htold
  other k id _ := ⟨rfl, hlive k id⟩
  fate := by rw [hlive]; exact .kept _
  added := by simp [newsOf, hret]

theorem live_source {id : UInt8} : s.live .source id = (s.sources.find? id).any StreamInfo.enabled := rfl

theorem live_sink {id : UInt8} : s.live .sink id = (s.sinks.find? id).isSome := by
  rw [live, books_sink]
  cases s.sinks.find? id <;> rfl

/-! ## Sources -/

/-- The sources after a request that ends with storing or erasing one. -/
theorem live_setSource (id id' : UInt8) (info : StreamInfo) (k : Kind) :
    (s.setSource id info).live k id' =
      if k = .source ∧ id' = id then info.enabled else s.live k id' := by
  cases k with
  | sink => simp [live_sink, setSource]
  | source =>
      simp only [live_source, setSource, SortedMap.find?_insert, true_and]
      split <;> rfl

theorem live_eraseSource (id id' : UInt8) (k : Kind) :
    (s.eraseSource id).live k id' = if k = .source ∧ id' = id then false else s.live k id' := by
  cases k with
  | sink => simp [live_sink, eraseSource]
  | source =>
      simp only [live_source, eraseSource, SortedMap.find?_erase, true_and]
      split <;> rfl

theorem live_setSink (id id' : UInt8) (info : StreamInfo) (k : Kind) :
    (s.setSink id info).live k id' = if k = .sink ∧ id' = id then true else s.live k id' := by
  cases k with
  | source => simp [live_source, setSink]
  | sink =>
      simp only [live_sink, setSink, SortedMap.find?_insert, true_and]
      split <;> rfl

theorem live_eraseSink (id id' : UInt8) (k : Kind) :
    (s.eraseSink id).live k id' = if k = .sink ∧ id' = id then false else s.live k id' := by
  cases k with
  | source => simp [live_source, eraseSink]
  | sink =>
      simp only [live_sink, eraseSink, SortedMap.find?_erase, true_and]
      split <;> rfl

/-- A request that drops the previous stream, if it is in use, and then may add the new one. -/
theorem tells_of {r : Request} {ret : Ret} (came gone : Bool) (a b : Notification)
    (htold : s'.notifications =
      (if came then [a] else []) ++ (if gone then [b] else []) ++ s.notifications)
    (hlive : ∀ k id, s'.live k id = if k = r.kind ∧ id = r.id then came else s.live k id)
    (hgone : s.live r.kind r.id = gone) (hret : came = true → ret = .ok)
    (ha : came = true → ∀ k id, a.news k id = if k = r.kind ∧ id = r.id then some true else none)
    (hb : gone = true → ∀ k id, b.news k id = if k = r.kind ∧ id = r.id then some false else none) :
    Tells r ret s s' ((if came then [a] else []) ++ if gone then [b] else []) := by
  have hown : s'.live r.kind r.id = came := by rw [hlive, if_pos ⟨rfl, rfl⟩]
  constructor
  · exact htold
  · intro k id hne
    refine ⟨?_, by rw [hlive, if_neg hne]⟩
    cases came <;> cases gone <;> simp [newsOf, ha, hb, hne]
  · rw [hown, hgone]
    cases came <;> cases gone <;> simp [newsOf, ha, hb] <;> constructor
  · rw [hown]
    cases came <;> cases gone <;> simp [newsOf, ha, hb, hret]

theorem registerSource_told {source : StreamSource} {info : StreamInfo} {it : Option StreamInfo}
    {ret : Ret} (h : registerSource host env source info it s = some (ret, s'))
    (hit : it = none → s.sources.find? source.id = none) :
    ∃ (came : Bool) (sdp : Text),
      s'.notifications = (if came then [.addSource source.id source.name sdp] else []) ++ s.notifications ∧
      (∀ k id, s'.live k id = if k = .source ∧ id = source.id then came else s.live k id) ∧
      (came = true → ret = .ok) := by
  have hfailed : ∀ d, (∀ k id, (if it.isSome then eraseSource source.id { s with driver := d }
      else { s with driver := d }).live k id =
        if k = .source ∧ id = source.id then false else s.live k id) := by
    intro d k id
    cases it with
    | some old => exact live_eraseSource source.id id k
    | none =>
        change s.live k id = _
        by_cases hown : k = .source ∧ id = source.id
        · rw [if_pos hown, hown.1, hown.2, live_source, hit rfl]
          rfl
        · rw [if_neg hown]
  cases registerSource_cases h with
  | placed hdis =>
      refine ⟨false, [], rfl, ?_, fun h => absurd h Bool.false_ne_true⟩
      intro k id
      rw [live_setSource, hdis]
  | refused hen hfirst => exact ⟨false, [], by split <;> rfl, hfailed s.driver, fun h => absurd h Bool.false_ne_true⟩
  | undone hen hfirst hfresh hsec hsecond hit =>
      refine ⟨false, [], rfl, ?_, fun h => absurd h Bool.false_ne_true⟩
      intro k id
      exact live_eraseSource source.id id k
  | single hen hfirst hfresh hsec =>
      refine ⟨true, _, rfl, ?_, fun _ => rfl⟩
      intro k id
      exact (live_setSource source.id id _ k).trans (by simp [StreamInfo.single, hen]; rfl)
  | dual hen hfirst hfresh hsec hleg1 hsecond hfresh1 =>
      refine ⟨true, _, rfl, ?_, fun _ => rfl⟩
      intro k id
      exact (live_setSource source.id id _ k).trans (by simp [StreamInfo.dual, hen]; rfl)

theorem registerSink_told {sink : StreamSink} {info : StreamInfo} {it : Option StreamInfo} {ret : Ret}
    (h : registerSink host env sink info it s = (ret, s'))
    (hit : it = none → s.sinks.find? sink.id = none) :
    ∃ came : Bool,
      s'.notifications = (if came then [.addSink sink.id sink.name] else []) ++ s.notifications ∧
      (∀ k id, s'.live k id = if k = .sink ∧ id = sink.id then came else s.live k id) ∧
      (came = true ↔ ret = .ok) := by
  have hfailed : ∀ d, (∀ k id, (if it.isSome then eraseSink sink.id { s with driver := d }
      else { s with driver := d }).live k id =
        if k = .sink ∧ id = sink.id then false else s.live k id) := by
    intro d k id
    cases it with
    | some old => exact live_eraseSink sink.id id k
    | none =>
        change s.live k id = _
        by_cases hown : k = .sink ∧ id = sink.id
        · rw [if_pos hown, hown.1, hown.2, live_sink, hit rfl]
          rfl
        · rw [if_neg hown]
  cases registerSink_cases h with
  | refused hfirst => exact ⟨false, by split <;> rfl, hfailed s.driver, by simp⟩
  | @undone _ _ _ d => exact ⟨false, by split <;> rfl, hfailed d, by simp⟩
  | single | dual =>
      refine ⟨true, rfl, ?_, by simp⟩
      intro k id
      exact live_setSink sink.id id _ k

/-- Dropping the previous source, if it is in use. -/
theorem dropSource_told (host : Host) (env : Env) (s : SessionManager) (old : StreamInfo) :
    (s.dropSource host env old).notifications =
        (if old.enabled then [.removeSource old.stream.leg0.uiId.toUInt8 old.stream.leg0.cName] else []) ++
          s.notifications ∧
      ∀ k id, (s.dropSource host env old).live k id = s.live k id := by
  rw [dropSource]
  split
  · exact ⟨rfl, fun k _ => by cases k <;> rfl⟩
  · exact ⟨rfl, fun _ _ => rfl⟩

/-! ## Requests -/

theorem addSource_told {source : StreamSource} {ret : Ret} (hkeyed : s.Keyed)
    (h : s.addSource host env source = some (ret, s')) :
    ∃ ns, Tells (.addSource env source) ret s s' ns := by
  rw [addSource] at h
  split at h
  · obtain ⟨rfl, rfl⟩ := Prod.mk.inj (Option.some.inj h)
    exact ⟨[], tells_nothing (by simp) rfl fun _ _ => rfl⟩
  split at h
  · obtain ⟨rfl, rfl⟩ := Prod.mk.inj (Option.some.inj h)
    exact ⟨[], tells_nothing (by simp) rfl fun _ _ => rfl⟩
  · split at h
    · obtain ⟨rfl, rfl⟩ := Prod.mk.inj (Option.some.inj h)
      exact ⟨[], tells_nothing (by simp) rfl fun _ _ => rfl⟩
    · simp only at h
      split at h
      · rename_i old hold
        obtain ⟨came, sdp, htold, hlive, hret⟩ := registerSource_told h (by simp)
        obtain ⟨hdropped, hsame⟩ := dropSource_told host env
          { s with gSessionVersion := s.gSessionVersion + 1 } old
        have hgone : s.live .source source.id = old.enabled := by
          rw [live_source, show s.sources.find? source.id = some old from hold]
          rfl
        refine ⟨_, tells_of came old.enabled (.addSource source.id source.name sdp)
          (.removeSource old.stream.leg0.uiId.toUInt8 old.stream.leg0.cName) ?_ ?_ hgone hret
          (fun _ _ _ => rfl) ?_⟩
        · rw [htold, hdropped, List.append_assoc]
        · intro k id
          rw [hlive, hsame]
          cases k <;> rfl
        · intro _ k id
          rw [hkeyed .source source.id old hold]
          rfl
      · rename_i hnone
        split at h
        · obtain ⟨rfl, rfl⟩ := Prod.mk.inj (Option.some.inj h)
          exact ⟨[], tells_nothing (by simp) rfl fun k _ => by cases k <;> rfl⟩
        · obtain ⟨came, sdp, htold, hlive, hret⟩ := registerSource_told h (fun _ => hnone)
          have hgone : s.live .source source.id = false := by
            rw [live_source, show s.sources.find? source.id = none from hnone]
            rfl
          refine ⟨_, tells_of came false (.addSource source.id source.name sdp)
            (.removeSource source.id source.name) ?_ ?_ hgone hret (fun _ _ _ => rfl) (fun h => absurd h Bool.false_ne_true)⟩
          · rw [htold]
            simp
          · intro k id
            rw [hlive]
            cases k <;> rfl

theorem addSink_told {sink : StreamSink} {ret : Ret} (hkeyed : s.Keyed)
    (h : s.addSink host env sink = (ret, s')) : ∃ ns, Tells (.addSink env sink) ret s s' ns := by
  rw [addSink] at h
  split at h
  · obtain ⟨rfl, rfl⟩ := Prod.mk.inj h
    exact ⟨[], tells_nothing (by simp) rfl fun _ _ => rfl⟩
  · split at h
    · rename_i r hr
      obtain ⟨rfl, rfl⟩ := Prod.mk.inj h
      exact ⟨[], tells_nothing (fun hok => preparedSink_ne_ok (hok ▸ hr)) rfl fun _ _ => rfl⟩
    · split at h
      · rename_i old hold
        obtain ⟨came, htold, hlive, hret⟩ := registerSink_told h (by simp)
        have hgone : s.live .sink sink.id = true := by
          rw [live_sink, hold]
          rfl
        refine ⟨_, tells_of came true (.addSink sink.id sink.name)
          (.removeSink old.stream.leg0.uiId.toUInt8 old.stream.leg0.cName) ?_ ?_ hgone hret.mp
          (fun _ _ _ => rfl) ?_⟩
        · rw [htold, List.append_assoc]
          rfl
        · intro k id
          rw [hlive]
          cases k <;> rfl
        · intro _ k id
          rw [hkeyed .sink sink.id old hold]
          rfl
      · rename_i hnone
        split at h
        · obtain ⟨rfl, rfl⟩ := Prod.mk.inj h
          exact ⟨[], tells_nothing (by simp) rfl fun _ _ => rfl⟩
        · obtain ⟨came, htold, hlive, hret⟩ := registerSink_told h (fun _ => hnone)
          have hgone : s.live .sink sink.id = false := by
            rw [live_sink, hnone]
            rfl
          refine ⟨_, tells_of came false (.addSink sink.id sink.name) (.removeSink sink.id sink.name) ?_ hlive
            hgone hret.mp (fun _ _ _ => rfl) (fun h => absurd h Bool.false_ne_true)⟩
          rw [htold]
          simp

/-- A sink in use is dropped when a prepared one comes in its place, and the observers are told. -/
theorem addSink_drops {sink : StreamSink} (hkeyed : s.Keyed)
    (hprep : (Request.addSink env sink).prepared host s ≠ none) (hlive : s.live .sink sink.id = true) :
    ∃ ns, (s.addSink host env sink).2.notifications = ns ++ s.notifications ∧ newsOf .sink sink.id ns ≠ [] := by
  obtain ⟨info, hinfo⟩ := Option.ne_none_iff_exists'.mp hprep
  obtain ⟨env', sink', heq, hid, hok⟩ := (prepared_cases hinfo).resolve_left (by simp)
  obtain ⟨rfl, rfl⟩ := Request.addSink.inj heq
  obtain ⟨old, hold⟩ := Option.isSome_iff_exists.mp (live_sink ▸ hlive)
  cases hadd : s.addSink host env sink with
  | mk ret s' =>
      obtain ⟨ns, htells⟩ := addSink_told hkeyed hadd
      refine ⟨ns, htells.told, fun hnil => ?_⟩
      have hnews : newsOf (Request.addSink env sink).kind (Request.addSink env sink).id ns = [] := hnil
      rw [addSink, if_neg (by omega), hok] at hadd
      simp only [hold] at hadd
      obtain ⟨came, -, hcame, hret⟩ := registerSink_told hadd (by simp)
      -- nothing is told, so the sink is still in use, and then it was added
      have hstill : s'.live .sink sink.id = true := by
        rcases htells.fate.live_eq with ⟨-, hsame⟩ | hlast
        · exact hsame.trans hlive
        · rw [hnews] at hlast
          cases hlast
      have hok : ret = .ok := by
        rw [hcame, if_pos ⟨rfl, rfl⟩] at hstill
        exact hret.mp hstill
      have hadded := htells.added.mpr ⟨hok, hstill⟩
      rw [hnews] at hadded
      cases hadded

theorem removeSource_told {id : UInt32} {ret : Ret} (hkeyed : s.Keyed)
    (h : s.removeSource host env id = (ret, s')) : ∃ ns, Tells (.removeSource env id) ret s s' ns := by
  rw [removeSource] at h
  split at h
  · obtain ⟨rfl, rfl⟩ := Prod.mk.inj h
    exact ⟨[], tells_nothing (by simp) rfl fun _ _ => rfl⟩
  · split at h
    · obtain ⟨rfl, rfl⟩ := Prod.mk.inj h
      exact ⟨[], tells_nothing (by simp) rfl fun _ _ => rfl⟩
    · rename_i old hold
      have hgone : s.live .source id.toUInt8 = old.enabled := by
        rw [live_source, hold]
        rfl
      split at h
      · rename_i hen
        split at h
        · obtain ⟨rfl, rfl⟩ := Prod.mk.inj h
          exact ⟨[], tells_nothing (by simp) rfl fun k _ => by cases k <;> rfl⟩
        · obtain ⟨rfl, rfl⟩ := Prod.mk.inj h
          refine ⟨_, tells_of false true (.addSource id.toUInt8 [] [])
            (.removeSource old.stream.leg0.uiId.toUInt8 old.stream.leg0.cName) rfl ?_ (hgone.trans hen)
            (fun h => absurd h Bool.false_ne_true) (fun h => absurd h Bool.false_ne_true) ?_⟩
          · intro k id'
            refine (live_eraseSource id.toUInt8 id' k).trans ?_
            cases k <;> rfl
          · intro _ k id'
            rw [hkeyed .source id.toUInt8 old hold]
            rfl
      · rename_i hdis
        obtain ⟨rfl, rfl⟩ := Prod.mk.inj h
        refine ⟨_, tells_of false false (.addSource id.toUInt8 [] []) (.removeSource id.toUInt8 []) rfl ?_
          (hgone.trans (Bool.eq_false_iff.mpr hdis)) (fun h => absurd h Bool.false_ne_true) (fun h => absurd h Bool.false_ne_true)
          (fun h => absurd h Bool.false_ne_true)⟩
        intro k id'
        exact live_eraseSource id.toUInt8 id' k

theorem removeSink_told {id : UInt32} {ret : Ret} (hkeyed : s.Keyed)
    (h : s.removeSink host env id = (ret, s')) : ∃ ns, Tells (.removeSink env id) ret s s' ns := by
  rw [removeSink] at h
  split at h
  · obtain ⟨rfl, rfl⟩ := Prod.mk.inj h
    exact ⟨[], tells_nothing (by simp) rfl fun _ _ => rfl⟩
  · split at h
    · obtain ⟨rfl, rfl⟩ := Prod.mk.inj h
      exact ⟨[], tells_nothing (by simp) rfl fun _ _ => rfl⟩
    · rename_i old hold
      have hgone : s.live .sink id.toUInt8 = true := by
        rw [live_sink, hold]
        rfl
      split at h
      · obtain ⟨rfl, rfl⟩ := Prod.mk.inj h
        exact ⟨[], tells_nothing (by simp) rfl fun k _ => by cases k <;> rfl⟩
      · obtain ⟨rfl, rfl⟩ := Prod.mk.inj h
        refine ⟨_, tells_of false true (.addSink id.toUInt8 [])
          (.removeSink old.stream.leg0.uiId.toUInt8 old.stream.leg0.cName) rfl ?_ hgone
          (fun h => absurd h Bool.false_ne_true) (fun h => absurd h Bool.false_ne_true) ?_⟩
        · intro k id'
          refine (live_eraseSink id.toUInt8 id' k).trans ?_
          cases k <;> rfl
        · intro _ k id'
          rw [hkeyed .sink id.toUInt8 old hold]
          rfl

/-- A sink that was removed is not in use. -/
theorem live_removeSink_ok {id : UInt32} (h : s.removeSink host env id = (.ok, s')) :
    s'.live .sink id.toUInt8 = false := by
  rw [removeSink] at h
  split at h
  · cases h
  · split at h
    · cases h
    · split at h
      · cases h
      · obtain ⟨-, rfl⟩ := Prod.mk.inj h
        exact (live_eraseSink id.toUInt8 id.toUInt8 .sink).trans (if_pos ⟨rfl, rfl⟩)

/-- **What a request tells.** -/
theorem serve_told {r : Request} {ret : Ret} (hkeyed : s.Keyed) (h : s.serve host r = some (ret, s')) :
    ∃ ns, Tells r ret s s' ns := by
  cases r with
  | addSource env source => exact addSource_told hkeyed h
  | removeSource env id => exact removeSource_told hkeyed (Option.some.inj h)
  | addSink env sink => exact addSink_told hkeyed (Option.some.inj h)
  | removeSink env id => exact removeSink_told hkeyed (Option.some.inj h)

/-! ## Events -/

theorem newsOf_nil {k : Kind} {id : UInt8} {ns : List Notification} (h : ∀ n ∈ ns, n.news k id = none) :
    newsOf k id ns = [] :=
  List.filterMap_eq_nil_iff.mpr fun n hn => h n (List.mem_reverse.mp hn)

/-- A new version of a source is no news of it. -/
theorem ptpTick_told (host : Host) (env : Env) (report : Option TPTPStatus) (s : SessionManager) :
    ∃ ns, (s.ptpTick host env report).notifications = ns ++ s.notifications ∧
      ∀ k id, newsOf k id ns = [] ∧ (s.ptpTick host env report).live k id = s.live k id := by
  cases report with
  | none => exact ⟨[], rfl, fun k id => ⟨rfl, rfl⟩⟩
  | some r =>
      rw [ptpTick]
      simp only
      split
      · refine ⟨_, rfl, fun k id => ⟨newsOf_nil fun n hn => ?_, ?_⟩⟩
        · obtain ⟨e, -, hn⟩ := List.mem_flatMap.mp (List.mem_reverse.mp hn)
          obtain ⟨i, -, rfl⟩ := List.mem_map.mp hn
          rfl
        · cases k with
          | sink => rfl
          | source =>
              simp only [live_source, onUpdateSources, SortedMap.find?_mapVal]
              cases s.sources.find? id <;> rfl
      · exact ⟨[], rfl, fun k id => ⟨rfl, by cases k <;> rfl⟩⟩

/-- Only requests bring news of a stream. -/
theorem occur_cases {ev : Event} (hkeyed : s.Keyed) (h : s.occur host ev = some s') :
    (∃ r ret ns, ev = .request r ∧ s.serve host r = some (ret, s') ∧ Tells r ret s s' ns) ∨
      (∀ r, ev ≠ .request r) ∧ ∃ ns, s'.notifications = ns ++ s.notifications ∧
        ∀ k id, newsOf k id ns = [] ∧ s'.live k id = s.live k id := by
  cases ev with
  | request r =>
      obtain ⟨⟨ret, t⟩, hserve, rfl⟩ := Option.map_eq_some_iff.mp h
      obtain ⟨ns, H⟩ := serve_told hkeyed hserve
      exact .inl ⟨r, ret, ns, rfl, hserve, H⟩
  | setPtpConfig reply config =>
      obtain rfl := Option.some.inj h
      refine .inr ⟨by simp, [], ?_, fun k id => ⟨rfl, ?_⟩⟩
      · cases reply <;> rfl
      · cases reply <;> cases k <;> rfl
  | setSampleRate rate =>
      obtain rfl := Option.some.inj h
      exact .inr ⟨by simp, [], rfl, fun k id => ⟨rfl, by cases k <;> rfl⟩⟩
  | ptpTick env report =>
      obtain rfl := Option.some.inj h
      exact .inr ⟨by simp, ptpTick_told host env report s⟩

/-- **What is told in a step of the session manager** is what becomes of the streams. -/
theorem occur_told {ev : Event} (hkeyed : s.Keyed) (h : s.occur host ev = some s') :
    ∃ ns, s'.notifications = ns ++ s.notifications ∧
      ∀ k id, Fate (s.live k id) (s'.live k id) (newsOf k id ns) := by
  rcases occur_cases hkeyed h with ⟨r, ret, ns, -, -, H⟩ | ⟨-, ns, htold, hsame⟩
  · refine ⟨ns, H.told, fun k id => ?_⟩
    by_cases hown : k = r.kind ∧ id = r.id
    · rw [hown.1, hown.2]
      exact H.fate
    · obtain ⟨hnews, hlive⟩ := H.other k id hown
      rw [hnews, hlive]
      exact .kept _
  · refine ⟨ns, htold, fun k id => ?_⟩
    rw [(hsame k id).1, (hsame k id).2]
    exact .kept _

theorem keyed_occur {ev : Event} (hkeyed : s.Keyed) (h : s.occur host ev = some s') : s'.Keyed := by
  intro k id info' hf
  rcases find?_of_occur h hf with hold | ⟨env, report, info, -, -, rfl, hinfo, rfl⟩ |
    ⟨r, info, -, rfl, rfl, hprep, hstored⟩
  · exact hkeyed k id info' hold
  · exact hkeyed .source id info hinfo
  · have hid : info.stream.leg0.uiId.toUInt8 = r.id := congrArg Slot.id (prepared_slot hprep)
    cases hstored with
    | placed | single | dual => exact hid

theorem keyed_start (now : ℕ) : (start host env now).Keyed := by
  intro k id info hf
  cases k <;> cases hf

theorem keyed_run {before : List Event} {env : Env} {now : ℕ}
    (hrun : run (SessionManager.occur host) (start host env now) before = some s) : s.Keyed :=
  run_keeps (P := fun _ _ => True) (fun _ _ _ hkeyed _ hs => keyed_occur hkeyed hs) (keyed_start now)
    (along_of_forall fun _ _ => trivial) hrun

end SessionManager
end Aes67Daemon
