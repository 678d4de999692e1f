import Aes67Daemon.Session.StatusFile

/-!
# Streams after a restart

The streams that are saved were taken from requests of the REST API and read back, so their
texts have no undesired characters, except for a description that was fetched, and adding them
again as they are comes to the same streams.  What can go wrong is what is checked again with
another outcome: the grandmaster in a description, the name, the interface of a secondary leg,
and the characters of a description.

## Main definitions

* `Event.Accepted` — the streams of a request are ones that the REST API takes.
* `Restorable` — what it takes that all streams come back.
* `restart_preserves_iff` — they do exactly then.
-/
namespace Aes67Daemon

open Text

/-! ## Texts of accepted streams -/

theorem all_isDesired_cStr {t : Text} (h : t.all isDesired = true) (size : ℕ) : (cStr size t).all isDesired = true := by
  rw [List.all_eq_true] at h ⊢
  exact fun c hc => h c ((List.takeWhile_sublist _).subset ((List.take_sublist _ _).subset hc))

theorem all_isDesired_toText (a : UInt32) : (Address.toText a).all isDesired = true := by
  rw [List.all_eq_true]
  intro c hc
  by_contra hno
  have hdigit : c.isDigit = false := by
    rw [Bool.eq_false_iff]
    intro hdigit
    exact hno (by simp [isDesired, Char.isAlphanum, hdigit])
  have hdot : c ≠ '.' := by
    rintro rfl
    exact hno (by decide)
  exact Address.not_mem_toText hdigit hdot a hc

namespace Ptree

theorem all_isDesired_of_get? {v : Ptree} {key : String} {t : Text} (h : v.get? getDesired? key = some t) :
    t.all isDesired = true := by
  obtain ⟨c, -, hc⟩ := Option.bind_eq_some_iff.mp h
  obtain rfl := Option.some.inj hc
  exact (removeUndesiredChars c.data).2

theorem all_isDesired_getD (v : Ptree) (key : String) : (v.getD getDesired? key []).all isDesired = true := by
  rw [getD]
  cases h : v.get? getDesired? key with
  | none => rfl
  | some t => exact all_isDesired_of_get? h

end Ptree

/-- **A source that is taken from a request** has no undesired characters. -/
theorem desired_of_jsonToSource {readJson : Text → Option Ptree} {id js : Text} {source : StreamSource}
    (h : jsonToSource readJson id js = some source) : source.Desired := by
  obtain ⟨v, -, h⟩ := Option.bind_eq_some_iff.mp h
  obtain ⟨_, -, h⟩ := Option.bind_eq_some_iff.mp h
  simp only [Option.bind_eq_bind, Option.bind_eq_some_iff] at h
  obtain ⟨_, -, _, hname, _, hio, _, -, _, -, _, hcodec, _, haddress, _, -, _, -, _, -, _, -, h⟩ := h
  obtain rfl := Option.some.inj h
  exact ⟨Ptree.all_isDesired_of_get? hname, Ptree.all_isDesired_of_get? hio, Ptree.all_isDesired_of_get? hcodec,
    Ptree.all_isDesired_of_get? haddress, Ptree.all_isDesired_getD v _⟩

/-- **A sink that is taken from a request** has no undesired characters. -/
theorem desired_of_jsonToSink {readJson : Text → Option Ptree} {id js : Text} {sink : StreamSink}
    (h : jsonToSink readJson id js = some sink) : sink.Desired := by
  obtain ⟨v, -, h⟩ := Option.bind_eq_some_iff.mp h
  obtain ⟨_, -, h⟩ := Option.bind_eq_some_iff.mp h
  simp only [Option.bind_eq_bind, Option.bind_eq_some_iff] at h
  obtain ⟨_, hname, _, hio, _, hsource, _, -, _, hsdp, _, -, _, -, _, -, h⟩ := h
  obtain rfl := Option.some.inj h
  exact ⟨Ptree.all_isDesired_of_get? hname, Ptree.all_isDesired_of_get? hio, Ptree.all_isDesired_of_get? hsource,
    Ptree.all_isDesired_of_get? hsdp⟩

/-- The stream of a request is one that the REST API takes. -/
def Event.Accepted (host : Host) : Event → Prop
  | .request (.addSource _ source) => ∃ id js, jsonToSource host.readJson id js = some source
  | .request (.addSink _ sink) => ∃ id js, jsonToSink host.readJson id js = some sink
  | _ => True

/-! ## Saved streams -/

section
variable {host : Host} {env : Env} {ptp : Ptp} {answers : SessionManager.Answers}

/-- What is known of a source that is saved. -/
structure StreamSource.Saved (host : Host) (s : StreamSource) : Prop where
  id : s.id.toNat ≤ streamIdMax
  fits : s.map.length ≤ host.routingSize
  desired : s.Desired
  back : ∃ env s₀, s = StreamSource.readBack host env s₀

/-- What is known of a sink that is saved. -/
structure StreamSink.Saved (host : Host) (s : StreamSink) : Prop where
  id : s.id.toNat ≤ streamIdMax
  name : s.name.all isDesired = true
  io : s.io.all isDesired = true
  source : s.source.all isDesired = true
  settled : ∃ ptp, s.Settled host ptp

/-- **A saved source comes back** unless it has a secondary leg and the interface has no address. -/
theorem StreamSource.Saved.readBack_iff {s : StreamSource} (H : s.Saved host) :
    s.readBack host env = s ↔ (s.useSecondary = true → (env.secondaryIp host).isSome = true) := by
  obtain ⟨env₀, s₀, rfl⟩ := H.back
  rw [StreamSource.readBack_readBack_iff]
  exact imp_congr_left decide_eq_true_iff.symm

/-- **A settled sink** is settled under another PTP state if its reference clocks name the present one. -/
theorem StreamSink.Settled.again_iff {s : StreamSink} {ptp' : Ptp} (H : s.Settled host ptp) : s.Settled host ptp' ↔
    (s.ignoreRefclkGmid = false → ∀ v ∈ refclks s.sdp, NamesClock ptp' v) := by
  obtain ⟨parsed, hparsed⟩ := H.accepted
  have hagain : (∃ parsed, parseSdp host ptp' s.sdp (SessionManager.sinkInfo host s) = .ok parsed) ↔
      (s.ignoreRefclkGmid = false → ∀ v ∈ refclks s.sdp, NamesClock ptp' v) := parseSdp_again_iff rfl hparsed
  exact ⟨fun h => hagain.mp h.accepted, fun h => { readBack := H.readBack, fits := H.fits, accepted := hagain.mpr h }⟩

/-- A sink that comes back as it is is described and settled. -/
theorem StreamSink.Saved.settled_iff {s : StreamSink} (H : s.Saved host) :
    (SessionManager.sinkRules host ptp answers).fit s = true ∧ SessionManager.loadedSink host answers s = s ↔
      s.Settled host ptp := by
  obtain ⟨ptp₀, H₀⟩ := H.settled
  have huse : s.useSdp = true := by
    rw [← H₀.readBack]
    rfl
  have htext : SessionManager.sinkSdpText host (answers .sink s.id) s = .ok s.sdp := if_pos huse
  have hback : SessionManager.loadedSink host answers s = s := by
    rw [SessionManager.loadedSink, htext]
    exact H₀.readBack
  rw [and_iff_left hback]
  show (decide (s.id.toNat ≤ streamIdMax) &&
    (SessionManager.preparedSink host (answers .sink s.id) ptp s).toOption.isSome) = true ↔ _
  rw [decide_eq_true H.id, Bool.true_and, Option.isSome_iff_exists]
  constructor
  · rintro ⟨info, hinfo⟩
    obtain ⟨-, sdp, parsed, hsdp, hparsed, -⟩ := SessionManager.preparedSink_eq_ok (Parsed.toOption_eq_some.mp hinfo)
    obtain rfl := Except.ok.inj (htext.symm.trans hsdp)
    exact { readBack := H₀.readBack, fits := H₀.fits, accepted := ⟨parsed, hparsed⟩ }
  · intro hsettled
    obtain ⟨info, hinfo⟩ := hsettled.preparedSink (answers .sink s.id)
    exact ⟨info, Parsed.toOption_eq_some.mpr hinfo⟩

end

namespace SessionManager
variable {host : Host} {s : SessionManager} {env : Env} {now : ℕ} {events : List Event}

/-- **The sources of a run** with accepted requests. -/
theorem saved_getSources (hrun : run (occur host) (start host env now) events = some s) (haccepted : ∀ e ∈ events, e.Accepted host) :
    ∀ source ∈ s.getSources, source.Saved host := by
  intro source hsource
  obtain ⟨⟨id, info⟩, he, rfl⟩ := List.mem_map.mp hsource
  obtain ⟨σ, r, prep, stored, hP, hk, rfl, hprep, hstored, v, rfl⟩ :=
    exists_added (along_of_forall haccepted) hrun (k := .source) (SortedMap.mem_entries.mp he)
  rcases prepared_cases hprep with ⟨env', source, stream, rfl, ⟨hid, hmap⟩, -⟩ | ⟨env', sink, rfl, -⟩
  · obtain ⟨t, js, hjs⟩ := hP
    have hdesired := desired_of_jsonToSource hjs
    have hread := getSource_stored hprep hstored
    show (getSource_ source.id stored).Saved host
    rw [hread]
    have hfits : (source.readBack host env').map.length ≤ host.routingSize := by
      show (source.map.take _).length ≤ host.routingSize
      rw [List.length_take]
      omega
    refine ⟨hid, hfits, ⟨all_isDesired_cStr hdesired.name _, hdesired.io, all_isDesired_cStr hdesired.codec _,
      all_isDesired_toText _, ?_⟩, env', source, rfl⟩
    show (if source.dualLeg host env' then Address.toText (sourceDestIPSec host source) else []).all isDesired = true
    split
    · exact all_isDesired_toText _
    · rfl
  · cases hk

/-- **The sinks of a run** with accepted requests. -/
theorem saved_getSinks (hrun : run (occur host) (start host env now) events = some s) (haccepted : ∀ e ∈ events, e.Accepted host) :
    ∀ sink ∈ s.getSinks, sink.Saved host := by
  intro sink hsink
  obtain ⟨⟨id, info⟩, he, rfl⟩ := List.mem_map.mp hsink
  obtain ⟨σ, r, prep, stored, hP, hk, rfl, hprep, hstored, v, rfl⟩ :=
    exists_added (along_of_forall haccepted) hrun (k := .sink) (SortedMap.mem_entries.mp he)
  rcases prepared_cases hprep with ⟨env', source, stream, rfl, -⟩ | ⟨env', sink, rfl, hid, hp⟩
  · cases hk
  · obtain ⟨t, js, hjs⟩ := hP
    have hdesired := desired_of_jsonToSink hjs
    obtain ⟨sdp, parsed, -, hparsed, hread⟩ := getSink_stored hprep hstored
    show (getSink_ sink.id stored).Saved host
    rw [hread]
    exact ⟨hid, all_isDesired_cStr hdesired.name _, hdesired.io, hdesired.source, σ.ptp, 
      StreamSink.settled_readBack (preparedSink_eq_ok hp).1 hparsed⟩

/-! ## When all streams come back -/

/-- All streams come back: a secondary leg still finds its interface, no source has the name of one
in use with a smaller id and no two sinks have the same name, and the description of a sink has no
undesired characters and names the present clock unless the sink ignores it. -/
structure Restorable (host : Host) (answers : Answers) (ptp : Ptp) (sources : List StreamSource) (sinks : List StreamSink) :
    Prop where
  secondary : ∀ source ∈ sources, source.useSecondary = true → ((answers .source source.id).secondaryIp host).isSome = true
  sourceNames : sources.Pairwise fun a b => a.enabled = true → a.name ≠ b.name
  desired : ∀ sink ∈ sinks, sink.sdp.all isDesired = true
  clocks : ∀ sink ∈ sinks, sink.ignoreRefclkGmid = false → ∀ v ∈ refclks sink.sdp, NamesClock ptp v
  sinkNames : sinks.Pairwise fun a b => a.name ≠ b.name

theorem sources_come_back_iff {answers : Answers} {sources : List StreamSource} (H : ∀ source ∈ sources, source.Saved host) :
    ((sourceRules host).admitted [] sources).map (loadedSource host answers) = sources ↔
      (∀ source ∈ sources, source.useSecondary = true → ((answers .source source.id).secondaryIp host).isSome = true) ∧
        sources.Pairwise fun a b => a.enabled = true → a.name ≠ b.name := by
  rw [Admission.map_admitted_eq_iff]
  refine and_congr_left' (forall₂_congr fun source hsource => ?_)
  have hfit : (sourceRules host).fit source = true := decide_eq_true ⟨(H source hsource).id, (H source hsource).fits⟩
  rw [and_iff_right hfit]
  exact (H source hsource).readBack_iff

/-- A sink is written without its undesired characters, and read back as it was only if it has none. -/
theorem sink_comes_back_iff {answers : Answers} {ptp : Ptp} {sink : StreamSink} (H : sink.Saved host) :
    ((sinkRules host ptp answers).comap StreamSink.desired).fit sink = true ∧ loadedSink host answers sink.desired = sink ↔
      sink.sdp.all isDesired = true ∧ (sink.ignoreRefclkGmid = false → ∀ v ∈ refclks sink.sdp, NamesClock ptp v) := by
  obtain ⟨ptp₀, H₀⟩ := H.settled
  have huse : sink.desired.useSdp = true := by
    show sink.useSdp = true
    rw [← H₀.readBack]
    rfl
  have hdesired : loadedSink host answers sink.desired = sink → sink.sdp.all isDesired = true := by
    intro h
    have hsdp : (loadedSink host answers sink.desired).sdp = (removeUndesiredChars sink.sdp).1 := by
      show (sinkSdpText host (answers .sink sink.id) sink.desired).toOption.getD [] = _
      rw [sinkSdpText, if_pos huse]
      rfl
    rw [h] at hsdp
    rw [hsdp]
    exact (removeUndesiredChars sink.sdp).2
  have hagain : sink.sdp.all isDesired = true →
      (((sinkRules host ptp answers).comap StreamSink.desired).fit sink = true ∧ loadedSink host answers sink.desired = sink ↔
        (sink.ignoreRefclkGmid = false → ∀ v ∈ refclks sink.sdp, NamesClock ptp v)) := by
    intro hsdp
    have heq : sink.desired = sink := StreamSink.Desired.desired_eq ⟨H.name, H.io, H.source, hsdp⟩
    show (sinkRules host ptp answers).fit sink.desired = true ∧ _ ↔ _
    rw [heq, H.settled_iff, H₀.again_iff]
  exact ⟨fun h => ⟨hdesired h.2, (hagain (hdesired h.2)).mp h⟩, fun h => (hagain h.1).mpr h.2⟩

theorem sinks_come_back_iff {answers : Answers} {ptp : Ptp} {sinks : List StreamSink} (H : ∀ sink ∈ sinks, sink.Saved host) :
    ((sinkRules host ptp answers).admitted [] (sinks.map StreamSink.desired)).map (loadedSink host answers) = sinks ↔
      ((∀ sink ∈ sinks, sink.sdp.all isDesired = true) ∧
        ∀ sink ∈ sinks, sink.ignoreRefclkGmid = false → ∀ v ∈ refclks sink.sdp, NamesClock ptp v) ∧
        sinks.Pairwise fun a b => a.name ≠ b.name := by
  have hname : ∀ sink ∈ sinks, sink.desired.name = sink.name := fun sink hsink =>
    congrArg Subtype.val (removeUndesiredChars_clean ⟨sink.name, (H sink hsink).name⟩)
  rw [Admission.admitted_map, List.map_map, Admission.map_admitted_eq_iff, ← forall₂_and]
  refine and_congr (forall₂_congr fun sink hsink => sink_comes_back_iff (H sink hsink)) ?_
  refine List.Pairwise.iff_of_mem fun {a b} ha hb => ?_
  show (true = true → a.desired.name ≠ b.desired.name) ↔ _
  rw [hname a ha, hname b hb, imp_iff_right rfl]

/-- **A restart preserves the streams** exactly when they are restorable. -/
theorem restart_preserves_iff (hreader : ∀ t tree, Json.readRaw t = some tree → host.readJson t = some tree)
    (hrun : run (occur host) (start host env now) events = some s)
    (haccepted : ∀ e ∈ events, e.Accepted host) {n : SessionManager} (hempty : n.Empty) {answers : Answers}
    (hsmooth : ∀ sources sinks, jsonToStreams host.readJson s.saveStatus = some (sources, sinks) →
      Along (step host) Smooth n (loadRequests answers sources sinks)) :
    ∃ n', n.loadStatus host answers s.saveStatus = some (true, n') ∧
      (n'.getSources = s.getSources ∧ n'.getSinks = s.getSinks ↔
        Restorable host answers n.ptp s.getSources s.getSinks) := by
  have hsources := saved_getSources hrun haccepted
  have hsinks := saved_getSinks hrun haccepted
  have hread : jsonToStreams host.readJson s.saveStatus = some (s.getSources, s.getSinks.map StreamSink.desired) := by
    rw [saveStatus, jsonToStreams_desired hreader, List.map_congr_left fun source h => (hsources source h).desired.desired_eq, List.map_id']
  have hsorted : s.getSources.Pairwise fun a b => a.id < b.id := List.pairwise_map.mpr s.sources.sorted
  have hsorted' : (s.getSinks.map StreamSink.desired).Pairwise fun a b => a.id < b.id :=
    List.pairwise_map.mpr (List.pairwise_map.mpr s.sinks.sorted)
  obtain ⟨n', hload, hshown, hshown'⟩ := exists_loadStatus hread hsorted hsorted' hempty (hsmooth _ _ hread)
  refine ⟨n', hload, ?_⟩
  rw [hshown, hshown', sources_come_back_iff hsources, sinks_come_back_iff hsinks]
  exact ⟨fun ⟨⟨h1, h2⟩, ⟨h3, h4⟩, h5⟩ => ⟨h1, h2, h3, h4, h5⟩, fun h => ⟨⟨h.1, h.2⟩, ⟨h.3, h.4⟩, h.5⟩⟩

/-- The description of a stream that follows the grandmaster 1. -/
def clockedSdp : Text := unlines [
  "v=0".toList, "o=- 1 1 IN IP4 10.0.0.9".toList, "s=a".toList, "t=0 0".toList,
  "m=audio 5004 RTP/AVP 98".toList, "c=IN IP4 239.1.1.1/15".toList, "a=rtpmap:98 L16/48000/2".toList,
  "a=ts-refclk:ptp=IEEE1588-2008:01-00-00-00-00-00-00-00:0".toList ]

/-- A tick of the worker that finds the grandmaster 1. -/
def lockedTick : Event := .ptpTick {} (some { ui64GMID := 1, nPTPLockStatus := .locked })

/-- Every MAC address is found, and the driver has two handles for each kind of stream. -/
def plainAnswers : Answers := fun k _ =>
  { Env.answering none (if k = .source then .ok 7 else .ok 9) (if k = .source then .ok 8 else .ok 10) with
    arpCache := fun _ _ => some [2, 0, 0, 0, 0, 1] }

theorem smooth_plainAnswers {k : Kind} {r : Request} (henv : r.env = plainAnswers k r.id)
    (hfresh : s.driver.fresh (if k = .source then 7 else 9) ∧ s.driver.fresh (if k = .source then 8 else 10)) : s.Smooth r where
  mac ip := by
    rw [henv]
    rfl
  driver := by
    refine ⟨_, _, ?_, ?_, hfresh.1, hfresh.2, by cases k <;> decide⟩
    · rw [henv]
      cases k <;> rfl
    · rw [henv]
      cases k <;> rfl

theorem empty_start (host : Host) (env : Env) (now : ℕ) : (start host env now).Empty where
  table k := by cases k <;> rfl
  names k := by cases k <;> rfl

/-- A sink that is described with the grandmaster 1, and ignores it or not. -/
def clockedSink (ignore : Bool) : StreamSink :=
  { stereoSink 2 "b".toList clockedSdp with ignoreRefclkGmid := ignore }

theorem desired_clockedSink (ignore : Bool) : (clockedSink ignore).Desired :=
  ⟨show "b".toList.all isDesired = true by decide, rfl, rfl, show clockedSdp.all isDesired = true by decide +kernel⟩

theorem accepted_clockedSink (ignore : Bool) : ∃ id js, jsonToSink Json.readRaw id js = some (clockedSink ignore) := by
  refine ⟨"2".toList, _, (jsonToSink_sinkToJson (fun _ _ h => h) (show stoi "2".toList = some 2 by decide) (clockedSink ignore)).trans ?_⟩
  rw [(desired_clockedSink ignore).desired_eq]
  rfl

/-- A source, and a sink that ignores the grandmaster, come back before the clock is locked. -/
theorem restart_preserves_ignoring : ∃ s n', run (occur {}) (start {} {} 0)
      [lockedTick, .request (.addSource (plainAnswers .source 1) singleSource),
        .request (.addSink (plainAnswers .sink 2) (clockedSink true))] = some s ∧
    s.getSources = [singleSource] ∧ s.getSinks = [clockedSink true] ∧
    (start {} {} 0).loadStatus {} plainAnswers s.saveStatus = some (true, n') ∧
    n'.getSources = s.getSources ∧ n'.getSinks = s.getSinks := by
  have hrun : (run (occur {}) (start {} {} 0)
      [lockedTick, .request (.addSource (plainAnswers .source 1) singleSource),
        .request (.addSink (plainAnswers .sink 2) (clockedSink true))]).map
      (fun s => (s.getSources, s.getSinks)) =
        some ([singleSource], [clockedSink true]) := by decide +kernel
  obtain ⟨s, hs, hshown⟩ := Option.map_eq_some_iff.mp hrun
  obtain ⟨hsources, hsinks⟩ := Prod.mk.inj hshown
  have hclean : singleSource.Desired := ⟨by decide, by decide, by decide, by decide, by decide⟩
  have hread : jsonToStreams Json.readRaw s.saveStatus =
      some ([singleSource], [clockedSink true]) := by
    rw [saveStatus, hsources, hsinks, jsonToStreams_desired (fun _ _ h => h), List.map_singleton, List.map_singleton, hclean.desired_eq,
      (desired_clockedSink true).desired_eq]
  have haccepted : ∀ e ∈ [lockedTick, .request (.addSource (plainAnswers .source 1) singleSource),
      .request (.addSink (plainAnswers .sink 2) (clockedSink true))], e.Accepted {} := by
    have hjson : jsonToSource Json.readRaw "1".toList (sourceToJson singleSource) = some singleSource := by
      rw [jsonToSource_sourceToJson (fun _ _ h => h) (show stoi "1".toList = some 1 by decide), hclean.desired_eq]
      rfl
    simp only [List.forall_mem_cons, List.not_mem_nil, false_implies, implies_true, and_true]
    exact ⟨trivial, ⟨_, _, hjson⟩, accepted_clockedSink true⟩
  have hsmooth : ∀ sources sinks, jsonToStreams Json.readRaw s.saveStatus = some (sources, sinks) →
      Along (step {}) Smooth (start {} {} 0) (loadRequests plainAnswers sources sinks) := by
    intro sources sinks h
    obtain ⟨rfl, rfl⟩ := Prod.mk.inj (Option.some.inj (hread.symm.trans h))
    refine along_cons.mpr ⟨smooth_plainAnswers (k := .source) rfl (by decide), fun s₁ hs₁ => ?_⟩
    refine along_cons.mpr ⟨smooth_plainAnswers (k := .sink) rfl ?_, fun _ _ => trivial⟩
    have hfresh : (step {} (start {} {} 0) (.addSource (plainAnswers .source 1) singleSource)).map
        (fun s => decide (s.driver.fresh 9 ∧ s.driver.fresh 10)) = some true := by decide +kernel
    rw [show step {} (start {} {} 0) (.addSource (plainAnswers .source 1) singleSource) = some s₁ from hs₁] at hfresh
    exact of_decide_eq_true (Option.some.inj hfresh)
  obtain ⟨n', hload, hiff⟩ := restart_preserves_iff (fun _ _ h => h) hs haccepted (empty_start {} {} 0) hsmooth
  refine ⟨s, n', hs, hsources, hsinks, hload, hiff.mpr ?_⟩
  rw [hsources, hsinks]
  exact
    { secondary := List.forall_mem_singleton.mpr fun huse => absurd huse (by decide)
      sourceNames := List.pairwise_singleton _ _
      desired := List.forall_mem_singleton.mpr (desired_clockedSink true).sdp
      clocks := List.forall_mem_singleton.mpr fun hignore => absurd hignore (by decide)
      sinkNames := List.pairwise_singleton _ _ }

/-- A sink that follows the grandmaster is lost, since there is none when the file is loaded. -/
theorem clockedSink_lost : ∃ s n', run (occur {}) (start {} {} 0)
      [lockedTick, .request (.addSink (plainAnswers .sink 2) (clockedSink false))] = some s ∧
    (∃ id js, jsonToSink Json.readRaw id js = some (clockedSink false)) ∧
    s.getSources = [] ∧ s.getSinks = [clockedSink false] ∧ (start {} {} 0).Empty ∧
    (∀ sources sinks, jsonToStreams Json.readRaw s.saveStatus = some (sources, sinks) →
      Along (step {}) Smooth (start {} {} 0) (loadRequests plainAnswers sources sinks)) ∧
    (start {} {} 0).loadStatus {} plainAnswers s.saveStatus = some (true, n') ∧ n'.getSinks = [] := by
  have hrun : (run (occur {}) (start {} {} 0)
      [lockedTick, .request (.addSink (plainAnswers .sink 2) (clockedSink false))]).map
      (fun s => (s.getSources, s.getSinks)) = some ([], [clockedSink false]) := by decide +kernel
  obtain ⟨s, hs, hshown⟩ := Option.map_eq_some_iff.mp hrun
  obtain ⟨hsources, hsinks⟩ := Prod.mk.inj hshown
  have hread : jsonToStreams Json.readRaw s.saveStatus = some ([], [clockedSink false]) := by
    rw [saveStatus, hsources, hsinks, jsonToStreams_desired (fun _ _ h => h), List.map_singleton, (desired_clockedSink false).desired_eq]
    rfl
  have hsmooth : Along (step {}) Smooth (start {} {} 0) (loadRequests plainAnswers [] [clockedSink false]) :=
    along_cons.mpr ⟨smooth_plainAnswers (k := .sink) rfl (by decide), fun _ _ => trivial⟩
  obtain ⟨n', hload, -, hlost⟩ := exists_loadStatus hread .nil (List.pairwise_singleton _ _) (empty_start {} {} 0) hsmooth
  have hunfit : (sinkRules {} (start {} {} 0).ptp plainAnswers).fit (clockedSink false) = false := by decide +kernel
  refine ⟨s, n', hs, accepted_clockedSink false, hsources, hsinks, empty_start {} {} 0, fun sources sinks h => ?_, hload, ?_⟩
  · obtain ⟨rfl, rfl⟩ := Prod.mk.inj (Option.some.inj (hread.symm.trans h))
    exact hsmooth
  · rw [hlost, Admission.admitted, if_neg fun h => Bool.false_ne_true (hunfit.symm.trans h.1)]
    rfl

end SessionManager
end Aes67Daemon
