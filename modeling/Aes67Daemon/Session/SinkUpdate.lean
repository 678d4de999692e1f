import Aes67Daemon.Session.Events
import Aes67Daemon.Session.Origin
import Aes67Daemon.Session.Prepared
import Mathlib.Data.List.MinMax
import Mathlib.Data.List.Pairwise

/-!
# Following remote sources

`get_updated_sinks` looks for the latest description of the stream each sink
listens to: among the remote sources with the origin of the sink, one with the
greatest version, if that is greater than the version the sink has.  The scan
keeps the best candidate in the sink itself, so that its SDP takes part in the
comparison.

When the remote sources have the origin of their SDP, the scan is an `argmax` over
the later descriptions.  As `parse_sdp` reads the same origin, a sink that is
added again has no later description any more.

## Main definitions

* `SessionManager.getUpdatedSinks` — `get_updated_sinks`.
* `StreamInfo.Outdated` — a remote source has a later description.
* `getUpdatedSinks_eq` — the scan is an `argmax`.
* `updated_sinks` — what is selected, and that it converges.
-/
namespace Aes67Daemon

open Text

/-- The body of the inner loop: `newVersion` and the sink so far, and one remote
source. -/
def updateScan (origin : SDPOrigin) (best : UInt64 × StreamSink) (source : RemoteSource) :
    UInt64 × StreamSink :=
  if source.origin.sessionId = [] then best
  else if origin.same source.origin ∧ best.2.sdp ≠ source.sdp ∧
      origin.sessionVersion < source.origin.sessionVersion ∧
      best.1 < source.origin.sessionVersion then
    (source.origin.sessionVersion, { best.2 with sdp := source.sdp })
  else best

namespace SessionManager

/-- `get_updated_sinks`.  `sinks_[sink.id]` is the entry itself. -/
def getUpdatedSinks (s : SessionManager) (sources : List RemoteSource) : List StreamSink :=
  s.sinks.entries.filterMap fun e =>
    let best := sources.foldl (updateScan e.2.origin) (0, getSink_ e.1 e.2)
    if best.1 ≠ 0 then some best.2 else none

end SessionManager

/-- A remote source as the browser stores it, with a single well-formed origin. -/
structure RemoteSource.Announced (r : RemoteSource) : Prop where
  origin : r.origin = sdpGetOrigin r.sdp
  one : OneOrigin r.sdp

/-- A remote source whose origin `parse_sdp` reads as well. -/
structure RemoteSource.Readable (host : Host) (r : RemoteSource) : Prop where
  origin : r.origin = sdpGetOrigin r.sdp
  session : r.origin.sessionId = [] → r.origin.sessionVersion = 0
  agrees : r.origin.sessionId ≠ [] → ∀ ptp base info, parseSdp host ptp r.sdp base = .ok info →
    info.origin = r.origin

/-- A remote source has a later description of the stream a sink listens to. -/
def StreamInfo.Outdated (info : StreamInfo) (r : RemoteSource) : Prop :=
  info.origin.same r.origin ∧ info.origin.sessionVersion < r.origin.sessionVersion ∧
    info.sinkSdp ≠ r.sdp

instance (info : StreamInfo) : DecidablePred info.Outdated := fun _ =>
  inferInstanceAs (Decidable (_ ∧ _ ∧ _))

/-- A stored sink uses its SDP and has the origin its SDP was parsed with. -/
structure StreamInfo.Parsed (host : Host) (info : StreamInfo) : Prop where
  useSdp : info.sinkUseSdp = true
  parsed : ∃ ptp base parsed, parseSdp host ptp info.sinkSdp base = .ok parsed ∧
    info.origin = parsed.origin

theorem SDPOrigin.same_trans {a b c : SDPOrigin} (h : a.same b) (h' : b.same c) : a.same c := by
  simp only [SDPOrigin.same, Bool.and_eq_true, beq_iff_eq] at *
  simp only [h, h', and_self]

theorem SDPOrigin.same_symm {a b : SDPOrigin} (h : a.same b) : b.same a := by
  simp only [SDPOrigin.same, Bool.and_eq_true, beq_iff_eq] at *
  simp only [h, and_self]

theorem RemoteSource.Announced.readable {r : RemoteSource} (hr : r.Announced) (host : Host) :
    r.Readable host where
  origin := hr.origin
  session h := by
    rw [hr.origin] at h ⊢
    by_contra hver
    refine hr.one.sessionId_ne_nil (fun hnil => hver ?_) h
    rw [hnil]
  agrees _ ptp base info hparsed := by
    rw [(origin_parseSdp hr.one hparsed).1, hr.origin]

/-- A remote source with a version has a session id. -/
theorem RemoteSource.Readable.sessionId_ne_nil {host : Host} {r : RemoteSource} (hr : r.Readable host)
    {v : UInt64} (h : v < r.origin.sessionVersion) : r.origin.sessionId ≠ [] := fun hnil => by
  rw [hr.session hnil] at h
  exact absurd (UInt64.lt_iff_toNat_lt.mp h) (Nat.not_lt_zero _)

namespace StreamInfo
variable {host : Host} {info : StreamInfo} {r : RemoteSource}

/-- The origin of a sink with the SDP of a remote source is the one of the source. -/
theorem Parsed.origin_eq (H : info.Parsed host) (hr : r.Readable host) (h : info.sinkSdp = r.sdp)
    (hsid : r.origin.sessionId ≠ []) : info.origin = r.origin := by
  obtain ⟨ptp, base, parsed, hparsed, horigin⟩ := H.parsed
  rw [h] at hparsed
  rw [horigin, hr.agrees hsid ptp base parsed hparsed]

/-- A later version of the stream of a sink has another SDP. -/
theorem Parsed.outdated_iff (H : info.Parsed host) (hr : r.Readable host) : info.Outdated r ↔
    info.origin.same r.origin ∧ info.origin.sessionVersion < r.origin.sessionVersion := by
  refine ⟨fun h => ⟨h.1, h.2.1⟩, fun h => ⟨h.1, h.2, fun hsdp => ?_⟩⟩
  rw [H.origin_eq hr hsdp (hr.sessionId_ne_nil h.2)] at h
  exact absurd h.2 (lt_irrefl _)

end StreamInfo

namespace StreamInfo
variable {host : Host} {info : StreamInfo}

/-- The latest description of the stream of a sink among the remote sources. -/
def latest (info : StreamInfo) (sources : List RemoteSource) : Option RemoteSource :=
  (sources.filter fun r => info.Outdated r).argmax fun r => r.origin.sessionVersion

theorem latest_eq_none {sources : List RemoteSource} :
    info.latest sources = none ↔ ∀ r ∈ sources, ¬ info.Outdated r := by
  simp [latest, List.argmax_eq_none]

theorem latest_eq_some {sources : List RemoteSource} {r : RemoteSource}
    (h : info.latest sources = some r) : r ∈ sources ∧ info.Outdated r ∧
      ∀ r' ∈ sources, info.Outdated r' → r'.origin.sessionVersion ≤ r.origin.sessionVersion := by
  have hmem := List.mem_filter.mp (List.argmax_mem h)
  refine ⟨hmem.1, of_decide_eq_true hmem.2, fun r' hr' hlater => ?_⟩
  exact List.le_of_mem_argmax (f := fun r : RemoteSource => r.origin.sessionVersion)
    (List.mem_filter.mpr ⟨hr', decide_eq_true hlater⟩) h

/-- **The inner loop finds the latest description.** -/
theorem foldl_updateScan (H : info.Parsed host) {sources : List RemoteSource}
    (hsources : ∀ r ∈ sources, r.Readable host) (sink : StreamSink) (hsink : sink.sdp = info.sinkSdp) :
    sources.foldl (updateScan info.origin) (0, sink) =
      match info.latest sources with
      | none => (0, sink)
      | some r => (r.origin.sessionVersion, { sink with sdp := r.sdp }) := by
  induction sources using List.reverseRecOn with
  | nil => rfl
  | append_singleton sources r ih =>
      have ih := ih fun r' hr' => hsources r' (List.mem_append_left _ hr')
      have hr : r.Readable host := hsources r (List.mem_append_right _ List.mem_cons_self)
      have hlatest : info.latest (sources ++ [r]) =
          if info.Outdated r then
            match info.latest sources with
            | none => some r
            | some b => if b.origin.sessionVersion < r.origin.sessionVersion then some r else some b
          else info.latest sources := by
        by_cases hlater : info.Outdated r
        · simp only [latest, List.filter_append, List.filter_cons, hlater, decide_true, if_true,
            List.filter_nil, List.argmax_concat]
          cases (sources.filter fun r => info.Outdated r).argmax
            fun r => r.origin.sessionVersion <;> rfl
        · simp only [latest, List.filter_append, List.filter_cons, hlater, decide_false,
            Bool.false_eq_true, if_false, List.filter_nil, List.append_nil]
      rw [List.foldl_append, ih, hlatest, List.foldl_cons, List.foldl_nil]
      by_cases hlater : info.Outdated r
      · obtain ⟨hsame, hver, hsdp⟩ := hlater
        have hsid := hr.sessionId_ne_nil hver
        have hpos : (0 : UInt64) < r.origin.sessionVersion :=
          lt_of_le_of_lt (by rw [UInt64.le_iff_toNat_le]; exact Nat.zero_le _) hver
        rw [if_pos ⟨hsame, hver, hsdp⟩]
        cases hbest : info.latest sources with
        | none =>
            simp only [updateScan, if_neg hsid]
            rw [if_pos ⟨hsame, hsink ▸ hsdp, hver, hpos⟩]
        | some b =>
            obtain ⟨hb, -, -⟩ := latest_eq_some hbest
            simp only [updateScan, if_neg hsid]
            by_cases hgreater : b.origin.sessionVersion < r.origin.sessionVersion
            · have hne : b.sdp ≠ r.sdp := fun heq => by
                rw [(hsources b (List.mem_append_left _ hb)).origin, heq, ← hr.origin] at hgreater
                exact lt_irrefl _ hgreater
              rw [if_pos ⟨hsame, hne, hver, hgreater⟩, if_pos hgreater]
            · rw [if_neg fun h => hgreater h.2.2.2, if_neg hgreater]
      · rw [if_neg hlater]
        have hkeep : ∀ best, updateScan info.origin best r = best := by
          intro best
          simp only [updateScan]
          split
          · rfl
          · exact if_neg fun h => hlater ((H.outdated_iff hr).mpr ⟨h.1, h.2.2.1⟩)
        exact hkeep _

end StreamInfo

namespace SessionManager
variable {host : Host} {s s' : SessionManager}

/-- The sinks are as `add_sink` stores them. -/
def SinksParsed (host : Host) (s : SessionManager) : Prop :=
  ∀ id info, s.sinks.find? id = some info → info.Parsed host

theorem parsed_of_stored {r : Request} {info info' : StreamInfo} (h : Stored host r info info') :
    info'.sinkUseSdp = info.sinkUseSdp ∧ info'.sinkSdp = info.sinkSdp ∧ info'.origin = info.origin := by
  cases h <;> exact ⟨rfl, rfl, rfl⟩

theorem parsed_preparedSink {r : Request} {env : Env} {ptp : Ptp} {sink : StreamSink} {info info' : StreamInfo}
    (h : preparedSink host env ptp sink = .ok info) (hs : Stored host r info info') :
    info'.Parsed host := by
  obtain ⟨-, sdp, parsed, -, hparsed, rfl⟩ := preparedSink_eq_ok h
  obtain ⟨huse, hsdp, horigin⟩ := parsed_of_stored hs
  exact ⟨huse, ptp, _, parsed, by rw [hsdp]; exact hparsed, horigin⟩

/-- **One event keeps the sinks parsed.** -/
theorem sinksParsed_occur {e : Event} (H : s.SinksParsed host) (h : s.occur host e = some s') :
    s'.SinksParsed host := by
  intro id info' hf
  rcases find?_of_occur h (k := .sink) hf with
    hold | ⟨_, _, _, -, -, hk, -⟩ | ⟨r, info, rfl, hk, rfl, hprep, hstored⟩
  · exact H id info' hold
  · cases hk
  · rcases prepared_cases hprep with ⟨env, source, stream, rfl, -⟩ | ⟨env, sink, rfl, -, hp⟩
    · cases hk
    · exact parsed_preparedSink hp hstored

theorem sinksParsed_start (env : Env) (now : ℕ) : (start host env now).SinksParsed host := by
  intro id info hf
  have hnone : (start host env now).sinks.find? id = none := SortedMap.find?_empty id
  simp [hnone] at hf

/-- **The scan is an `argmax`.** -/
theorem getUpdatedSinks_eq (H : s.SinksParsed host) {sources : List RemoteSource}
    (hsources : ∀ r ∈ sources, r.Readable host) :
    s.getUpdatedSinks sources = s.sinks.entries.filterMap fun e =>
      (e.2.latest sources).map fun r => { getSink_ e.1 e.2 with sdp := r.sdp } := by
  refine List.filterMap_congr fun e he => ?_
  have hinfo := H e.1 e.2 (SortedMap.mem_entries.mp he)
  rw [StreamInfo.foldl_updateScan hinfo hsources (getSink_ e.1 e.2) rfl]
  cases hlatest : e.2.latest sources with
  | none => rfl
  | some r =>
      have hver := (StreamInfo.latest_eq_some hlatest).2.1.2.1
      have hpos : r.origin.sessionVersion ≠ 0 := fun hz => by
        rw [hz] at hver
        exact absurd (UInt64.lt_iff_toNat_lt.mp hver) (Nat.not_lt_zero _)
      simp [hpos]

/-- Sinks are added one after the other, with success, as `update_sinks` does. -/
inductive ReAdded (host : Host) : SessionManager → List StreamSink → SessionManager → Prop
  | nil (s : SessionManager) : ReAdded host s [] s
  | cons {s s₁ s' : SessionManager} {env : Env} {sink : StreamSink} {sinks : List StreamSink}
      (h : s.addSink host env sink = (.ok, s₁)) (hs : ReAdded host s₁ sinks s') :
    ReAdded host s (sink :: sinks) s'

/-- A sink that was added successfully has its SDP. -/
theorem find?_addSink_ok {env : Env} {sink : StreamSink} (huse : sink.useSdp = true)
    (h : s.addSink host env sink = (.ok, s')) :
    (∃ info, s'.sinks.find? sink.id = some info ∧ info.sinkSdp = sink.sdp) ∧
      ∀ id, id ≠ sink.id → s'.sinks.find? id = s.sinks.find? id := by
  obtain ⟨info, info', hprep, hstored, hfind⟩ := find?_of_serve_ok (addSink_books h) rfl
  have hfind : ∀ id, s'.sinks.find? id =
      if id = sink.id then some info' else s.sinks.find? id := fun id => by
    simpa [Request.kind, Request.id] using hfind .sink id
  refine ⟨⟨info', by rw [hfind, if_pos rfl], ?_⟩, fun id hid => by rw [hfind, if_neg hid]⟩
  rcases prepared_cases hprep with ⟨_, _, _, hr, -⟩ | ⟨env, sink, hr, -, hp⟩
  · cases hr
  · cases hr
    obtain ⟨-, sdp, parsed, htext, -, rfl⟩ := preparedSink_eq_ok hp
    rw [sinkSdpText, if_pos huse] at htext
    rw [(parsed_of_stored hstored).2.1]
    exact (Except.ok.inj htext).symm

/-- After sinks were added again, they have their SDP and the others are as before. -/
theorem find?_of_readded {sinks : List StreamSink} (h : ReAdded host s sinks s')
    (H : s.SinksParsed host) (huse : ∀ sink ∈ sinks, sink.useSdp = true)
    (hnodup : (sinks.map StreamSink.id).Nodup) : s'.SinksParsed host ∧
      (∀ sink ∈ sinks, ∃ info, s'.sinks.find? sink.id = some info ∧ info.sinkSdp = sink.sdp) ∧
      ∀ id, id ∉ sinks.map StreamSink.id → s'.sinks.find? id = s.sinks.find? id := by
  induction h with
  | nil s => exact ⟨H, nofun, fun _ _ => rfl⟩
  | @cons s s₁ s' env sink sinks h _ ih =>
      obtain ⟨⟨info, hfind, hsdp⟩, hother⟩ := find?_addSink_ok (huse sink List.mem_cons_self) h
      rw [List.map_cons, List.nodup_cons] at hnodup
      have hocc : s.occur host (.request (.addSink env sink)) = some s₁ := by
        simp [occur, step, serve, h]
      obtain ⟨hparsed, hnew, hold⟩ := ih (sinksParsed_occur H hocc)
        (fun sink hs => huse sink (List.mem_cons_of_mem _ hs)) hnodup.2
      refine ⟨hparsed, fun sink' hs => ?_, fun id hid => ?_⟩
      · rcases List.mem_cons.mp hs with rfl | hs
        · exact ⟨info, by rw [hold _ hnodup.1, hfind], hsdp⟩
        · exact hnew sink' hs
      · rw [List.map_cons, List.mem_cons, not_or] at hid
        rw [hold id hid.2, hother id hid.1]

/-- What a selected sink is. -/
theorem mem_getUpdatedSinks (H : s.SinksParsed host) {sources : List RemoteSource}
    (hsources : ∀ r ∈ sources, r.Readable host) {sink : StreamSink} :
    sink ∈ s.getUpdatedSinks sources ↔ ∃ id info r, s.sinks.find? id = some info ∧
      info.latest sources = some r ∧ sink = { getSink_ id info with sdp := r.sdp } := by
  simp only [getUpdatedSinks_eq H hsources, List.mem_filterMap, Option.map_eq_some_iff,
    Prod.exists, SortedMap.mem_entries]
  constructor
  · rintro ⟨id, info, hf, r, hr, rfl⟩
    exact ⟨id, info, r, hf, hr, rfl⟩
  · rintro ⟨id, info, r, hf, hr, rfl⟩
    exact ⟨id, info, hf, r, hr, rfl⟩

/-- The selected sinks come in the order of their ids, each once. -/
theorem getUpdatedSinks_sorted (H : s.SinksParsed host) {sources : List RemoteSource}
    (hsources : ∀ r ∈ sources, r.Readable host) :
    (s.getUpdatedSinks sources).Pairwise fun a b => a.id < b.id := by
  rw [getUpdatedSinks_eq H hsources]
  refine s.sinks.sorted.filterMap _ fun e e' hlt sink hsink sink' hsink' => ?_
  obtain ⟨r, -, rfl⟩ := Option.map_eq_some_iff.mp hsink
  obtain ⟨r', -, rfl⟩ := Option.map_eq_some_iff.mp hsink'
  exact hlt

/-- No two remote sources with one origin have one version. -/
def VersionsDiffer (sources : List RemoteSource) : Prop :=
  sources.Pairwise fun a b => a.origin.same b.origin →
    a.origin.sessionVersion ≠ b.origin.sessionVersion

/-- The latest description does not depend on the order of the remote sources. -/
theorem latest_perm {info : StreamInfo} {sources sources' : List RemoteSource}
    (hperm : sources'.Perm sources) (hdiff : VersionsDiffer sources) :
    info.latest sources' = info.latest sources := by
  cases hlatest : info.latest sources with
  | none =>
      rw [StreamInfo.latest_eq_none] at hlatest ⊢
      exact fun r hr => hlatest r (hperm.mem_iff.mp hr)
  | some r =>
      obtain ⟨hr, hout, hmax⟩ := StreamInfo.latest_eq_some hlatest
      cases hlatest' : info.latest sources' with
      | none => exact absurd hout (StreamInfo.latest_eq_none.mp hlatest' r (hperm.mem_iff.mpr hr))
      | some r' =>
          obtain ⟨hr', hout', hmax'⟩ := StreamInfo.latest_eq_some hlatest'
          have hsame : r.origin.same r'.origin := SDPOrigin.same_trans (SDPOrigin.same_symm hout.1) hout'.1
          have hver : r.origin.sessionVersion = r'.origin.sessionVersion :=
            le_antisymm (hmax' r (hperm.mem_iff.mpr hr) hout) (hmax r' (hperm.mem_iff.mp hr') hout')
          have hsymm : Std.Symm fun a b : RemoteSource => a.origin.same b.origin →
              a.origin.sessionVersion ≠ b.origin.sessionVersion :=
            ⟨fun a b hab hba => (hab (SDPOrigin.same_symm hba)).symm⟩
          by_contra hne
          exact hdiff.forall hr (hperm.mem_iff.mp hr') (fun h => hne (by rw [h])) hsame hver

/-- A sink that was added again with the latest description is not outdated. -/
theorem not_outdated_of_latest {info info' : StreamInfo} {sources : List RemoteSource}
    (H : info.Parsed host) (H' : info'.Parsed host) (hsources : ∀ r ∈ sources, r.Readable host)
    {r : RemoteSource} (hlatest : info.latest sources = some r) (hsdp : info'.sinkSdp = r.sdp) :
    ∀ r' ∈ sources, ¬ info'.Outdated r' := by
  intro r' hr' hout'
  obtain ⟨hr, hout, hmax⟩ := StreamInfo.latest_eq_some hlatest
  have horigin := H'.origin_eq (hsources r hr) hsdp ((hsources r hr).sessionId_ne_nil hout.2.1)
  obtain ⟨hsame, hver, -⟩ := hout'
  rw [horigin] at hsame hver
  have hlater : info.Outdated r' := (H.outdated_iff (hsources r' hr')).mpr
    ⟨SDPOrigin.same_trans hout.1 hsame, lt_trans hout.2.1 hver⟩
  exact absurd (hmax r' hr' hlater) (not_le.mpr hver)

/-- **Adding the selected sinks again leaves none to select.** -/
theorem getUpdatedSinks_readded (H : s.SinksParsed host) {sources : List RemoteSource}
    (hsources : ∀ r ∈ sources, r.Readable host)
    (h : ReAdded host s (s.getUpdatedSinks sources) s') : s'.getUpdatedSinks sources = [] := by
  have huse : ∀ sink ∈ s.getUpdatedSinks sources, sink.useSdp = true := by
    intro sink hsink
    obtain ⟨id, info, r, hf, -, rfl⟩ := (mem_getUpdatedSinks H hsources).mp hsink
    exact (H id info hf).useSdp
  have hnodup : ((s.getUpdatedSinks sources).map StreamSink.id).Nodup :=
    List.pairwise_map.mpr ((getUpdatedSinks_sorted H hsources).imp ne_of_lt)
  obtain ⟨H', hnew, hold⟩ := find?_of_readded h H huse hnodup
  rw [List.eq_nil_iff_forall_not_mem]
  intro sink hsink
  obtain ⟨id, info', r', hf', hlatest', rfl⟩ := (mem_getUpdatedSinks H' hsources).mp hsink
  obtain ⟨hr', hout', -⟩ := StreamInfo.latest_eq_some hlatest'
  by_cases hid : id ∈ (s.getUpdatedSinks sources).map StreamSink.id
  · obtain ⟨sink, hadded, rfl⟩ := List.mem_map.mp hid
    obtain ⟨info₁, hf₁, hsdp⟩ := hnew sink hadded
    obtain rfl := Option.some.inj (hf'.symm.trans hf₁)
    obtain ⟨id, info, r, hf, hlatest, rfl⟩ := (mem_getUpdatedSinks H hsources).mp hadded
    exact not_outdated_of_latest (H id info hf) (H' _ _ hf') hsources hlatest hsdp r' hr' hout'
  · rw [hold id hid] at hf'
    exact hid (List.mem_map.mpr ⟨_, (mem_getUpdatedSinks H hsources).mpr
      ⟨id, info', r', hf', hlatest', rfl⟩, rfl⟩)

/-- **What is selected for an update, and that updates converge**, in every state
that events lead to: each sink of which a remote source has a later description,
once, with the SDP of a latest one; whatever the order of the remote sources, if
their versions differ; and none after these sinks were added again. -/
theorem updated_sinks (host : Host) (env₀ : Env) (now : ℕ) {es : List Event}
    (hrun : run (occur host) (start host env₀ now) es = some s) {sources : List RemoteSource}
    (hsources : ∀ r ∈ sources, r.Announced) :
    (s.getUpdatedSinks sources).Pairwise (fun a b => a.id < b.id) ∧
    (∀ id, (∃ sink ∈ s.getUpdatedSinks sources, sink.id = id) ↔
      ∃ info, s.sinks.find? id = some info ∧ ∃ r ∈ sources, info.Outdated r) ∧
    (∀ sink ∈ s.getUpdatedSinks sources, ∃ info r, s.sinks.find? sink.id = some info ∧
      s.getSink sink.id = some (getSink_ sink.id info) ∧
      sink = { getSink_ sink.id info with sdp := r.sdp } ∧ r ∈ sources ∧ info.Outdated r ∧
      ∀ r' ∈ sources, info.Outdated r' → r'.origin.sessionVersion ≤ r.origin.sessionVersion) ∧
    (∀ sources', sources'.Perm sources → VersionsDiffer sources →
      s.getUpdatedSinks sources' = s.getUpdatedSinks sources) ∧
    ∀ s', ReAdded host s (s.getUpdatedSinks sources) s' → s'.getUpdatedSinks sources = [] := by
  have H : s.SinksParsed host := run_keeps (P := fun _ _ => True)
    (fun _ _ _ hinv _ => sinksParsed_occur hinv) (sinksParsed_start env₀ now)
    (along_of_forall fun _ _ => trivial) hrun
  replace hsources : ∀ r ∈ sources, r.Readable host := fun r hr => (hsources r hr).readable host
  refine ⟨getUpdatedSinks_sorted H hsources, fun id => ⟨?_, ?_⟩, ?_, ?_,
    fun s' => getUpdatedSinks_readded H hsources⟩
  · rintro ⟨sink, hsink, rfl⟩
    obtain ⟨id, info, r, hf, hlatest, rfl⟩ := (mem_getUpdatedSinks H hsources).mp hsink
    obtain ⟨hr, hout, -⟩ := StreamInfo.latest_eq_some hlatest
    exact ⟨info, hf, r, hr, hout⟩
  · rintro ⟨info, hf, r, hr, hout⟩
    cases hlatest : info.latest sources with
    | none => exact absurd hout (StreamInfo.latest_eq_none.mp hlatest r hr)
    | some r' => exact ⟨_, (mem_getUpdatedSinks H hsources).mpr ⟨id, info, r', hf, hlatest, rfl⟩, rfl⟩
  · intro sink hsink
    obtain ⟨id, info, r, hf, hlatest, rfl⟩ := (mem_getUpdatedSinks H hsources).mp hsink
    obtain ⟨hr, hout, hmax⟩ := StreamInfo.latest_eq_some hlatest
    exact ⟨info, r, hf, congrArg (Option.map (getSink_ id)) hf, rfl, hr, hout, hmax⟩
  · intro sources' hperm hdiff
    rw [getUpdatedSinks_eq H hsources,
      getUpdatedSinks_eq H fun r hr => hsources r (hperm.mem_iff.mp hr)]
    exact List.filterMap_congr fun e _ => by rw [latest_perm hperm hdiff]

/-- The SDP of a stream with one leg, in one of its versions. -/
def versionSdp (version : Text) : Text := unlines [
  "v=0".toList, "o=- 1 ".toList ++ version ++ " IN IP4 10.0.0.9".toList, "s=a".toList,
  "t=0 0".toList, "m=audio 5004 RTP/AVP 98".toList, "c=IN IP4 239.1.1.1/15".toList,
  "a=rtpmap:98 L16/48000/2".toList ]

/-- A remote source with an SDP. -/
def announcedSource (sdp : Text) : RemoteSource := { origin := sdpGetOrigin sdp, sdp := sdp }

theorem announced_versionSdp : (announcedSource (versionSdp "2".toList)).Announced where
  origin := rfl
  one := by
    refine ⟨["v=0".toList], "o=- 1 2 IN IP4 10.0.0.9".toList, "- 1 2 IN IP4 10.0.0.9".toList,
      ["s=a".toList, "t=0 0".toList, "m=audio 5004 RTP/AVP 98".toList,
        "c=IN IP4 239.1.1.1/15".toList, "a=rtpmap:98 L16/48000/2".toList], by decide +kernel,
      by decide +kernel, ?_, by decide +kernel, by decide +kernel⟩
    exact ⟨_, _, _, _, _, _, _, 2, show _ = ["-".toList, "1".toList, "2".toList, "IN".toList,
      "IP4".toList, "10.0.0.9".toList] by decide +kernel, by decide +kernel, by decide +kernel⟩

/-- A sink follows its source from the first to the second version, and stays there. -/
theorem updated_sinks_version : ∃ s s',
    run (occur {}) (start {} {} 0) [.request (.addSink (.answering none (.ok 7) (.error (.driver 1)))
      (stereoSink 1 "a".toList (versionSdp "1".toList)))] = some s ∧
    (∃ sink ∈ s.getUpdatedSinks [announcedSource (versionSdp "2".toList)], sink.id = 1) ∧
    ReAdded {} s (s.getUpdatedSinks [announcedSource (versionSdp "2".toList)]) s' ∧
    s'.getUpdatedSinks [announcedSource (versionSdp "2".toList)] = [] := by
  have hrun : (run (occur {}) (start {} {} 0)
      [.request (.addSink (.answering none (.ok 7) (.error (.driver 1)))
        (stereoSink 1 "a".toList (versionSdp "1".toList)))]).map (fun s =>
      (s.getUpdatedSinks [announcedSource (versionSdp "2".toList)],
        (s.addSink {} (.answering none (.ok 8) (.error (.driver 1)))
          (stereoSink 1 "a".toList (versionSdp "2".toList))).1)) =
      some ([stereoSink 1 "a".toList (versionSdp "2".toList)], .ok) := by decide +kernel
  obtain ⟨s, hs, heq⟩ := Option.map_eq_some_iff.mp hrun
  simp only [Prod.mk.injEq] at heq
  obtain ⟨hsel, hok⟩ := heq
  have hsources : ∀ r ∈ [announcedSource (versionSdp "2".toList)], r.Announced :=
    fun r hr => List.mem_singleton.mp hr ▸ announced_versionSdp
  have hre : ReAdded {} s (s.getUpdatedSinks [announcedSource (versionSdp "2".toList)])
      (s.addSink {} (.answering none (.ok 8) (.error (.driver 1)))
        (stereoSink 1 "a".toList (versionSdp "2".toList))).2 := by
    rw [hsel]
    exact .cons (Prod.ext hok rfl) (.nil _)
  exact ⟨s, _, hs, ⟨_, hsel ▸ List.mem_cons_self, rfl⟩, hre,
    (updated_sinks {} {} 0 hs hsources).2.2.2.2 _ hre⟩

end SessionManager
end Aes67Daemon
