import Aes67Daemon.Session.Events
import Aes67Daemon.Session.Origin
import Aes67Daemon.Session.Prepared

/-!
# Versions of session descriptions

The text of a source's SDP depends on the source, on the PTP configuration and
status, and on the sample rate.  The version in its `o=` line is counted by
`add_source` and by `on_update_sources` only, so that a new PTP domain or sample
rate shows in a text whose version stays.  With these set apart, a text that
changes has a greater version, as long as the sum of the session id and the
32-bit counter does not wrap.

## Main definitions

* `SessionManager.Counted` — every version in use was counted before.
* `Supersedes` — a description replaces an earlier one.
* `Event.Tracked` — the events that keep the versions in order.
* `sdp_versions` — what follows for two observations of a source.
-/
namespace Aes67Daemon

open Text

namespace SessionManager
variable {host : Host} {s s' : SessionManager}

/-- Every source has the session id that belongs to its id, and a version that was
counted before. -/
structure Counted (host : Host) (s : SessionManager) : Prop where
  observers : s.updateSourceObservers = 1
  session : ∀ id info, s.sources.find? id = some info →
    info.sessionId = host.config.sessionId id
  version : ∀ id info, s.sources.find? id = some info →
    info.sessionVersion < host.config.sessionId id + s.gSessionVersion

/-- The description of a source in a later state replaces an earlier one: its
version is not smaller, and the text has not changed unless it is greater. -/
def Supersedes (host : Host) (s s' : SessionManager) (info info' : StreamInfo) : Prop :=
  info.sessionVersion ≤ info'.sessionVersion ∧
    (info'.sessionVersion = info.sessionVersion → ∀ env,
      getSourceSdp host env s'.ptp s'.driver.sampleRate info' =
        getSourceSdp host env s.ptp s.driver.sampleRate info)

theorem supersedes_refl (info : StreamInfo) : Supersedes host s s info info :=
  ⟨le_refl _, fun _ _ => rfl⟩

theorem supersedes_of_lt {info info' : StreamInfo} (h : info.sessionVersion < info'.sessionVersion) :
    Supersedes host s s' info info' :=
  ⟨le_of_lt h, fun heq => absurd heq (ne_of_gt h)⟩

theorem Supersedes.trans {s'' : SessionManager} {info info' info'' : StreamInfo}
    (h : Supersedes host s s' info info') (h' : Supersedes host s' s'' info' info'') :
    Supersedes host s s'' info info'' := by
  refine ⟨le_trans h.1 h'.1, fun heq env => ?_⟩
  have hle : info''.sessionVersion ≤ info'.sessionVersion := heq ▸ h.1
  have hmid : info''.sessionVersion = info'.sessionVersion := le_antisymm hle h'.1
  rw [h'.2 hmid env, h.2 (hmid.symm.trans heq) env]

/-- The text shows no more of the clock than its domain and its grandmaster. -/
theorem getSourceSdp_congr {env : Env} {ptp ptp' : Ptp} {rate : UInt32} {info : StreamInfo}
    (hdomain : ptp'.config.domain = ptp.config.domain) (hgmid : ptp'.status.gmid = ptp.status.gmid) :
    getSourceSdp host env ptp' rate info = getSourceSdp host env ptp rate info := by
  simp only [getSourceSdp, mediaLines, refclkText, hdomain, hgmid]

end SessionManager

/-! ## Events that keep the versions in order -/

namespace Event

open SessionManager

/-- Whether an event counts a version. -/
def Counts (host : Host) (s : SessionManager) : Event → Prop
  | .request r => r.kind = .source ∧ (r.prepared host s).isSome
  | .setPtpConfig _ _ | .setSampleRate _ => False
  | .ptpTick _ report => s.Updates report

/-- The domain and the sample rate only change while there is no source, and the
counter does not wrap for a source that is there or that is being added. -/
structure Tracked (host : Host) (s : SessionManager) (e : Event) : Prop where
  domain : ∀ config, e = .setPtpConfig none config → s.sources.entries ≠ [] →
    config.domain = s.ptp.config.domain
  sampleRate : ∀ rate, e = .setSampleRate rate → s.sources.entries ≠ [] →
    rate = s.driver.sampleRate
  counter : e.Counts host s → ∀ id,
    ((s.sources.find? id).isSome ∨ ∃ r, e = .request r ∧ r.id = id) →
    host.config.sessionId id + s.gSessionVersion ≠ 0xffffffff

end Event

namespace SessionManager
variable {host : Host} {s s' : SessionManager} {e : Event}

theorem lt_add_one {a b : UInt32} (h : a ≤ b) (hb : b ≠ 0xffffffff) : a < b + 1 := by
  have hb' : b.toNat ≠ 4294967295 := fun h => hb (UInt32.toNat_inj.mp h)
  have hlt := b.toNat_lt
  rw [UInt32.le_iff_toNat_le] at h
  rw [UInt32.lt_iff_toNat_lt, UInt32.toNat_add, show (1 : UInt32).toNat = 1 from rfl]
  omega

theorem add_one_lt_add_one {a b : UInt32} (h : a < b) (hb : b ≠ 0xffffffff) : a + 1 < b + 1 := by
  have hb' : b.toNat ≠ 4294967295 := fun h => hb (UInt32.toNat_inj.mp h)
  have hlt := b.toNat_lt
  rw [UInt32.lt_iff_toNat_lt] at h ⊢
  rw [UInt32.toNat_add, UInt32.toNat_add, show (1 : UInt32).toNat = 1 from rfl]
  omega

/-- The version a source gets. -/
theorem prepared_version {r : Request} {info : StreamInfo} (h : r.prepared host s = some info)
    (hk : r.kind = .source) : info.sessionId = host.config.sessionId r.id ∧
      info.sessionVersion = host.config.sessionId r.id + s.gSessionVersion := by
  rcases prepared_cases h with ⟨env, source, stream, rfl, -, -, rfl⟩ | ⟨env, sink, rfl, -, -⟩
  · exact ⟨rfl, rfl⟩
  · cases hk

theorem Stored.session {r : Request} {info info' : StreamInfo} (h : Stored host r info info') :
    info'.sessionId = info.sessionId ∧ info'.sessionVersion = info.sessionVersion := by
  cases h <;> exact ⟨rfl, rfl⟩

/-- What an event does to the counter. -/
theorem counter_occur (h : s.occur host e = some s') :
    s'.updateSourceObservers = s.updateSourceObservers ∧
      ((e.Counts host s ∧ s'.gSessionVersion = s.gSessionVersion + 1) ∨
        (¬ e.Counts host s ∧ s'.gSessionVersion = s.gSessionVersion)) := by
  cases e with
  | request r =>
      obtain ⟨⟨ret, t⟩, hserve, rfl⟩ := Option.map_eq_some_iff.mp h
      obtain ⟨hout, hver⟩ := serve_outside hserve
      refine ⟨congrArg Outside.updateSourceObservers hout, ?_⟩
      by_cases hc : r.kind = .source ∧ (r.prepared host s).isSome
      · exact .inl ⟨hc, by rw [hver, if_pos hc]⟩
      · exact .inr ⟨hc, by rw [hver, if_neg hc]⟩
  | setPtpConfig reply config =>
      obtain rfl := Option.some.inj h
      cases reply <;> exact ⟨rfl, .inr ⟨id, rfl⟩⟩
  | setSampleRate rate =>
      obtain rfl := Option.some.inj h
      exact ⟨rfl, .inr ⟨id, rfl⟩⟩
  | ptpTick env report =>
      obtain rfl := Option.some.inj h
      rcases ptpTick_cases host env report s with ⟨hn, status, -, hs⟩ | ⟨hu, status, told, hs⟩
      · rw [hs]
        exact ⟨rfl, .inr ⟨hn, rfl⟩⟩
      · rw [hs]
        exact ⟨rfl, .inl ⟨hu, rfl⟩⟩

/-- **One event replaces descriptions** by later ones. -/
theorem supersedes_occur (H : s.Counted host) (ht : e.Tracked host s)
    (h : s.occur host e = some s') {id : UInt8} {info info' : StreamInfo}
    (hf : s.sources.find? id = some info) (hf' : s'.sources.find? id = some info') :
    Supersedes host s s' info info' := by
  have hsources : s.sources.entries ≠ [] := fun hnil => by
    have := SortedMap.mem_entries.mpr hf
    rw [hnil] at this
    cases this
  cases e with
  | request r =>
      obtain ⟨⟨ret, t⟩, hserve, rfl⟩ := Option.map_eq_some_iff.mp h
      rcases find?_of_serve (serve_books hserve) (k := .source) hf' with
        hold | ⟨p, hk, rfl, hprep, hstored⟩
      · obtain rfl := Option.some.inj (hf.symm.trans hold)
        have hout := (serve_outside hserve).1
        have hptp : t.ptp = s.ptp := congrArg Outside.ptp hout
        have hrate : t.driver.sampleRate = s.driver.sampleRate := congrArg Outside.sampleRate hout
        exact ⟨le_refl _, fun _ env => by rw [hptp, hrate]⟩
      · refine supersedes_of_lt ?_
        rw [hstored.session.2, (prepared_version hprep hk).2]
        exact H.version _ _ hf
  | setPtpConfig reply config =>
      obtain rfl := Option.some.inj h
      cases reply with
      | some e =>
          obtain rfl := Option.some.inj (hf.symm.trans hf')
          exact supersedes_refl _
      | none =>
          obtain rfl := Option.some.inj (hf.symm.trans hf')
          exact ⟨le_refl _, fun _ env =>
            getSourceSdp_congr (ht.domain config rfl hsources) rfl⟩
  | setSampleRate rate =>
      obtain rfl := Option.some.inj h
      obtain rfl := Option.some.inj (hf.symm.trans hf')
      refine ⟨le_refl _, fun _ env => ?_⟩
      rw [ht.sampleRate rate rfl hsources]
      rfl
  | ptpTick env report =>
      obtain rfl := Option.some.inj h
      rcases ptpTick_cases host env report s with
        ⟨-, status, hgmid, hs⟩ | ⟨hu, status, told, hs⟩
      · rw [hs] at hf' ⊢
        obtain rfl := Option.some.inj (hf.symm.trans hf')
        exact ⟨le_refl _, fun _ env => getSourceSdp_congr rfl hgmid⟩
      · rw [hs] at hf'
        rw [SortedMap.find?_mapVal, hf, H.observers, Option.map_some] at hf'
        obtain rfl := Option.some.inj hf'
        refine supersedes_of_lt (lt_add_one (le_refl _) fun hmax => ?_)
        have hlt := H.version id info hf
        rw [hmax, UInt32.lt_iff_toNat_lt] at hlt
        have := (host.config.sessionId id + s.gSessionVersion).toNat_lt
        exact absurd hlt (by simp; omega)

/-- The counter stays ahead of a version it has counted. -/
theorem counter_ahead (ht : e.Tracked host s) (h : s.occur host e = some s') {id : UInt8}
    {v : UInt32} (hv : v < host.config.sessionId id + s.gSessionVersion)
    (hid : (s.sources.find? id).isSome) : v < host.config.sessionId id + s'.gSessionVersion := by
  rcases (counter_occur h).2 with ⟨hc, hg⟩ | ⟨-, hg⟩
  · rw [hg, ← UInt32.add_assoc]
    exact lt_add_one (le_of_lt hv) (ht.counter hc id (.inl hid))
  · rwa [hg]

/-- **One event keeps the versions counted.** -/
theorem counted_occur (H : s.Counted host) (ht : e.Tracked host s)
    (h : s.occur host e = some s') : s'.Counted host := by
  have hstep : ∀ id info', s'.sources.find? id = some info' →
      info'.sessionId = host.config.sessionId id ∧
        info'.sessionVersion < host.config.sessionId id + s'.gSessionVersion := by
    intro id info' hf
    rcases find?_of_occur h (k := .source) hf with
      hold | ⟨env, report, info, rfl, hu, -, hold, rfl⟩ | ⟨r, p, rfl, hk, rfl, hprep, hstored⟩
    · have hpresent : (s.sources.find? id).isSome := Option.isSome_of_eq_some hold
      exact ⟨H.session _ _ hold, counter_ahead ht h (H.version _ _ hold) hpresent⟩
    · refine ⟨show info.sessionId = _ from H.session _ _ hold, ?_⟩
      have hpresent : (s.sources.find? id).isSome := Option.isSome_of_eq_some hold
      have hg : s'.gSessionVersion = s.gSessionVersion + 1 := by
        rcases (counter_occur h).2 with ⟨-, hg⟩ | ⟨hn, -⟩
        · exact hg
        · exact absurd hu hn
      have hmax := ht.counter hu id (.inl hpresent)
      rw [H.observers, hg, ← UInt32.add_assoc]
      exact add_one_lt_add_one (H.version _ _ hold) hmax
    · obtain ⟨hsid, hver⟩ := prepared_version hprep hk
      rw [hstored.session.1, hstored.session.2, hsid, hver]
      have hc : (Event.request r).Counts host s := ⟨hk, by rw [hprep]; rfl⟩
      have hg : s'.gSessionVersion = s.gSessionVersion + 1 := by
        rcases (counter_occur h).2 with ⟨-, hg⟩ | ⟨hn, -⟩
        · exact hg
        · exact absurd hc hn
      refine ⟨rfl, ?_⟩
      rw [hg, ← UInt32.add_assoc]
      exact lt_add_one (le_refl _) (ht.counter hc _ (.inr ⟨r, rfl, rfl⟩))
  exact ⟨(counter_occur h).1.trans H.observers, fun id info hf => (hstep id info hf).1,
    fun id info hf => (hstep id info hf).2⟩

/-- The versions of a session manager that has just started. -/
theorem counted_start (env : Env) (now : ℕ) : (start host env now).Counted host := by
  have hnone : ∀ id, (start host env now).sources.find? id = none := fun id =>
    SortedMap.find?_empty id
  exact ⟨rfl, fun id info hf => by simp [hnone id] at hf, fun id info hf => by simp [hnone id] at hf⟩

/-- Two descriptions of one source, apart in time. -/
theorem supersedes_run {es : List Event} (H : s.Counted host)
    (ht : Along (occur host) (fun s e => e.Tracked host s) s es) {id : UInt8}
    (hstay : Along (occur host) (fun s _ => (s.sources.find? id).isSome) s es)
    (hrun : run (occur host) s es = some s') {info info' : StreamInfo}
    (hf : s.sources.find? id = some info) (hf' : s'.sources.find? id = some info') :
    Supersedes host s s' info info' := by
  let Inv : SessionManager → Prop := fun t =>
    t.Counted host ∧ ∀ i, t.sources.find? id = some i → Supersedes host s t info i
  have hstart : Inv s :=
    ⟨H, fun i hi => by obtain rfl := Option.some.inj (hf.symm.trans hi); exact supersedes_refl _⟩
  refine (run_keeps (J := Inv) ?_ hstart (ht.and hstay) hrun).2 info' hf'
  rintro t e t' ⟨hcount, hsup⟩ ⟨htrack, hpresent⟩ hocc
  obtain ⟨mid, hmid⟩ := Option.isSome_iff_exists.mp hpresent
  exact ⟨counted_occur hcount htrack hocc, fun i hi =>
    (hsup mid hmid).trans (supersedes_occur hcount htrack hocc hmid hi)⟩

/-- **The versions of session descriptions**: of two texts of a source that stays
and whose secondary interface keeps its address, the later one is the same, or it
has the same session id and a greater version, in every run in which the domain
and the sample rate only change without sources and no version wraps. -/
theorem sdp_versions (host : Host) (env₀ : Env) (now : ℕ) {before between : List Event}
    (hrun : run (occur host) (start host env₀ now) before = some s)
    (hrun' : run (occur host) s between = some s')
    (ht : Along (occur host) (fun s e => e.Tracked host s) (start host env₀ now)
      (before ++ between)) (id : UInt32)
    (hstay : Along (occur host) (fun s _ => (s.sources.find? id.toUInt8).isSome) s between)
    {env env' : Env} (henv : env'.secondaryIp host = env.secondaryIp host) {sdp sdp' : Text}
    (hsdp : s.getSourceSdpOf host env id = some sdp)
    (hsdp' : s'.getSourceSdpOf host env' id = some sdp') (hne : sdp' ≠ sdp) :
    (sdpGetOrigin sdp').sessionId = (sdpGetOrigin sdp).sessionId ∧
      (sdpGetOrigin sdp).sessionVersion < (sdpGetOrigin sdp').sessionVersion := by
  have hcount : s.Counted host := run_keeps (fun _ _ _ => counted_occur) (counted_start env₀ now)
    ht.left hrun
  have hcount' : s'.Counted host := run_keeps (fun _ _ _ => counted_occur) hcount
    (ht.right hrun) hrun'
  obtain ⟨info, hf, rfl⟩ := Option.map_eq_some_iff.mp hsdp
  obtain ⟨info', hf', rfl⟩ := Option.map_eq_some_iff.mp hsdp'
  have hsup := supersedes_run hcount (ht.right hrun) hstay hrun' hf hf'
  have henv' : ∀ ptp rate i, getSourceSdp host env' ptp rate i = getSourceSdp host env ptp rate i :=
    fun ptp rate i => by simp only [getSourceSdp, henv]
  have hver : info'.sessionVersion ≠ info.sessionVersion := fun heq =>
    hne ((henv' _ _ _).trans (hsup.2 heq env))
  rw [sdpGetOrigin_getSourceSdp, sdpGetOrigin_getSourceSdp]
  refine ⟨?_, ?_⟩
  · rw [StreamInfo.sourceOrigin, StreamInfo.sourceOrigin, hcount.session _ _ hf,
      hcount'.session _ _ hf']
  · have hlt : info.sessionVersion < info'.sessionVersion := lt_of_le_of_ne hsup.1 hver.symm
    rw [UInt32.lt_iff_toNat_lt] at hlt
    have hsize : ∀ v : UInt32, (UInt64.ofNat v.toNat).toNat = v.toNat := fun v =>
      UInt64.toNat_ofNat_of_lt (lt_of_lt_of_le v.toNat_lt (by decide))
    rw [StreamInfo.sourceOrigin, StreamInfo.sourceOrigin, UInt64.lt_iff_toNat_lt, hsize, hsize]
    exact hlt

/-- A source is added, and then the grandmaster appears. -/
theorem sdp_versions_gmid : ∃ s s' sdp sdp',
    run (occur {}) (start {} {} 0) [.request (.addSource (.answering none (.ok 7) (.error (.driver 1)))
      (stereoSource 1 "a".toList))] = some s ∧
    run (occur {}) s [.ptpTick {} (some { ui64GMID := 1 })] = some s' ∧
    s.getSourceSdpOf {} {} 1 = some sdp ∧ s'.getSourceSdpOf {} {} 1 = some sdp' ∧ sdp' ≠ sdp ∧
    (sdpGetOrigin sdp).sessionVersion < (sdpGetOrigin sdp').sessionVersion := by
  have hrun : ((run (occur {}) (start {} {} 0) [.request (.addSource
      (.answering none (.ok 7) (.error (.driver 1))) (stereoSource 1 "a".toList))]).bind fun s =>
      (run (occur {}) s [.ptpTick {} (some { ui64GMID := 1 })]).bind fun s' =>
        (s.getSourceSdpOf {} {} 1).bind fun sdp => (s'.getSourceSdpOf {} {} 1).map fun sdp' =>
          (decide (sdp' = sdp), s.sources.entries.map Prod.fst, s.gSessionVersion)) =
      some (false, [1], 1) := by decide +kernel
  simp only [Option.bind_eq_some_iff, Option.map_eq_some_iff, Prod.mk.injEq,
    decide_eq_false_iff_not] at hrun
  obtain ⟨s, hs, s', hs', sdp, hsdp, sdp', hsdp', hne, hkeys, hg⟩ := hrun
  have honly : ∀ id, (s.sources.find? id).isSome → id = 1 := by
    intro id hid
    obtain ⟨info, hinfo⟩ := Option.isSome_iff_exists.mp hid
    have hmem := List.mem_map_of_mem (f := Prod.fst) (SortedMap.mem_entries.mpr hinfo)
    rw [hkeys] at hmem
    simpa using hmem
  refine ⟨s, s', sdp, sdp', hs, hs', hsdp, hsdp', hne, (sdp_versions {} {} 0 hs hs' ?_ 1 ?_ rfl hsdp
    hsdp' hne).2⟩
  · refine ⟨⟨nofun, nofun, fun _ id hid => ?_⟩, fun t ht => ⟨⟨nofun, nofun, fun _ id hid => ?_⟩,
      fun _ _ => trivial⟩⟩
    · rcases hid with hid | ⟨r, hr, rfl⟩
      · have hnone : (start {} {} 0).sources.find? id = none := SortedMap.find?_empty id
        rw [hnone] at hid
        cases hid
      · cases hr
        decide +kernel
    · rcases hid with hid | ⟨r, hr, -⟩
      · obtain rfl : t = s := Option.some.inj (by rw [← hs, run_cons, ht]; rfl)
        rw [honly id hid, hg]
        decide +kernel
      · cases hr
  · exact ⟨by simpa [getSourceSdpOf] using Option.isSome_of_eq_some hsdp, fun _ _ => trivial⟩

/-- An event after which the text of a source differs and its version is no greater. -/
def StaleText (e : Event) : Prop :=
  ∃ s s' sdp sdp',
    run (occur {}) (start {} {} 0) [.request (.addSource (.answering none (.ok 7) (.error (.driver 1)))
      (stereoSource 1 "a".toList))] = some s ∧ run (occur {}) s [e] = some s' ∧
    s.getSourceSdpOf {} {} 1 = some sdp ∧ s'.getSourceSdpOf {} {} 1 = some sdp' ∧ sdp' ≠ sdp ∧
    ¬ (sdpGetOrigin sdp).sessionVersion < (sdpGetOrigin sdp').sessionVersion

/-- A new PTP domain, and a new sample rate before the next tick, show in a text
whose version stays. -/
theorem sdp_version_stale : StaleText (.setPtpConfig none { domain := 1 }) ∧
    StaleText (.setSampleRate 96000) := by
  have hstale : ∀ e, ((run (occur {}) (start {} {} 0) [.request (.addSource
      (.answering none (.ok 7) (.error (.driver 1))) (stereoSource 1 "a".toList))]).bind fun s =>
      (run (occur {}) s [e]).bind fun s' =>
        (s.getSourceSdpOf {} {} 1).bind fun sdp => (s'.getSourceSdpOf {} {} 1).map fun sdp' =>
          (decide (sdp' = sdp),
            decide ((sdpGetOrigin sdp).sessionVersion < (sdpGetOrigin sdp').sessionVersion))) =
      some (false, false) → StaleText e := by
    intro e hrun
    simp only [Option.bind_eq_some_iff, Option.map_eq_some_iff, Prod.mk.injEq,
      decide_eq_false_iff_not] at hrun
    obtain ⟨s, hs, s', hs', sdp, hsdp, sdp', hsdp', hne, hver⟩ := hrun
    exact ⟨s, s', sdp, sdp', hs, hs', hsdp, hsdp', hne, hver⟩
  exact ⟨hstale _ (by decide +kernel), hstale _ (by decide +kernel)⟩

end SessionManager
end Aes67Daemon
