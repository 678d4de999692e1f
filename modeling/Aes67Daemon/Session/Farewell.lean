import Aes67Daemon.Session.Wire

/-!
# Farewells

A browser elsewhere hears what `process_sap` sends, as far as it arrives: messages may
be lost, doubled, or overtake each other within a round.  What is announced no more is
deleted `max_deletions` times, so that a browser forgets it if it hears one of these, and
when the worker ends it deletes everything it still knows of.

## Main definitions

* `SessionManager.farewell` — the calls of the worker when it ends.
* `Air`, `Air.step` — a daemon, and a browser that hears it.
* `Air.Guard` — what has to arrive.
* `remote_session_known`, `farewell_leaves_none` — what the browser has.
-/
namespace Aes67Daemon

open Text

/-- The calls of `worker` when it ends. -/
def SessionManager.farewell (s : SessionManager) : List SapCall :=
  s.announcedSources.entries.map SapPass.deletion

/-- A daemon that announces, and a browser elsewhere. -/
structure Air where
  daemon : SessionManager
  remote : Browser := {}
  /-- The hashes of which the browser has heard a deletion since they were active. -/
  told : UInt32 → Bool := fun _ => false

inductive AirEvent
  /-- An event of the daemon. -/
  | event (e : Event)
  /-- A call of `process_sap`, with what the browser hears of it, and when. -/
  | processSap (env : Env) (heard : List (ℕ × SapCall))
  /-- Another event of the browser. -/
  | elsewhere (e : BrowserEvent)

/-- The browser after it has heard some calls. -/
def Browser.hear (sapInterval : UInt16) (b : Browser) (heard : List (ℕ × SapCall)) : Browser :=
  (heard.map fun x => BrowserEvent.sap x.1 x.2.message).foldl (Browser.occur sapInterval) b

namespace Air

/-- The state after an event, if it is defined. -/
def step (host : Host) (sapInterval : UInt16) (w : Air) : AirEvent → Option Air
  | .event e => (w.daemon.occur host e).map fun s => { w with daemon := s }
  | .processSap env heard =>
    some
      { daemon := (w.daemon.processSap host env).2.2
        remote := w.remote.hear sapInterval heard
        told := fun h => !w.daemon.sapActive host env h &&
          (w.told h || heard.any fun x => !x.2.isAnnounce && x.2.hash == h) }
  | .elsewhere e => some { w with remote := w.remote.occur sapInterval e }

def start (host : Host) (env : Env) (now : ℕ) : Air :=
  { daemon := SessionManager.start host env now }

/-- What is heard has been sent, and of the deletions of a hash that is forgotten after
this round one has arrived.  Other hosts have other addresses. -/
def Guard (host : Host) (sapInterval : UInt16) (w : Air) : AirEvent → Prop
  | .event _ => True
  | .processSap env heard =>
    (∀ x ∈ heard, x.2 ∈ (w.daemon.processSap host env).1) ∧
      ∀ w', w.step host sapInterval (.processSap env heard) = some w' → ∀ h,
        (w.daemon.announcedSources.find? h).isSome = true →
          w'.daemon.announcedSources.find? h = none → w'.told h = true
  | .elsewhere (.sap _ m) => m.addr ≠ Address.htonl host.config.ipAddr
  | .elsewhere _ => True

end Air

/-! ## What a browser makes of what it hears -/

namespace Browser
variable {sapInterval : UInt16} {addr : UInt32} {crc : UInt16} {b : Browser}

/-- A session that a browser has after it heard some calls was among those it heard
announced, or it was there and not among those it heard deleted. -/
theorem session_of_heard {heard : List (ℕ × SapCall)} {o : Option RemoteEntry}
    (h : ((heard.map fun x => BrowserEvent.sap x.1 x.2.message).foldl
      (session sapInterval addr crc) o).isSome = true) :
    (∃ x ∈ heard, x.2.isAnnounce = true ∧ Address.htonl x.2.srcAddr = addr ∧ x.2.msgIdHash = crc) ∨
      o.isSome = true ∧ ∀ x ∈ heard, x.2.isAnnounce = false → Address.htonl x.2.srcAddr = addr →
        x.2.msgIdHash ≠ crc := by
  induction heard generalizing o with
  | nil => exact .inr ⟨h, nofun⟩
  | cons x heard ih =>
      rw [List.map_cons, List.foldl_cons] at h
      rcases ih h with ⟨y, hy, hann⟩ | ⟨hsome, hnone⟩
      · exact .inl ⟨y, List.mem_cons_of_mem _ hy, hann⟩
      by_cases hkey : Address.htonl x.2.srcAddr = addr ∧ x.2.msgIdHash = crc
      · cases hann : x.2.isAnnounce with
        | true => exact .inl ⟨x, List.mem_cons_self, hann, hkey⟩
        | false => simp [session, SapCall.message, hkey, hann] at hsome
      · have hsame : session sapInterval addr crc o (.sap x.1 x.2.message) = o := if_neg hkey
        rw [hsame] at hsome
        refine .inr ⟨hsome, fun y hy hdel haddr hcrc => ?_⟩
        rcases List.mem_cons.mp hy with rfl | hy
        · exact hkey ⟨haddr, hcrc⟩
        · exact hnone y hy hdel haddr hcrc

theorem hear_session (H : b.IdsByProtocol) (heard : List (ℕ × SapCall)) :
    (b.hear sapInterval heard).sources.find? (sapId addr crc) =
      (heard.map fun x => BrowserEvent.sap x.1 x.2.message).foldl (session sapInterval addr crc)
        (b.sources.find? (sapId addr crc)) :=
  find?_run H _ addr crc

/-- What else happens makes no session of an address. -/
theorem session_elsewhere {e : BrowserEvent} (H : b.IdsByProtocol)
    (he : ∀ now m, e = .sap now m → m.addr ≠ addr)
    (h : ((b.occur sapInterval e).sources.find? (sapId addr crc)).isSome = true) :
    (b.sources.find? (sapId addr crc)).isSome = true := by
  rw [find?_occur H] at h
  cases e with
  | sap now m =>
      have hne : ¬ (m.addr = addr ∧ m.msgIdHash = crc) := fun hk => he now m rfl hk.1
      simpa only [session, if_neg hne] using h
  | sweep offset now =>
      obtain ⟨it, hit⟩ := Option.isSome_iff_exists.mp h
      exact Option.isSome_of_eq_some (Option.filter_eq_some_iff.mp hit).1
  | change now name domain address sdp => exact h
  | remove now name domain => exact h

end Browser

namespace SapPass

/-- The checksum is the lower half of a hash. -/
theorem toUInt16_hashOf (id : UInt8) (sdp : Text) : (hashOf id sdp).toUInt16 = crc16 sdp := by
  refine UInt16.toNat_inj.mp ?_
  have hcrc := (crc16 sdp).toNat_lt
  simp only [hashOf, UInt32.toNat_toUInt16, UInt32.toNat_add, UInt32.toNat_shiftLeft,
    UInt8.toNat_toUInt32, UInt16.toNat_toUInt32, Nat.shiftLeft_eq]
  have hshift : (16 : UInt32).toNat % 32 = 16 := rfl
  rw [hshift]
  omega

end SapPass

namespace SessionManager
variable {host : Host} {env : Env} {s s' : SessionManager}

/-- The hash of a source that is active is announced after the call. -/
theorem announced_of_active (H : s.SapAligned) {h : UInt32} (hactive : s.sapActive host env h = true) :
    ((s.processSap host env).2.2.announcedSources.find? h).isSome = true := by
  obtain ⟨halign, hcount, -, -⟩ := processSap_spec host env s H
  rw [halign h, hcount h, hactive]
  rfl

/-- What the calls are about: an announcement is one of an active hash, and a hash that is
announced and not active is deleted. -/
theorem processSap_calls (H : s.HostAddressed host) (env : Env) :
    (∀ c ∈ (s.processSap host env).1, c.srcAddr = host.config.ipAddr ∧
      c.msgIdHash = c.hash.toUInt16 ∧ (c.isAnnounce = true → s.sapActive host env c.hash = true)) := by
  obtain ⟨⟨gone, hcalls, hgone⟩, -⟩ := SapPass.run_calls (s.sapSdp host env)
    s.sources.entries { announced := s.announcedSources, deletedCount := s.deletedSourcesCount } rfl rfl
  have hcalls : (s.processSap host env).1 = _ := hcalls
  intro c hc
  rw [hcalls, List.mem_append] at hc
  rcases hc with hc | hc
  · obtain ⟨e, he, rfl⟩ := List.mem_map.mp hc
    refine ⟨H.sources e.1 e.2 (SortedMap.mem_entries.mp (List.mem_filter.mp he).1),
      (SapPass.toUInt16_hashOf ..).symm, fun _ => decide_eq_true ?_⟩
    exact List.mem_map.mpr ⟨e, he, rfl⟩
  · obtain ⟨⟨h, a⟩, he, rfl⟩ := List.mem_map.mp hc
    exact ⟨H.announced h a ((hgone h a).mp he).1, rfl, nofun⟩

theorem sapAligned_occurSap {e : SapEvent} (H : s.SapAligned) (h : s.occurSap host e = some s') :
    s'.SapAligned := by
  cases e with
  | processSap env =>
      obtain rfl := Option.some.inj h
      exact (processSap_spec host env s H).1
  | event e =>
      have hmaps : s'.announcedSources = s.announcedSources ∧
          s'.deletedSourcesCount = s.deletedSourcesCount := by
        cases e with
        | request r =>
            obtain ⟨⟨ret, t⟩, hserve, rfl⟩ := Option.map_eq_some_iff.mp h
            have hout := (serve_outside hserve).1
            exact ⟨congrArg Outside.announcedSources hout, congrArg Outside.deletedSourcesCount hout⟩
        | setPtpConfig reply config =>
            obtain rfl := Option.some.inj h
            cases reply <;> exact ⟨rfl, rfl⟩
        | setSampleRate rate =>
            obtain rfl := Option.some.inj h
            exact ⟨rfl, rfl⟩
        | ptpTick env report =>
            obtain rfl := Option.some.inj h
            rcases ptpTick_cases host env report s with ⟨-, status, -, hs⟩ | ⟨-, status, told, hs⟩ <;>
              rw [hs] <;> exact ⟨rfl, rfl⟩
      intro k
      rw [hmaps.1, hmaps.2]
      exact H k

theorem sapAligned_start (env : Env) (now : ℕ) : (start host env now).SapAligned := fun _ => rfl

end SessionManager

/-! ## What the browser has -/

namespace Air
variable {host : Host} {sapInterval : UInt16} {w w' : Air}

/-- What holds of a daemon and a browser: every session the browser has from the daemon
is that of an announced hash of which it has heard no deletion. -/
structure Known (host : Host) (w : Air) : Prop where
  addressed : w.daemon.HostAddressed host
  aligned : w.daemon.SapAligned
  ids : w.remote.IdsByProtocol
  known : ∀ crc,
    (w.remote.sources.find? (sapId (Address.htonl host.config.ipAddr) crc)).isSome = true →
      ∃ h, (w.daemon.announcedSources.find? h).isSome = true ∧ w.told h = false ∧ h.toUInt16 = crc

/-- The daemon of a step takes a step of its own. -/
theorem daemon_step {e : AirEvent} (h : w.step host sapInterval e = some w') :
    w'.daemon = w.daemon ∨ ∃ e, w.daemon.occurSap host e = some w'.daemon := by
  cases e with
  | event e =>
      obtain ⟨s, hs, rfl⟩ := Option.map_eq_some_iff.mp h
      exact .inr ⟨.event e, hs⟩
  | processSap env heard =>
      obtain rfl := Option.some.inj h
      exact .inr ⟨.processSap env, rfl⟩
  | elsewhere e =>
      obtain rfl := Option.some.inj h
      exact .inl rfl

/-- **One event keeps the sessions known.** -/
theorem known_step (H : w.Known host) {e : AirEvent} (hguard : w.Guard host sapInterval e)
    (h : w.step host sapInterval e = some w') : w'.Known host := by
  have hdaemon : w'.daemon.HostAddressed host ∧ w'.daemon.SapAligned := by
    rcases daemon_step h with heq | ⟨e, he⟩
    · exact heq ▸ ⟨H.addressed, H.aligned⟩
    · exact ⟨SessionManager.hostAddressed_occur H.addressed he,
        SessionManager.sapAligned_occurSap H.aligned he⟩
  cases e with
  | event e =>
      obtain ⟨s, hs, rfl⟩ := Option.map_eq_some_iff.mp h
      refine ⟨hdaemon.1, hdaemon.2, H.ids, fun crc hcrc => ?_⟩
      rw [show s.announcedSources = w.daemon.announcedSources from SessionManager.announcedSources_occur hs]
      exact H.known crc hcrc
  | elsewhere e =>
      obtain rfl := Option.some.inj h
      refine ⟨hdaemon.1, hdaemon.2, Browser.idsByProtocol_occur H.ids e, fun crc hcrc => ?_⟩
      refine H.known crc (Browser.session_elsewhere H.ids (fun now m hm => ?_) hcrc)
      subst hm
      exact hguard
  | processSap env heard =>
      obtain ⟨hsent, hlast⟩ := hguard
      have hlast := hlast w' h
      obtain rfl := Option.some.inj h
      refine ⟨hdaemon.1, hdaemon.2, Browser.idsByProtocol_run H.ids _, fun crc hcrc => ?_⟩
      rw [Browser.hear_session H.ids] at hcrc
      have hcalls := SessionManager.processSap_calls H.addressed env
      rcases Browser.session_of_heard hcrc with ⟨x, hx, hann, -, rfl⟩ | ⟨hold, hkept⟩
      · -- An announcement: its hash is active.
        obtain ⟨-, hlow, hactive⟩ := hcalls x.2 (hsent x hx)
        have hactive := hactive hann
        exact ⟨x.2.hash, SessionManager.announced_of_active H.aligned hactive, by simp [hactive],
          hlow.symm⟩
      · obtain ⟨h, hannounced, htold, rfl⟩ := H.known crc hold
        cases hactive : w.daemon.sapActive host env h with
        | true =>
            exact ⟨h, SessionManager.announced_of_active H.aligned hactive, by simp [hactive], rfl⟩
        | false =>
            -- No deletion of it was heard, so it is not forgotten either.
            have hmissed : (heard.any fun x => !x.2.isAnnounce && x.2.hash == h) = false := by
              rw [List.any_eq_false]
              intro x hx hdel
              simp only [Bool.and_eq_true, Bool.not_eq_true', beq_iff_eq] at hdel
              obtain ⟨haddr, hlow, -⟩ := hcalls x.2 (hsent x hx)
              exact hkept x hx hdel.1 (congrArg _ haddr) (by rw [hlow, hdel.2])
            refine ⟨h, ?_, by simp [htold, hmissed], rfl⟩
            by_contra hnone
            have := hlast h hannounced (Option.not_isSome_iff_eq_none.mp hnone)
            simp [htold, hmissed] at this

theorem known_start (env : Env) (now : ℕ) : (start host env now).Known host :=
  ⟨SessionManager.hostAddressed_start env now, SessionManager.sapAligned_start env now,
    Browser.idsByProtocol_empty, fun crc h => by
      rw [start, show ({} : Browser).sources.find? _ = none from Keyed.find?_empty _] at h
      cases h⟩

/-- **A browser has nothing the daemon does not know of**: along every run, a session it
has from the daemon is that of an announced hash of which no deletion has arrived. -/
theorem remote_session_known {es : List AirEvent} {env₀ : Env} {now : ℕ}
    (hguard : Along (step host sapInterval) (Guard host sapInterval) (start host env₀ now) es)
    (hrun : run (step host sapInterval) (start host env₀ now) es = some w) : w.Known host :=
  run_keeps (P := Guard host sapInterval) (fun _ _ _ H hg hs => known_step H hg hs)
    (known_start env₀ now) hguard hrun

/-- **No session is left when the worker has ended**: of every hash that is announced then,
one deletion must have arrived since it was active, at the end or before it. -/
theorem farewell_leaves_none {es : List AirEvent} {env₀ : Env} {now : ℕ}
    (hguard : Along (step host sapInterval) (Guard host sapInterval) (start host env₀ now) es)
    (hrun : run (step host sapInterval) (start host env₀ now) es = some w)
    {heard : List (ℕ × SapCall)} (hsent : ∀ x ∈ heard, x.2 ∈ w.daemon.farewell)
    (harrived : ∀ c ∈ w.daemon.farewell, w.told c.hash = false → ∃ t, (t, c) ∈ heard) (crc : UInt16) :
    (w.remote.hear sapInterval heard).sources.find? (sapId (Address.htonl host.config.ipAddr) crc) =
      none := by
  have H := remote_session_known hguard hrun
  rw [← Option.not_isSome_iff_eq_none, Browser.hear_session H.ids]
  intro hleft
  rcases Browser.session_of_heard hleft with ⟨x, hx, hann, -⟩ | ⟨hold, hkept⟩
  · obtain ⟨a, -, ha⟩ := List.mem_map.mp (hsent x hx)
    rw [← ha] at hann
    cases hann
  · obtain ⟨h, hannounced, htold, rfl⟩ := H.known crc hold
    obtain ⟨a, ha⟩ := Option.isSome_iff_exists.mp hannounced
    have hmem : SapPass.deletion (h, a) ∈ w.daemon.farewell :=
      List.mem_map_of_mem (SortedMap.mem_entries.mpr ha)
    obtain ⟨t, ht⟩ := harrived _ hmem htold
    exact hkept _ ht rfl (congrArg _ (H.addressed.announced h a ha)) rfl

/-- The request for a source, which the driver grants. -/
def singleSource : Event :=
  .request (.addSource (.answering none (.ok 7) (.error (.driver 1))) (stereoSource 1 "a".toList))

/-- A browser that has heard the announcement of the only source, and then the farewell. -/
theorem farewell_leaves_none_single : ∃ w heard,
    run (step {} 30) (start {} {} 0) [.event singleSource, .processSap {} heard] = some w ∧
      w.remote.sources.entries.length = 1 ∧
      ∀ crc, (w.remote.hear 30 (w.daemon.farewell.map (9, ·))).sources.find?
        (sapId (Address.htonl ({} : Host).config.ipAddr) crc) = none := by
  have hrun : ((SessionManager.start {} {} 0).occur {} singleSource).map
      (fun s => (s.announcedSources.entries, (({} : Browser).hear 30
        ((s.processSap {} {}).1.map (5, ·))).sources.entries.length)) = some ([], 1) := by
    decide +kernel
  obtain ⟨s, hs, hstate⟩ := Option.map_eq_some_iff.mp hrun
  obtain ⟨hnone, hone⟩ := Prod.mk.inj hstate
  have hempty : ∀ h, s.announcedSources.find? h = none := fun h => by
    rw [← Option.not_isSome_iff_eq_none, SapPass.isSome_find?_iff, hnone]
    exact List.not_mem_nil
  let heard := (s.processSap {} {}).1.map ((5 : ℕ), ·)
  obtain ⟨w, hw⟩ : ∃ w, step {} 30 { daemon := s } (.processSap {} heard) = some w := ⟨_, rfl⟩
  have hfirst : step {} 30 (start {} {} 0) (.event singleSource) = some { daemon := s } := by
    simp only [step, start, hs, Option.map_some]
  have hround : run (step {} 30) (start {} {} 0) [.event singleSource, .processSap {} heard] = some w := by
    rw [run_cons, hfirst, Option.bind_some, run_cons, hw, Option.bind_some, run_nil]
  have hguard : Along (step {} 30) (Guard {} 30) (start {} {} 0) [.event singleSource, .processSap {} heard] := by
    refine along_cons.mpr ⟨trivial, fun w₁ hw₁ => along_cons.mpr ⟨?_, fun _ _ => trivial⟩⟩
    obtain rfl := Option.some.inj (hfirst.symm.trans hw₁)
    refine ⟨fun x hx => ?_, fun w' _ h hold => by simp [hempty h] at hold⟩
    obtain ⟨c, hc, rfl⟩ := List.mem_map.mp hx
    exact hc
  refine ⟨w, heard, hround, ?_, fun crc => farewell_leaves_none hguard hround (fun x hx => ?_)
    (fun c hc _ => ⟨9, List.mem_map_of_mem hc⟩) crc⟩
  · obtain rfl := Option.some.inj hw
    exact hone
  · obtain ⟨c, hc, rfl⟩ := List.mem_map.mp hx
    exact hc

end Air
end Aes67Daemon
