import Aes67Daemon.Browser.Store
import Aes67Daemon.Session.Events

/-!
# Announcements on the wire

The announced hashes tell the sources apart, as they carry the id of the source.
Only the checksum of the description goes on the wire, with the address of the
host, which is the same for all sources.

## Main definitions

* `SapCall.wire` — by which a remote browser knows a session.
* `WireApart`, `RemoteKeeps` — no call hits another enabled source, here and in a
  browser that hears the calls.
* `SessionManager.CrcApart` — the checksums of the descriptions differ.
* `wire_apart_iff` — the calls are apart when the checksums are.
-/
namespace Aes67Daemon

open Text

namespace SapCall

/-- By which a remote browser knows the session of a call. -/
def wire (c : SapCall) : UInt32 × UInt16 := (c.srcAddr, c.msgIdHash)

/-- The message a remote browser receives. -/
def message (c : SapCall) : SapMessage :=
  { isAnnounce := c.isAnnounce
    msgIdHash := c.msgIdHash
    addr := Address.htonl c.srcAddr
    sdp := c.sdp }

/-- The id a remote browser gives the session of a call. -/
def remoteId (c : SapCall) : Text := sapId (Address.htonl c.srcAddr) c.msgIdHash

end SapCall

/-- The announcements among the calls. -/
def announcements (calls : List SapCall) : List SapCall := calls.filter fun c => c.isAnnounce

/-- No two announcements are for one session on the wire, and no deletion is for one
that is announced. -/
def WireApart (calls : List SapCall) : Prop :=
  ((announcements calls).map SapCall.wire).Nodup ∧
    ∀ d ∈ calls, d.isAnnounce = false → d.wire ∉ (announcements calls).map SapCall.wire

/-- A browser that hears the calls, after whatever it has heard before, has one entry
for each announcement. -/
def RemoteKeeps (calls : List SapCall) : Prop :=
  ((announcements calls).map SapCall.remoteId).Nodup ∧
    ∀ (sapInterval : UInt16) (es : List BrowserEvent) (times : List ℕ),
      times.length = calls.length → ∀ c ∈ announcements calls,
        (((es ++ calls.zipWith (fun c t => BrowserEvent.sap t c.message) times).foldl
          (Browser.occur sapInterval) {}).sources.find? c.remoteId).isSome

/-- What happens to a session manager that announces. -/
inductive SapEvent
  | event (e : Event)
  | processSap (env : Env)

namespace SapPass
variable {sdpOf : StreamInfo → Text}

variable (sdpOf) in
/-- The first pass leaves the hashes of no enabled source alone, and enters the
address of a source under the others. -/
theorem announce_address (es : List (UInt8 × StreamInfo)) (p : SapPass) :
    (∀ h, h ∉ hashes sdpOf es →
      (es.foldl (announceSource sdpOf) p).announced.find? h = p.announced.find? h) ∧
    ∀ h a, (es.foldl (announceSource sdpOf) p).announced.find? h = some a →
      p.announced.find? h = some a ∨ ∃ e ∈ es, a.1 = e.2.stream.leg0.ui32RTCPSrcIP := by
  induction es generalizing p with
  | nil => exact ⟨fun _ _ => rfl, fun _ _ h => .inl h⟩
  | cons e es ih =>
      obtain ⟨hkeep, haddr⟩ := ih (announceSource sdpOf p e)
      rw [List.foldl_cons]
      cases hen : e.2.enabled with
      | false =>
          have hp : announceSource sdpOf p e = p := by simp [announceSource, hen]
          have hhashes : hashes sdpOf (e :: es) = hashes sdpOf es := by simp [hashes, hen]
          rw [hp] at hkeep haddr ⊢
          rw [hhashes]
          refine ⟨hkeep, fun h a ha => (haddr h a ha).imp_right ?_⟩
          rintro ⟨e', he', ha'⟩
          exact ⟨e', List.mem_cons_of_mem _ he', ha'⟩
      | true =>
          have hhashes : hashes sdpOf (e :: es) = hashOf e.1 (sdpOf e.2) :: hashes sdpOf es := by
            simp [hashes, hen]
          have hstep : ∀ h, (announceSource sdpOf p e).announced.find? h =
              if h = hashOf e.1 (sdpOf e.2) then
                some (e.2.stream.leg0.ui32RTCPSrcIP, e.2.sessionId, e.2.sessionVersion)
              else p.announced.find? h := fun h => by
            simp [announceSource, hen, SortedMap.find?_insert]
          refine ⟨fun h hh => ?_, fun h a ha => ?_⟩
          · rw [hhashes, List.mem_cons, not_or] at hh
            rw [hkeep h hh.2, hstep, if_neg hh.1]
          · rcases haddr h a ha with hold | ⟨e', he', ha'⟩
            · rw [hstep] at hold
              split at hold
              · obtain rfl := Option.some.inj hold
                exact .inr ⟨e, List.mem_cons_self, rfl⟩
              · exact .inl hold
            · exact .inr ⟨e', List.mem_cons_of_mem _ he', ha'⟩

variable (sdpOf) in
/-- The calls of the three passes, and what is announced after them. -/
theorem run_calls (es : List (UInt8 × StreamInfo)) (p : SapPass) (hactive : p.active = [])
    (hcalls : p.calls = []) :
    (∃ gone : List (UInt32 × UInt32 × UInt32 × UInt32),
      (p.run sdpOf es).calls =
        (es.filter fun e => e.2.enabled).map (announcement sdpOf) ++ gone.map deletion ∧
      ∀ h a, (h, a) ∈ gone ↔ p.announced.find? h = some a ∧ h ∉ hashes sdpOf es) ∧
    ∀ h a, (p.run sdpOf es).announced.find? h = some a →
      p.announced.find? h = some a ∨ ∃ e ∈ es, a.1 = e.2.stream.leg0.ui32RTCPSrcIP := by
  obtain ⟨hkeep, haddr⟩ := announce_address sdpOf es p
  generalize hp1 : es.foldl (announceSource sdpOf) p = p1 at *
  obtain ⟨hcalls, -, hann⟩ := run_passes es hactive hcalls hp1
  refine ⟨⟨_, hcalls, fun h a => ?_⟩, fun h a ha => ?_⟩
  · simp only [List.mem_filter, SortedMap.mem_entries, decide_eq_true_eq]
    exact and_congr_left fun hh => by rw [hkeep h hh]
  · rw [hann h] at ha
    split at ha
    · cases ha
    · exact haddr h a ha

end SapPass

namespace SessionManager
variable {host : Host} {s s' : SessionManager}

/-- The state after an event, if it is defined. -/
def occurSap (host : Host) (s : SessionManager) : SapEvent → Option SessionManager
  | .event e => s.occur host e
  | .processSap env => some (s.processSap host env).2.2

/-- The checksums of the descriptions of the enabled sources. -/
def liveCrcs (host : Host) (env : Env) (s : SessionManager) : List UInt16 :=
  (s.sources.entries.filter fun e => e.2.enabled).map fun e => crc16 (s.sapSdp host env e.2)

/-- The checksums of the descriptions of the enabled sources differ, and none of them is
the one of a description that was announced, by whatever source, and is retracted. -/
def CrcApart (host : Host) (env : Env) (s : SessionManager) : Prop :=
  (s.liveCrcs host env).Nodup ∧
    ∀ h, (s.announcedSources.find? h).isSome = true → s.sapActive host env h = false →
      h.toUInt16 ∉ s.liveCrcs host env

instance (host : Host) (env : Env) (s : SessionManager) : Decidable (s.CrcApart host env) :=
  decidable_of_iff ((s.liveCrcs host env).Nodup ∧ (s.announcedSources.entries.map Prod.fst).all
    (fun h => s.sapActive host env h || decide (h.toUInt16 ∉ s.liveCrcs host env)) = true) <| by
    simp only [CrcApart, SapPass.isSome_find?_iff, List.all_eq_true, Bool.or_eq_true, decide_eq_true_eq,
      or_iff_not_imp_left, Bool.not_eq_true]

/-- All sources, and all announced hashes, have the address of the host. -/
structure HostAddressed (host : Host) (s : SessionManager) : Prop where
  sources : ∀ id info, s.sources.find? id = some info →
    info.stream.leg0.ui32RTCPSrcIP = host.config.ipAddr
  announced : ∀ h a, s.announcedSources.find? h = some a → a.1 = host.config.ipAddr

theorem announcedSources_occur {e : Event} (h : s.occur host e = some s') :
    s'.announcedSources = s.announcedSources := by
  cases e with
  | request r =>
      obtain ⟨⟨ret, t⟩, hserve, rfl⟩ := Option.map_eq_some_iff.mp h
      exact congrArg Outside.announcedSources (serve_outside hserve).1
  | setPtpConfig reply config =>
      obtain rfl := Option.some.inj h
      cases reply <;> rfl
  | setSampleRate rate =>
      obtain rfl := Option.some.inj h
      rfl
  | ptpTick env report =>
      obtain rfl := Option.some.inj h
      rcases ptpTick_cases host env report s with ⟨-, status, -, hs⟩ | ⟨-, status, told, hs⟩
      · rw [hs]
      · rw [hs]

/-- A source sends from the address of the host. -/
theorem sourceStream_address {env : Env} {source : StreamSource} {rate : UInt32}
    {stream : TRTPStreamInfo} (h : sourceStream host env source rate = some stream) :
    stream.ui32RTCPSrcIP = host.config.ipAddr := by
  simp only [sourceStream] at h
  split at h
  · obtain rfl := Option.some.inj h
    rfl
  · obtain ⟨mac, -, rfl⟩ := Option.map_eq_some_iff.mp h
    rfl

/-- **One event keeps the address.** -/
theorem hostAddressed_occur (H : s.HostAddressed host) {e : SapEvent}
    (h : s.occurSap host e = some s') : s'.HostAddressed host := by
  cases e with
  | event e =>
      refine ⟨fun id info' hf => ?_, fun k a ha => H.announced k a ?_⟩
      · rcases find?_of_occur h (k := .source) hf with
          hold | ⟨_, _, info, -, -, -, hold, rfl⟩ | ⟨r, info, rfl, hk, rfl, hprep, hstored⟩
        · exact H.sources id info' hold
        · exact H.sources id info hold
        · have haddr : info'.stream.leg0 = info.stream.leg0 := by cases hstored <;> rfl
          rcases prepared_cases hprep with ⟨_, source, stream, rfl, -, hs, rfl⟩ | ⟨_, _, rfl, -⟩
          · rw [haddr]
            exact sourceStream_address hs
          · cases hk
      · rw [← announcedSources_occur h]
        exact ha
  | processSap env =>
      obtain rfl := Option.some.inj h
      refine ⟨H.sources, fun k a ha => ?_⟩
      obtain ⟨-, hann⟩ := SapPass.run_calls (s.sapSdp host env) s.sources.entries
        { announced := s.announcedSources, deletedCount := s.deletedSourcesCount } rfl rfl
      rcases hann k a ha with hold | ⟨e, he, ha⟩
      · exact H.announced k a hold
      · rw [ha]
        exact H.sources e.1 e.2 (SortedMap.mem_entries.mp he)

theorem hostAddressed_start (env : Env) (now : ℕ) : (start host env now).HostAddressed host := by
  have hnone : ∀ id, (start host env now).sources.find? id = none := fun id =>
    SortedMap.find?_empty id
  have hnone' : ∀ h, (start host env now).announcedSources.find? h = none := fun h =>
    SortedMap.find?_empty h
  exact ⟨fun id info hf => by simp [hnone id] at hf, fun h a ha => by simp [hnone' h] at ha⟩

/-- The calls, with the addresses and the checksums they carry. -/
theorem processSap_wire (H : s.HostAddressed host) (env : Env) :
    ∃ gone : List SapCall,
      (s.processSap host env).1 = (s.sources.entries.filter fun e => e.2.enabled).map
        (SapPass.announcement (s.sapSdp host env)) ++ gone ∧
      (announcements (s.processSap host env).1).map SapCall.wire =
        (s.liveCrcs host env).map (Prod.mk host.config.ipAddr) ∧
      (∀ d ∈ gone, d.isAnnounce = false ∧ d.srcAddr = host.config.ipAddr) ∧
      ∀ crc, (∃ d ∈ gone, d.msgIdHash = crc) ↔
        ∃ h, (s.announcedSources.find? h).isSome = true ∧ s.sapActive host env h = false ∧
          h.toUInt16 = crc := by
  obtain ⟨⟨gone, hcalls, hgone⟩, -⟩ := SapPass.run_calls (s.sapSdp host env)
    s.sources.entries { announced := s.announcedSources, deletedCount := s.deletedSourcesCount }
    rfl rfl
  have hcalls : (s.processSap host env).1 = _ := hcalls
  have hdel : ∀ d ∈ gone.map SapPass.deletion, d.isAnnounce = false := by
    intro d hd
    obtain ⟨e, -, rfl⟩ := List.mem_map.mp hd
    rfl
  refine ⟨gone.map SapPass.deletion, hcalls, ?_, fun d hd => ⟨hdel d hd, ?_⟩, fun crc => ⟨?_, ?_⟩⟩
  · have hkeep : announcements ((s.sources.entries.filter fun e => e.2.enabled).map
        (SapPass.announcement (s.sapSdp host env))) = (s.sources.entries.filter fun e => e.2.enabled).map
          (SapPass.announcement (s.sapSdp host env)) :=
      List.filter_eq_self.mpr fun c hc => by
        obtain ⟨e, -, rfl⟩ := List.mem_map.mp hc
        rfl
    have hdrop : announcements (gone.map SapPass.deletion) = [] :=
      List.filter_eq_nil_iff.mpr fun d hd => by simp [hdel d hd]
    have happ : ∀ xs ys, announcements (xs ++ ys) = announcements xs ++ announcements ys :=
      fun xs ys => List.filter_append ..
    rw [hcalls, happ, hkeep, hdrop, List.append_nil, List.map_map, liveCrcs, List.map_map]
    refine List.map_congr_left fun e he => ?_
    have haddr := H.sources e.1 e.2 (SortedMap.mem_entries.mp (List.mem_filter.mp he).1)
    simp [SapCall.wire, SapPass.announcement, haddr]
  · obtain ⟨⟨h, a⟩, he, rfl⟩ := List.mem_map.mp hd
    exact H.announced h a ((hgone h a).mp he).1
  · rintro ⟨d, hd, rfl⟩
    obtain ⟨⟨h, a⟩, he, rfl⟩ := List.mem_map.mp hd
    obtain ⟨hold, hnot⟩ := (hgone h a).mp he
    exact ⟨h, Option.isSome_of_eq_some hold, decide_eq_false hnot, rfl⟩
  · rintro ⟨h, hold, hactive, rfl⟩
    obtain ⟨a, ha⟩ := Option.isSome_iff_exists.mp hold
    exact ⟨SapPass.deletion (h, a), List.mem_map_of_mem ((hgone h a).mpr
      ⟨ha, of_decide_eq_false hactive⟩), rfl⟩

/-- The calls are apart exactly when the checksums are. -/
theorem wireApart_iff (H : s.HostAddressed host) (env : Env) :
    WireApart (s.processSap host env).1 ↔ s.CrcApart host env := by
  obtain ⟨gone, hcalls, hwire, hgone, hcrc⟩ := processSap_wire H env
  have hinj : Function.Injective (Prod.mk (β := UInt16) host.config.ipAddr) :=
    Prod.mk_right_injective _
  rw [WireApart, hwire, List.nodup_map_iff hinj, CrcApart]
  refine and_congr_right fun _ => ⟨fun hdel h hold hactive hmem => ?_, fun hdel d hd hann hmem => ?_⟩
  · obtain ⟨d, hd, hd'⟩ := (hcrc h.toUInt16).mpr ⟨h, hold, hactive, rfl⟩
    obtain ⟨hann, haddr⟩ := hgone d hd
    refine hdel d (by rw [hcalls]; exact List.mem_append_right _ hd) hann ?_
    rw [SapCall.wire, haddr, hd']
    exact List.mem_map_of_mem hmem
  · rw [hcalls, List.mem_append] at hd
    rcases hd with hd | hd
    · obtain ⟨e, -, rfl⟩ := List.mem_map.mp hd
      cases hann
    · obtain ⟨h, hold, hactive, hh⟩ := (hcrc d.msgIdHash).mp ⟨d, hd, rfl⟩
      obtain ⟨crc, hmem, heq⟩ := List.mem_map.mp hmem
      obtain rfl : crc = d.msgIdHash := congrArg Prod.snd heq
      exact hdel h hold hactive (hh ▸ hmem)

end SessionManager

/-! ## The remote browser -/

namespace Browser
variable {sapInterval : UInt16} {addr : UInt32} {hash : UInt16}

/-- A session that is announced, and not deleted, among other calls. -/
theorem session_heard {calls : List SapCall} {times : List ℕ} (htimes : times.length = calls.length)
    (hkeep : ∀ c ∈ calls, c.remoteId = sapId addr hash → c.isAnnounce = true)
    {o : Option RemoteEntry}
    (h : o.isSome = true ∨ ∃ c ∈ calls, c.remoteId = sapId addr hash) :
    ((calls.zipWith (fun c t => BrowserEvent.sap t c.message) times).foldl
      (session sapInterval addr hash) o).isSome = true := by
  induction calls generalizing times o with
  | nil => simpa using h
  | cons c calls ih =>
      cases times with
      | nil => cases htimes
      | cons t times =>
          rw [List.zipWith_cons_cons, List.foldl_cons]
          refine ih (by simpa using htimes) (fun c' hc' => hkeep c' (List.mem_cons_of_mem _ hc')) ?_
          by_cases hkey : c.remoteId = sapId addr hash
          · have hann := hkeep c List.mem_cons_self hkey
            have hkey' := sapId_inj.mp hkey
            left
            simp only [session, SapCall.message, hkey', hann, and_self, if_true]
            split <;> rfl
          · have hkey' : ¬ (Address.htonl c.srcAddr = addr ∧ c.msgIdHash = hash) := fun hk =>
              hkey (sapId_inj.mpr hk)
            have hsame : session sapInterval addr hash o (.sap t c.message) = o := if_neg hkey'
            rw [hsame]
            refine h.imp_right ?_
            rintro ⟨c', hc', hid⟩
            rcases List.mem_cons.mp hc' with rfl | hc'
            · exact absurd hid hkey
            · exact ⟨c', hc', hid⟩

/-- Among other calls, the entry of a session has the description of the call that announces it,
if it was not there before. -/
theorem session_described {calls : List SapCall} {times : List ℕ} {c : SapCall} (hann : c.isAnnounce = true)
    (hsame : ∀ d ∈ calls, d.remoteId = c.remoteId → d = c) {o : Option RemoteEntry}
    (ho : ∀ it ∈ o, it.sdp = c.sdp) :
    ∀ it ∈ (calls.zipWith (fun c t => BrowserEvent.sap t c.message) times).foldl
      (session sapInterval (Address.htonl c.srcAddr) c.msgIdHash) o, it.sdp = c.sdp := by
  induction calls generalizing times o with
  | nil => simpa using ho
  | cons d calls ih =>
      cases times with
      | nil => simpa using ho
      | cons t times =>
          rw [List.zipWith_cons_cons, List.foldl_cons]
          refine ih (fun d' hd' => hsame d' (List.mem_cons_of_mem _ hd')) fun it hit => ?_
          by_cases hkey : d.remoteId = c.remoteId
          · obtain rfl := hsame d List.mem_cons_self hkey
            simp only [session, SapCall.message, hann, and_self, if_true] at hit
            cases o with
            | none =>
                obtain rfl := Option.some.inj hit
                rfl
            | some old =>
                obtain rfl := Option.some.inj hit
                split <;> exact ho old rfl
          · have hkey' : ¬ (Address.htonl d.srcAddr = Address.htonl c.srcAddr ∧ d.msgIdHash = c.msgIdHash) :=
              fun hk => hkey (sapId_inj.mpr hk)
            have hother : session sapInterval (Address.htonl c.srcAddr) c.msgIdHash o (.sap t d.message) = o :=
              if_neg hkey'
            rw [hother] at hit
            exact ho it hit

/-- A call that announces a session among other calls gives it an entry, with its description if
there was no entry before. -/
theorem session_announced {calls : List SapCall} {times : List ℕ} {c : SapCall}
    (htimes : times.length = calls.length) (hc : c ∈ calls) (hann : c.isAnnounce = true)
    (hsame : ∀ d ∈ calls, d.remoteId = c.remoteId → d = c) (o : Option RemoteEntry) :
    ∃ it, (calls.zipWith (fun c t => BrowserEvent.sap t c.message) times).foldl
        (session sapInterval (Address.htonl c.srcAddr) c.msgIdHash) o = some it ∧
      (o = none → it.sdp = c.sdp) := by
  have hkeep : ∀ d ∈ calls, d.remoteId = c.remoteId → d.isAnnounce = true := fun d hd hid => by
    rw [hsame d hd hid]
    exact hann
  obtain ⟨it, hit⟩ := Option.isSome_iff_exists.mp
    (session_heard htimes hkeep (.inr ⟨c, hc, rfl⟩) : Option.isSome (List.foldl _ o _) = true)
  refine ⟨it, hit, ?_⟩
  rintro rfl
  exact session_described hann hsame (fun _ h => by cases h) it hit

end Browser

/-- Calls of one address that are apart on the wire and for one session are one. -/
theorem eq_of_wireApart {calls : List SapCall} {a : UInt32} (haddr : ∀ c ∈ calls, c.srcAddr = a)
    (H : WireApart calls) {c d : SapCall} (hc : c ∈ announcements calls) (hd : d ∈ calls)
    (hid : d.remoteId = c.remoteId) : d = c := by
  have hc' : c ∈ calls := List.mem_of_mem_filter hc
  have hwire : d.wire = c.wire := by
    rw [SapCall.wire, SapCall.wire, haddr c hc', haddr d hd, (sapId_inj.mp hid).2]
  cases hann : d.isAnnounce with
  | true => exact List.inj_on_of_nodup_map H.1 (List.mem_filter.mpr ⟨hd, hann⟩) hc hwire
  | false =>
      refine absurd ?_ (H.2 d hd hann)
      rw [hwire]
      exact List.mem_map_of_mem hc

/-- A browser keeps what is apart on the wire, if all calls have one address. -/
theorem remoteKeeps_of_wireApart {calls : List SapCall} {a : UInt32}
    (haddr : ∀ c ∈ calls, c.srcAddr = a) (H : WireApart calls) : RemoteKeeps calls := by
  have hsub : ∀ c ∈ announcements calls, c ∈ calls := fun c hc => List.mem_of_mem_filter hc
  refine ⟨?_, fun sapInterval es times htimes c hc => ?_⟩
  · have hnodup : (announcements calls).Nodup := List.Nodup.of_map _ H.1
    exact List.Nodup.map_on (fun d hd c hc hid => eq_of_wireApart haddr H hc (hsub d hd) hid) hnodup
  · rw [List.foldl_append, SapCall.remoteId,
      Browser.find?_run (Browser.idsByProtocol_run Browser.idsByProtocol_empty es)]
    obtain ⟨it, hit, -⟩ := Browser.session_announced htimes (hsub c hc) (List.mem_filter.mp hc).2
      (fun d hd => eq_of_wireApart haddr H hc hd) _
    exact Option.isSome_of_eq_some hit

namespace SessionManager
variable {host : Host} {s : SessionManager}

/-- All calls have the address of the host. -/
theorem srcAddr_processSap (H : s.HostAddressed host) (env : Env) :
    ∀ c ∈ (s.processSap host env).1, c.srcAddr = host.config.ipAddr := by
  obtain ⟨gone, hcalls, hwire, hgone, -⟩ := processSap_wire H env
  intro c hc
  cases hann : c.isAnnounce with
  | true =>
      have hmem := List.mem_map_of_mem (f := SapCall.wire) (List.mem_filter.mpr ⟨hc, hann⟩)
      rw [← announcements, hwire] at hmem
      obtain ⟨crc, -, heq⟩ := List.mem_map.mp hmem
      exact (congrArg Prod.fst heq).symm
  | false =>
      rw [hcalls, List.mem_append] at hc
      rcases hc with hc | hc
      · obtain ⟨e, -, rfl⟩ := List.mem_map.mp hc
        cases hann
      · exact (hgone c hc).2

/-- **When the sources are apart on the wire**: in every state that events and calls of
`process_sap` lead to, the next call announces no two enabled sources as one session
and retracts none of them, and a browser that hears it keeps one entry for each,
exactly when the checksums of the descriptions of the enabled sources differ from
each other and from those of the descriptions that are being retracted. -/
theorem wire_apart_iff (host : Host) (env₀ : Env) (now : ℕ) {es : List SapEvent}
    (hrun : run (occurSap host) (start host env₀ now) es = some s) (env : Env) :
    WireApart (s.processSap host env).1 ∧ RemoteKeeps (s.processSap host env).1 ↔
      s.CrcApart host env := by
  have H : s.HostAddressed host := run_keeps (P := fun _ _ => True)
    (fun _ _ _ hinv _ => hostAddressed_occur hinv) (hostAddressed_start env₀ now)
    (along_of_forall fun _ _ => trivial) hrun
  rw [← wireApart_iff H env]
  exact ⟨fun h => h.1, fun h => ⟨h, remoteKeeps_of_wireApart (srcAddr_processSap H env) h⟩⟩

/-- The request for a stereo source that is registered with a handle. -/
def stereoRequest (id : UInt8) (name : Text) (h : Handle) : SapEvent :=
  .event (.request (.addSource (.answering none (.ok h) (.error (.driver 1))) (stereoSource id name)))

/-- Two sources are announced, the second one is removed, and a third one is added. -/
def replacedSource : List SapEvent :=
  [stereoRequest 1 "a".toList 7, stereoRequest 2 "b".toList 8, .processSap {},
    .event (.request (.removeSource {} 2)), stereoRequest 3 "c".toList 9]

/-- Two sources are announced, and one is retracted. -/
theorem wire_apart_replaced : ∃ s, run (occurSap {}) (start {} {} 0) replacedSource = some s ∧
    (s.processSap {} {}).1.map SapCall.isAnnounce = [true, true, false] ∧
    WireApart (s.processSap {} {}).1 ∧ RemoteKeeps (s.processSap {} {}).1 := by
  have hrun : (run (occurSap {}) (start {} {} 0) replacedSource).map (fun s =>
      ((s.processSap {} {}).1.map SapCall.isAnnounce, decide (s.CrcApart {} {}))) =
      some ([true, true, false], true) := by
    decide +kernel
  obtain ⟨s, hs, hstate⟩ := Option.map_eq_some_iff.mp hrun
  obtain ⟨hcalls, hapart⟩ := Prod.mk.inj hstate
  exact ⟨s, hs, hcalls, (wire_apart_iff {} {} 0 hs {}).mpr (of_decide_eq_true hapart)⟩

/-- Two sources whose descriptions have one checksum are announced as one session. -/
theorem wire_collision : ∃ s, run (occurSap {}) (start {} {} 0)
      [stereoRequest 1 "a".toList 7, stereoRequest 2 "b4082".toList 8] = some s ∧
    ¬ (WireApart (s.processSap {} {}).1 ∧ RemoteKeeps (s.processSap {} {}).1) := by
  have hrun : (run (occurSap {}) (start {} {} 0)
      [stereoRequest 1 "a".toList 7, stereoRequest 2 "b4082".toList 8]).map (fun s =>
        decide ((announcements (s.processSap {} {}).1).map SapCall.wire).Nodup) = some false := by
    decide +kernel
  obtain ⟨s, hs, hnodup⟩ := Option.map_eq_some_iff.mp hrun
  exact ⟨s, hs, fun h => of_decide_eq_false hnodup h.1.1⟩

end SessionManager
end Aes67Daemon
