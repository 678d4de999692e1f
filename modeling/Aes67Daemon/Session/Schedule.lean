import Aes67Daemon.Browser.Expiry
import Aes67Daemon.Lib.Beacon
import Aes67Daemon.Session.Wire

/-!
# The schedule of the announcements

The loop in `worker` announces the sources again when more than `sap_interval` seconds
have passed.  Without a configured interval the next one is drawn, from two thirds to four
thirds of the time the messages may take at `bandwidth_limit`, but at least of
`min_interval`.  A browser elsewhere forgets a session after ten of the periods it has
measured.  So it keeps a source as long as not too many announcements in a row are lost.

## Main definitions

* `SapTimer.turn`, `SapTimer.sends` — a turn of the loop, and what a run of it sends.
* `Paced`, `Announced` — how long a turn takes, and a source that is announced in it.
* `SapTimer.isChain_sendTimes` — how far the announcements of a source are apart.
* `session_stays` — what a browser makes of them.
-/
namespace Aes67Daemon

open Text

/-- `SAP::min_interval`, in seconds. -/
def minInterval : ℕ := 300

/-- `SAP::bandwidth_limit`, in bits per second. -/
def bandwidthLimit : ℕ := 4000

/-- The local variables of `worker` for the announcements, in nanoseconds and seconds. -/
structure SapTimer where
  sapTimepoint : ℕ
  sapInterval : ℕ := 1

/-- A turn of the loop in `worker`: what it sees, and when. -/
structure SapTurn where
  /-- When the turn begins. -/
  start : ℕ
  /-- The clock, as it is compared. -/
  checked : ℕ
  /-- The clock, as it is stored in `sap_timepoint`. -/
  stamped : ℕ
  /-- When a message goes out. -/
  sent : SapCall → ℕ
  daemon : SessionManager
  env : Env := {}
  /-- What `std::rand` returns. -/
  rand : ℕ := 0

namespace SapTimer

/-- `sap_interval` when the sources have been announced. -/
def nextInterval (configured : UInt16) (sdpLenSum rand : ℕ) : ℕ :=
  if configured ≠ 0 then configured.toNat
  else
    let interval := max minInterval (sdpLenSum * 8 / bandwidthLimit)
    interval + rand % (interval * 2 / 3) - interval / 3

/-- The timer after a turn, and the messages that go out. -/
def turn (host : Host) (configured : UInt16) (t : SapTimer) (u : SapTurn) : SapTimer × List (ℕ × SapCall) :=
  if t.sapTimepoint + t.sapInterval * nanos < u.checked then
    let (calls, sdpLenSum, _) := u.daemon.processSap host u.env
    ({ sapTimepoint := u.stamped, sapInterval := nextInterval configured sdpLenSum u.rand },
      calls.map fun c => (u.sent c, c))
  else (t, [])

/-- The messages that go out in a run of the loop. -/
def sends (host : Host) (configured : UInt16) : SapTimer → List SapTurn → List (ℕ × SapCall)
  | _, [] => []
  | t, u :: us => (t.turn host configured u).2 ++ sends host configured (t.turn host configured u).1 us

/-- When the messages go out that are for one session on the wire. -/
def sendTimes (host : Host) (configured : UInt16) (wire : UInt32 × UInt16) (t : SapTimer) (us : List SapTurn) :
    List ℕ :=
  ((t.sends host configured us).filter fun x => x.2.wire = wire).map Prod.fst

/-- The shortest and the longest interval. -/
def least (configured : UInt16) : ℕ := if configured ≠ 0 then configured.toNat else 200

def most (configured : UInt16) : ℕ := if configured ≠ 0 then configured.toNat else 399

end SapTimer

/-- No turn takes longer than `slack`. -/
structure Paced (slack : ℕ) (us : List SapTurn) : Prop where
  inside : ∀ u ∈ us, u.start ≤ u.checked ∧ u.checked ≤ u.stamped ∧
    ∀ c, u.stamped ≤ u.sent c ∧ u.sent c ≤ u.start + slack
  next : us.IsChain fun u v => v.start ≤ u.start + slack

/-- A source is in use with an SDP, and no other is known by its checksum. -/
structure Announced (host : Host) (id : UInt8) (sdp : Text) (u : SapTurn) : Prop where
  addressed : u.daemon.HostAddressed host
  apart : u.daemon.CrcApart host u.env
  source : ∃ info, u.daemon.sources.find? id = some info ∧ info.enabled = true ∧
    u.daemon.sapSdp host u.env info = sdp

/-- The call that announces a source. -/
def announcementOf (host : Host) (id : UInt8) (sdp : Text) : SapCall :=
  { isAnnounce := true
    hash := SapPass.hashOf id sdp
    msgIdHash := crc16 sdp
    srcAddr := host.config.ipAddr
    sdp := sdp }

section calls

variable {host : Host} {configured : UInt16} {id : UInt8} {sdp : Text} {slack : ℕ} {t : SapTimer} {u : SapTurn}
  {us : List SapTurn}

/-- **A source that is in use is announced once**, and nothing else is sent for it. -/
theorem Announced.calls (h : Announced host id sdp u) :
    (u.daemon.processSap host u.env).1.filter (fun c => c.wire = (announcementOf host id sdp).wire) =
      [announcementOf host id sdp] := by
  obtain ⟨info, hfind, hen, rfl⟩ := h.source
  obtain ⟨gone, hcalls, -, -, -⟩ := SessionManager.processSap_wire h.addressed u.env
  obtain ⟨hnodup, hdel⟩ := (SessionManager.wireApart_iff h.addressed u.env).mpr h.apart
  set c := announcementOf host id (u.daemon.sapSdp host u.env info) with hc
  have haddr : info.stream.leg0.ui32RTCPSrcIP = host.config.ipAddr := h.addressed.sources id info hfind
  have hmem : c ∈ announcements (u.daemon.processSap host u.env).1 := by
    refine List.mem_filter.mpr ⟨?_, rfl⟩
    rw [hcalls]
    refine List.mem_append_left _ (List.mem_map.mpr ⟨(id, info), ?_, ?_⟩)
    · exact List.mem_filter.mpr ⟨SortedMap.mem_entries.mpr hfind, hen⟩
    · rw [SapPass.announcement, hc, announcementOf, haddr]
  have hsame : ∀ c' ∈ (u.daemon.processSap host u.env).1, c'.wire = c.wire → c' = c := by
    intro c' hc' hwire
    cases hann : c'.isAnnounce with
    | true => exact List.inj_on_of_nodup_map hnodup (List.mem_filter.mpr ⟨hc', hann⟩) hmem hwire
    | false => exact absurd (hwire ▸ List.mem_map_of_mem hmem) (hdel c' hc' hann)
  have hfilter : (u.daemon.processSap host u.env).1.filter (fun c' => c'.wire = c.wire) =
      (announcements (u.daemon.processSap host u.env).1).filter fun c' => c'.wire = c.wire := by
    rw [announcements, List.filter_filter]
    refine List.filter_congr fun c' hc' => ?_
    by_cases hwire : c'.wire = c.wire
    · rw [hsame c' hc' hwire]
      simp [hc, announcementOf]
    · simp [hwire]
  rw [hfilter]
  have hone : ∀ {l : List SapCall}, (l.map SapCall.wire).Nodup → c ∈ l →
      l.filter (fun c' => c'.wire = c.wire) = [c] := by
    intro l hl hcl
    induction l with
    | nil => cases hcl
    | cons a l ih =>
        obtain ⟨ha, hl⟩ := List.nodup_cons.mp hl
        rcases List.mem_cons.mp hcl with rfl | hcl
        · rw [List.filter_cons_of_pos (by simp), List.filter_eq_nil_iff.mpr]
          intro b hb hwire
          exact ha (of_decide_eq_true hwire ▸ List.mem_map_of_mem hb)
        · have hne : a.wire ≠ c.wire := fun hwire => ha (hwire ▸ List.mem_map_of_mem hcl)
          rw [List.filter_cons_of_neg (by simp [hne]), ih hl hcl]
  exact hone hnodup hmem

/-! ## When the announcements go out -/

namespace SapTimer

/-- **The interval that is drawn** is between the shortest and the longest one. -/
theorem nextInterval_mem {sdpLenSum : ℕ} (hsum : configured = 0 → sdpLenSum < 150500) (rand : ℕ) :
    least configured ≤ nextInterval configured sdpLenSum rand ∧
      nextInterval configured sdpLenSum rand ≤ most configured := by
  by_cases hconf : configured = 0
  · have hinterval : max minInterval (sdpLenSum * 8 / bandwidthLimit) = 300 := by
      have hlimit : sdpLenSum * 8 / bandwidthLimit ≤ minInterval := by
        have hlt := hsum hconf
        rw [bandwidthLimit, minInterval]
        omega
      exact max_eq_left hlimit
    simp only [least, most, nextInterval, hconf, ne_eq, not_true_eq_false, if_false, hinterval]
    omega
  · simp [least, most, nextInterval, hconf]

/-- What a turn that announces sends for a source, and when. -/
theorem sendTimes_cons (h : Announced host id sdp u) :
    t.sendTimes host configured (announcementOf host id sdp).wire (u :: us) =
      if t.sapTimepoint + t.sapInterval * nanos < u.checked then
        u.sent (announcementOf host id sdp) ::
          (t.turn host configured u).1.sendTimes host configured (announcementOf host id sdp).wire us
      else t.sendTimes host configured (announcementOf host id sdp).wire us := by
  by_cases hdue : t.sapTimepoint + t.sapInterval * nanos < u.checked
  · have hfilter : ((t.turn host configured u).2.filter fun x => x.2.wire = (announcementOf host id sdp).wire) =
        [(u.sent (announcementOf host id sdp), announcementOf host id sdp)] := by
      rw [turn, if_pos hdue]
      dsimp only
      rw [List.filter_map]
      exact congrArg (List.map fun c => (u.sent c, c)) h.calls
    rw [if_pos hdue, sendTimes, sends, List.filter_append, hfilter]
    rfl
  · have hturn : t.turn host configured u = (t, []) := if_neg hdue
    rw [if_neg hdue, sendTimes, sends, hturn]
    rfl

/-- What two announcements in a row have to do with each other. -/
def Apart (configured : UInt16) (slack : ℕ) (x y : ℕ) : Prop :=
  x + least configured * nanos ≤ y + slack ∧ y ≤ x + (most configured * nanos + 2 * slack)

/-- After an announcement at `x`, when the last turn began at `s`. -/
theorem isChain_after {x s : ℕ} (hpaced : Paced slack us) (hann : ∀ u ∈ us, Announced host id sdp u)
    (hsum : configured = 0 → ∀ u ∈ us, (u.daemon.processSap host u.env).2.1 < 150500)
    (hinterval : least configured ≤ t.sapInterval ∧ t.sapInterval ≤ most configured)
    (hx : t.sapTimepoint ≤ x ∧ x ≤ t.sapTimepoint + slack)
    (hs : s ≤ t.sapTimepoint + t.sapInterval * nanos) (hnext : ∀ u ∈ us.head?, u.start ≤ s + slack) :
    (x :: t.sendTimes host configured (announcementOf host id sdp).wire us).IsChain (Apart configured slack) := by
  induction us generalizing t x s with
  | nil => exact .singleton x
  | cons u us ih =>
      obtain ⟨⟨hstarted, hstamped, hsent⟩, hinside⟩ := List.forall_mem_cons.mp hpaced.inside
      obtain ⟨hannounced, hann⟩ := List.forall_mem_cons.mp hann
      have hpaced' : Paced slack us := ⟨hinside, hpaced.next.of_cons⟩
      have hhead : ∀ v ∈ us.head?, v.start ≤ u.start + slack := by
        intro v hv
        cases us with
        | nil => cases hv
        | cons w us =>
            obtain rfl := Option.some.inj hv
            exact (List.isChain_cons_cons.mp hpaced.next).1
      have hbegin : u.start ≤ s + slack := hnext u rfl
      have hsum' : configured = 0 → ∀ u ∈ us, (u.daemon.processSap host u.env).2.1 < 150500 := fun h v hv =>
        hsum h v (List.mem_cons_of_mem _ hv)
      rw [sendTimes_cons hannounced]
      split
      · rename_i hdue
        obtain ⟨hlo, hhi⟩ := hsent (announcementOf host id sdp)
        have hleast := Nat.mul_le_mul_right nanos hinterval.1
        have hmost := Nat.mul_le_mul_right nanos hinterval.2
        refine List.isChain_cons_cons.mpr ⟨⟨by omega, by omega⟩, ?_⟩
        have htimer : (t.turn host configured u).1 =
            { sapTimepoint := u.stamped
              sapInterval := nextInterval configured (u.daemon.processSap host u.env).2.1 u.rand } := by
          rw [turn, if_pos hdue]
        rw [htimer]
        exact ih hpaced' hann hsum' (nextInterval_mem (fun h => hsum h u List.mem_cons_self) u.rand)
          ⟨hlo, hhi.trans (by dsimp only; omega)⟩ (s := u.start) (by dsimp only; omega) hhead
      · rename_i hdue
        exact ih hpaced' hann hsum' hinterval hx (s := u.start) (by omega) hhead

/-- **The announcements of a source** are neither too far apart nor too close. -/
theorem isChain_sendTimes (hpaced : Paced slack us) (hann : ∀ u ∈ us, Announced host id sdp u)
    (hsum : configured = 0 → ∀ u ∈ us, (u.daemon.processSap host u.env).2.1 < 150500) :
    (t.sendTimes host configured (announcementOf host id sdp).wire us).IsChain (Apart configured slack) := by
  induction us generalizing t with
  | nil => exact .nil
  | cons u us ih =>
      obtain ⟨⟨hstarted, hstamped, hsent⟩, hinside⟩ := List.forall_mem_cons.mp hpaced.inside
      obtain ⟨hannounced, hann'⟩ := List.forall_mem_cons.mp hann
      have hpaced' : Paced slack us := ⟨hinside, hpaced.next.of_cons⟩
      have hsum' : configured = 0 → ∀ u ∈ us, (u.daemon.processSap host u.env).2.1 < 150500 := fun h v hv =>
        hsum h v (List.mem_cons_of_mem _ hv)
      rw [sendTimes_cons hannounced]
      split
      · rename_i hdue
        obtain ⟨hlo, hhi⟩ := hsent (announcementOf host id sdp)
        have htimer : (t.turn host configured u).1 =
            { sapTimepoint := u.stamped
              sapInterval := nextInterval configured (u.daemon.processSap host u.env).2.1 u.rand } := by
          rw [turn, if_pos hdue]
        rw [htimer]
        refine isChain_after hpaced' hann' hsum' (nextInterval_mem (fun h => hsum h u List.mem_cons_self) u.rand)
          ⟨hlo, hhi.trans (by dsimp only; omega)⟩ (s := u.start) (by dsimp only; omega) fun v hv => ?_
        cases us with
        | nil => cases hv
        | cons w us =>
            obtain rfl := Option.some.inj hv
            exact (List.isChain_cons_cons.mp hpaced.next).1
      · exact ih hpaced' hann' hsum'

end SapTimer

end calls

/-! ## What a browser makes of them -/

namespace Browser

variable {sapInterval : UInt16} {addr : UInt32} {crc : UInt16} {sdp : Text} {gap : ℕ}

/-- What a browser has of a session that was announced at the given times, when the period
it has measured is long enough for `gap` seconds. -/
def Holds (sdp : Text) (gap : ℕ) (ts : List ℕ) (o : Option RemoteEntry) : Prop :=
  match ts.getLast? with
  | none => o = none
  | some t => ∃ it, o = some it ∧ it.sdp = sdp ∧ it.lastSeen = seconds t ∧ gap + 1 ≤ it.announcePeriod * 10

theorem holds_concat {ts : List ℕ} {t : ℕ} {o : Option RemoteEntry} :
    Holds sdp gap (ts ++ [t]) o ↔
      ∃ it, o = some it ∧ it.sdp = sdp ∧ it.lastSeen = seconds t ∧ gap + 1 ≤ it.announcePeriod * 10 := by
  rw [Holds, List.getLast?_concat]

/-- One event: announcements come at least `period` seconds apart, and nothing later than
`gap` seconds after one. -/
theorem holds_session {period : ℕ} {es : List BrowserEvent} {e : BrowserEvent} {o : Option RemoteEntry}
    (hperiod : gap + 1 ≤ period * 10) (hconf : gap + 1 ≤ sapInterval.toNat * 10)
    (hmsg : ∀ m ∈ sapMessages addr crc [e], m.isAnnounce = true ∧ m.sdp = sdp)
    (hlater : ∀ t ∈ (sapTimes addr crc es).getLast?, e.time ≤ t + gap * nanos)
    (hapart : ∀ t ∈ (sapTimes addr crc es).getLast?, ∀ t' ∈ sapTimes addr crc [e], t + period * nanos ≤ t')
    (H : Holds sdp gap (sapTimes addr crc es) o) :
    Holds sdp gap (sapTimes addr crc (es ++ [e])) (session sapInterval addr crc o e) := by
  rw [sapTimes_append]
  cases e with
  | sap now m =>
      by_cases hkey : m.addr = addr ∧ m.msgIdHash = crc
      · have htime : sapTimes addr crc [.sap now m] = [now] := by simp [sapTimes, hkey]
        have hmem : m ∈ sapMessages addr crc [.sap now m] := by simp [sapMessages, hkey]
        obtain ⟨hann, hsdp⟩ := hmsg m hmem
        rw [htime] at hapart ⊢
        rw [holds_concat]
        simp only [session, if_pos hkey, if_pos hann]
        cases hlast : (sapTimes addr crc es).getLast? with
        | none =>
            rw [Holds, hlast] at H
            rw [H]
            exact ⟨sapEntry sapInterval now m, rfl, hsdp, rfl, hconf⟩
        | some t =>
            rw [Holds, hlast] at H
            obtain ⟨it, rfl, hsdp', hseen, hlong⟩ := H
            have hle := hapart t hlast now (List.mem_singleton_self now)
            have hsec : seconds t + period ≤ seconds now := by
              have hmono := Nat.div_le_div_right (c := nanos) hle
              rwa [Nat.add_mul_div_right t period (by decide)] at hmono
            have hne : seconds now ≠ it.lastSeen := by
              rw [hseen]
              omega
            refine ⟨_, rfl, ?_⟩
            rw [if_pos hne]
            refine ⟨hsdp', rfl, ?_⟩
            change gap + 1 ≤ (seconds now - it.lastSeen) * 10
            rw [hseen]
            omega
      · have htime : sapTimes addr crc [.sap now m] = [] := by simp [sapTimes, hkey]
        rw [htime, List.append_nil]
        simp only [session, if_neg hkey]
        exact H
  | sweep offset now =>
      have htime : sapTimes addr crc [.sweep offset now] = [] := rfl
      rw [htime, List.append_nil]
      cases hlast : (sapTimes addr crc es).getLast? with
      | none =>
          rw [Holds, hlast] at H ⊢
          rw [H]
          rfl
      | some t =>
          rw [Holds, hlast] at H ⊢
          obtain ⟨it, rfl, hsdp', hseen, hlong⟩ := H
          refine ⟨it, ?_, hsdp', hseen, hlong⟩
          have hoffset : offset ≤ t + gap * nanos := hlater t hlast
          have hsec := lt_seconds_succ t
          have hbound : (seconds t + 1) * nanos + gap * nanos ≤ (it.lastSeen + it.announcePeriod * 10) * nanos := by
            rw [hseen, ← Nat.add_mul]
            exact Nat.mul_le_mul_right nanos (by omega)
          have hlive : it.expired offset = false := by
            refine Bool.and_eq_false_imp.mpr fun _ => decide_eq_false ?_
            omega
          simp [session, Option.filter, hlive]
  | change now name domain address sdp' => simpa [sapTimes, session] using H
  | remove now name domain => simpa [sapTimes, session] using H

/-- A run of events in which the session is announced often enough, but not too often. -/
theorem holds_run {period : ℕ} (hperiod : gap + 1 ≤ period * 10) (hconf : gap + 1 ≤ sapInterval.toNat * 10)
    {es : List BrowserEvent} (hordered : es.Pairwise fun e e' => e.time ≤ e'.time)
    (hmsg : ∀ m ∈ sapMessages addr crc es, m.isAnnounce = true ∧ m.sdp = sdp)
    (hchain : (sapTimes addr crc es).IsChain fun t t' => t + period * nanos ≤ t' ∧ t' ≤ t + gap * nanos)
    (hend : ∀ e ∈ es, ∀ t ∈ (sapTimes addr crc es).getLast?, e.time ≤ t + gap * nanos)
    {pre post : List BrowserEvent} (hes : es = pre ++ post) :
    Holds sdp gap (sapTimes addr crc pre) (pre.foldl (session sapInterval addr crc) none) := by
  induction pre using List.reverseRecOn generalizing post with
  | nil => rfl
  | append_singleton pre e ih =>
      rw [List.append_assoc, List.singleton_append] at hes
      have htimes : sapTimes addr crc es = sapTimes addr crc pre ++ sapTimes addr crc (e :: post) := by
        rw [hes, sapTimes_append]
      rw [List.foldl_append, List.foldl_cons, List.foldl_nil]
      refine holds_session hperiod hconf (fun m hm => hmsg m ?_) (fun t ht => ?_) (fun t ht t' ht' => ?_) (ih hes)
      · rw [hes, sapMessages_append, ← List.singleton_append, sapMessages_append]
        exact List.mem_append_right _ (List.mem_append_left _ hm)
      · cases hnext : sapTimes addr crc (e :: post) with
        | nil =>
            rw [htimes, hnext, List.append_nil] at hend
            exact hend e (by rw [hes]; simp) t ht
        | cons t' ts =>
            rw [htimes, hnext] at hchain
            have hle : e.time ≤ t' := by
              have hmem : t' ∈ sapTimes addr crc (e :: post) := by
                rw [hnext]
                exact List.mem_cons_self
              obtain ⟨e', he', rfl⟩ := exists_of_mem_sapTimes hmem
              rcases List.mem_cons.mp he' with rfl | he'
              · exact le_refl _
              · rw [hes] at hordered
                exact (List.pairwise_cons.mp (List.pairwise_append.mp hordered).2.1).1 e' he'
            have hgap := ((List.isChain_append.mp hchain).2.2 t ht t' rfl).2
            exact hle.trans hgap
      · have hone : sapTimes addr crc [e] = [t'] := by
          have hlength : (sapTimes addr crc [e]).length ≤ 1 := List.length_filterMap_le _ [e]
          obtain ⟨a, ha⟩ := List.length_eq_one_iff.mp
            (le_antisymm hlength (List.length_pos_of_mem ht'))
          rw [ha] at ht' ⊢
          rw [List.mem_singleton.mp ht']
        rw [htimes, ← List.singleton_append, sapTimes_append, hone] at hchain
        exact ((List.isChain_append.mp hchain).2.2 t ht t' rfl).1

end Browser

/-- **A source that is announced stays in a browser elsewhere**, as long as of `k`
announcements in a row one arrives, within `delay` seconds, and no turn of the announcing
loop takes longer than `slack` seconds: from the first announcement it hears on, whatever
else happens and whenever it sweeps.  The clocks of the two hosts need not agree. -/
theorem session_stays {host : Host} {configured sapInterval : UInt16} {id : UInt8} {sdp : Text}
    {k slack delay : ℕ} (hk : 0 < k)
    (hroom : k * (SapTimer.most configured + 2 * slack) + delay + 1 ≤
      (SapTimer.least configured - slack - delay) * 10)
    (hconf : k * (SapTimer.most configured + 2 * slack) + delay + 1 ≤ sapInterval.toNat * 10)
    {t : SapTimer} {us : List SapTurn} (hpaced : Paced (slack * nanos) us)
    (hann : ∀ u ∈ us, Announced host id sdp u)
    (hsum : configured = 0 → ∀ u ∈ us, (u.daemon.processSap host u.env).2.1 < 150500)
    {log : List (ℕ × Option ℕ)} {ahead behind : ℕ}
    (hlog : log.map (fun x => x.1 + ahead) =
      (t.sendTimes host configured (announcementOf host id sdp).wire us).map (· + behind))
    (hprompt : Beacon.Prompt (delay * nanos) log) (hattentive : Beacon.Attentive k log)
    {es : List BrowserEvent} (hordered : es.Pairwise fun e e' => e.time ≤ e'.time)
    (htimes : sapTimes (Address.htonl host.config.ipAddr) (crc16 sdp) es = Beacon.heard log)
    (hmsgs : ∀ m ∈ sapMessages (Address.htonl host.config.ipAddr) (crc16 sdp) es,
      m = (announcementOf host id sdp).message)
    (hend : ∀ e ∈ es, ∀ s ∈ (Beacon.heard log).getLast?,
      e.time ≤ s + (k * (SapTimer.most configured + 2 * slack) + delay) * nanos)
    {pre post : List BrowserEvent} (hes : es = pre ++ post)
    (hheard : sapTimes (Address.htonl host.config.ipAddr) (crc16 sdp) pre ≠ []) :
    ∃ it, (pre.foldl (Browser.occur sapInterval) {}).sources.find? (announcementOf host id sdp).remoteId =
      some it ∧ it.sdp = sdp := by
  set gap := k * (SapTimer.most configured + 2 * slack) + delay with hgap
  set least := SapTimer.least configured
  set most := SapTimer.most configured
  have hspaced : Beacon.Spaced (least * nanos - slack * nanos) (most * nanos + 2 * (slack * nanos)) log := by
    have hchain : (t.sendTimes host configured (announcementOf host id sdp).wire us).IsChain
        (SapTimer.Apart configured (slack * nanos)) := SapTimer.isChain_sendTimes hpaced hann hsum
    have hshifted : (log.map fun x => x.1 + ahead).IsChain (SapTimer.Apart configured (slack * nanos)) := by
      rw [hlog, List.isChain_map]
      exact hchain.imp fun x y h => ⟨by have := h.1; omega, by have := h.2; omega⟩
    refine (List.isChain_map _).mp hshifted |>.imp fun x y h => ?_
    have hle : slack * nanos ≤ least * nanos := Nat.mul_le_mul_right nanos (by omega)
    obtain ⟨hlo, hhi⟩ : x.1 + ahead + least * nanos ≤ y.1 + ahead + slack * nanos ∧
      y.1 + ahead ≤ x.1 + ahead + (most * nanos + 2 * (slack * nanos)) := h
    exact ⟨by omega, by omega⟩
  have hchain : (Beacon.heard log).IsChain fun t t' =>
      t + (least - slack - delay) * nanos ≤ t' ∧ t' ≤ t + gap * nanos := by
    refine (Beacon.isChain_heard hk hspaced hprompt hattentive).imp fun x y h => ?_
    obtain ⟨hlo, hhi⟩ := h
    have hleast : (least - slack - delay) * nanos + slack * nanos + delay * nanos = least * nanos := by
      rw [← Nat.add_mul, ← Nat.add_mul]
      congr 1
      omega
    have hmost : k * (most * nanos + 2 * (slack * nanos)) + delay * nanos = gap * nanos := by
      rw [hgap]
      ring
    exact ⟨by omega, by omega⟩
  have hannounce : ∀ m ∈ sapMessages (Address.htonl host.config.ipAddr) (crc16 sdp) es,
      m.isAnnounce = true ∧ m.sdp = sdp := fun m hm => by
    rw [hmsgs m hm]
    exact ⟨rfl, rfl⟩
  have hholds := Browser.holds_run hroom hconf hordered hannounce (htimes ▸ hchain) (htimes ▸ hend) hes
  obtain ⟨ts, s, hts⟩ := (List.eq_nil_or_concat' _).resolve_left hheard
  rw [hts, Browser.holds_concat] at hholds
  obtain ⟨it, hit, hsdp, -, -⟩ := hholds
  refine ⟨it, ?_, hsdp⟩
  rw [SapCall.remoteId, Browser.find?_run Browser.idsByProtocol_empty]
  exact hit

/-- A turn every hundred seconds. -/
def turnAt (s : SessionManager) (i : ℕ) : SapTurn :=
  { start := i * (100 * nanos)
    checked := i * (100 * nanos) + 1
    stamped := i * (100 * nanos) + 1
    sent := fun _ => i * (100 * nanos) + 1
    daemon := s }

theorem paced_turnAt (s : SessionManager) (n : ℕ) : Paced (100 * nanos) ((List.range' 1 n).map (turnAt s)) := by
  refine ⟨fun u hu => ?_, ?_⟩
  · obtain ⟨i, -, rfl⟩ := List.mem_map.mp hu
    have hshort : i * (100 * nanos) + 1 ≤ i * (100 * nanos) + 100 * nanos := Nat.add_le_add_left (by decide) _
    exact ⟨Nat.le_succ _, le_refl _, fun _ => ⟨le_refl _, hshort⟩⟩
  · refine (List.isChain_map _).mpr ((List.isChain_range' 1 n 1).imp fun i j hij => ?_)
    show j * (100 * nanos) ≤ i * (100 * nanos) + 100 * nanos
    rw [hij, Nat.succ_mul]

/-- What a browser elsewhere sees: the first announcement, a sweep after the second one, which is
lost, the third one a second late, and another sweep. -/
def lossy (sdp : Text) : List BrowserEvent :=
  [.sap (100 * nanos + 1) (announcementOf {} 1 sdp).message, .sweep (700 * nanos) (700 * nanos),
    .sap (901 * nanos) (announcementOf {} 1 sdp).message, .sweep (1400 * nanos) (1400 * nanos)]

/-- A source that is announced three times beside another one, and a browser that misses the second time. -/
theorem session_stays_lossy : ∃ s sdp,
    run (SessionManager.occurSap {}) (.start {} {} 0) SessionManager.replacedSource = some s ∧
    s.getSourceSdpOf {} {} 1 = some sdp ∧
    (SapTimer.mk 0 1).sendTimes {} 300 (announcementOf {} 1 sdp).wire ((List.range' 1 9).map (turnAt s)) =
      [100 * nanos + 1, 500 * nanos + 1, 900 * nanos + 1] ∧
    ∃ it, ((lossy sdp).foldl (Browser.occur 300) {}).sources.find? (announcementOf {} 1 sdp).remoteId = some it ∧
      it.sdp = sdp := by
  have hrun : (run (SessionManager.occurSap {}) (.start {} {} 0) SessionManager.replacedSource).map (fun s =>
      (decide (s.CrcApart {} {}), (s.sources.find? 1).any StreamInfo.enabled)) = some (true, true) := by
    decide +kernel
  obtain ⟨s, hs, hstate⟩ := Option.map_eq_some_iff.mp hrun
  obtain ⟨hapart, hen⟩ := Prod.mk.inj hstate
  obtain ⟨info, hfind, hen⟩ := (Option.any_eq_true _ _).mp hen
  obtain ⟨sdp, hsdp⟩ : ∃ sdp, s.sapSdp {} {} info = sdp := ⟨_, rfl⟩
  have haddressed : s.HostAddressed {} := run_keeps (P := fun _ _ => True)
    (fun _ _ _ hinv _ => SessionManager.hostAddressed_occur hinv) (SessionManager.hostAddressed_start {} 0)
    (along_of_forall fun _ _ => trivial) hs
  have hannounced : ∀ i, Announced {} 1 sdp (turnAt s i) := fun i =>
    { addressed := haddressed
      apart := of_decide_eq_true hapart
      source := ⟨info, hfind, hen, hsdp⟩ }
  have hturn : ∀ (t : SapTimer) (i : ℕ) (us : List SapTurn),
      t.sendTimes {} 300 (announcementOf {} 1 sdp).wire (turnAt s i :: us) =
        if t.sapTimepoint + t.sapInterval * nanos < i * (100 * nanos) + 1 then
          (i * (100 * nanos) + 1) ::
            (SapTimer.mk (i * (100 * nanos) + 1) 300).sendTimes {} 300 (announcementOf {} 1 sdp).wire us
        else t.sendTimes {} 300 (announcementOf {} 1 sdp).wire us := by
    intro t i us
    rw [SapTimer.sendTimes_cons (hannounced i)]
    refine if_ctx_congr .rfl (fun hdue => ?_) fun _ => rfl
    have hchecked : t.sapTimepoint + t.sapInterval * nanos < (turnAt s i).checked := hdue
    rw [SapTimer.turn, if_pos hchecked]
    rfl
  have hsends : (SapTimer.mk 0 1).sendTimes {} 300 (announcementOf {} 1 sdp).wire
      ((List.range' 1 9).map (turnAt s)) = [100 * nanos + 1, 500 * nanos + 1, 900 * nanos + 1] := by
    have hend : ∀ t : SapTimer, t.sendTimes {} 300 (announcementOf {} 1 sdp).wire [] = [] := fun _ => rfl
    generalize SapTimer.sendTimes {} 300 (announcementOf {} 1 sdp).wire = sendTimes at hturn hend
    simp [List.range', hturn, hend, nanos]
  have hmessage : sapMessages (Address.htonl ({} : Host).config.ipAddr) (crc16 sdp) (lossy sdp) =
      [(announcementOf {} 1 sdp).message, (announcementOf {} 1 sdp).message] := by
    simp [sapMessages, lossy, announcementOf, SapCall.message]
  have htimes : sapTimes (Address.htonl ({} : Host).config.ipAddr) (crc16 sdp) (lossy sdp) =
      [100 * nanos + 1, 901 * nanos] := by
    simp [sapTimes, lossy, announcementOf, SapCall.message]
  have hann : ∀ u ∈ (List.range' 1 9).map (turnAt s), Announced {} 1 sdp u := fun u hu => by
    obtain ⟨i, -, rfl⟩ := List.mem_map.mp hu
    exact hannounced i
  obtain ⟨it, hit, hsdp'⟩ := @session_stays {} 300 300 1 sdp 3 100 1 (by decide) (by decide) (by decide) ⟨0, 1⟩
    ((List.range' 1 9).map (turnAt s)) (paced_turnAt s 9) hann (fun h => absurd h (by decide))
    [(100 * nanos + 1, some (100 * nanos + 1)), (500 * nanos + 1, none), (900 * nanos + 1, some (901 * nanos))] 0 0
    (by rw [hsends]; rfl) (by simp [Beacon.Prompt, nanos])
    (fun w hw hlen => hw.eq_of_length hlen ▸ ⟨_, List.mem_cons_self, rfl⟩) (lossy sdp)
    (by simp [lossy, BrowserEvent.time, nanos]) htimes (by rw [hmessage]; simp)
    (by simp [lossy, BrowserEvent.time, Beacon.heard, nanos, SapTimer.most]) (lossy sdp) [] (List.append_nil _).symm
    (by rw [htimes]; simp)
  exact ⟨s, sdp, hs, by simp [SessionManager.getSourceSdpOf, hfind, ← hsdp, SessionManager.sapSdp], hsends,
    it, hit, hsdp'⟩

end Aes67Daemon
