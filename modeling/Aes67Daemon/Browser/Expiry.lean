import Aes67Daemon.Browser.Announced
import Mathlib.Data.List.Chain

/-!
# How long the browser keeps a session

The sweep removes a session that has not been announced for ten times its
`announce_period`: the seconds between the last two announcements that came in
different seconds, or `sap_interval` while there is one such second only.  It
counts from the beginning of the second of the last announcement, although its
own clock has fractions of a second.

Given the times at which a session is announced, at most `gap` seconds apart, this
says exactly when no sweep, wherever it comes, can remove the session less than
`gap` seconds after an announcement.

## Main definitions

* `measuredPeriod` — the `announce_period` after an announcement, from the times.
* `Sustained` — the period bridges the time until the next announcement.
* `KeepsSession` — no sweep of a sequence of events removes the session early.
* `session_kept_iff` — sustained sessions are the ones that are kept.
-/
namespace Aes67Daemon

/-- When an event happens; a sweep, when it reads the clock. -/
def BrowserEvent.time : BrowserEvent → ℕ
  | .sap now _ | .change now _ _ _ _ | .remove now _ _ => now
  | .sweep offset _ => offset

/-- The times of the messages about a session. -/
def sapTimes (addr : UInt32) (hash : UInt16) (es : List BrowserEvent) : List ℕ :=
  es.filterMap fun
    | .sap now m => if m.addr = addr ∧ m.msgIdHash = hash then some now else none
    | _ => none

/-- The period an announcement at `t` leaves, after the ones at `ts`. -/
def measuredPeriod (sapInterval : UInt16) (ts : List ℕ) (t : ℕ) : ℕ :=
  (ts.reverse.find? fun t' => seconds t' ≠ seconds t).elim sapInterval.toNat fun t' =>
    seconds t - seconds t'

/-- From an announcement until the next one, and less than `gap` seconds long, the
time since the beginning of its second stays within ten periods. -/
def Sustained (sapInterval : UInt16) (gap : ℕ) (ts : List ℕ) : Prop :=
  ∀ pre t post, ts = pre ++ t :: post → ∀ u, t ≤ u → u < t + gap * nanos →
    (∀ t' ∈ post.head?, u ≤ t') → u ≤ (seconds t + measuredPeriod sapInterval pre t * 10) * nanos

namespace Browser
variable {sapInterval : UInt16} {addr : UInt32} {hash : UInt16} {gap : ℕ}

/-- No sweep removes the session less than `gap` seconds after it was announced. -/
def KeepsSession (sapInterval : UInt16) (addr : UInt32) (hash : UInt16) (gap : ℕ)
    (es : List BrowserEvent) : Prop :=
  ∀ pre offset now post t, es = pre ++ .sweep offset now :: post →
    (sapTimes addr hash pre).getLast? = some t → offset < t + gap * nanos →
    ((pre.foldl (occur sapInterval) {}).sources.find? (sapId addr hash)).isSome →
    (((pre ++ [BrowserEvent.sweep offset now]).foldl (occur sapInterval) {}).sources.find?
      (sapId addr hash)).isSome

/-- Events in the order of time, in which the session is announced at the given
times and never deleted. -/
structure AnnouncedAt (addr : UInt32) (hash : UInt16) (ts : List ℕ) (es : List BrowserEvent) :
    Prop where
  ordered : es.Pairwise fun e e' => e.time ≤ e'.time
  times : sapTimes addr hash es = ts
  announced : ∀ m ∈ sapMessages addr hash es, m.isAnnounce = true

theorem sapTimes_append (es fs : List BrowserEvent) :
    sapTimes addr hash (es ++ fs) = sapTimes addr hash es ++ sapTimes addr hash fs :=
  List.filterMap_append

theorem measuredPeriod_of_ne {ts : List ℕ} {t t' : ℕ} (h : seconds t ≠ seconds t') :
    measuredPeriod sapInterval (ts ++ [t']) t = seconds t - seconds t' := by
  simp [measuredPeriod, h.symm]

theorem measuredPeriod_of_eq {ts : List ℕ} {t t' : ℕ} (h : seconds t = seconds t') :
    measuredPeriod sapInterval (ts ++ [t']) t = measuredPeriod sapInterval ts t' := by
  simp [measuredPeriod, h]

/-- What an entry remembers of the announcements: the second of the last one, and
the period it left, or the configured one. -/
def Remembers (sapInterval : UInt16) (ts : List ℕ) (it : RemoteEntry) : Prop :=
  ∃ pre t, ts = pre ++ [t] ∧ it.lastSeen = seconds t ∧
    (it.announcePeriod = measuredPeriod sapInterval pre t ∨ it.announcePeriod = sapInterval.toNat)

/-- One event keeps what an entry remembers. -/
theorem remembers_session {es : List BrowserEvent} {e : BrowserEvent} {o : Option RemoteEntry}
    (H : ∀ it, o = some it → Remembers sapInterval (sapTimes addr hash es) it) {it : RemoteEntry}
    (h : session sapInterval addr hash o e = some it) :
    Remembers sapInterval (sapTimes addr hash (es ++ [e])) it := by
  rw [sapTimes_append]
  cases e with
  | sap now m =>
      by_cases hkey : m.addr = addr ∧ m.msgIdHash = hash
      · have htime : sapTimes addr hash [.sap now m] = [now] := by simp [sapTimes, hkey]
        rw [htime]
        simp only [session, if_pos hkey] at h
        split at h
        · cases o with
          | none =>
              obtain rfl := Option.some.inj h
              exact ⟨_, now, rfl, rfl, .inr rfl⟩
          | some old =>
              obtain ⟨pre, t, hts, hseen, hperiod⟩ := H old rfl
              obtain rfl := Option.some.inj h
              refine ⟨_, now, rfl, ?_⟩
              rw [hts]
              by_cases hsec : seconds now = old.lastSeen
              · rw [if_neg (not_not.mpr hsec), measuredPeriod_of_eq (hsec.trans hseen)]
                exact ⟨hsec.symm, hperiod⟩
              · rw [if_pos hsec, measuredPeriod_of_ne (hseen ▸ hsec), ← hseen]
                exact ⟨rfl, .inl rfl⟩
        · cases h
      · have htime : sapTimes addr hash [.sap now m] = [] := by simp [sapTimes, hkey]
        rw [htime, List.append_nil]
        simp only [session, if_neg hkey] at h
        exact H it h
  | sweep offset now =>
      obtain ⟨ho, -⟩ := Option.filter_eq_some_iff.mp h
      simpa [sapTimes] using H it ho
  | change now name domain address sdp => simpa [sapTimes] using H it h
  | remove now name domain => simpa [sapTimes] using H it h

theorem remembers_run (es : List BrowserEvent) {it : RemoteEntry}
    (h : es.foldl (session sapInterval addr hash) none = some it) :
    Remembers sapInterval (sapTimes addr hash es) it := by
  induction es using List.reverseRecOn generalizing it with
  | nil => cases h
  | append_singleton es e ih =>
      rw [List.foldl_append] at h
      exact remembers_session (fun it hit => ih hit) h

/-- An announcement of a session, at a given time. -/
def announceAt (addr : UInt32) (hash : UInt16) (t : ℕ) : BrowserEvent :=
  .sap t { isAnnounce := true, msgIdHash := hash, addr := addr, sdp := [] }

theorem sapTimes_announceAt (ts : List ℕ) :
    sapTimes addr hash (ts.map (announceAt addr hash)) = ts := by
  induction ts with
  | nil => rfl
  | cons t ts ih => simpa [sapTimes, announceAt] using ih

theorem announced_announceAt (ts : List ℕ) :
    ∀ m ∈ sapMessages addr hash (ts.map (announceAt addr hash)), m.isAnnounce = true := by
  intro m hm
  simp only [sapMessages, List.filterMap_map, List.mem_filterMap] at hm
  obtain ⟨t, -, ht⟩ := hm
  simp only [Function.comp_apply, announceAt, and_self, if_true] at ht
  obtain rfl := Option.some.inj ht
  rfl

variable (sapInterval addr hash) in
/-- The entry after announcements only. -/
theorem session_announceAt (pre : List ℕ) (t : ℕ) :
    ∃ it, ((pre ++ [t]).map (announceAt addr hash)).foldl (session sapInterval addr hash) none =
        some it ∧ it.protocol = sapProtocol ∧ it.lastSeen = seconds t ∧
      it.announcePeriod = measuredPeriod sapInterval pre t := by
  induction pre using List.reverseRecOn generalizing t with
  | nil =>
      refine ⟨sapEntry sapInterval t ⟨true, hash, addr, []⟩, ?_, rfl, rfl, rfl⟩
      simp [announceAt, session]
  | append_singleton pre t' ih =>
      obtain ⟨it, hrun, hprot, hseen, hperiod⟩ := ih t'
      refine ⟨if seconds t ≠ it.lastSeen then it.refreshed t else it, ?_, ?_, ?_⟩
      · rw [List.map_append, List.foldl_append, hrun]
        simp [announceAt, session]
      · split
        · exact hprot
        · exact hprot
      · by_cases hsec : seconds t = it.lastSeen
        · rw [if_neg (not_not.mpr hsec), measuredPeriod_of_eq (hsec.trans hseen)]
          exact ⟨hsec.symm, hperiod⟩
        · rw [if_pos hsec, measuredPeriod_of_ne (hseen ▸ hsec), ← hseen]
          exact ⟨rfl, rfl⟩

theorem seconds_mul_le (t : ℕ) : seconds t * nanos ≤ t := Nat.div_mul_le_self t nanos

theorem lt_seconds_succ (t : ℕ) : t < (seconds t + 1) * nanos := by
  rw [Nat.mul_comm]
  exact Nat.lt_mul_div_succ t (by decide)

/-- Without a configured interval no session is sustained. -/
theorem not_sustained_zero (hgap : 0 < gap) (pre : List ℕ) (t : ℕ) (post : List ℕ)
    (hpre : ∀ t' ∈ pre, t' = t) (hsorted : (t :: post).Pairwise (· ≤ ·)) :
    ¬ Sustained 0 gap (pre ++ t :: post) := by
  intro H
  have hzero : measuredPeriod 0 pre t = 0 := by
    have hnone : (pre.reverse.find? fun t' => seconds t' ≠ seconds t) = none :=
      List.find?_eq_none.mpr fun t' ht' => by simp [hpre t' (List.mem_reverse.mp ht')]
    rw [measuredPeriod, hnone]
    rfl
  have hnext : ∀ t' ∈ post.head?, t' = t := by
    intro t' ht'
    by_contra hne
    have hle : t ≤ t' := (List.pairwise_cons.mp hsorted).1 t' (List.mem_of_mem_head? ht')
    have hbound := H pre t post rfl (t + 1) (by omega) (by rw [nanos]; omega) fun t'' ht'' => by
      obtain rfl := Option.some.inj (Option.mem_def.mp ht' ▸ Option.mem_def.mp ht'')
      omega
    have hsec := seconds_mul_le t
    simp only [hzero, Nat.zero_mul, Nat.add_zero] at hbound
    omega
  cases post with
  | nil =>
      have hbound := H pre t [] rfl (t + 1) (by omega) (by rw [nanos]; omega) nofun
      have hsec := seconds_mul_le t
      simp only [hzero, Nat.zero_mul, Nat.add_zero] at hbound
      omega
  | cons t' post =>
      obtain rfl := hnext t' rfl
      refine not_sustained_zero hgap (pre ++ [t']) t' post ?_
        (List.pairwise_cons.mp hsorted).2 (by simpa using H)
      intro t'' ht''
      rcases List.mem_append.mp ht'' with ht'' | ht''
      · exact hpre t'' ht''
      · exact List.mem_singleton.mp ht''
termination_by post.length

/-- The times of a session are times of events. -/
theorem exists_of_mem_sapTimes {es : List BrowserEvent} {t : ℕ} (h : t ∈ sapTimes addr hash es) :
    ∃ e ∈ es, e.time = t := by
  obtain ⟨e, he, ht⟩ := List.mem_filterMap.mp h
  refine ⟨e, he, ?_⟩
  cases e with
  | sap now m =>
      dsimp only at ht
      split at ht
      · exact Option.some.inj ht
      · cases ht
  | sweep | change | remove => cases ht

theorem sapTimes_pairwise {es : List BrowserEvent}
    (h : es.Pairwise fun e e' => e.time ≤ e'.time) : (sapTimes addr hash es).Pairwise (· ≤ ·) := by
  refine List.pairwise_filterMap.mpr (h.imp fun {e e'} hle t ht t' ht' => ?_)
  have htime : ∀ {e : BrowserEvent} {t : ℕ}, t ∈ sapTimes addr hash [e] → e.time = t := by
    intro e t ht
    obtain ⟨e', he', rfl⟩ := exists_of_mem_sapTimes ht
    rw [List.mem_singleton.mp he']
  rw [← htime (List.mem_filterMap.mpr ⟨e, List.mem_singleton_self e, ht⟩),
    ← htime (List.mem_filterMap.mpr ⟨e', List.mem_singleton_self e', ht'⟩)]
  exact hle

/-- Some interval is configured when a session is sustained. -/
theorem sapInterval_ne_zero {ts : List ℕ} (hgap : 0 < gap) (hne : ts ≠ [])
    (hsorted : ts.Pairwise (· ≤ ·)) (H : Sustained sapInterval gap ts) : sapInterval ≠ 0 := by
  rintro rfl
  obtain ⟨t, post, rfl⟩ := List.exists_cons_of_ne_nil hne
  exact not_sustained_zero hgap [] t post nofun hsorted H

/-- A sustained session is kept. -/
theorem keeps_of_sustained {ts : List ℕ} {es : List BrowserEvent} (hgap : 0 < gap)
    (hsap : sapInterval ≠ 0 → gap ≤ sapInterval.toNat) (hes : AnnouncedAt addr hash ts es)
    (H : Sustained sapInterval gap ts) : KeepsSession sapInterval addr hash gap es := by
  intro pre offset now post t hsplit hlast hearly hbefore
  obtain ⟨it, hit⟩ := Option.isSome_iff_exists.mp hbefore
  rw [find?_run idsByProtocol_empty] at hit
  obtain ⟨ps, t', hps, hseen, hperiod⟩ := remembers_run pre hit
  rw [hps, List.getLast?_concat] at hlast
  obtain rfl := Option.some.inj hlast
  have hts : ts = ps ++ t' :: sapTimes addr hash post := by
    rw [← hes.times, hsplit, sapTimes_append, hps, List.append_assoc]
    rfl
  have hlive : it.expired offset = false := by
    refine Bool.and_eq_false_imp.mpr fun _ => decide_eq_false (not_lt.mpr ?_)
    rw [hseen]
    rcases hperiod with hperiod | hperiod
    · have hordered := hes.ordered
      rw [hsplit] at hordered
      obtain ⟨-, hpost, hpre⟩ := List.pairwise_append.mp hordered
      rw [hperiod]
      refine H ps t' _ hts offset ?_ hearly ?_
      · have hmem : t' ∈ sapTimes addr hash pre := by
          rw [hps]
          exact List.mem_append_right _ (List.mem_singleton_self t')
        obtain ⟨e, he, rfl⟩ := exists_of_mem_sapTimes hmem
        exact hpre e he (.sweep offset now) List.mem_cons_self
      · intro t'' ht''
        obtain ⟨e, he, rfl⟩ := exists_of_mem_sapTimes (List.mem_of_mem_head? ht'')
        exact (List.pairwise_cons.mp hpost).1 e he
    · have hne : sapInterval ≠ 0 := sapInterval_ne_zero hgap (by rw [hts]; simp)
        (hes.times ▸ sapTimes_pairwise hes.ordered) H
      have hle := hsap hne
      have hsec := lt_seconds_succ t'
      rw [hperiod]
      calc offset ≤ (seconds t' + 1) * nanos + gap * nanos := by omega
        _ = (seconds t' + (1 + gap)) * nanos := by rw [← Nat.add_mul, Nat.add_assoc]
        _ ≤ (seconds t' + sapInterval.toNat * 10) * nanos := Nat.mul_le_mul_right _ (by omega)
  rw [find?_run idsByProtocol_empty, List.foldl_append, hit]
  simp [session, Option.filter, hlive]

/-- A time between two neighbours fits into an ordered list. -/
theorem pairwise_between {pre post : List ℕ} {t u : ℕ} (h : (pre ++ t :: post).Pairwise (· ≤ ·))
    (htu : t ≤ u) (hnext : ∀ t' ∈ post.head?, u ≤ t') :
    (pre ++ t :: u :: post).Pairwise (· ≤ ·) := by
  obtain ⟨hpre, hpost, hacross⟩ := List.pairwise_append.mp h
  obtain ⟨ht, hpost⟩ := List.pairwise_cons.mp hpost
  have hu : ∀ t' ∈ post, u ≤ t' := by
    cases post with
    | nil => nofun
    | cons v post =>
        intro t' ht'
        have huv : u ≤ v := hnext v rfl
        rcases List.mem_cons.mp ht' with rfl | ht'
        · exact huv
        · exact huv.trans ((List.pairwise_cons.mp hpost).1 t' ht')
  refine List.pairwise_append.mpr ⟨hpre, ?_, fun a ha b hb => ?_⟩
  · exact List.pairwise_cons.mpr ⟨List.forall_mem_cons.mpr ⟨htu, ht⟩, List.pairwise_cons.mpr ⟨hu, hpost⟩⟩
  · have hat : a ≤ t := hacross a ha t List.mem_cons_self
    rcases List.mem_cons.mp hb with rfl | hb
    · exact hat
    · rcases List.mem_cons.mp hb with rfl | hb
      · exact hat.trans htu
      · exact hacross a ha b (List.mem_cons_of_mem _ hb)

/-- A kept session is sustained. -/
theorem sustained_of_keeps {ts : List ℕ} (hsorted : ts.Pairwise (· ≤ ·))
    (H : ∀ es, AnnouncedAt addr hash ts es → KeepsSession sapInterval addr hash gap es) :
    Sustained sapInterval gap ts := by
  intro pre t post hts u htu hearly hnext
  have hsweep : sapTimes addr hash [.sweep u u] = [] := rfl
  have hsweep' : sapMessages addr hash [.sweep u u] = [] := rfl
  let es := (pre ++ [t]).map (announceAt addr hash) ++ [.sweep u u] ++
    post.map (announceAt addr hash)
  have hes : AnnouncedAt addr hash ts es := by
    have hordered : (es.map BrowserEvent.time).Pairwise (· ≤ ·) := by
      have hannounce : ∀ ts : List ℕ, (ts.map (announceAt addr hash)).map BrowserEvent.time = ts :=
        fun ts => by simp [announceAt, BrowserEvent.time, Function.comp_def]
      rw [List.map_append, List.map_append, hannounce, hannounce]
      simpa [BrowserEvent.time] using pairwise_between (hts ▸ hsorted) htu hnext
    refine ⟨List.pairwise_map.mp hordered, ?_, ?_⟩
    · rw [sapTimes_append, sapTimes_append, sapTimes_announceAt, sapTimes_announceAt, hsweep, hts]
      simp
    · intro m hm
      rw [sapMessages_append, sapMessages_append, hsweep', List.append_nil, List.mem_append] at hm
      exact hm.elim (announced_announceAt _ m) (announced_announceAt _ m)
  obtain ⟨it, hit, hprot, hseen, hperiod⟩ :=
    session_announceAt sapInterval addr hash pre t
  have hkept := H es hes ((pre ++ [t]).map (announceAt addr hash)) u u
    (post.map (announceAt addr hash)) t (by simp [es])
    (by rw [sapTimes_announceAt, List.getLast?_concat]) hearly
    (by rw [find?_run idsByProtocol_empty]; exact Option.isSome_of_eq_some hit)
  rw [find?_run idsByProtocol_empty, List.foldl_append, Keyed.find?_empty, hit] at hkept
  have hlive : it.expired u = false := by
    by_contra hexp
    simp [session, Option.filter, hexp] at hkept
  simp only [RemoteEntry.expired, hprot, decide_true, Bool.true_and, decide_eq_false_iff_not,
    not_lt, hseen, hperiod] at hlive
  exact hlive

/-- **Which sessions are kept**: a session that is announced at the given times, at
most `gap` seconds apart, with `gap` at most the configured interval if there is
one, is never removed less than `gap` seconds after an announcement, whatever
happens besides and wherever the sweeps come, exactly when its period bridges the
time between its announcements. -/
theorem session_kept_iff (sapInterval : UInt16) (addr : UInt32) (hash : UInt16) {gap : ℕ}
    (hgap : 1 ≤ gap) (hsap : sapInterval ≠ 0 → gap ≤ sapInterval.toNat) {ts : List ℕ}
    (hts : ts.IsChain fun t t' => t ≤ t' ∧ t' ≤ t + gap * nanos) :
    (∀ es, AnnouncedAt addr hash ts es → KeepsSession sapInterval addr hash gap es) ↔
      Sustained sapInterval gap ts := by
  have hsorted : ts.Pairwise (· ≤ ·) :=
    List.isChain_iff_pairwise.mp (hts.imp fun _ _ h => h.1)
  exact ⟨sustained_of_keeps hsorted, fun H es hes => keeps_of_sustained hgap hsap hes H⟩

/-- A session that is announced three times, after 20 and after 25 seconds, is kept. -/
theorem session_kept_thrice : Sustained 30 30 [0, 20 * nanos, 45 * nanos] ∧
    ∀ es, AnnouncedAt 1 1 [0, 20 * nanos, 45 * nanos] es → KeepsSession 30 1 1 30 es := by
  have H : Sustained 30 30 [0, 20 * nanos, 45 * nanos] := by
    intro pre t post hts u htu hearly hnext
    have hperiod : u ≤ t + 30 * nanos := hearly.le
    have hbound : t + 30 * nanos ≤ (seconds t + measuredPeriod 30 pre t * 10) * nanos := by
      rcases pre with - | ⟨a, - | ⟨b, - | ⟨c, pre⟩⟩⟩
      · cases hts
        decide
      · cases hts
        decide
      · cases hts
        decide
      · simp at hts
    omega
  exact ⟨H, (session_kept_iff 30 1 1 (by decide) (by decide) (by decide)).mpr H⟩

/-- A session that is announced after 0.9 and after 1.9 seconds: the sweep after 11.5
seconds removes it 9.6 seconds after the second announcement. -/
def shortPeriod : List BrowserEvent :=
  [announceAt 1 1 900000000, announceAt 1 1 1900000000, .sweep 11500000000 11500000000]

theorem session_removed_early : AnnouncedAt 1 1 [900000000, 1900000000] shortPeriod ∧
    ¬ KeepsSession 30 1 1 30 shortPeriod := by
  refine ⟨⟨by simp [shortPeriod, announceAt, BrowserEvent.time], by decide, by decide⟩, fun H => ?_⟩
  have hkept := H [announceAt 1 1 900000000, announceAt 1 1 1900000000] 11500000000 11500000000 []
    1900000000 rfl (by decide) (by decide) (by decide +kernel)
  revert hkept
  decide +kernel

end Browser
end Aes67Daemon
