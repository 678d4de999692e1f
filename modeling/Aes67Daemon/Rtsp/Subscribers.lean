import Aes67Daemon.Lib.Run
import Aes67Daemon.Rtsp.Session

/-!
# Subscribers of session descriptions

A client that has asked for the description of a source is told of its updates on
the same connection.  While `cseq_` is not negative an update is not announced, and
nothing remembers it.  `cseq_` is set as soon as a `CSeq` header has been read, so
that a request whose end has not come yet costs the client every update in between.

## Main definitions

* `RtspSession.lastSent`, `latest` — the description a client holds, and the one it
  should hold.
* `RtspEvent.Heard` — an update that is announced, or that the client needs not hear.
* `RtspSession.current_iff` — clients hold the latest description exactly then.
-/
namespace Aes67Daemon

open Text

namespace RtspRecord

/-- The description of a source that an entry has sent. -/
def sent (id : UInt8) : RtspRecord → Option Text
  | .answered _ _ (.described id' sdp) | .announced _ id' _ sdp =>
      if id' = id then some sdp else none
  | _ => none

/-- The description of a source at an update, or in the answer to a request. -/
def told (id : UInt8) : RtspRecord → Option Text
  | .answered _ _ (.described id' sdp) | .updated id' sdp => if id' = id then some sdp else none
  | _ => none

end RtspRecord

/-- What happens to a session: a read, after which the session manager is asked as it
stands then, or an update of a source. -/
inductive RtspEvent
  | read (dir : Directory) (chunk : Text)
  | update (id : UInt8) (name sdp : Text)

namespace RtspSession

/-- The description that was sent last. -/
def lastSent (s : RtspSession) (id : UInt8) : Option Text := s.log.findSome? (·.sent id)

/-- The description at the most recent update, or in the latest answer after it. -/
def latest (s : RtspSession) (id : UInt8) : Option Text := s.log.findSome? (·.told id)

/-- The client holds the latest description of every source it has asked for. -/
def Current (s : RtspSession) : Prop := ∀ id ∈ s.sourceIds, s.lastSent id = s.latest id

instance (s : RtspSession) : Decidable s.Current :=
  inferInstanceAs (Decidable (∀ id ∈ s.sourceIds, _ = _))

/-- One event. -/
def occur (h : RtspHost) (s : RtspSession) : RtspEvent → Option RtspSession
  | .read dir chunk => s.readSome h dir chunk
  | .update id name sdp => some (s.announce id name sdp)

end RtspSession

/-- An update of a source that was asked for comes while no `CSeq` is pending, or it
brings the description that was sent last. -/
def RtspEvent.Heard (s : RtspSession) : RtspEvent → Prop
  | .read _ _ => True
  | .update id _ sdp => id ∈ s.sourceIds → s.cseq < 0 ∨ s.lastSent id = some sdp

namespace RtspSession
variable {h : RtspHost} {dir : Directory} {s s' : RtspSession} {e : RtspEvent}

/-! ## Requests -/

/-- An answer that describes a source is the latest description of it. -/
theorem current_record (H : s.Current) (line : Text) (a : Answer) : (s.record line a).Current := by
  intro id hid
  cases a with
  | skipped => exact H id hid
  | error statusCode description => exact H id hid
  | described id' sdp =>
      have hsent : (s.record line (.described id' sdp)).lastSent id =
          if id' = id then some sdp else s.lastSent id := by
        by_cases heq : id' = id <;> simp [lastSent, record, RtspRecord.sent, heq]
      have htold : (s.record line (.described id' sdp)).latest id =
          if id' = id then some sdp else s.latest id := by
        by_cases heq : id' = id <;> simp [latest, record, RtspRecord.told, heq]
      rw [hsent, htold]
      by_cases heq : id' = id
      · rw [if_pos heq, if_pos heq]
      · rw [if_neg heq, if_neg heq]
        rcases List.mem_insert_iff.mp hid with rfl | hold
        · exact absurd rfl heq
        · exact H id hold

/-- What an attempt to process a request changes. -/
theorem processRequest_keeps {r : Option ℕ} (hp : s.processRequest h dir = some (r, s')) :
    s'.buffer = s.buffer ∧ ((∃ cseq, s' = { s with cseq }) ∨
      ∃ cseq line a, s' = { s with cseq }.record line a) := by
  rw [processRequest] at hp
  split at hp
  · simp only [Option.some.injEq, Prod.mk.injEq] at hp
    obtain ⟨-, rfl⟩ := hp
    exact ⟨rfl, .inl ⟨s.cseq, rfl⟩⟩
  next line rest _ =>
    split at hp
    · simp only [Option.some.injEq, Prod.mk.injEq] at hp
      obtain ⟨-, rfl⟩ := hp
      exact ⟨rfl, .inl ⟨s.cseq, rfl⟩⟩
    · dsimp only at hp
      split at hp
      · obtain ⟨a, -, hpair⟩ := Option.map_eq_some_iff.mp hp
        simp only [Prod.mk.injEq] at hpair
        obtain ⟨-, rfl⟩ := hpair
        exact ⟨rfl, .inr ⟨_, line, a, rfl⟩⟩
      · simp only [Option.some.injEq, Prod.mk.injEq] at hp
        obtain ⟨-, rfl⟩ := hp
        exact ⟨rfl, .inl ⟨_, rfl⟩⟩

theorem current_processRequest {r : Option ℕ} (H : s.Current)
    (hp : s.processRequest h dir = some (r, s')) : s'.Current := by
  rcases (processRequest_keeps hp).2 with ⟨cseq, rfl⟩ | ⟨cseq, line, a, rfl⟩
  · exact H
  · exact current_record (s := { s with cseq }) H line a

/-- Requests keep what a client holds the latest. -/
theorem current_serve {n : ℕ} (H : s.Current) (hs : serve h dir n s = some s') : s'.Current := by
  induction n generalizing s with
  | zero =>
      obtain rfl := Option.some.inj hs
      exact H
  | succ n ih =>
      rw [serve] at hs
      split at hs
      · obtain rfl := Option.some.inj hs
        exact H
      · obtain ⟨⟨r, s₁⟩, hp, hs⟩ := Option.bind_eq_some_iff.mp hs
        have H₁ := current_processRequest H hp
        cases r with
        | none =>
            obtain rfl := Option.some.inj hs
            exact H₁
        | some consumed =>
            dsimp only at hs
            split at hs
            · cases hs
            · exact ih (s := { s₁ with buffer := s₁.buffer.drop consumed, cseq := -1 }) H₁ hs

/-! ## Updates -/

theorem latest_announce (id id' : UInt8) (name sdp : Text) :
    (s.announce id name sdp).latest id' = if id = id' then some sdp else s.latest id' := by
  rw [announce]
  dsimp only
  split <;> by_cases heq : id = id' <;> simp [latest, RtspRecord.told, heq]

theorem lastSent_announce (id id' : UInt8) (name sdp : Text) :
    (s.announce id name sdp).lastSent id' =
      if id = id' ∧ s.cseq < 0 ∧ id ∈ s.sourceIds then some sdp else s.lastSent id' := by
  rw [announce]
  dsimp only
  by_cases hann : s.cseq < 0 ∧ id ∈ s.sourceIds
  · rw [if_pos hann]
    by_cases heq : id = id'
    · subst heq
      simp [lastSent, RtspRecord.sent, hann]
    · simp [lastSent, RtspRecord.sent, heq]
  · rw [if_neg hann, if_neg fun hand => hann hand.2]
    simp [lastSent, RtspRecord.sent]

theorem sourceIds_announce (id : UInt8) (name sdp : Text) :
    (s.announce id name sdp).sourceIds = s.sourceIds := by
  rw [announce]
  dsimp only
  split <;> rfl

/-- An update leaves the client with the latest description exactly when it is heard. -/
theorem current_announce_iff (H : s.Current) (id : UInt8) (name sdp : Text) :
    (s.announce id name sdp).Current ↔ (RtspEvent.update id name sdp).Heard s := by
  rw [Current, sourceIds_announce]
  constructor
  · intro hcurrent hid
    have hheld := hcurrent id hid
    rw [latest_announce, lastSent_announce, if_pos rfl] at hheld
    by_cases hneg : s.cseq < 0
    · exact .inl hneg
    · rw [if_neg fun hand => hneg hand.2.1] at hheld
      exact .inr hheld
  · intro hheard id' hid'
    rw [latest_announce, lastSent_announce]
    by_cases heq : id = id'
    · subst heq
      rw [if_pos rfl]
      by_cases hneg : s.cseq < 0
      · rw [if_pos ⟨rfl, hneg, hid'⟩]
      · rw [if_neg fun hand => hneg hand.2.1]
        exact (hheard hid').resolve_left hneg
    · rw [if_neg heq, if_neg fun hand => heq hand.1]
      exact H id' hid'

/-! ## Runs -/

/-- **One event.** -/
theorem current_occur_iff (H : s.Current) (hs : s.occur h e = some s') :
    s'.Current ↔ e.Heard s := by
  cases e with
  | read dir chunk =>
      refine iff_of_true ?_ trivial
      change s.readSome h dir chunk = some s' at hs
      rw [readSome] at hs
      split at hs
      · obtain rfl := Option.some.inj hs
        exact H
      · exact current_serve (s := { s with buffer := s.buffer ++ chunk }) H hs
  | update id name sdp =>
      obtain rfl := Option.some.inj hs
      exact current_announce_iff H id name sdp

/-- **Subscribers**: at every point of a session the client holds the latest
description of every source it has asked for, if and only if every update of such a
source comes while no `CSeq` is pending, or brings the description sent last. -/
theorem current_iff (h : RtspHost) (es : List RtspEvent) :
    (∀ n s, run (occur h) {} (es.take n) = some s → s.Current) ↔
      Along (occur h) (fun s e => e.Heard s) {} es := by
  refine always_iff (fun s e s' H hs => current_occur_iff H hs) (fun s e _ hs => ?_) nofun
  cases e with
  | read dir chunk => trivial
  | update id name sdp => cases hs

/-- An update comes while the end of another request is missing, and the client is
not told of it later. -/
theorem update_missed : ∃ s, run (occur {}) {}
    [.read (oneSource 1 "v=0".toList) "DESCRIBE rtsp://h/by-id/1 RTSP/1.0\r\nCSeq: 1\r\n\r\n".toList,
      .read (oneSource 1 "v=0".toList) "OPTIONS * RTSP/1.0\r\nCSeq: 2\r\n".toList,
      .update 1 "a".toList "v=1".toList,
      .read (oneSource 1 "v=1".toList) "\r\n".toList] = some s ∧
    s.buffer = [] ∧ ¬ s.Current := by
  have hrun : (run (occur {}) {}
      [.read (oneSource 1 "v=0".toList)
          "DESCRIBE rtsp://h/by-id/1 RTSP/1.0\r\nCSeq: 1\r\n\r\n".toList,
        .read (oneSource 1 "v=0".toList) "OPTIONS * RTSP/1.0\r\nCSeq: 2\r\n".toList,
        .update 1 "a".toList "v=1".toList,
        .read (oneSource 1 "v=1".toList) "\r\n".toList]).map
        (fun s => (s.buffer, decide s.Current)) = some ([], false) := by decide +kernel
  obtain ⟨s, hs, hstate⟩ := Option.map_eq_some_iff.mp hrun
  simp only [Prod.mk.injEq, decide_eq_false_iff_not] at hstate
  exact ⟨s, hs, hstate⟩

end RtspSession
end Aes67Daemon
