import Aes67Daemon.Driver.Handler
import Aes67Daemon.Lib.Run

/-!
# Late replies of the driver

One command after the other, over a socket that keeps what nobody has read.  A
reply that comes after the timeout of its request stays in the socket, and the
next command reads it: commands are matched with replies by their kind only.  A
datagram without a final message leaves the result of an earlier command in
place.  Where neither happens a success is the driver's answer.

## Main definitions

* `Channel` — the two members, the unread replies and the calls so far.
* `CallRecord.Own` — a success comes from the reply to the call's own request.
* `ChannelEvent.Settled` — when the first unread reply may be taken for the answer.
* `Channel.replies_own_iff` — calls report their own replies exactly then.
-/
namespace Aes67Daemon

/-- A datagram of the driver, and the request it answers. -/
structure Reply where
  request : ℕ
  msgs : List NetlinkMsg
  deriving DecidableEq

/-- A call that has returned: its request, what it read from the socket, and what
it reported. -/
structure CallRecord where
  request : ℕ
  command : Command
  received : Option Reply
  report : Report
  deriving DecidableEq

/-- A success is the last final message of the reply to this very request, and the
data is the data of that message. -/
def CallRecord.Own (call : CallRecord) : Prop :=
  call.report.retcode = none → ∃ reply ∈ call.received, reply.request = call.request ∧
    ∃ m ∈ lastDone reply.msgs, m.Succeeds call.command.id ∧
      call.report.data = m.data.take call.command.resultSize

instance (call : CallRecord) : Decidable call.Own := inferInstanceAs (Decidable (_ → _))

/-- The command socket, from the side of the daemon. -/
structure Channel where
  results : Results := {}
  /-- The replies in the socket, the oldest first. -/
  unread : List Reply := []
  /-- The number of requests sent. -/
  requests : ℕ := 0
  /-- The calls that have returned, newest first. -/
  calls : List CallRecord := []

/-- What happens at the socket. -/
inductive ChannelEvent
  /-- A reply that comes while no call is waiting. -/
  | arrive (reply : Reply)
  /-- A call, and the replies that come between its request and its timeout. -/
  | call (c : Command) (inTime : List Reply)

namespace Channel

/-- The socket after a call that sent its request: the first unread reply is its
answer. -/
def sent (maxPayload : ℕ) (s : Channel) (c : Command) (inTime : List Reply) : Channel :=
  let queue := s.unread ++ inTime
  let results := s.results.sendCommand maxPayload c (queue.head?.map Reply.msgs)
  { results, unread := queue.tail, requests := s.requests + 1,
    calls := ⟨s.requests, c, queue.head?, results.report c⟩ :: s.calls }

/-- The socket after a call whose request was too large. -/
def unsent (maxPayload : ℕ) (s : Channel) (c : Command) (inTime : List Reply) : Channel :=
  let results := s.results.sendCommand maxPayload c none
  { s with results, unread := s.unread ++ inTime,
           calls := ⟨s.requests, c, none, results.report c⟩ :: s.calls }

/-- One event.  Every reply answers a request that was sent before; `none` is a
reply that does not. -/
def occur (maxPayload : ℕ) (s : Channel) : ChannelEvent → Option Channel
  | .arrive reply =>
      if reply.request < s.requests then some { s with unread := s.unread ++ [reply] } else none
  | .call c inTime =>
      if maxPayload < c.data.length then
        if ∀ reply ∈ inTime, reply.request < s.requests then
          some (s.unsent maxPayload c inTime)
        else none
      else if ∀ reply ∈ inTime, reply.request ≤ s.requests then some (s.sent maxPayload c inTime)
      else none

end Channel

namespace ChannelEvent

/-- The first unread reply may be taken for the answer: if it ends in a success of
the command, it is the answer and has the bytes the call copies; if it has no final
message, `retcode_` was an error. -/
def Settled (maxPayload : ℕ) (s : Channel) : ChannelEvent → Prop
  | .arrive _ => True
  | .call c inTime => c.data.length ≤ maxPayload → ∀ reply, (s.unread ++ inTime).head? = some reply →
      (lastDone reply.msgs = none → s.results.retcode ≠ none) ∧
      ∀ m, lastDone reply.msgs = some m → m.Succeeds c.id →
        reply.request = s.requests ∧ c.resultSize ≤ m.data.length

end ChannelEvent

namespace Channel
variable {maxPayload : ℕ} {s s' : Channel} {e : ChannelEvent}

/-- What an event adds to the calls. -/
theorem occur_cases (h : s.occur maxPayload e = some s') :
    (∃ reply, e = .arrive reply ∧ s' = { s with unread := s.unread ++ [reply] }) ∨
    (∃ c inTime, e = .call c inTime ∧ maxPayload < c.data.length ∧
      s' = s.unsent maxPayload c inTime) ∨
    (∃ c inTime, e = .call c inTime ∧ c.data.length ≤ maxPayload ∧
      s' = s.sent maxPayload c inTime) := by
  cases e with
  | arrive reply =>
      rw [occur] at h
      split at h
      · exact .inl ⟨reply, rfl, (Option.some.inj h).symm⟩
      · cases h
  | call c inTime =>
      rw [occur] at h
      split at h
      next hlarge =>
        split at h
        · exact .inr (.inl ⟨c, inTime, rfl, hlarge, (Option.some.inj h).symm⟩)
        · cases h
      next hsize =>
        split at h
        · exact .inr (.inr ⟨c, inTime, rfl, not_lt.mp hsize, (Option.some.inj h).symm⟩)
        · cases h

/-- A call that read a reply reports it as its own exactly when it may. -/
theorem own_received_iff {c : Command} {reply : Reply} (hsize : c.data.length ≤ maxPayload) (r : Results)
    (request : ℕ) :
    CallRecord.Own ⟨request, c, some reply,
        (r.sendCommand maxPayload c (some reply.msgs)).report c⟩ ↔
      (lastDone reply.msgs = none → r.retcode ≠ none) ∧
      ∀ m, lastDone reply.msgs = some m → m.Succeeds c.id →
        reply.request = request ∧ c.resultSize ≤ m.data.length := by
  cases hlast : lastDone reply.msgs with
  | none =>
      rw [Results.sendCommand_unfinished hsize hlast]
      constructor
      · intro hown
        refine ⟨fun _ hret => ?_, nofun⟩
        obtain ⟨reply', hreply, -, m, hm, -⟩ := hown hret
        obtain rfl := Option.some.inj hreply
        cases hlast.symm.trans hm
      · intro h hret
        exact absurd hret (h.1 rfl)
  | some m =>
      by_cases hm : m.Succeeds c.id
      · obtain ⟨r', hr'⟩ := Results.sendCommand_succeeds (r := r) hsize hlast hm
        rw [hr']
        have hdata : ((r'.onCommandDone m.data).report c).data =
            (r'.onCommandDone m.data).read c.resultSize := by simp [Results.report]
        constructor
        · intro hown
          refine ⟨nofun, fun m' hm' _ => ?_⟩
          obtain rfl := Option.some.inj hm'
          obtain ⟨reply', hreply, hrequest, m', hm', -, htake⟩ := hown rfl
          obtain rfl := Option.some.inj hreply
          obtain rfl := Option.some.inj (hlast.symm.trans hm')
          refine ⟨hrequest, ?_⟩
          have hlen := congrArg List.length (hdata.symm.trans htake)
          rw [Results.length_read, List.length_take] at hlen
          omega
        · intro h _
          obtain ⟨hrequest, hbytes⟩ := h.2 m rfl hm
          exact ⟨reply, rfl, hrequest, m, hlast, hm,
            hdata.trans (Results.read_onCommandDone r' hbytes)⟩
      · constructor
        · intro _
          refine ⟨nofun, fun m' hm' hsucc => ?_⟩
          obtain rfl := Option.some.inj hm'
          exact absurd hsucc hm
        · intro _ hret
          exact absurd hret (Results.sendCommand_refused hsize hlast hm)

/-- **One event**: the calls report their own replies after it exactly when they
did before and the first unread reply could be taken for the answer. -/
theorem own_occur_iff (h : s.occur maxPayload e = some s') :
    (∀ call ∈ s'.calls, call.Own) ↔
      (∀ call ∈ s.calls, call.Own) ∧ e.Settled maxPayload s := by
  rcases occur_cases h with ⟨reply, rfl, rfl⟩ | ⟨c, inTime, rfl, hlarge, rfl⟩ |
    ⟨c, inTime, rfl, hsize, rfl⟩
  · exact (and_iff_left trivial).symm
  · rw [unsent, List.forall_mem_cons, and_comm]
    refine and_congr_right fun _ => ⟨fun _ hsize => ?_, fun _ hret => ?_⟩
    · omega
    · exact absurd hret (Results.sendCommand_failed (.inl hlarge))
  · rw [sent, List.forall_mem_cons, and_comm]
    refine and_congr_right fun _ => ?_
    cases hhead : (s.unread ++ inTime).head? with
    | none =>
        refine ⟨fun _ _ reply hreply => ?_, fun _ hret => ?_⟩
        · cases hhead.symm.trans hreply
        · exact absurd hret (Results.sendCommand_failed (.inr rfl))
    | some reply =>
        rw [Option.map_some, own_received_iff hsize]
        constructor
        · intro hown _ reply' hreply
          obtain rfl := Option.some.inj (hhead.symm.trans hreply)
          exact hown
        · intro hset
          exact hset hsize reply hhead

/-- **Late replies**: in every run of commands and replies, all calls that have
returned success report the reply to their own request if and only if, at each
call, the first unread reply could be taken for the answer. -/
theorem replies_own_iff (maxPayload : ℕ) {es : List ChannelEvent}
    (hrun : run (occur maxPayload) {} es = some s) :
    (∀ call ∈ s.calls, call.Own) ↔
      Along (occur maxPayload) (fun s e => e.Settled maxPayload s) {} es := by
  have hstart : ∀ call ∈ ({} : Channel).calls, call.Own := nofun
  rw [run_decides (P := fun s => ∀ call ∈ s.calls, call.Own) (fun _ _ _ => own_occur_iff) hrun]
  exact and_iff_right hstart

/-- A handle is added in time, and a request is refused. -/
theorem replies_own_added : ∃ s, run (occur 1024) {}
    [.call (DriverManager.addRtpStream (.replicate 4 0))
        [⟨0, [{ id := .addRtpStream, data := [7, 0, 0, 0, 0, 0, 0, 0] }]⟩],
      .call DriverManager.getSampleRate [⟨1, [{ id := .getSampleRate, errCode := -401 }]⟩]] =
      some s ∧
    s.calls.map CallRecord.report =
      [{ retcode := some .commandFailed }, { retcode := none, data := [7, 0, 0, 0, 0, 0, 0, 0] }] ∧
    ∀ call ∈ s.calls, call.Own := by
  have hrun : (run (occur 1024) {}
      [.call (DriverManager.addRtpStream (.replicate 4 0))
          [⟨0, [{ id := .addRtpStream, data := [7, 0, 0, 0, 0, 0, 0, 0] }]⟩],
        .call DriverManager.getSampleRate
          [⟨1, [{ id := .getSampleRate, errCode := -401 }]⟩]]).map
        (fun s => s.calls.map CallRecord.report) =
      some [{ retcode := some .commandFailed },
        { retcode := none, data := [7, 0, 0, 0, 0, 0, 0, 0] }] := by decide +kernel
  obtain ⟨s, hs, hreports⟩ := Option.map_eq_some_iff.mp hrun
  refine ⟨s, hs, hreports, (replies_own_iff 1024 hs).mpr ?_⟩
  refine ⟨fun _ reply hreply => ?_, fun s₁ hs₁ => ⟨fun _ reply hreply => ?_, fun _ _ => trivial⟩⟩
  · obtain rfl := Option.some.inj hreply
    refine ⟨nofun, fun m hm _ => ?_⟩
    obtain rfl := Option.some.inj hm
    exact ⟨rfl, le_refl _⟩
  · obtain rfl := Option.some.inj hs₁
    obtain rfl := Option.some.inj hreply
    refine ⟨nofun, fun m hm hsucc => ?_⟩
    obtain rfl := Option.some.inj hm
    cases hsucc.2

/-- A run after which a call reports what is not its own reply. -/
def Mixed (es : List ChannelEvent) : Prop :=
  ∃ s, run (occur 1024) {} es = some s ∧ ¬ ∀ call ∈ s.calls, call.Own

/-- The reply to a first command comes after its timeout and is taken for the reply
to a second one; and a datagram without a final message passes for a success. -/
theorem replies_mixed :
    Mixed [.call (DriverManager.addRtpStream (.replicate 4 0)) [],
      .arrive ⟨0, [{ id := .addRtpStream, data := [7, 0, 0, 0, 0, 0, 0, 0] }]⟩,
      .call (DriverManager.addRtpStream (.replicate 4 1))
        [⟨1, [{ id := .addRtpStream, data := [8, 0, 0, 0, 0, 0, 0, 0] }]⟩]] ∧
    Mixed [.call DriverManager.hello [⟨0, [{ id := .hello }]⟩],
      .call DriverManager.getSampleRate [⟨1, [{ done := false, id := .getSampleRate }]⟩]] :=
  ⟨exists_run_not (by decide +kernel), exists_run_not (by decide +kernel)⟩

end Channel
end Aes67Daemon
