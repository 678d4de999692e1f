import Aes67Daemon.Rtsp.Peers
import Mathlib.Data.List.FinRange

/-!
# The sessions of a server

`RtspServer` has a fixed number of slots for sessions.  A client that connects is given
the first slot whose session has ended, and is turned away when there is none.  An update
of a source goes to the sessions in all slots; everything else concerns one slot only, so
that a session does not depend on what the other clients do.

## Main definitions

* `RtspServer`, `RtspServer.step` — the slots, and what happens to them.
* `ServerEvent.forSlot` — the part of a run that concerns one slot.
* `slot_of_run` — a session is what its own events make of it.
* `client_told` — what a client of a busy server is told.
-/
namespace Aes67Daemon

open Text

/-- `session_num_max`. -/
def sessionNumMax : ℕ := (streamIdMax + 1) * 2

instance : NeZero sessionNumMax := ⟨by decide⟩

/-- `RtspServer`: the sessions that `sessions_` still leads to. -/
structure RtspServer where
  slots : Fin sessionNumMax → Option RtspSession := fun _ => none

inductive ServerEvent
  /-- A client connects. -/
  | accept
  | read (i : Fin sessionNumMax) (dir : Directory) (chunk : Text)
  /-- The last reference to the session of a slot is gone. -/
  | expired (i : Fin sessionNumMax)
  | updateSource (id : UInt8) (name sdp : Text)

/-- What an event is for the session in a slot. -/
def ServerEvent.forSlot (i : Fin sessionNumMax) : ServerEvent → Option RtspEvent
  | .accept | .expired _ => none
  | .read j dir chunk => if j = i then some (.read dir chunk) else none
  | .updateSource id name sdp => some (.update id name sdp)

namespace RtspServer

/-- The slot that `accept` finds. -/
def freeSlot (s : RtspServer) : Option (Fin sessionNumMax) :=
  (List.finRange sessionNumMax).find? fun i => (s.slots i).isNone

def set (s : RtspServer) (i : Fin sessionNumMax) (o : Option RtspSession) : RtspServer :=
  { slots := fun j => if j = i then o else s.slots j }

/-- One event.  Only a session that is there can be read, or end. -/
def step (h : RtspHost) (s : RtspServer) : ServerEvent → Option RtspServer
  | .accept => some ((s.freeSlot).elim s fun i => s.set i (some {}))
  | .read i dir chunk =>
    (s.slots i).bind fun t => (t.readSome h dir chunk).map fun t => s.set i (some t)
  | .expired i => (s.slots i).map fun _ => s.set i none
  | .updateSource id name sdp => some { slots := fun i => (s.slots i).map (·.announce id name sdp) }

variable {h : RtspHost} {s s' : RtspServer} {i : Fin sessionNumMax} {t : RtspSession}

@[simp] theorem slots_set (s : RtspServer) (i j : Fin sessionNumMax) (o : Option RtspSession) :
    (s.set i o).slots j = if j = i then o else s.slots j := rfl

/-- The slot that is found is free. -/
theorem freeSlot_eq_some (hi : s.freeSlot = some i) : s.slots i = none := by
  simpa using List.find?_some hi

/-- **A client is turned away** only when all slots are taken. -/
theorem freeSlot_eq_none_iff : s.freeSlot = none ↔ ∀ i, (s.slots i).isSome = true := by
  simp [freeSlot, List.find?_eq_none, Option.isSome_iff_ne_none]

/-- One event, seen from a slot whose session goes on. -/
theorem slot_of_step {e : ServerEvent} (hs : s.step h e = some s') (ht : s.slots i = some t)
    (hopen : e ≠ .expired i) :
    ∃ t', s'.slots i = some t' ∧ run (RtspSession.occur h) t (e.forSlot i).toList = some t' := by
  cases e with
  | accept =>
      obtain rfl := Option.some.inj hs
      cases hfree : s.freeSlot with
      | none => exact ⟨t, ht, rfl⟩
      | some j =>
          have hne : i ≠ j := by
            rintro rfl
            rw [freeSlot_eq_some hfree] at ht
            cases ht
          exact ⟨t, by simpa [hne] using ht, rfl⟩
  | read j dir chunk =>
      obtain ⟨u, hu, hs⟩ := Option.bind_eq_some_iff.mp hs
      obtain ⟨u', hread, rfl⟩ := Option.map_eq_some_iff.mp hs
      by_cases hj : j = i
      · subst hj
        obtain rfl : t = u := Option.some.inj (ht.symm.trans hu)
        refine ⟨u', by simp, ?_⟩
        simp [ServerEvent.forSlot, run_cons, RtspSession.occur, hread]
      · exact ⟨t, by simpa [Ne.symm hj] using ht, by simp [ServerEvent.forSlot, hj]⟩
  | expired j =>
      obtain ⟨u, -, rfl⟩ := Option.map_eq_some_iff.mp hs
      have hne : i ≠ j := fun heq => hopen (heq ▸ rfl)
      exact ⟨t, by simpa [hne] using ht, rfl⟩
  | updateSource id name sdp =>
      obtain rfl := Option.some.inj hs
      exact ⟨t.announce id name sdp, by simp [ht], rfl⟩

/-- **A session is what its own events make of it**: the requests of other clients,
connections and ended sessions do not change it. -/
theorem slot_of_run {es : List ServerEvent} (hrun : run (step h) s es = some s') (ht : s.slots i = some t)
    (hopen : ∀ e ∈ es, e ≠ .expired i) :
    ∃ t', s'.slots i = some t' ∧ run (RtspSession.occur h) t (es.filterMap (·.forSlot i)) = some t' := by
  induction es generalizing s t with
  | nil =>
      obtain rfl := Option.some.inj hrun
      exact ⟨t, ht, rfl⟩
  | cons e es ih =>
      obtain ⟨he, hes⟩ := List.forall_mem_cons.mp hopen
      rw [run_cons] at hrun
      obtain ⟨s₁, hs₁, hrun⟩ := Option.bind_eq_some_iff.mp hrun
      obtain ⟨t₁, ht₁, hone⟩ := slot_of_step hs₁ ht he
      obtain ⟨t', ht', hrest⟩ := ih hrun ht₁ hes
      refine ⟨t', ht', ?_⟩
      have hsplit : (e :: es).filterMap (·.forSlot i) =
          (e.forSlot i).toList ++ es.filterMap (·.forSlot i) := by
        cases hone : e.forSlot i <;> simp [hone]
      rw [hsplit, run_append, hone]
      exact hrest

end RtspServer

section clients

variable {h : RtspHost} {s s' : RtspServer} {i : Fin sessionNumMax}

/-- **A client of a busy server is told of every update**: whatever the other clients do,
and whoever connects or leaves, a client that has been given a slot and keeps it, that asks
for a source by its name and then only replies, is told of the description and of every
update of the source, in order and each once. -/
theorem client_told {t : RtspClient.Target} {cseq : UInt16} {id : UInt8} {dir : Directory}
    (henc : ∀ t, h.encodeUrl t = percentEncode isEncoded t) (hdec : ∀ t, h.decodeUrl t = percentDecode t)
    (hpath : t.path.all isDesired = true) (hby : RtspClient.byNamePrefix <:+: t.path)
    (hwait : t.waitForUpdates = true) {sdp : Text} (hsdp : RtspClient.Readable sdp) {e : RtspEndpoint}
    (hanswer : buildResponse h dir (requestUrl (describeRequest h e t.path cseq)) = some (.described id sdp))
    (hfree : s.freeSlot = some i) {es : List ServerEvent} (hopen : ∀ e ∈ es, e ≠ .expired i)
    (hrun : run (RtspServer.step h) s (.accept :: es) = some s') {ps : List PeerEvent}
    (hclient : es.filterMap (·.forSlot i) =
      .read dir (describeRequest h e t.path cseq) :: ps.map PeerEvent.toEvent)
    (hplain : ∀ p ∈ ps, p.Plain h) (hcount : ps.length ≤ 2147483647) {n : ℕ} (hn : 2 * ps.length < n) :
    ∃ session, s'.slots i = some session ∧
      RtspClient.process h.decodeUrl t cseq n (session.log.reverse.flatMap (·.toText h)) =
        { ok := true
          source := rtspSource t.dstAddress (PeerEvent.lastSdp sdp (PeerEvent.updates id ps))
          acts := .told t.name t.domain (rtspSource t.dstAddress sdp) ::
            PeerEvent.told h t 0 (PeerEvent.updates id ps) } := by
  have hstep : s.step h .accept = some (s.set i (some {})) := by
    rw [RtspServer.step, hfree]
    rfl
  rw [run_cons, hstep, Option.bind_some] at hrun
  obtain ⟨session, hsession, hown⟩ := RtspServer.slot_of_run (t := {}) hrun (by simp) hopen
  obtain ⟨session', hrun', hprocess⟩ :=
    RtspClient.told_updates henc hdec hpath hby hwait hsdp hanswer hplain hcount hn
  rw [hclient, hrun'] at hown
  obtain rfl := Option.some.inj hown
  exact ⟨session', hsession, hprocess⟩

/-- A host that other hosts can connect to. -/
def peerHost : RtspHost :=
  { plainHost with config := { customNodeId := "n".toList } }

/-- A directory that has the first source under every name. -/
def peerDirectory : Directory where
  sourceId _ := 1
  sourceSdp _ := some "v=0\n".toList

def peerTarget (name : Text) : RtspClient.Target where
  name := name
  domain := []
  path := byNamePath "n".toList name
  dstAddress := "192.168.1.100".toList

/-- What happens to a server of two clients, one of which only connects and leaves. -/
def busyServer : List ServerEvent :=
  [.read 0 peerDirectory (describeRequest peerHost (RtspClient.endpointOf peerHost) (byNamePath "n".toList "a".toList) 7),
    .accept, .updateSource 1 "a".toList "v=1\n".toList, .expired 1, .updateSource 2 "b".toList "v=2\n".toList,
    .read 0 peerDirectory (RtspClient.ClientAct.replied 200 "OK".toList 0).toText]

theorem client_told_busy : ∃ s' session, run (RtspServer.step peerHost) {} (.accept :: busyServer) = some s' ∧
    s'.slots 0 = some session ∧
    (RtspClient.process peerHost.decodeUrl (peerTarget "a".toList) 7 7
        (session.log.reverse.flatMap (·.toText peerHost))).acts =
      [.told "a".toList [] (rtspSource "192.168.1.100".toList "v=0\n".toList), .replied 200 "OK".toList 0,
        .told "n a".toList [] (rtspSource "192.168.1.100".toList "v=1\n".toList)] := by
  have hsome : (run (RtspServer.step peerHost) {} (.accept :: busyServer)).isSome = true := by decide +kernel
  obtain ⟨s', hrun⟩ := Option.isSome_iff_exists.mp hsome
  have hfirst : buildResponse peerHost peerDirectory (requestUrl (describeRequest peerHost
      (RtspClient.endpointOf peerHost) (peerTarget "a".toList).path 7)) = some (.described 1 "v=0\n".toList) := by
    decide +kernel
  have hclient : busyServer.filterMap (·.forSlot 0) =
      .read peerDirectory (describeRequest peerHost (RtspClient.endpointOf peerHost) (peerTarget "a".toList).path 7) ::
        [PeerEvent.update 1 "a".toList "v=1\n".toList, .update 2 "b".toList "v=2\n".toList,
          .reply peerDirectory 0].map PeerEvent.toEvent := rfl
  obtain ⟨session, hsession, hprocess⟩ := @client_told peerHost {} s' 0 (peerTarget "a".toList) 7 1 peerDirectory
    (fun _ => rfl) (fun _ => rfl) (by decide) (by decide) rfl _ ⟨by decide, by decide⟩ _ hfirst rfl busyServer
    (by simp [busyServer]; decide) hrun _ hclient
    (by simp only [List.forall_mem_cons, PeerEvent.Plain, List.not_mem_nil, false_implies, implies_true, and_true]
        exact ⟨⟨by decide, by decide, by decide⟩, ⟨by decide, by decide, by decide⟩, by decide⟩)
    (by decide) 7 (by decide)
  refine ⟨s', session, hrun, hsession, ?_⟩
  rw [hprocess]
  decide +kernel

end clients
end Aes67Daemon
