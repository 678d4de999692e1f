import Aes67Daemon.Browser.Store
import Mathlib.Data.List.DropRight

/-!
# The SAP sessions of the browser

The browser stores a session under its address and its hash.  A repeated
announcement renews `last_seen` and `announce_period` of the entry and nothing
else, so that the entry keeps the description with which the session came up.

## Main definitions

* `sapMessages` — the messages about one session.
* `SapFollows` — the entries are those of the announced sessions, described by one
  of their messages.
* `sap_sessions` — which sessions are stored, and how they are described.
-/
namespace Aes67Daemon

/-- What the browser takes from a description: SDP, origin, name and address. -/
abbrev Description := Text × SDPOrigin × Text × Text

/-- The description an entry shows. -/
def RemoteEntry.described (it : RemoteEntry) : Description := (it.sdp, it.origin, it.name, it.address)

/-- The description a message brings. -/
def SapMessage.described (m : SapMessage) : Description :=
  (m.sdp, sdpGetOrigin m.sdp, sdpGetSubject m.sdp, Address.toText (Address.htonl m.addr))

/-- The messages about one session. -/
def sapMessages (addr : UInt32) (hash : UInt16) (es : List BrowserEvent) : List SapMessage :=
  es.filterMap fun
    | .sap _ m => if m.addr = addr ∧ m.msgIdHash = hash then some m else none
    | _ => none

/-- The last message, if it is an announcement. -/
def lastAnnouncement (ms : List SapMessage) : Option SapMessage :=
  ms.getLast?.filter fun m => m.isAnnounce

/-- The first announcement after the last deletion. -/
def firstAnnouncement (ms : List SapMessage) : Option SapMessage :=
  (ms.rtakeWhile fun m => m.isAnnounce).head?

namespace Browser
variable {sapInterval : UInt16} {b : Browser}

/-- The SAP entries with the id of a session. -/
def sapEntries (addr : UInt32) (hash : UInt16) (b : Browser) : List RemoteEntry :=
  b.sources.entries.filter fun it => it.protocol = sapProtocol && it.id = sapId addr hash

/-- The SAP entries are those of the sessions whose last message is an announcement,
one for each, and show the description of the message that `pick` selects. -/
structure SapFollows (pick : List SapMessage → Option SapMessage) (es : List BrowserEvent)
    (b : Browser) : Prop where
  ids : ∀ it ∈ b.sources.entries, it.protocol = sapProtocol → ∃ addr hash, it.id = sapId addr hash
  announced : ∀ addr hash, (b.sapEntries addr hash).length =
    if ((sapMessages addr hash es).getLast?.any fun m => m.isAnnounce) = true then 1 else 0
  described : ∀ addr hash, (b.sapEntries addr hash).map RemoteEntry.described =
    ((pick (sapMessages addr hash es)).map SapMessage.described).toList

/-- No sweep finds an expired session. -/
def NoExpiry (sapInterval : UInt16) (es : List BrowserEvent) : Prop :=
  ∀ pre offset now post, es = pre ++ .sweep offset now :: post →
    ∀ it ∈ (pre.foldl (occur sapInterval) {}).sources.entries, it.expired offset = false

end Browser

theorem sapMessages_append (addr : UInt32) (hash : UInt16) (es fs : List BrowserEvent) :
    sapMessages addr hash (es ++ fs) = sapMessages addr hash es ++ sapMessages addr hash fs :=
  List.filterMap_append

theorem firstAnnouncement_append (ms : List SapMessage) (m : SapMessage) :
    firstAnnouncement (ms ++ [m]) =
      if m.isAnnounce then some ((firstAnnouncement ms).getD m) else none := by
  rw [firstAnnouncement, List.rtakeWhile_concat]
  split
  · rw [firstAnnouncement]
    cases ms.rtakeWhile fun m => m.isAnnounce <;> rfl
  · rfl

/-- There is a first announcement after the last deletion when the last message is
an announcement. -/
theorem isSome_firstAnnouncement (ms : List SapMessage) :
    (firstAnnouncement ms).isSome = ms.getLast?.any fun m => m.isAnnounce := by
  induction ms using List.reverseRecOn with
  | nil => rfl
  | append_singleton ms m _ =>
      rw [firstAnnouncement_append, List.getLast?_concat]
      cases h : m.isAnnounce <;> simp [h]

namespace Browser
variable {sapInterval : UInt16} {b : Browser}

/-- What a session shows after a sequence of events in which nothing expires. -/
theorem described_run (es : List BrowserEvent) (hes : NoExpiry sapInterval es) (addr : UInt32)
    (hash : UInt16) :
    (((es.foldl (occur sapInterval) {}).sources.find? (sapId addr hash)).map fun it =>
      (it.protocol, it.described)) =
    (firstAnnouncement (sapMessages addr hash es)).map fun m => (sapProtocol, m.described) := by
  induction es using List.reverseRecOn with
  | nil => rfl
  | append_singleton es e ih =>
      have ih := ih fun pre offset now post h => hes pre offset now (post ++ [e]) (by rw [h]; simp)
      have hsound : (es.foldl (occur sapInterval) {}).IdsByProtocol :=
        idsByProtocol_run idsByProtocol_empty es
      rw [List.foldl_append, List.foldl_cons, List.foldl_nil, find?_occur hsound,
        sapMessages_append]
      generalize hfind : (es.foldl (occur sapInterval) {}).sources.find? (sapId addr hash) = o at ih
      cases e with
      | sap now m =>
          by_cases hkey : m.addr = addr ∧ m.msgIdHash = hash
          · have hmsg : sapMessages addr hash [.sap now m] = [m] := by simp [sapMessages, hkey]
            rw [hmsg, firstAnnouncement_append]
            simp only [session, if_pos hkey]
            split
            · cases hfirst : firstAnnouncement (sapMessages addr hash es) with
              | none =>
                  rw [hfirst] at ih
                  obtain rfl := Option.map_eq_none_iff.mp ih
                  rfl
              | some m' =>
                  rw [hfirst] at ih
                  obtain ⟨it, rfl, hit⟩ := Option.map_eq_some_iff.mp ih
                  dsimp only
                  split <;> exact congrArg some hit
            · rfl
          · have hmsg : sapMessages addr hash [.sap now m] = [] := by simp [sapMessages, hkey]
            rw [hmsg, List.append_nil]
            simpa only [session, if_neg hkey] using ih
      | sweep offset now =>
          have hkeep : session sapInterval addr hash o (.sweep offset now) = o := by
            cases o with
            | none => rfl
            | some it =>
                have hlive := hes es offset now [] rfl it (Keyed.find?_eq_some.mp hfind).1
                simp [session, Option.filter, hlive]
          rw [hkeep]
          simpa [sapMessages] using ih
      | change now name domain address sdp => simpa [sapMessages, session] using ih
      | remove now name domain => simpa [sapMessages, session] using ih

/-- **The SAP sessions of the browser**: in every sequence of messages, changes of
services and sweeps in which nothing expires, one entry for every session whose
last message is an announcement, with the description of the first announcement
since the session came up. -/
theorem sap_sessions (sapInterval : UInt16) (es : List BrowserEvent)
    (hes : NoExpiry sapInterval es) :
    (es.foldl (occur sapInterval) {}).SapFollows firstAnnouncement es := by
  have hsound : (es.foldl (occur sapInterval) {}).IdsByProtocol :=
    idsByProtocol_run idsByProtocol_empty es
  have hentries : ∀ addr hash, (es.foldl (occur sapInterval) {}).sapEntries addr hash =
      ((es.foldl (occur sapInterval) {}).sources.find? (sapId addr hash)).toList := by
    intro addr hash
    rw [sapEntries, ← List.filter_filter, Keyed.filter_key]
    have hdesc := described_run es hes addr hash
    cases hfind : (es.foldl (occur sapInterval) {}).sources.find? (sapId addr hash) with
    | none => rfl
    | some it =>
        rw [hfind] at hdesc
        obtain ⟨m, -, hm⟩ := Option.map_eq_some_iff.mp hdesc.symm
        have hprot : it.protocol = sapProtocol := (congrArg Prod.fst hm).symm
        simp [hprot]
  have hdescribed : ∀ addr hash,
      ((es.foldl (occur sapInterval) {}).sapEntries addr hash).map RemoteEntry.described =
        ((firstAnnouncement (sapMessages addr hash es)).map SapMessage.described).toList := by
    intro addr hash
    have hdesc := congrArg (Option.map Prod.snd) (described_run es hes addr hash)
    simp only [Option.map_map] at hdesc
    rw [hentries, ← Option.toList_map]
    exact congrArg Option.toList hdesc
  refine ⟨fun it hit hprot => ?_, fun addr hash => ?_, hdescribed⟩
  · rcases hsound it hit with ⟨-, hid⟩ | ⟨hmdns, -⟩
    · exact hid
    · rw [hprot] at hmdns
      exact absurd hmdns (by decide)
  · have hlength := congrArg List.length (hdescribed addr hash)
    rw [List.length_map] at hlength
    rw [hlength, ← isSome_firstAnnouncement]
    cases firstAnnouncement (sapMessages addr hash es) <;> rfl

/-- Without sweeps nothing expires. -/
theorem noExpiry_of_forall {es : List BrowserEvent}
    (hes : ∀ e ∈ es, ∀ offset now, e ≠ .sweep offset now) : NoExpiry sapInterval es := by
  intro pre offset now post h
  exact absurd rfl (hes (.sweep offset now) (by rw [h]; simp) offset now)

/-- Two announcements of one session, a second apart. -/
def repeatedSession : List BrowserEvent :=
  [.sap 0 ⟨true, 1, 1, "s=a".toList⟩, .sap nanos ⟨true, 1, 1, "s=b".toList⟩]

theorem sap_sessions_repeated :
    (repeatedSession.foldl (occur 300) {}).SapFollows firstAnnouncement repeatedSession :=
  sap_sessions 300 repeatedSession (noExpiry_of_forall (by simp [repeatedSession]))

/-- The second of the two announcements does not describe the session. -/
theorem sap_session_stale : NoExpiry 300 repeatedSession ∧
    ¬ (repeatedSession.foldl (occur 300) {}).SapFollows lastAnnouncement repeatedSession := by
  refine ⟨noExpiry_of_forall (by simp [repeatedSession]), fun H => ?_⟩
  have hsdp := congrArg (List.map Prod.fst) (H.described 1 1)
  revert hsdp
  decide +kernel

end Browser
end Aes67Daemon
