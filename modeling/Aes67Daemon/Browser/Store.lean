import Aes67Daemon.Lib.Keyed
import Aes67Daemon.Session.Announce
import Aes67Daemon.Session.Origin
import Mathlib.Data.List.Sort

/-!
# The browser

The store of `Browser` and what changes it: a SAP message the worker receives, its
sweep over the sessions that are no longer announced, and the observers of the
RTSP client, which follow the mDNS services.

Time is in nanoseconds of the steady clock since `startup_`, and seconds are
whole ones.  A step under the lock reads the clock once; a sweep reads it before
it takes the lock, and again when it removes an entry.

`sources_t` is indexed by id, uniquely, and by name.  The records stand in the order
of their insertion, in which the index by name has those with one name.

## Main definitions

* `RemoteEntry`, `Browser` — an entry, and the members of `Browser`.
* `Browser.onSapMessage`, `sweep`, `onChangeRtspSource`, `onRemoveRtspSource` — the
  operations.
* `Browser.getRemoteSources` — `get_remote_sources`.
* `BrowserEvent`, `Browser.occur` — what happens to a browser.
* `Browser.session`, `find?_occur` — every SAP session has a life of its own.
-/
namespace Aes67Daemon

open Text

/-- `sdp_get_subject`. -/
def sdpGetSubject (sdp : Text) : Text :=
  ((getLines sdp).find? fun line => line.take 2 = "s=".toList).elim [] fun line =>
    trim (line.drop 2)

/-- `RemoteSource`, with the members `get_updated_sinks` does not read. -/
structure RemoteEntry extends RemoteSource where
  id : Text := []
  /-- `source`: the protocol. -/
  protocol : Text := []
  address : Text := []
  name : Text := []
  domain : Text := []
  lastSeen : ℕ := 0
  announcePeriod : ℕ := 0
  deriving DecidableEq

/-- The `source` of the entries SAP messages make. -/
def sapProtocol : Text := "SAP".toList

/-- The `source` of the entries the RTSP client makes. -/
def mdnsProtocol : Text := "mDNS".toList

/-- A message `SAP::receive` accepts; the address is in network order. -/
structure SapMessage where
  isAnnounce : Bool
  msgIdHash : UInt16
  addr : UInt32
  sdp : Text
  deriving DecidableEq

/-- The id of a SAP session. -/
def sapId (addr : UInt32) (msgIdHash : UInt16) : Text :=
  "sap:".toList ++ ofNat addr.toNat ++ '-' :: ofNat msgIdHash.toNat

/-- `RtspSource`. -/
structure RtspSource where
  id : Text
  source : Text
  address : Text
  sdp : Text
  deriving DecidableEq

/-- The id `RtspClient::process` gives a description, with `std::hex`. -/
def rtspId (sdp : Text) : Text := "rtsp:".toList ++ Nat.toDigits 16 (crc16 sdp).toNat

/-- What `RtspClient::process` tells its observer about a description. -/
def rtspSource (address sdp : Text) : RtspSource :=
  { id := rtspId sdp, source := mdnsProtocol, address := address, sdp := sdp }

/-- The nanoseconds of a second. -/
def nanos : ℕ := 1000000000

/-- The whole seconds since startup, as `last_update_` and `last_seen` have them. -/
def seconds (t : ℕ) : ℕ := t / nanos

/-- The store of `Browser`, and `last_update_`. -/
structure Browser where
  sources : Keyed RemoteEntry.id := .empty
  lastUpdate : ℕ := 0

/-- The entry of a session that is announced for the first time. -/
def sapEntry (sapInterval : UInt16) (now : ℕ) (m : SapMessage) : RemoteEntry :=
  { id := sapId m.addr m.msgIdHash
    protocol := sapProtocol
    address := Address.toText (Address.htonl m.addr)
    name := sdpGetSubject m.sdp
    origin := sdpGetOrigin m.sdp
    sdp := m.sdp
    lastSeen := seconds now
    announcePeriod := sapInterval.toNat }

/-- The entry of a service that is found for the first time. -/
def rtspEntry (now : ℕ) (name domain : Text) (s : RtspSource) : RemoteEntry :=
  { id := s.id
    protocol := s.source
    address := s.address
    name := name
    domain := domain
    origin := sdpGetOrigin s.sdp
    sdp := s.sdp
    lastSeen := seconds now }

namespace RemoteEntry

/-- An entry that is announced again. -/
def refreshed (now : ℕ) (it : RemoteEntry) : RemoteEntry :=
  { it with announcePeriod := seconds now - it.lastSeen, lastSeen := seconds now }

/-- Whether the sweep takes a session for one that is no longer announced.  The
offset has fractions of a second, `last_seen` has none. -/
def expired (offset : ℕ) (it : RemoteEntry) : Bool :=
  it.protocol = sapProtocol && (it.lastSeen + it.announcePeriod * 10) * nanos < offset

/-- The entry of a service that has changed. -/
def updated (now : ℕ) (s : RtspSource) (it : RemoteEntry) : RemoteEntry :=
  { it with
    id := s.id
    address := s.address
    origin := sdpGetOrigin s.sdp
    sdp := s.sdp
    lastSeen := seconds now }

/-- Whether an entry is the one of a service. -/
def isService (name domain : Text) (it : RemoteEntry) : Bool :=
  it.name = name && it.protocol = mdnsProtocol && it.domain = domain

end RemoteEntry

namespace Browser

/-- `worker`, on a SAP message. -/
def onSapMessage (sapInterval : UInt16) (now : ℕ) (m : SapMessage) (b : Browser) : Browser :=
  let b := { b with lastUpdate := seconds now }
  match b.sources.find? (sapId m.addr m.msgIdHash) with
  | none =>
    if m.isAnnounce then { b with sources := b.sources.insert (sapEntry sapInterval now m) } else b
  | some it =>
    if m.isAnnounce then
      if seconds now ≠ it.lastSeen then
        { b with sources := b.sources.replace it.id (it.refreshed now) }
      else b
    else { b with sources := b.sources.erase it.id }

/-- `worker`, when it removes the sessions that are no longer announced: `offset` is
the time before the lock, `now` the one at which an entry is removed. -/
def sweep (offset now : ℕ) (b : Browser) : Browser :=
  { sources := b.sources.eraseIf fun it => it.expired offset
    lastUpdate :=
      if b.sources.entries.any fun it => it.expired offset then seconds now else b.lastUpdate }

/-- The entry `equal_range(name)` leads to. -/
def service (b : Browser) (name domain : Text) : Option RemoteEntry :=
  b.sources.entries.find? fun it => it.isService name domain

/-- `on_change_rtsp_source`. -/
def onChangeRtspSource (now : ℕ) (name domain : Text) (s : RtspSource) (b : Browser) : Browser :=
  { sources :=
      match b.service name domain with
      | some it => b.sources.replace it.id (it.updated now s)
      | none => b.sources.insert (rtspEntry now name domain s)
    lastUpdate := seconds now }

/-- `on_remove_rtsp_source`. -/
def onRemoveRtspSource (now : ℕ) (name domain : Text) (b : Browser) : Browser :=
  match b.service name domain with
  | some it => { sources := b.sources.erase it.id, lastUpdate := seconds now }
  | none => b

/-- `get_remote_sources`: ordered by name. -/
def getRemoteSources (source : Text) (b : Browser) : List RemoteEntry :=
  (b.sources.entries.insertionSort fun a b => a.name ≤ b.name).filter fun it =>
    toLower it.protocol = toLower source || toLower "all".toList = toLower source

end Browser

/-- What happens to a browser. -/
inductive BrowserEvent
  | sap (now : ℕ) (m : SapMessage)
  | sweep (offset now : ℕ)
  | change (now : ℕ) (name domain address sdp : Text)
  | remove (now : ℕ) (name domain : Text)
  deriving DecidableEq

/-- The state after an event. -/
def Browser.occur (sapInterval : UInt16) (b : Browser) : BrowserEvent → Browser
  | .sap now m => b.onSapMessage sapInterval now m
  | .sweep offset now => b.sweep offset now
  | .change now name domain address sdp =>
    b.onChangeRtspSource now name domain (rtspSource address sdp)
  | .remove now name domain => b.onRemoveRtspSource now name domain

/-! ## Ids -/

theorem Text.ofNat_injective : Function.Injective ofNat := fun m n h => by
  rw [← digitsValue_ofNat m, h, digitsValue_ofNat]

/-- Two numbers with the same hexadecimal digits are equal. -/
theorem toDigits_injective : Function.Injective (Nat.toDigits 16) := by
  have hdigit : ∀ a < 16, ∀ b < 16, Nat.digitChar a = Nat.digitChar b → a = b := by decide
  intro m
  induction m using Nat.strong_induction_on with
  | _ m ih =>
      intro n h
      rw [Nat.toDigits_eq_if (by decide), Nat.toDigits_eq_if (n := n) (by decide)] at h
      have hlong : ∀ k, 0 < (Nat.toDigits 16 k).length := fun k => Nat.length_toDigits_pos
      split at h <;> split at h
      · rename_i hm hn
        exact hdigit m hm n hn (List.singleton_inj.mp h)
      · have := congrArg List.length h
        simp only [List.length_append, List.length_singleton] at this
        have := hlong (n / 16)
        omega
      · have := congrArg List.length h
        simp only [List.length_append, List.length_singleton] at this
        have := hlong (m / 16)
        omega
      · rename_i hm hn
        obtain ⟨hhigh, hlow⟩ := List.append_inj' h rfl
        have hlow := hdigit _ (Nat.mod_lt m (by decide)) _ (Nat.mod_lt n (by decide))
          (List.singleton_inj.mp hlow)
        have hhigh := ih (m / 16) (by omega) hhigh
        omega

/-- A SAP session is known by its address and its hash. -/
theorem sapId_inj {addr addr' : UInt32} {hash hash' : UInt16} :
    sapId addr hash = sapId addr' hash' ↔ addr = addr' ∧ hash = hash' := by
  refine ⟨fun h => ?_, fun ⟨h, h'⟩ => by rw [h, h']⟩
  simp only [sapId, List.append_assoc, List.append_cancel_left_eq] at h
  have hdash : ∀ n, '-' ∉ ofNat n := not_mem_ofNat (by decide)
  have hbreak := congrArg (breakAt '-') h
  rw [breakAt_append (hdash _), breakAt_append (hdash _)] at hbreak
  obtain ⟨haddr, hhash⟩ := Prod.mk.inj (Option.some.inj hbreak)
  exact ⟨UInt32.toNat_inj.mp (ofNat_injective haddr), UInt16.toNat_inj.mp (ofNat_injective hhash)⟩

/-- Two descriptions have one id when they have one checksum. -/
theorem rtspId_inj {sdp sdp' : Text} : rtspId sdp = rtspId sdp' ↔ crc16 sdp = crc16 sdp' := by
  refine ⟨fun h => ?_, fun h => by rw [rtspId, rtspId, h]⟩
  exact UInt16.toNat_inj.mp (toDigits_injective (List.append_cancel_left h))

theorem sapId_ne_rtspId (addr : UInt32) (hash : UInt16) (sdp : Text) :
    sapId addr hash ≠ rtspId sdp := by
  intro h
  have := congrArg List.head? h
  simp [sapId, rtspId] at this

namespace Browser
variable {sapInterval : UInt16} {b : Browser}

/-- The ids of the entries tell the protocols apart. -/
def IdsByProtocol (b : Browser) : Prop :=
  ∀ it ∈ b.sources.entries,
    (it.protocol = sapProtocol ∧ ∃ addr hash, it.id = sapId addr hash) ∨
      it.protocol = mdnsProtocol ∧ ∃ sdp, it.id = rtspId sdp

/-- A service is an entry of the RTSP client. -/
theorem service_eq_some {name domain : Text} {it : RemoteEntry} (h : b.service name domain = some it) :
    it ∈ b.sources.entries ∧ it.name = name ∧ it.protocol = mdnsProtocol ∧ it.domain = domain := by
  have hit := List.find?_some h
  simp only [RemoteEntry.isService, Bool.and_eq_true, decide_eq_true_eq] at hit
  exact ⟨List.mem_of_find?_eq_some h, hit.1.1, hit.1.2, hit.2⟩

/-- One event keeps the ids apart. -/
theorem idsByProtocol_occur (H : b.IdsByProtocol) (e : BrowserEvent) :
    (b.occur sapInterval e).IdsByProtocol := by
  cases e with
  | sap now m =>
      intro it hit
      simp only [occur, onSapMessage] at hit
      split at hit
      · split at hit
        · rcases Keyed.mem_of_mem_insert hit with hit | rfl
          · exact H it hit
          · exact .inl ⟨rfl, m.addr, m.msgIdHash, rfl⟩
        · exact H it hit
      · rename_i old hold
        split at hit
        · split at hit
          · rcases Keyed.mem_of_mem_replace hit with hit | rfl
            · exact H it hit
            · exact H old (Keyed.find?_eq_some.mp hold).1
          · exact H it hit
        · exact H it (Keyed.mem_erase.mp hit).1
  | sweep offset now => exact fun it hit => H it (Keyed.mem_eraseIf.mp hit).1
  | change now name domain address sdp =>
      intro it hit
      simp only [occur, onChangeRtspSource] at hit
      split at hit
      · rename_i old hold
        rcases Keyed.mem_of_mem_replace hit with hit | rfl
        · exact H it hit
        · exact .inr ⟨(service_eq_some hold).2.2.1, sdp, rfl⟩
      · rcases Keyed.mem_of_mem_insert hit with hit | rfl
        · exact H it hit
        · exact .inr ⟨rfl, sdp, rfl⟩
  | remove now name domain =>
      intro it hit
      simp only [occur, onRemoveRtspSource] at hit
      split at hit
      · exact H it (Keyed.mem_erase.mp hit).1
      · exact H it hit

/-- The ids are apart after every sequence of events. -/
theorem idsByProtocol_run (H : b.IdsByProtocol) (es : List BrowserEvent) :
    (es.foldl (occur sapInterval) b).IdsByProtocol := by
  induction es generalizing b with
  | nil => exact H
  | cons e es ih => exact ih (idsByProtocol_occur H e)

theorem idsByProtocol_empty : ({} : Browser).IdsByProtocol := nofun

/-- What an event does to one SAP session. -/
def session (sapInterval : UInt16) (addr : UInt32) (hash : UInt16) (o : Option RemoteEntry) :
    BrowserEvent → Option RemoteEntry
  | .sap now m =>
    if m.addr = addr ∧ m.msgIdHash = hash then
      if m.isAnnounce then
        match o with
        | none => some (sapEntry sapInterval now m)
        | some it => some (if seconds now ≠ it.lastSeen then it.refreshed now else it)
      else none
    else o
  | .sweep offset _ => o.filter fun it => !it.expired offset
  | .change _ _ _ _ _ | .remove _ _ _ => o

/-- The entry of a service is none of a SAP session. -/
theorem service_id_ne (H : b.IdsByProtocol) {name domain : Text} {it : RemoteEntry}
    (h : b.service name domain = some it) (addr : UInt32) (hash : UInt16) :
    sapId addr hash ≠ it.id := by
  obtain ⟨hit, -, hprot, -⟩ := service_eq_some h
  rcases H it hit with ⟨hsap, -⟩ | ⟨-, sdp, hid⟩
  · rw [hsap] at hprot
    exact absurd hprot (by decide)
  · rw [hid]
    exact sapId_ne_rtspId addr hash sdp

/-- A message changes the session it is about and no other. -/
theorem find?_onSapMessage (now : ℕ) (m : SapMessage) (addr : UInt32) (hash : UInt16) :
    (b.onSapMessage sapInterval now m).sources.find? (sapId addr hash) =
      session sapInterval addr hash (b.sources.find? (sapId addr hash)) (.sap now m) := by
  by_cases hkey : m.addr = addr ∧ m.msgIdHash = hash
  · obtain ⟨rfl, rfl⟩ := hkey
    simp only [onSapMessage, session, if_true, and_self]
    cases hfind : b.sources.find? (sapId m.addr m.msgIdHash) with
    | none =>
        by_cases hann : m.isAnnounce
        · simp only [hann, if_true]
          rw [Keyed.find?_insert (a := sapEntry sapInterval now m) hfind]
          exact if_pos rfl
        · simp only [hann, if_false, hfind, Bool.false_eq_true]
    | some it =>
        have hid := (Keyed.find?_eq_some.mp hfind).2
        by_cases hann : m.isAnnounce
        · by_cases hsec : seconds now = it.lastSeen
          · simp only [hann, hsec, if_true, ne_eq, not_true_eq_false, if_false, hfind]
          · simp only [hann, hsec, if_true, ne_eq, not_false_eq_true]
            rw [← hid] at hfind ⊢
            rw [Keyed.find?_replace_self (b := it.refreshed now) hfind rfl, if_pos rfl]
        · simp only [hann, if_false, Bool.false_eq_true]
          rw [Keyed.find?_erase, if_pos hid.symm]
  · have hne : sapId addr hash ≠ sapId m.addr m.msgIdHash := fun h =>
      hkey (sapId_inj.mp h.symm)
    simp only [onSapMessage, session, if_neg hkey]
    cases hfind : b.sources.find? (sapId m.addr m.msgIdHash) with
    | none =>
        dsimp only
        split
        · rw [Keyed.find?_insert (a := sapEntry sapInterval now m) hfind]
          exact if_neg hne
        · rfl
    | some it =>
        have hid := (Keyed.find?_eq_some.mp hfind).2
        rw [← hid] at hne hfind
        dsimp only
        split
        · split
          · exact (Keyed.find?_replace_self (b := it.refreshed now) hfind rfl _).trans (if_neg hne)
          · rfl
        · rw [Keyed.find?_erase, if_neg hne]

/-- A change of a service leaves the sessions alone. -/
theorem find?_onChangeRtspSource (H : b.IdsByProtocol) (now : ℕ) (name domain address sdp : Text)
    (addr : UInt32) (hash : UInt16) :
    (b.onChangeRtspSource now name domain (rtspSource address sdp)).sources.find?
      (sapId addr hash) = b.sources.find? (sapId addr hash) := by
  simp only [onChangeRtspSource]
  have hnew : sapId addr hash ≠ rtspId sdp := sapId_ne_rtspId addr hash sdp
  cases hserv : b.service name domain with
  | none =>
      dsimp only
      cases hfree : b.sources.find? (rtspId sdp) with
      | none =>
          rw [Keyed.find?_insert (a := rtspEntry now name domain (rtspSource address sdp)) hfree]
          exact if_neg hnew
      | some it =>
          rw [Keyed.insert_of_taken (a := rtspEntry now name domain (rtspSource address sdp)) hfree]
  | some it =>
      dsimp only
      have hne := service_id_ne H hserv addr hash
      by_cases htaken : ∀ x ∈ b.sources.entries, x.id = rtspId sdp → x.id = it.id
      · have hfind : b.sources.find? it.id = some it :=
          Keyed.find?_eq_some.mpr ⟨(service_eq_some hserv).1, rfl⟩
        rw [Keyed.find?_replace (b := it.updated now (rtspSource address sdp)) hfind htaken,
          if_neg (show sapId addr hash ≠ (it.updated now (rtspSource address sdp)).id from hnew),
          if_neg hne]
      · push Not at htaken
        obtain ⟨x, hx, hid, hxne⟩ := htaken
        rw [Keyed.replace_of_taken (b := it.updated now (rtspSource address sdp)) hx hid hxne]

/-- **Every SAP session has a life of its own.** -/
theorem find?_occur (H : b.IdsByProtocol) (e : BrowserEvent) (addr : UInt32) (hash : UInt16) :
    (b.occur sapInterval e).sources.find? (sapId addr hash) =
      session sapInterval addr hash (b.sources.find? (sapId addr hash)) e := by
  cases e with
  | sap now m => exact find?_onSapMessage now m addr hash
  | sweep offset now => exact Keyed.find?_eraseIf _ _
  | change now name domain address sdp =>
      exact find?_onChangeRtspSource H now name domain address sdp addr hash
  | remove now name domain =>
      simp only [occur, onRemoveRtspSource, session]
      cases hserv : b.service name domain with
      | none => rfl
      | some it =>
          dsimp only
          rw [Keyed.find?_erase, if_neg (service_id_ne H hserv addr hash)]

/-- A SAP session after a sequence of events. -/
theorem find?_run (H : b.IdsByProtocol) (es : List BrowserEvent) (addr : UInt32) (hash : UInt16) :
    (es.foldl (occur sapInterval) b).sources.find? (sapId addr hash) =
      es.foldl (session sapInterval addr hash) (b.sources.find? (sapId addr hash)) := by
  induction es generalizing b with
  | nil => rfl
  | cons e es ih => rw [List.foldl_cons, List.foldl_cons, ih (idsByProtocol_occur H e), find?_occur H]

end Browser
end Aes67Daemon
