import Aes67Daemon.Lib.Run
import Aes67Daemon.Session.Prepared
import Mathlib.Data.List.Nodup

/-!
# Advertised sources

`MDNSServer` has an entry group with Avahi for the services of the node and one for each
enabled source, and finds them again by name in `groups_`.  The session manager tells it of
the sources in the middle of its requests.  What it is told while the client is not running is
lost; each time the client comes to run the group of the node is created again; and a group
whose name is in `groups_` already is created all the same, and forgotten.

## Main definitions

* `MDNSServer.addService`, `removeService`, `clientCallback`.
* `Advertiser.step` — the session manager's requests on sources, and the client's states.
* `Advertiser.Advertises` — one group for the node and one for each enabled source.
* `Advertiser.advertises_of` — this is so at rest in every run in which the client comes to run
  once, before any source is enabled, and no source takes a name that is in use.
-/
namespace Aes67Daemon

/-! ## The server -/

/-- The states of a client that does not fail. -/
inductive AvahiClientState
  | connecting
  | registering
  | running
  | collision
  deriving DecidableEq

/-- `MDNSServer`, and what Avahi has of it. -/
structure MDNSServer where
  client : AvahiClientState := .connecting
  /-- `groups_`; an entry group is known by its number. -/
  groups : List (Text × ℕ) := []
  /-- The entry groups that have not been freed, and the name that each advertises. -/
  live : List (ℕ × Text) := []
  freed : List ℕ := []
  /-- The entry groups that have been created. -/
  created : ℕ := 0

/-- The name of a source's service. -/
def serviceName (nodeId name : Text) : Text := nodeId ++ ' ' :: name

namespace MDNSServer

/-- The names in `groups_`. -/
def names (m : MDNSServer) : List Text := m.groups.map Prod.fst

/-- Create a group and insert it, which is refused when one of the two is there already. -/
def newGroup (m : MDNSServer) (name service : Text) : MDNSServer :=
  { m with
    groups := if m.groups.any (fun e => e.1 = name ∨ e.2 = m.created) then m.groups else (name, m.created) :: m.groups
    live := (m.created, service) :: m.live
    created := m.created + 1 }

/-- `create_services`. -/
def createServices (nodeId : Text) (m : MDNSServer) : MDNSServer := m.newGroup nodeId nodeId

/-- `add_service`. -/
def addService (nodeId name : Text) (m : MDNSServer) : MDNSServer :=
  if m.client = .running then m.newGroup name (serviceName nodeId name) else m

/-- `remove_service`. -/
def removeService (name : Text) (m : MDNSServer) : MDNSServer :=
  if m.client = .running then
    match m.groups.find? (fun e => e.1 = name) with
    | some (_, group) =>
      { m with
        groups := m.groups.filter fun e => e.1 ≠ name
        live := m.live.filter fun e => e.1 ≠ group
        freed := group :: m.freed }
    | none => m
  else m

/-- `client_callback`. -/
def clientCallback (nodeId : Text) (state : AvahiClientState) (m : MDNSServer) : MDNSServer :=
  if state = .running then createServices nodeId { m with client := state } else { m with client := state }

/-- The observers that `init` adds. -/
def observe (nodeId : Text) (m : MDNSServer) : Notification → MDNSServer
  | .addSource _ name _ => m.addService nodeId name
  | .removeSource _ name => m.removeService name
  | _ => m

end MDNSServer

/-! ## The requests -/

/-- A call of `add_source` that has not registered the source yet. -/
structure PendingAdd where
  env : Env
  source : StreamSource
  info : StreamInfo
  /-- What the iterator refers to. -/
  it : Option StreamInfo

/-- The source is enabled, and the driver takes each leg of it. -/
structure PendingAdd.Taken (host : Host) (d : Driver) (p : PendingAdd) : Prop where
  enabled : p.info.enabled = true
  first : d.accepts p.env.replies.addFirst
  second : ∀ h0 ip, p.env.replies.addFirst = .ok h0 →
    (if p.source.useSecondary then p.env.secondaryIp host else none) = some ip →
    (d.hold h0 p.info.stream.leg0).accepts p.env.replies.addSecond

namespace SessionManager

/-- `add_source`, until the previous stream is gone. -/
def beginAdd (host : Host) (env : Env) (source : StreamSource) (s : SessionManager) :
    SessionManager × Option PendingAdd :=
  if streamIdMax < source.id.toNat then (s, none)
  else if host.routingSize < source.map.length then (s, none)
  else
    match sourceStream host env source s.driver.sampleRate with
    | none => (s, none)
    | some stream =>
      let info := sourceInfo host source stream s.gSessionVersion
      let s := { s with gSessionVersion := s.gSessionVersion + 1 }
      match s.sources.find? source.id with
      | some old => (s.dropSource host env old, some ⟨env, source, info, some old⟩)
      | none => (s, if s.sourceNames.contains source.name then none else some ⟨env, source, info, none⟩)

end SessionManager

/-- The session manager and the server. -/
structure Advertiser where
  sm : SessionManager
  mdns : MDNSServer := {}
  pending : Option PendingAdd := none

inductive AdvertiserEvent
  | addSource (env : Env) (source : StreamSource)
  /-- The rest of `add_source`. -/
  | register
  | removeSource (env : Env) (id : UInt32)
  /-- The client comes to another state. -/
  | client (state : AvahiClientState)

/-- The names of the enabled sources, as the driver has them. -/
def enabledNames (sources : SortedMap UInt8 StreamInfo) : List Text :=
  (sources.entries.filter fun e => e.2.enabled).map fun e => e.2.stream.leg0.cName

namespace Advertiser

/-- The session manager goes on, and the server is told. -/
def proceed (host : Host) (s : Advertiser) (sm : SessionManager) (pending : Option PendingAdd) : Advertiser :=
  ⟨sm, (s.sm.told sm).foldl (MDNSServer.observe host.config.nodeId) s.mdns, pending⟩

/-- A step; the requests wait for the one that is going on. -/
def step (host : Host) (s : Advertiser) : AdvertiserEvent → Option Advertiser
  | .addSource env source =>
    match s.pending with
    | some _ => none
    | none =>
      let r := s.sm.beginAdd host env source
      some (s.proceed host r.1 r.2)
  | .register =>
    s.pending.bind fun p =>
      (s.sm.registerSource host p.env p.source p.info p.it).map fun r => s.proceed host r.2 none
  | .removeSource env id =>
    match s.pending with
    | some _ => none
    | none => some (s.proceed host (s.sm.removeSource host env id).2 none)
  | .client state =>
    if state = s.mdns.client then none
    else some { s with mdns := s.mdns.clientCallback host.config.nodeId state }

/-- One group for the node and one for each enabled source, all of them in `groups_`. -/
structure Advertises (host : Host) (s : Advertiser) : Prop where
  live : (s.mdns.live.map Prod.snd).Perm
    (host.config.nodeId :: (enabledNames s.sm.sources).map (serviceName host.config.nodeId))
  referenced : (s.mdns.groups.map Prod.snd).Perm (s.mdns.live.map Prod.fst)

/-- At rest the sources are advertised, and no group has been freed twice. -/
structure Right (host : Host) (s : Advertiser) : Prop where
  advertises : s.mdns.client = .running → s.pending = none → s.Advertises host
  freed : s.mdns.freed.Nodup

/-- The sources without the one that is being replaced. -/
def settled (s : Advertiser) : SortedMap UInt8 StreamInfo :=
  match s.pending with
  | some p => s.sm.sources.erase p.source.id
  | none => s.sm.sources

/-- The name of a source fits into the driver's record. -/
def Fits (host : Host) : AdvertiserEvent → Prop
  | .addSource _ source => Text.cStr host.nameSize source.name = source.name
  | _ => True

/-- The client comes to run when there is no group for the node and no source is enabled, and a
source that the driver takes while it runs has a name that is not in `groups_`. -/
def Steady (host : Host) (s : Advertiser) : AdvertiserEvent → Prop
  | .client state => state = .running → host.config.nodeId ∉ s.mdns.names ∧ enabledNames s.settled = []
  | .register => s.mdns.client = .running →
    ∀ p ∈ s.pending, p.Taken host s.sm.driver → p.source.name ∉ s.mdns.names
  | _ => True

end Advertiser

/-! ## The server's groups -/

namespace MDNSServer
variable {nodeId name : Text} {names' : List Text} {m : MDNSServer}

/-- What a group of `groups_` advertises. -/
def service (nodeId : Text) (e : Text × ℕ) : ℕ × Text := (e.2, if e.1 = nodeId then nodeId else serviceName nodeId e.1)

/-- There is a group for the node and one for each of some names, and no other. -/
structure Holds (nodeId : Text) (m : MDNSServer) (names : List Text) : Prop where
  keys : m.names.Perm (nodeId :: names)
  nodup : m.names.Nodup
  live : m.live.Perm (m.groups.map (service nodeId))

/-- Groups are told apart by their numbers, and one that has been freed is not in `groups_`. -/
structure Numbered (m : MDNSServer) : Prop where
  nodup : (m.groups.map Prod.snd ++ m.freed).Nodup
  created : ∀ g ∈ m.groups.map Prod.snd ++ m.freed, g < m.created

theorem Holds.congr (H : m.Holds nodeId names') {names : List Text} (h : names'.Perm names) : m.Holds nodeId names :=
  ⟨H.keys.trans (h.cons nodeId), H.nodup, H.live⟩

theorem newGroup_groups (N : m.Numbered) (hnew : name ∉ m.names) (serv : Text) :
    (m.newGroup name serv).groups = (name, m.created) :: m.groups := by
  refine if_neg ?_
  rw [List.any_eq_true]
  rintro ⟨e, he, hsame⟩
  rcases of_decide_eq_true hsame with rfl | hnumber
  · exact hnew (List.mem_map_of_mem he)
  · exact absurd (N.created e.2 (List.mem_append_left _ (List.mem_map_of_mem he))) (hnumber ▸ Nat.lt_irrefl _)

theorem Numbered.newGroup (N : m.Numbered) (name serv : Text) : (m.newGroup name serv).Numbered := by
  have hcreated : ∀ g ∈ m.groups.map Prod.snd ++ m.freed, g < m.created + 1 := fun g hg =>
    Nat.lt_succ_of_lt (N.created g hg)
  by_cases h : m.groups.any (fun e => e.1 = name ∨ e.2 = m.created) = true
  · have hgroups : (m.newGroup name serv).groups = m.groups := if_pos h
    refine ⟨?_, ?_⟩
    · rw [hgroups]
      exact N.nodup
    · rw [hgroups]
      exact hcreated
  · have hgroups : (m.newGroup name serv).groups = (name, m.created) :: m.groups := if_neg h
    refine ⟨?_, ?_⟩
    · rw [hgroups]
      exact List.nodup_cons.mpr ⟨fun hmem => Nat.lt_irrefl _ (N.created _ hmem), N.nodup⟩
    · rw [hgroups]
      intro g hg
      rcases List.mem_cons.mp hg with rfl | hg
      · exact Nat.lt_succ_self _
      · exact hcreated g hg

/-- A group with a new name. -/
theorem Holds.add (H : m.Holds nodeId names') (N : m.Numbered) (hnew : name ∉ m.names) :
    (m.newGroup name (serviceName nodeId name)).Holds nodeId (name :: names') := by
  have hgroups := newGroup_groups N hnew (serviceName nodeId name)
  have hnames : (m.newGroup name (serviceName nodeId name)).names = name :: m.names := by
    rw [names, hgroups]
    rfl
  have hne : name ≠ nodeId := fun h => hnew (h ▸ H.keys.mem_iff.mpr List.mem_cons_self)
  refine ⟨?_, ?_, ?_⟩
  · rw [hnames]
    exact (H.keys.cons name).trans (.swap _ _ _)
  · rw [hnames]
    exact List.nodup_cons.mpr ⟨hnew, H.nodup⟩
  · rw [hgroups, List.map_cons, service, if_neg hne]
    exact H.live.cons _

/-- The first group is the one of the node. -/
theorem holds_createServices (N : m.Numbered) (hgroups : m.groups = []) (hlive : m.live = []) :
    (m.createServices nodeId).Holds nodeId [] := by
  have hnew : nodeId ∉ m.names := by simp [names, hgroups]
  have hgroups' := newGroup_groups N hnew nodeId
  rw [hgroups] at hgroups'
  refine ⟨?_, ?_, ?_⟩
  · rw [names, createServices, hgroups']
    exact .refl _
  · rw [names, createServices, hgroups']
    exact List.nodup_singleton _
  · rw [createServices, hgroups', List.map_singleton, service, if_pos rfl, newGroup, hlive]

/-- The group of a name is found, and the others are told from it. -/
theorem groups_perm {groups : List (Text × ℕ)} (hnodup : (groups.map Prod.fst).Nodup)
    (hmem : name ∈ groups.map Prod.fst) :
    ∃ group, groups.find? (fun e => e.1 = name) = some (name, group) ∧
      groups.Perm ((name, group) :: groups.filter fun e => e.1 ≠ name) := by
  induction groups with
  | nil => cases hmem
  | cons e groups ih =>
      obtain ⟨hnot, hnodup⟩ := List.nodup_cons.mp hnodup
      by_cases he : e.1 = name
      · obtain ⟨key, group⟩ := e
        obtain rfl : key = name := he
        have hrest : groups.filter (fun e => e.1 ≠ key) = groups := by
          refine List.filter_eq_self.mpr fun e' he' => decide_eq_true fun h => ?_
          have hin : e'.1 ∈ groups.map Prod.fst := List.mem_map_of_mem he'
          exact hnot (h ▸ hin)
        refine ⟨group, List.find?_cons_of_pos (by simp), ?_⟩
        rw [List.filter_cons_of_neg (by simp), hrest]
      · have hmem' : name ∈ groups.map Prod.fst := by
          rcases List.mem_cons.mp hmem with h | h
          · exact absurd h.symm he
          · exact h
        obtain ⟨group, hfind, hperm⟩ := ih hnodup hmem'
        refine ⟨group, ?_, ?_⟩
        · rw [List.find?_cons_of_neg (by simpa using he)]
          exact hfind
        · rw [List.filter_cons_of_pos (by simpa using he)]
          exact (hperm.cons e).trans (.swap _ _ _)

theorem Numbered.removeService (N : m.Numbered) (name : Text) : (m.removeService name).Numbered := by
  unfold MDNSServer.removeService
  split
  · split
    · rename_i key group hfind
      have hmem := List.mem_of_find?_eq_some hfind
      have hkey : key = name := by simpa using List.find?_some hfind
      obtain ⟨hgroups, hfreed, hdisjoint⟩ := List.nodup_append.mp N.nodup
      have hgroup : group ∈ m.groups.map Prod.snd := List.mem_map_of_mem hmem
      have hsub : ((m.groups.filter fun e => e.1 ≠ name).map Prod.snd).Sublist (m.groups.map Prod.snd) :=
        List.filter_sublist.map _
      have hgone : group ∉ (m.groups.filter fun e => e.1 ≠ name).map Prod.snd := by
        intro hin
        obtain ⟨e, he, hsame⟩ := List.mem_map.mp hin
        obtain ⟨he, hother⟩ := List.mem_filter.mp he
        have heq : e = (key, group) := List.inj_on_of_nodup_map hgroups he hmem hsame
        rw [heq] at hother
        exact of_decide_eq_true hother hkey
      refine ⟨List.nodup_append.mpr ⟨hsub.nodup hgroups, List.nodup_cons.mpr ⟨?_, hfreed⟩, ?_⟩, ?_⟩
      · exact fun hin => hdisjoint group hgroup group hin rfl
      · intro g hg g' hg'
        rcases List.mem_cons.mp hg' with rfl | hg'
        · exact fun h => hgone (h ▸ hg)
        · exact hdisjoint g (hsub.subset hg) g' hg'
      · intro g hg
        rcases List.mem_append.mp hg with hg | hg
        · exact N.created g (List.mem_append_left _ (hsub.subset hg))
        · rcases List.mem_cons.mp hg with rfl | hg
          · exact N.created g (List.mem_append_left _ hgroup)
          · exact N.created g (List.mem_append_right _ hg)
    · exact N
  · exact N

/-- The group of a name is freed. -/
theorem Holds.remove (H : m.Holds nodeId (name :: names')) (N : m.Numbered) (hrunning : m.client = .running) :
    (m.removeService name).Holds nodeId names' := by
  have hmem : name ∈ m.names := H.keys.mem_iff.mpr (List.mem_cons_of_mem _ List.mem_cons_self)
  obtain ⟨group, hfind, hperm⟩ := groups_perm H.nodup hmem
  have hremove : m.removeService name =
      { m with
        groups := m.groups.filter fun e => e.1 ≠ name
        live := m.live.filter fun e => e.1 ≠ group
        freed := group :: m.freed } := by
    rw [MDNSServer.removeService, if_pos hrunning, hfind]
  rw [hremove]
  refine ⟨?_, ?_, ?_⟩
  · have hkeys := (hperm.map Prod.fst).symm.trans (H.keys.trans (.swap _ _ _))
    exact List.Perm.cons_inv hkeys
  · exact (List.filter_sublist.map _).nodup H.nodup
  · have hnumbers : ((m.groups.map Prod.snd) ++ m.freed).Nodup := N.nodup
    have hothers : (group :: (m.groups.filter fun e => e.1 ≠ name).map Prod.snd).Nodup :=
      (hperm.map Prod.snd).nodup_iff.mp (List.nodup_append.mp hnumbers).1
    have hlive := (H.live.trans (hperm.map (service nodeId))).filter fun e => e.1 ≠ group
    rw [List.map_cons, List.filter_cons_of_neg (by simp [service])] at hlive
    refine hlive.trans (.of_eq (List.filter_eq_self.mpr fun e he => decide_eq_true fun h => ?_))
    obtain ⟨e', he', rfl⟩ := List.mem_map.mp he
    exact (List.nodup_cons.mp hothers).1 (h ▸ List.mem_map_of_mem he')

@[simp] theorem client_newGroup (m : MDNSServer) (name serv : Text) : (m.newGroup name serv).client = m.client := rfl

theorem addService_of_running (h : m.client = .running) (name : Text) :
    m.addService nodeId name = m.newGroup name (serviceName nodeId name) := if_pos h

theorem addService_of_not_running (h : m.client ≠ .running) (name : Text) : m.addService nodeId name = m := if_neg h

theorem removeService_of_not_running (h : m.client ≠ .running) (name : Text) : m.removeService name = m := if_neg h

theorem client_removeService (m : MDNSServer) (name : Text) : (m.removeService name).client = m.client := by
  unfold removeService
  split
  · split <;> rfl
  · rfl

/-- What `groups_` and Avahi have of it. -/
theorem Holds.services (H : m.Holds nodeId names') :
    (m.live.map Prod.snd).Perm (nodeId :: names'.map (serviceName nodeId)) ∧
      (m.groups.map Prod.snd).Perm (m.live.map Prod.fst) := by
  have hnot : nodeId ∉ names' := (List.nodup_cons.mp (H.keys.nodup_iff.mp H.nodup)).1
  let advertised (name : Text) : Text := if name = nodeId then nodeId else serviceName nodeId name
  have hnames : names'.map advertised = names'.map (serviceName nodeId) :=
    List.map_congr_left fun name hname => if_neg fun (h : name = nodeId) => hnot (h ▸ hname)
  constructor
  · have hlive : (m.live.map Prod.snd).Perm (m.names.map advertised) := by
      refine (H.live.map Prod.snd).trans (.of_eq ?_)
      rw [names, List.map_map, List.map_map]
      rfl
    refine hlive.trans ((H.keys.map advertised).trans (.of_eq ?_))
    rw [List.map_cons, hnames]
    exact congrArg (· :: _) (if_pos rfl)
  · refine .symm ((H.live.map Prod.fst).trans (.of_eq ?_))
    rw [List.map_map]
    rfl

end MDNSServer

/-! ## What the server is told -/

namespace SessionManager
variable {host : Host} {env : Env} {source : StreamSource} {s s' : SessionManager}

theorem told_same (h : s'.notifications = s.notifications) : s.told s' = [] := by
  rw [told, h, Nat.sub_self]
  rfl

theorem told_one {n : Notification} (h : s'.notifications = n :: s.notifications) : s.told s' = [n] := by
  rw [told, h, List.length_cons, Nat.add_sub_cancel_left]
  rfl

/-- `add_source` is the one part and then the other. -/
theorem addSource_eq_begin (host : Host) (env : Env) (source : StreamSource) (s : SessionManager) :
    (s.addSource host env source).map Prod.snd =
      match s.beginAdd host env source with
      | (s', some p) => (registerSource host p.env p.source p.info p.it s').map Prod.snd
      | (s', none) => some s' := by
  unfold addSource beginAdd
  split
  · rfl
  split
  · rfl
  · cases sourceStream host env source s.driver.sampleRate with
    | none => rfl
    | some stream =>
        cases hfind : s.sources.find? source.id with
        | none =>
            simp only [hfind]
            split <;> rfl
        | some old =>
            simp only [hfind]

/-- The rest of `add_source` only finds the source as it was prepared. -/
theorem beginAdd_cases (host : Host) (env : Env) (source : StreamSource) (s : SessionManager) :
    (s.beginAdd host env source).1.sources = s.sources ∧
      ((s.beginAdd host env source).1.notifications = s.notifications ∧ (s.beginAdd host env source).2 = none ∨
        ∃ p, (s.beginAdd host env source).2 = some p ∧ p.source = source ∧
          p.info.stream.leg0.cName = Text.cStr host.nameSize source.name ∧ s.sources.find? source.id = p.it ∧
          (s.beginAdd host env source).1.notifications =
            ((p.it.filter StreamInfo.enabled).map fun old =>
              Notification.removeSource old.stream.leg0.uiId.toUInt8 old.stream.leg0.cName).toList ++ s.notifications) := by
  unfold beginAdd
  split
  · exact ⟨rfl, .inl ⟨rfl, rfl⟩⟩
  split
  · exact ⟨rfl, .inl ⟨rfl, rfl⟩⟩
  · split
    · exact ⟨rfl, .inl ⟨rfl, rfl⟩⟩
    · rename_i stream hstream
      have hname : stream.cName = Text.cStr host.nameSize source.name := (sourceStream_fields hstream).2.2.1
      simp only
      split
      · rename_i old hold
        by_cases hen : old.enabled = true
        · have hdrop : ∀ t : SessionManager, t.dropSource host env old =
              { t with driver := dropLegs env old t.driver }.onRemoveSource host env old := fun _ => if_pos hen
          rw [hdrop]
          exact ⟨rfl, .inr ⟨_, rfl, rfl, hname, hold, by simp [Option.filter, hen, onRemoveSource, notify]⟩⟩
        · have hdrop : ∀ t : SessionManager, t.dropSource host env old = t := fun _ => if_neg hen
          rw [hdrop]
          exact ⟨rfl, .inr ⟨_, rfl, rfl, hname, hold, by simp [Option.filter, hen]⟩⟩
      · rename_i hnone
        split
        · exact ⟨rfl, .inl ⟨rfl, rfl⟩⟩
        · exact ⟨rfl, .inr ⟨_, rfl, rfl, hname, hnone, rfl⟩⟩

/-- `remove_source` does nothing, or takes a source out and tells of it. -/
theorem removeSource_cases (host : Host) (env : Env) (id : UInt32) (s : SessionManager) :
    ((s.removeSource host env id).2.sources = s.sources ∧
      (s.removeSource host env id).2.notifications = s.notifications) ∨
    ∃ old, s.sources.find? id.toUInt8 = some old ∧
      (s.removeSource host env id).2.sources = s.sources.erase id.toUInt8 ∧
      (s.removeSource host env id).2.notifications =
        (if old.enabled then [.removeSource old.stream.leg0.uiId.toUInt8 old.stream.leg0.cName] else []) ++
          s.notifications := by
  unfold removeSource
  split
  · exact .inl ⟨rfl, rfl⟩
  · split
    · exact .inl ⟨rfl, rfl⟩
    · rename_i old hold
      split
      · rename_i hen
        split
        · exact .inl ⟨rfl, rfl⟩
        · exact .inr ⟨old, hold, rfl, by rw [if_pos hen]; rfl⟩
      · rename_i hdis
        exact .inr ⟨old, hold, rfl, by rw [if_neg hdis]; rfl⟩

end SessionManager

section
variable {sources : SortedMap UInt8 StreamInfo} {id : UInt8} {info : StreamInfo}

theorem enabledNames_insert (sources : SortedMap UInt8 StreamInfo) (id : UInt8) (info : StreamInfo) :
    (enabledNames (sources.insert id info)).Perm
      ((if info.enabled then [info.stream.leg0.cName] else []) ++ enabledNames (sources.erase id)) := by
  have hperm : (sources.insert id info).entries.Perm ((id, info) :: (sources.erase id).entries) := by
    rw [← SortedMap.insert_erase_self]
    exact SortedMap.entries_insert_perm info (SortedMap.find?_erase_self sources id)
  refine ((hperm.filter _).map _).trans (.of_eq ?_)
  by_cases hen : info.enabled = true
  · rw [List.filter_cons_of_pos (by simpa using hen), if_pos hen]
    rfl
  · rw [List.filter_cons_of_neg (by simpa using hen), if_neg hen]
    rfl

theorem enabledNames_erase (h : sources.find? id = some info) :
    (enabledNames sources).Perm
      ((if info.enabled then [info.stream.leg0.cName] else []) ++ enabledNames (sources.erase id)) := by
  have hperm := enabledNames_insert sources id info
  rwa [SortedMap.insert_of_find?_some h] at hperm

end

/-! ## Steps -/

namespace Advertiser
variable {host : Host} {s : Advertiser} {sm : SessionManager} {pending : Option PendingAdd} {name : Text}

/-- The source that is being added is as it was prepared, and so is the one that it replaces. -/
structure Prepared (s : Advertiser) (p : PendingAdd) : Prop where
  name : p.info.stream.leg0.cName = p.source.name
  it : s.sm.sources.find? p.source.id = p.it

/-- While the client runs, the groups are those of the sources; before it does there is none. -/
structure Sound (host : Host) (s : Advertiser) : Prop where
  numbered : s.mdns.Numbered
  running : s.mdns.client = .running → s.mdns.Holds host.config.nodeId (enabledNames s.settled)
  waiting : s.mdns.client ≠ .running →
    (s.mdns.groups = [] ∧ s.mdns.live = []) ∨ host.config.nodeId ∈ s.mdns.names
  prepared : ∀ p ∈ s.pending, s.Prepared p

/-- Nothing is told, and the sources have the names that they had. -/
theorem Sound.quiet (H : s.Sound host) (htold : s.sm.told sm = [])
    (hnames : (enabledNames s.settled).Perm (enabledNames (s.proceed host sm pending).settled))
    (hprepared : ∀ p ∈ pending, (s.proceed host sm pending).Prepared p) : (s.proceed host sm pending).Sound host := by
  have hmdns : (s.proceed host sm pending).mdns = s.mdns := by
    rw [proceed, htold]
    rfl
  refine ⟨?_, ?_, ?_, hprepared⟩
  · rw [hmdns]
    exact H.numbered
  · rw [hmdns]
    exact fun hrunning => (H.running hrunning).congr hnames
  · rw [hmdns]
    exact H.waiting

/-- A source is taken out. -/
theorem Sound.removed (H : s.Sound host) {id : UInt8} (htold : s.sm.told sm = [.removeSource id name])
    (hnames : (enabledNames s.settled).Perm (name :: enabledNames (s.proceed host sm pending).settled))
    (hprepared : ∀ p ∈ pending, (s.proceed host sm pending).Prepared p) : (s.proceed host sm pending).Sound host := by
  have hmdns : (s.proceed host sm pending).mdns = s.mdns.removeService name := by
    rw [proceed, htold]
    rfl
  refine ⟨?_, ?_, ?_, hprepared⟩
  · rw [hmdns]
    exact H.numbered.removeService name
  · rw [hmdns, MDNSServer.client_removeService]
    exact fun hrunning => ((H.running hrunning).congr hnames).remove H.numbered hrunning
  · rw [hmdns, MDNSServer.client_removeService]
    intro hwaiting
    rw [MDNSServer.removeService_of_not_running hwaiting]
    exact H.waiting hwaiting

/-- A source is registered. -/
theorem Sound.added (H : s.Sound host) {id : UInt8} {sdp : Text} (htold : s.sm.told sm = [.addSource id name sdp])
    (hnames : (name :: enabledNames s.settled).Perm (enabledNames (s.proceed host sm none).settled))
    (hnew : s.mdns.client = .running → name ∉ s.mdns.names) : (s.proceed host sm none).Sound host := by
  have hmdns : (s.proceed host sm none).mdns = s.mdns.addService host.config.nodeId name := by
    rw [proceed, htold]
    rfl
  by_cases hrunning : s.mdns.client = .running
  · rw [MDNSServer.addService_of_running hrunning] at hmdns
    refine ⟨?_, ?_, ?_, fun p hp => (by cases hp)⟩
    · rw [hmdns]
      exact H.numbered.newGroup _ _
    · rw [hmdns]
      exact fun _ => ((H.running hrunning).add H.numbered (hnew hrunning)).congr hnames
    · rw [hmdns]
      exact fun hwaiting => absurd hrunning hwaiting
  · rw [MDNSServer.addService_of_not_running hrunning] at hmdns
    refine ⟨?_, ?_, ?_, fun p hp => (by cases hp)⟩
    · rw [hmdns]
      exact H.numbered
    · rw [hmdns]
      exact fun h => absurd h hrunning
    · rw [hmdns]
      exact H.waiting

theorem settled_of_none (h : s.pending = none) : s.settled = s.sm.sources := by rw [settled, h]

theorem settled_of_some {p : PendingAdd} (h : s.pending = some p) : s.settled = s.sm.sources.erase p.source.id := by
  rw [settled, h]

/-- A source begins to be added. -/
theorem Sound.beginAdd (H : s.Sound host) (hnone : s.pending = none) (env : Env) {source : StreamSource}
    (hfits : Text.cStr host.nameSize source.name = source.name) :
    (s.proceed host (s.sm.beginAdd host env source).1 (s.sm.beginAdd host env source).2).Sound host := by
  have hsettled := settled_of_none hnone
  obtain ⟨hsources, hcases⟩ := s.sm.beginAdd_cases host env source
  rcases hcases with ⟨htold, hpending⟩ | ⟨p, hpending, rfl, hname, hit, htold⟩
  · rw [hpending]
    refine H.quiet (SessionManager.told_same htold) (.of_eq ?_) fun p hp => by cases hp
    rw [hsettled, settled_of_none rfl]
    exact congrArg enabledNames hsources.symm
  · rw [hpending]
    have hprepared : ∀ q ∈ some p, (s.proceed host (s.sm.beginAdd host env p.source).1 (some p)).Prepared q := by
      intro q hq
      obtain rfl : p = q := Option.some.inj hq
      exact ⟨hname.trans hfits, (congrArg (fun m : SortedMap UInt8 StreamInfo => m.find? p.source.id) hsources).trans hit⟩
    have hafter : enabledNames (s.proceed host (s.sm.beginAdd host env p.source).1 (some p)).settled =
        enabledNames (s.sm.sources.erase p.source.id) := by
      rw [settled_of_some rfl]
      exact congrArg (fun m => enabledNames (SortedMap.erase m _)) hsources
    cases hold : p.it with
    | none =>
        rw [hold] at htold hit
        refine H.quiet (SessionManager.told_same htold) (.of_eq ?_) hprepared
        rw [hsettled, hafter, SortedMap.erase_of_find?_none hit]
    | some old =>
        rw [hold] at htold hit
        have hperm := enabledNames_erase hit
        by_cases hen : old.enabled = true
        · rw [if_pos hen] at hperm
          rw [Option.filter_some, if_pos hen] at htold
          refine H.removed (SessionManager.told_one htold) ?_ hprepared
          rw [hsettled, hafter]
          exact hperm
        · rw [if_neg hen] at hperm
          rw [Option.filter_some, if_neg hen] at htold
          refine H.quiet (SessionManager.told_same htold) ?_ hprepared
          rw [hsettled, hafter]
          exact hperm

/-- A source is taken out. -/
theorem Sound.removeSource (H : s.Sound host) (hnone : s.pending = none) (env : Env) (id : UInt32) :
    (s.proceed host (s.sm.removeSource host env id).2 none).Sound host := by
  have hsettled := settled_of_none hnone
  have hafter : (s.proceed host (s.sm.removeSource host env id).2 none).settled =
      (s.sm.removeSource host env id).2.sources := settled_of_none rfl
  rcases s.sm.removeSource_cases host env id with ⟨hsources, htold⟩ | ⟨old, hold, hsources, htold⟩
  · refine H.quiet (SessionManager.told_same htold) (.of_eq ?_) fun p hp => by cases hp
    rw [hsettled, hafter, hsources]
  · have hperm := enabledNames_erase hold
    by_cases hen : old.enabled = true
    · rw [if_pos hen] at hperm htold
      refine H.removed (SessionManager.told_one htold) ?_ fun p hp => by cases hp
      rw [hsettled, hafter, hsources]
      exact hperm
    · rw [if_neg hen] at hperm htold
      refine H.quiet (SessionManager.told_same htold) ?_ fun p hp => by cases hp
      rw [hsettled, hafter, hsources]
      exact hperm

/-- The source is registered, or is not. -/
theorem Sound.register (H : s.Sound host) {p : PendingAdd} (hpending : s.pending = some p) {ret : Ret}
    (hnew : s.mdns.client = .running → p.Taken host s.sm.driver → p.source.name ∉ s.mdns.names)
    (hregister : s.sm.registerSource host p.env p.source p.info p.it = some (ret, sm)) :
    (s.proceed host sm none).Sound host := by
  obtain ⟨hname, hit⟩ := H.prepared p hpending
  have hsettled := settled_of_some hpending
  have hafter : (s.proceed host sm none).settled = sm.sources := settled_of_none rfl
  have hgone : sm.sources = s.sm.sources.erase p.source.id → sm.notifications = s.sm.notifications →
      (s.proceed host sm none).Sound host := by
    intro hsources htold
    refine H.quiet (SessionManager.told_same htold) (.of_eq ?_) fun p hp => by cases hp
    rw [hsettled, hafter, hsources]
  have hadded : ∀ (info : StreamInfo) (sdp : Text), p.Taken host s.sm.driver → info.enabled = true →
      info.stream.leg0.cName = p.source.name → sm.sources = s.sm.sources.insert p.source.id info →
      sm.notifications = .addSource p.source.id p.source.name sdp :: s.sm.notifications →
      (s.proceed host sm none).Sound host := by
    intro info sdp htaken hen hname hsources htold
    have hperm := enabledNames_insert s.sm.sources p.source.id info
    rw [if_pos hen, hname, List.singleton_append] at hperm
    refine H.added (SessionManager.told_one htold) ?_ fun hrunning => hnew hrunning htaken
    rw [hsettled, hafter, hsources]
    exact hperm.symm
  cases SessionManager.registerSource_cases hregister with
  | placed hdis =>
      have hperm := enabledNames_insert s.sm.sources p.source.id p.info
      rw [hdis] at hperm
      refine H.quiet (SessionManager.told_same rfl) ?_ fun p hp => by cases hp
      rw [hsettled, hafter]
      exact hperm.symm
  | refused =>
      refine hgone ?_ (by split <;> rfl)
      cases hold : p.it with
      | none => exact (SortedMap.erase_of_find?_none (hit.trans hold)).symm
      | some old => rfl
  | undone => exact hgone rfl rfl
  | single hen hfirst hfresh hsec =>
      have htaken : p.Taken host s.sm.driver := by
        refine ⟨hen, ?_, fun h0 ip _ hip => ?_⟩
        · rw [hfirst]
          exact hfresh
        · cases hsec.symm.trans hip
      exact hadded (p.info.single _) _ htaken hen hname rfl rfl
  | @dual h0 h1 ip leg1 hen hfirst hfresh hsec hleg1 hsecond hfresh1 =>
      have htaken : p.Taken host s.sm.driver := by
        refine ⟨hen, ?_, fun handle _ hhandle _ => ?_⟩
        · rw [hfirst]
          exact hfresh
        · obtain rfl := Except.ok.inj (hfirst.symm.trans hhandle)
          rw [hsecond]
          exact hfresh1
      exact hadded (p.info.dual leg1 h0 h1) _ htaken hen hname rfl rfl

/-- The client comes to another state. -/
theorem Sound.client (H : s.Sound host) {state : AvahiClientState} (hother : state ≠ s.mdns.client)
    (hsteady : state = .running → host.config.nodeId ∉ s.mdns.names ∧ enabledNames s.settled = []) :
    ({ s with mdns := s.mdns.clientCallback host.config.nodeId state } : Advertiser).Sound host := by
  by_cases hstate : state = .running
  · have hmdns : s.mdns.clientCallback host.config.nodeId state =
        MDNSServer.createServices host.config.nodeId { s.mdns with client := state } := if_pos hstate
    obtain ⟨hnode, hnames⟩ := hsteady hstate
    obtain ⟨hgroups, hlive⟩ := (H.waiting fun h => hother (hstate.trans h.symm)).resolve_right hnode
    have hnumbered : ({ s.mdns with client := state } : MDNSServer).Numbered := ⟨H.numbered.nodup, H.numbered.created⟩
    rw [hmdns]
    refine ⟨hnumbered.newGroup _ _, fun _ => ?_, fun hwaiting => absurd hstate hwaiting, fun p hp => ?_⟩
    · change (MDNSServer.createServices _ _).Holds _ (enabledNames s.settled)
      rw [hnames]
      exact MDNSServer.holds_createServices hnumbered hgroups hlive
    · exact ⟨(H.prepared p hp).name, (H.prepared p hp).it⟩
  · have hmdns : s.mdns.clientCallback host.config.nodeId state = { s.mdns with client := state } := if_neg hstate
    rw [hmdns]
    refine ⟨⟨H.numbered.nodup, H.numbered.created⟩, fun h => absurd h hstate, fun _ => ?_, fun p hp => ?_⟩
    · by_cases hrunning : s.mdns.client = .running
      · exact .inr ((H.running hrunning).keys.mem_iff.mpr List.mem_cons_self)
      · exact H.waiting hrunning
    · exact ⟨(H.prepared p hp).name, (H.prepared p hp).it⟩

/-- **One step keeps the groups those of the sources.** -/
theorem sound_step {s' : Advertiser} {e : AdvertiserEvent} (H : s.Sound host) (hfits : Fits host e)
    (hsteady : s.Steady host e) (hstep : s.step host e = some s') : s'.Sound host := by
  cases e with
  | addSource env source =>
      cases hpending : s.pending with
      | some p => simp [step, hpending] at hstep
      | none =>
          simp only [step, hpending] at hstep
          exact Option.some.inj hstep ▸ H.beginAdd hpending env hfits
  | register =>
      obtain ⟨p, hpending, hmap⟩ := Option.bind_eq_some_iff.mp hstep
      obtain ⟨⟨ret, sm⟩, hregister, rfl⟩ := Option.map_eq_some_iff.mp hmap
      exact H.register hpending (fun hrunning => hsteady hrunning p hpending) hregister
  | removeSource env id =>
      cases hpending : s.pending with
      | some p => simp [step, hpending] at hstep
      | none =>
          simp only [step, hpending] at hstep
          exact Option.some.inj hstep ▸ H.removeSource hpending env id
  | client state =>
      simp only [step] at hstep
      split at hstep
      · cases hstep
      · rename_i hother
        exact Option.some.inj hstep ▸ H.client hother hsteady

/-- At rest. -/
theorem Sound.right (H : s.Sound host) : s.Right host where
  advertises hrunning hnone := by
    have hholds := H.running hrunning
    rw [settled_of_none hnone] at hholds
    exact ⟨hholds.services.1, hholds.services.2⟩
  freed := (List.nodup_append.mp H.numbered.nodup).2.1

theorem sound_init (host : Host) (sm : SessionManager) : (⟨sm, {}, none⟩ : Advertiser).Sound host where
  numbered := ⟨List.nodup_nil, fun g hg => by cases hg⟩
  running hrunning := by cases hrunning
  waiting _ := .inl ⟨rfl, rfl⟩
  prepared p hp := by cases hp

/-- **The sources are advertised** in every run in which the client comes to run when there is no
group for the node and no source is enabled, and no source takes a name that is in use. -/
theorem advertises_of (host : Host) (sm : SessionManager) (es : List AdvertiserEvent)
    (hfits : ∀ e ∈ es, Fits host e) (hsteady : Along (step host) (Steady host) ⟨sm, {}, none⟩ es) {s : Advertiser}
    (hrun : run (step host) ⟨sm, {}, none⟩ es = some s) : s.Right host := by
  have hsound := run_keeps (J := fun s : Advertiser => s.Sound host)
    (P := fun s e => Fits host e ∧ Steady host s e) (fun _ _ _ hs he => sound_step hs he.1 he.2)
    (sound_init host sm) ((along_of_forall hfits).and hsteady) hrun
  exact hsound.right

/-- What follows from the names alone. -/
def SteadyNames (host : Host) (s : Advertiser) : AdvertiserEvent → Bool
  | .client state => state ≠ .running || (!s.mdns.names.contains host.config.nodeId && (enabledNames s.settled).isEmpty)
  | .register => s.pending.all fun p => !s.mdns.names.contains p.source.name
  | _ => true

theorem steady_of_names {s : Advertiser} {e : AdvertiserEvent} (h : s.SteadyNames host e = true) : s.Steady host e := by
  cases e with
  | client state =>
      intro hstate
      simpa [SteadyNames, hstate] using h
  | register =>
      intro _ p hp _
      rw [SteadyNames, Option.mem_def.mp hp] at h
      simpa using h
  | addSource | removeSource => trivial

/-- A source is renamed while the client runs. -/
theorem renamed_advertised :
    ∃ s, run (step {}) ⟨.create {}, {}, none⟩
      [.client .running,
        .addSource (.answering none (.ok 7) (.error (.driver 1))) (stereoSource 1 "a".toList), .register,
        .addSource (.answering none (.ok 8) (.error (.driver 1))) (stereoSource 1 "b".toList), .register] = some s ∧
      s.Right {} := by
  have hdefined : (run (step {}) ⟨.create {}, {}, none⟩
      [.client .running,
        .addSource (.answering none (.ok 7) (.error (.driver 1))) (stereoSource 1 "a".toList), .register,
        .addSource (.answering none (.ok 8) (.error (.driver 1))) (stereoSource 1 "b".toList), .register]).isSome = true := by
    decide +kernel
  obtain ⟨s, hrun⟩ := Option.isSome_iff_exists.mp hdefined
  refine ⟨s, hrun, advertises_of {} (.create {}) _ ?_ ?_ hrun⟩
  · simp [Fits, stereoSource]
    decide +kernel
  · exact Along.imp (fun _ _ => steady_of_names) (P := fun s e => s.SteadyNames {} e = true) (by decide +kernel)

/-- There are more groups than sources, or fewer. -/
theorem not_right_of_length {s : Advertiser} (hrunning : s.mdns.client = .running) (hnone : s.pending = none)
    (h : s.mdns.live.length ≠ (enabledNames s.sm.sources).length + 1 ∨ s.mdns.groups.length ≠ s.mdns.live.length) :
    ¬ s.Right host := by
  intro hright
  obtain ⟨hlive, hgroups⟩ := hright.advertises hrunning hnone
  rcases h with h | h
  · exact h (by simpa using hlive.length_eq)
  · exact h (by simpa using hgroups.length_eq)

/-- The group of the node is created again, a source of the time before is not advertised, and
the group of a name that is in use already is not in `groups_`. -/
theorem advertised_wrong :
    (∃ s, run (step {}) ⟨.create {}, {}, none⟩ [.client .running, .client .registering, .client .running] = some s ∧
      ¬ s.Right {}) ∧
    (∃ s, run (step {}) ⟨.create {}, {}, none⟩
      [.addSource (.answering none (.ok 7) (.error (.driver 1))) (stereoSource 1 "a".toList), .register,
        .client .running] = some s ∧ ¬ s.Right {}) ∧
    ∃ s, run (step {}) ⟨.create {}, {}, none⟩
      [.client .running,
        .addSource (.answering none (.ok 7) (.error (.driver 1))) (stereoSource 1 "a".toList), .register,
        .addSource (.answering none (.ok 8) (.error (.driver 1))) (stereoSource 2 "b".toList), .register,
        .addSource (.answering none (.ok 9) (.error (.driver 1))) (stereoSource 2 "a".toList), .register] = some s ∧
      ¬ s.Right {} := by
  have hwrong : ∀ es live sources groups,
      (run (step {}) ⟨.create {}, {}, none⟩ es).map (fun s : Advertiser =>
        (s.mdns.client, s.pending.isNone, s.mdns.live.length, (enabledNames s.sm.sources).length, s.mdns.groups.length)) =
          some (.running, true, live, sources, groups) → live ≠ sources + 1 ∨ groups ≠ live →
      ∃ s, run (step {}) ⟨.create {}, {}, none⟩ es = some s ∧ ¬ s.Right {} := by
    intro es live sources groups h hlength
    obtain ⟨s, hrun, hs⟩ := Option.map_eq_some_iff.mp h
    obtain ⟨hclient, hpending, rfl, rfl, rfl⟩ := by simpa only [Prod.mk.injEq] using hs
    exact ⟨s, hrun, not_right_of_length hclient (Option.isNone_iff_eq_none.mp hpending) hlength⟩
  refine ⟨hwrong _ 2 0 1 (by decide +kernel) (by decide), hwrong _ 1 1 1 (by decide +kernel) (by decide),
    hwrong _ 3 2 2 (by decide +kernel) (by decide)⟩

end Advertiser
end Aes67Daemon
