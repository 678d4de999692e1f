import Aes67Daemon.Browser.Services
import Aes67Daemon.Lib.Run
import Aes67Daemon.Net.Url

/-!
# Services that come and go

`MDNSClient` follows the services of the RTSP servers.  A new one is resolved, and a task of its
own asks the server for the description, which it tells the browser, and then waits for others.
When the service is gone, the task is stopped and the entry is removed.  The two are not ordered
by a lock: the task registers itself, it asks whether it is registered and then goes on, and what
it tells is stored under the name that the server announces.

## Main definitions

* `RtspTask`, `MDNSBrowse` — a task of `RtspClient::process`, and all that takes part.
* `MDNSBrowse.step` — the browse events, the resolver's answers and the steps of the tasks.
* `MDNSBrowse.NoGhosts` — no entry is left of a domain all of whose services are gone.
* `MDNSBrowse.noGhosts_of` — this is so when what is told is of a service that is there.
-/
namespace Aes67Daemon

open Text

/-- A service: its name and its domain. -/
abbrev ServiceKey := Text × Text

/-- How far a task has come. -/
inductive TaskStage
  /-- It is not registered yet. -/
  | starting
  /-- It waits for the answer to `DESCRIBE`. -/
  | describing
  /-- It is about to call back, with the announced name. -/
  | telling (announcedName sdp : Text)
  /-- It waits for a request. -/
  | waiting
  /-- It has read a request, and if it is an `ANNOUNCE`, the name in it. -/
  | received (announcedName : Option Text)
  /-- It reads what comes with the request. -/
  | reading (announcedName : Option Text)
  deriving DecidableEq

/-- A task of `RtspClient::process`. -/
structure RtspTask where
  name : Text
  domain : Text
  address : Text
  stage : TaskStage := .starting
  deriving DecidableEq

/-- Whether a request is an `ANNOUNCE`, and the name that its URL has.  `none` is an exception. -/
def announceOf (decodeUrl : Text → Text) (request : Text) : Option (Option Text) :=
  match splitBy (· = ' ') (trim request) with
  | verb :: url :: _ =>
    if verb = "ANNOUNCE".toList then
      match parseUrl (decodeUrl url) with
      | none => none
      | some u =>
        if u.ok then
          -- `substr(9)`
          if u.path.length < 9 then none else some (some (u.path.drop 9))
        else some (some [])
    else some none
  | _ => some none

/-- `MDNSClient`, the tasks, `RtspClient::g_active_clients` and the browser. -/
structure MDNSBrowse where
  activeResolvers : List ServiceKey := []
  /-- `g_active_clients`: which task is registered for a service. -/
  activeClients : ServiceKey → Option ℕ := fun _ => none
  /-- `sources_res_`. -/
  tasks : SortedMap ℕ RtspTask := .empty
  /-- The tasks that have been started. -/
  started : ℕ := 0
  browser : Browser := {}
  /-- The services whose last browse event is NEW. -/
  present : List ServiceKey := []
  /-- The service that is being removed: its task has been stopped. -/
  removing : Option ServiceKey := none

inductive MdnsEvent
  /-- NEW, and whether a resolver can be made. -/
  | new (key : ServiceKey) (ok : Bool)
  /-- The resolver's answer: the address, when there is one and it is not to be ignored. -/
  | resolved (key : ServiceKey) (address : Option Text)
  /-- REMOVE, until the task is stopped. -/
  | remove (key : ServiceKey)
  /-- The rest of it. -/
  | removed (now : ℕ)
  /-- A task registers itself. -/
  | register (i : ℕ)
  /-- The answer to `DESCRIBE`. -/
  | described (i : ℕ) (sdp : Option Text)
  /-- A task calls back. -/
  | tell (i : ℕ) (now : ℕ)
  /-- A line is read, or the stream fails, and the task asks whether it is registered. -/
  | request (i : ℕ) (line : Option Text)
  /-- It asks again at the end of the loop. -/
  | proceed (i : ℕ)
  /-- What comes with a request, when it is an SDP. -/
  | response (i : ℕ) (sdp : Option Text)
  /-- The browser receives a SAP message. -/
  | sap (now : ℕ) (m : SapMessage)
  | sweep (offset now : ℕ)

namespace MDNSBrowse

/-- `is_active`. -/
def isActive (s : MDNSBrowse) (key : ServiceKey) : Bool := (s.activeClients key).isSome

/-- `RtspClient::stop`. -/
def stop (key : ServiceKey) (s : MDNSBrowse) : MDNSBrowse :=
  { s with activeClients := Function.update s.activeClients key none }

/-- A task goes on. -/
def goOn (i : ℕ) (t : RtspTask) (stage : TaskStage) (s : MDNSBrowse) : MDNSBrowse :=
  { s with tasks := s.tasks.insert i { t with stage } }

/-- A task ends, and is no longer registered. -/
def finish (i : ℕ) (t : RtspTask) (s : MDNSBrowse) : MDNSBrowse :=
  { s with
    tasks := s.tasks.erase i
    activeClients :=
      if s.activeClients (t.name, t.domain) = some i then Function.update s.activeClients (t.name, t.domain) none
      else s.activeClients }

/-- The name that a task calls back with. -/
def toldName (t : RtspTask) (announcedName : Text) : Text := if announcedName = [] then t.name else announcedName

/-- The Avahi thread, when it is free. -/
def avahi (s s' : MDNSBrowse) : Option MDNSBrowse :=
  match s.removing with
  | some _ => none
  | none => some s'

/-- A step of a task. -/
def taskStep (decodeUrl : Text → Text) (i : ℕ) (t : RtspTask) (s : MDNSBrowse) : MdnsEvent → Option MDNSBrowse
  | .register _ =>
    if t.stage = .starting then
      some ({ s with activeClients := Function.update s.activeClients (t.name, t.domain) (some i) }.goOn i t .describing)
    else none
  | .described _ sdp =>
    if t.stage = .describing then
      match sdp with
      | some sdp => some (s.goOn i t (.telling [] sdp))
      | none => some (s.finish i t)
    else none
  | .tell _ now =>
    match t.stage with
    | .telling announcedName sdp =>
      some ({ s with
        browser := s.browser.onChangeRtspSource now (toldName t announcedName) t.domain (rtspSource t.address sdp) }.goOn
          i t .waiting)
    | _ => none
  | .request _ line =>
    if t.stage = .waiting then
      match line with
      | none => some (s.finish i t)
      | some line =>
        if s.isActive (t.name, t.domain) then
          match announceOf decodeUrl line with
          | some announcedName => some (s.goOn i t (.received announcedName))
          | none => some (s.finish i t)
        else some (s.finish i t)
    else none
  | .proceed _ =>
    match t.stage with
    | .received announcedName =>
      if s.isActive (t.name, t.domain) then some (s.goOn i t (.reading announcedName)) else some (s.finish i t)
    | _ => none
  | .response _ sdp =>
    match t.stage with
    | .reading (some announcedName) =>
      match sdp with
      | some sdp => some (s.goOn i t (.telling (if announcedName = [] then sdpGetSubject sdp else announcedName) sdp))
      | none => some (s.goOn i t .waiting)
    | .reading none => some (s.goOn i t .waiting)
    | _ => none
  | _ => none

/-- A step of the Avahi thread, of a task or of the browser's worker. -/
def step (decodeUrl : Text → Text) (sapInterval : UInt16) (s : MDNSBrowse) (e : MdnsEvent) : Option MDNSBrowse :=
  match e with
  | .new key ok =>
    if key ∈ s.activeResolvers ∨ ok = false then s.avahi { s with present := key :: s.present }
    else s.avahi { s with present := key :: s.present, activeResolvers := key :: s.activeResolvers }
  | .resolved key address =>
    if key ∈ s.activeResolvers then
      let s' := { s with activeResolvers := s.activeResolvers.filter (· ≠ key) }
      match address with
      | none => s.avahi s'
      | some address =>
        s.avahi { s' with tasks := s.tasks.insert s.started ⟨key.1, key.2, address, .starting⟩, started := s.started + 1 }
    else none
  | .remove key => s.avahi { s.stop key with present := s.present.filter (· ≠ key), removing := some key }
  | .removed now =>
    s.removing.map fun key =>
      { s with browser := s.browser.onRemoveRtspSource now key.1 key.2, removing := none }
  | .sap now m => some { s with browser := s.browser.onSapMessage sapInterval now m }
  | .sweep offset now => some { s with browser := s.browser.sweep offset now }
  | .register i | .described i _ | .tell i _ | .request i _ | .proceed i | .response i _ =>
    (s.tasks.find? i).bind fun t => s.taskStep decodeUrl i t e

/-- The last browse event of every service of a domain is a REMOVE, no resolver is active and
the tasks have ended. -/
structure Quiet (domain : Text) (s : MDNSBrowse) : Prop where
  gone : ∀ key ∈ s.present, key.2 ≠ domain
  removed : s.removing = none
  resolvers : s.activeResolvers = []
  tasks : s.tasks.entries = []

/-- There is no entry of a domain all of whose services are gone. -/
def NoGhosts (s : MDNSBrowse) : Prop :=
  ∀ domain, s.Quiet domain → ∀ it ∈ s.browser.sources.entries, it.protocol = mdnsProtocol → it.domain ≠ domain

/-- Whether a service is there, or its REMOVE is not over. -/
def Known (s : MDNSBrowse) (key : ServiceKey) : Prop := key ∈ s.present ∨ s.removing = some key

/-- A task that makes a new entry makes it of a service that is there. -/
def Timely (s : MDNSBrowse) : MdnsEvent → Prop
  | .tell i _ => ∀ t ∈ s.tasks.find? i, ∀ announcedName sdp, t.stage = .telling announcedName sdp →
    s.browser.service (toldName t announcedName) t.domain = none → s.browser.sources.find? (rtspId sdp) = none →
      s.Known (toldName t announcedName, t.domain)
  | _ => True

end MDNSBrowse

/-! ## The entries of a service -/

namespace Browser
variable {b : Browser} {sapInterval : UInt16} {name domain : Text}

/-- No service has two entries. -/
def Single (b : Browser) : Prop := ∀ name domain, (b.services name domain).length ≤ 1

theorem Single.change (H : b.Single) (now : ℕ) (name domain : Text) (s : RtspSource) (hs : s.source = mdnsProtocol) :
    (b.onChangeRtspSource now name domain s).Single := by
  intro name' domain'
  rw [onChangeRtspSource]
  cases hserv : b.service name domain with
  | none =>
      have hself : (rtspEntry now name domain s).isService name domain = true :=
        isService_eq_true.mpr ⟨rfl, hs, rfl⟩
      by_cases hkey : name = name' ∧ domain = domain'
      · obtain ⟨rfl, rfl⟩ := hkey
        rw [service_eq_head?, List.head?_eq_none_iff] at hserv
        cases hfind : b.sources.find? s.id with
        | none =>
            have hlist := Keyed.filter_insert (p := fun it => it.isService name domain) (a := rtspEntry now name domain s) hfind
            simp only [services, hlist, hself, if_true, List.length_append, List.length_singleton]
            rw [show (b.sources.entries.filter fun it => it.isService name domain) = [] from hserv]
            exact le_refl _
        | some it =>
            rw [Keyed.insert_of_taken (a := rtspEntry now name domain s) hfind]
            exact H name domain
      · dsimp only
        rw [services_insert (isService_of_ne hself hkey)]
        exact H name' domain'
  | some it =>
      obtain ⟨hit, hname, hprot, hdomain⟩ := service_eq_some hserv
      have hself : it.isService name domain = true := isService_eq_true.mpr ⟨hname, hprot, hdomain⟩
      by_cases hkey : name = name' ∧ domain = domain'
      · obtain ⟨rfl, rfl⟩ := hkey
        by_cases hfree : ∀ a ∈ b.sources.entries, a.id = (it.updated now s).id → a.id = it.id
        · have hlist := Keyed.filter_replace (p := fun it => it.isService name domain) hfree fun a ha hid => by
            rw [Keyed.eq_of_key ha hit hid]
            rfl
          simp only [services, hlist, List.length_map]
          exact H name domain
        · push Not at hfree
          obtain ⟨a, ha, hid, hne⟩ := hfree
          dsimp only
          rw [Keyed.replace_of_taken (b := it.updated now s) ha hid hne]
          exact H name domain
      · dsimp only
        have hself' : (it.updated now s).isService name domain = true := hself
        rw [services_replace hit (isService_of_ne hself hkey) (isService_of_ne hself' hkey)]
        exact H name' domain'

theorem Single.remove (H : b.Single) (now : ℕ) (name domain : Text) : (b.onRemoveRtspSource now name domain).Single := by
  intro name' domain'
  rw [onRemoveRtspSource]
  split
  · exact (List.Sublist.length_le (List.filter_sublist.filter _)).trans (H name' domain')
  · exact H name' domain'

/-- After its removal a service has no entry. -/
theorem Single.service_removed (H : b.Single) (now : ℕ) (name domain : Text) :
    (b.onRemoveRtspSource now name domain).service name domain = none := by
  cases hserv : b.service name domain with
  | none =>
      rw [onRemoveRtspSource, hserv]
      exact hserv
  | some it =>
      rw [onRemoveRtspSource, hserv]
      obtain ⟨hit, hname, hprot, hdomain⟩ := service_eq_some hserv
      have hself : it ∈ b.services name domain :=
        List.mem_filter.mpr ⟨hit, isService_eq_true.mpr ⟨hname, hprot, hdomain⟩⟩
      refine List.find?_eq_none.mpr fun a ha hserv' => ?_
      obtain ⟨ha, hne⟩ := Keyed.mem_erase.mp ha
      have ha' : a ∈ b.services name domain := List.mem_filter.mpr ⟨ha, hserv'⟩
      obtain ⟨x, hx⟩ := List.length_eq_one_iff.mp (le_antisymm (H name domain) (List.length_pos_of_mem hself))
      rw [hx] at ha' hself
      exact hne (by rw [List.mem_singleton.mp ha', List.mem_singleton.mp hself])

end Browser

/-! ## Steps -/

namespace MDNSBrowse
variable {decodeUrl : Text → Text} {sapInterval : UInt16} {s s' : MDNSBrowse}

/-- The entries of the RTSP client are of services that are there. -/
structure Sound (s : MDNSBrowse) : Prop where
  ids : s.browser.IdsByProtocol
  single : s.browser.Single
  known : ∀ it ∈ s.browser.sources.entries, it.protocol = mdnsProtocol → s.Known (it.name, it.domain)

theorem sound_init : ({} : MDNSBrowse).Sound where
  ids := Browser.idsByProtocol_empty
  single _ _ := Nat.zero_le 1
  known := nofun

/-- A step that leaves the browser and the browse events alone. -/
theorem Sound.congr (H : s.Sound) (hbrowser : s'.browser = s.browser) (hpresent : s'.present = s.present)
    (hremoving : s'.removing = s.removing) : s'.Sound := by
  refine ⟨?_, ?_, ?_⟩
  · rw [hbrowser]
    exact H.ids
  · rw [hbrowser]
    exact H.single
  · rw [hbrowser]
    intro it hit hprot
    rw [Known, hpresent, hremoving]
    exact H.known it hit hprot

theorem avahi_eq_some (h : s.avahi s' = some t) : s.removing = none ∧ t = s' := by
  unfold avahi at h
  split at h
  · cases h
  · exact ⟨‹_›, (Option.some.inj h).symm⟩

/-- A task that does not call back leaves the browser and the browse events alone. -/
theorem taskStep_frame {i : ℕ} {t : RtspTask} {e : MdnsEvent} (h : s.taskStep decodeUrl i t e = some s')
    (hquiet : ∀ j now, e ≠ .tell j now) :
    s'.browser = s.browser ∧ s'.present = s.present ∧ s'.removing = s.removing := by
  cases e with
  | tell j now => exact absurd rfl (hquiet j now)
  | register =>
      obtain ⟨-, h⟩ := Option.ite_none_right_eq_some.mp h
      obtain rfl := Option.some.inj h
      exact ⟨rfl, rfl, rfl⟩
  | described _ sdp =>
      obtain ⟨-, h⟩ := Option.ite_none_right_eq_some.mp h
      cases sdp <;> obtain rfl := Option.some.inj h <;> exact ⟨rfl, rfl, rfl⟩
  | request _ line =>
      obtain ⟨-, h⟩ := Option.ite_none_right_eq_some.mp h
      cases line with
      | none =>
          obtain rfl := Option.some.inj h
          exact ⟨rfl, rfl, rfl⟩
      | some line =>
          simp only at h
          split at h
          · split at h <;> obtain rfl := Option.some.inj h <;> exact ⟨rfl, rfl, rfl⟩
          · obtain rfl := Option.some.inj h
            exact ⟨rfl, rfl, rfl⟩
  | proceed =>
      simp only [taskStep] at h
      split at h
      · split at h <;> obtain rfl := Option.some.inj h <;> exact ⟨rfl, rfl, rfl⟩
      · cases h
  | response _ sdp =>
      simp only [taskStep] at h
      split at h
      · split at h <;> obtain rfl := Option.some.inj h <;> exact ⟨rfl, rfl, rfl⟩
      · obtain rfl := Option.some.inj h
        exact ⟨rfl, rfl, rfl⟩
      · cases h
  | new | resolved | remove | removed | sap | sweep => cases h

/-- A task calls back. -/
theorem Sound.tell (H : s.Sound) {i now : ℕ} {t : RtspTask} (ht : s.tasks.find? i = some t)
    (htimely : s.Timely (.tell i now)) (h : s.taskStep decodeUrl i t (.tell i now) = some s') : s'.Sound := by
  simp only [taskStep] at h
  split at h
  · rename_i announcedName sdp hstage
    obtain rfl := Option.some.inj h
    have hids : (s.browser.occur 0 (.change now (toldName t announcedName) t.domain t.address sdp)).IdsByProtocol :=
      Browser.idsByProtocol_occur H.ids _
    refine ⟨hids, H.single.change now _ _ _ rfl, fun it hit hprot => ?_⟩
    have hkeep : ∀ it ∈ s.browser.sources.entries, it.protocol = mdnsProtocol → s.Known (it.name, it.domain) := H.known
    change s.Known _
    change it ∈ (Browser.onChangeRtspSource _ _ _ _ _).sources.entries at hit
    rw [Browser.onChangeRtspSource] at hit
    split at hit
    · rename_i old hold
      obtain ⟨hmem, hname, hmdns, hdomain⟩ := Browser.service_eq_some hold
      rcases Keyed.mem_of_mem_replace hit with hit | rfl
      · exact hkeep it hit hprot
      · exact hkeep old hmem hmdns
    · rename_i hnone
      cases hfind : s.browser.sources.find? (rtspId sdp) with
      | some other =>
          rw [Keyed.insert_of_taken (a := rtspEntry now _ _ (rtspSource t.address sdp)) hfind] at hit
          exact hkeep it hit hprot
      | none =>
          rcases Keyed.mem_of_mem_insert hit with hit | rfl
          · exact hkeep it hit hprot
          · exact htimely t ht announcedName sdp hstage hnone hfind
  · cases h

/-- The browser goes on, and no entry of a service gets another name. -/
theorem Sound.occur (H : s.Sound) (e : BrowserEvent)
    (hservices : ∀ name domain, (s.browser.occur sapInterval e).services name domain = s.browser.services name domain) :
    ({ s with browser := s.browser.occur sapInterval e } : MDNSBrowse).Sound := by
  refine ⟨Browser.idsByProtocol_occur H.ids e, fun name domain => ?_, fun it hit hprot => ?_⟩
  · rw [hservices]
    exact H.single name domain
  · have hserv : it ∈ (s.browser.occur sapInterval e).services it.name it.domain :=
      List.mem_filter.mpr ⟨hit, Browser.isService_self hprot⟩
    rw [hservices] at hserv
    exact H.known it (List.mem_filter.mp hserv).1 hprot

/-- **One step leaves no entry of a service that is gone.** -/
theorem sound_step {e : MdnsEvent} (H : s.Sound) (htimely : s.Timely e)
    (hstep : s.step decodeUrl sapInterval e = some s') : s'.Sound := by
  have htask : ∀ i, ((s.tasks.find? i).bind fun t => s.taskStep decodeUrl i t e) = some s' →
      (∀ j now, e ≠ .tell j now) → s'.Sound := by
    intro i h hquiet
    obtain ⟨t, -, h⟩ := Option.bind_eq_some_iff.mp h
    obtain ⟨hbrowser, hpresent, hremoving⟩ := taskStep_frame h hquiet
    exact H.congr hbrowser hpresent hremoving
  cases e with
  | new key ok =>
      have hmore : ∀ t : MDNSBrowse, t.browser = s.browser → t.present = key :: s.present → t.removing = s.removing →
          t.Sound := by
        intro t hbrowser hpresent hremoving
        refine ⟨?_, ?_, fun it hit hprot => ?_⟩
        · rw [hbrowser]
          exact H.ids
        · rw [hbrowser]
          exact H.single
        · rw [hbrowser] at hit
          rw [Known, hpresent, hremoving]
          exact (H.known it hit hprot).imp_left (List.mem_cons_of_mem _)
      simp only [step] at hstep
      split at hstep <;> obtain ⟨-, rfl⟩ := avahi_eq_some hstep <;> exact hmore _ rfl rfl rfl
  | resolved key address =>
      obtain ⟨-, h⟩ := Option.ite_none_right_eq_some.mp hstep
      cases address <;> obtain ⟨-, rfl⟩ := avahi_eq_some h <;> exact H.congr rfl rfl rfl
  | remove key =>
      obtain ⟨hfree, rfl⟩ := avahi_eq_some hstep
      refine ⟨H.ids, H.single, fun it hit hprot => ?_⟩
      have hpresent := (H.known it hit hprot).resolve_right (by rw [hfree]; exact Option.some_ne_none _ ∘ Eq.symm)
      by_cases hkey : (it.name, it.domain) = key
      · exact .inr (congrArg some hkey.symm)
      · exact .inl (List.mem_filter.mpr ⟨hpresent, decide_eq_true hkey⟩)
  | removed now =>
      obtain ⟨key, hkey, rfl⟩ := Option.map_eq_some_iff.mp hstep
      have hids : (s.browser.occur 0 (.remove now key.1 key.2)).IdsByProtocol := Browser.idsByProtocol_occur H.ids _
      refine ⟨hids, H.single.remove now key.1 key.2, fun it hit hprot => ?_⟩
      have hmem : it ∈ s.browser.sources.entries := by
        change it ∈ (Browser.onRemoveRtspSource _ _ _ _).sources.entries at hit
        rw [Browser.onRemoveRtspSource] at hit
        split at hit
        · exact (Keyed.mem_erase.mp hit).1
        · exact hit
      refine .inl ((H.known it hmem hprot).resolve_right fun hremoving => ?_)
      obtain rfl := Option.some.inj (hkey.symm.trans hremoving)
      have hnone := List.find?_eq_none.mp (H.single.service_removed now it.name it.domain) it hit
      exact hnone (Browser.isService_self hprot)
  | sap now m =>
      obtain rfl := Option.some.inj hstep
      exact H.occur (.sap now m) fun _ _ => Browser.services_sap H.ids now m
  | sweep offset now =>
      obtain rfl := Option.some.inj hstep
      exact @Sound.occur sapInterval s H (.sweep offset now) fun _ _ => Browser.services_sweep offset now
  | tell i now =>
      obtain ⟨t, ht, h⟩ := Option.bind_eq_some_iff.mp hstep
      exact H.tell ht htimely h
  | register i | described i | request i | proceed i | response i => exact htask i hstep (by simp)

/-- **No service comes back** in a run in which a task that makes a new entry makes it of a service
that is there. -/
theorem noGhosts_of (decodeUrl : Text → Text) (sapInterval : UInt16) (es : List MdnsEvent)
    (htimely : Along (step decodeUrl sapInterval) Timely {} es)
    (hrun : run (step decodeUrl sapInterval) {} es = some s) : s.NoGhosts := by
  have hsound := run_keeps (J := Sound) (P := Timely) (fun _ _ _ hs he => sound_step hs he) sound_init htimely hrun
  intro domain hquiet it hit hprot
  have hpresent := (hsound.known it hit hprot).resolve_right (by rw [hquiet.removed]; exact Option.some_ne_none _ ∘ Eq.symm)
  exact hquiet.gone _ hpresent

/-- What is told is of a service whose last browse event is NEW. -/
def TellsPresent (s : MDNSBrowse) : MdnsEvent → Bool
  | .tell i _ =>
    match s.tasks.find? i with
    | some ⟨name, domain, address, .telling announcedName _⟩ =>
      (toldName ⟨name, domain, address, .waiting⟩ announcedName, domain) ∈ s.present
    | _ => true
  | _ => true

theorem timely_of_tellsPresent {e : MdnsEvent} (h : s.TellsPresent e = true) : s.Timely e := by
  cases e with
  | tell i now =>
      intro t ht announcedName sdp hstage _ _
      obtain ⟨name, domain, address, stage⟩ := t
      obtain rfl : stage = .telling announcedName sdp := hstage
      rw [TellsPresent, Option.mem_def.mp ht] at h
      exact .inl (of_decide_eq_true h)
  | new | resolved | remove | removed | register | described | request | proceed | response | sap | sweep => trivial

/-- A service that comes and goes. -/
theorem come_and_gone :
    ∃ s, run (step id 300) {}
      [.new ("a".toList, "local".toList) true, .resolved ("a".toList, "local".toList) (some "10.0.0.1".toList),
        .register 0, .described 0 (some "s=a".toList), .tell 0 0, .remove ("a".toList, "local".toList), .removed 0,
        .request 0 none] = some s ∧ s.NoGhosts := by
  have hdefined : (run (step id 300) {}
      [.new ("a".toList, "local".toList) true, .resolved ("a".toList, "local".toList) (some "10.0.0.1".toList),
        .register 0, .described 0 (some "s=a".toList), .tell 0 0, .remove ("a".toList, "local".toList), .removed 0,
        .request 0 none]).isSome = true := by decide +kernel
  obtain ⟨s, hrun⟩ := Option.isSome_iff_exists.mp hdefined
  refine ⟨s, hrun, noGhosts_of id 300 _ ?_ hrun⟩
  exact Along.imp (P := fun s e => s.TellsPresent e = true) (fun _ _ => timely_of_tellsPresent) (by decide +kernel)

/-- A task that registers itself when its service is gone, one that calls back then, and one that is
told of another name. -/
theorem ghosts :
    (∃ s, run (step id 300) {}
      [.new ("a".toList, "local".toList) true, .resolved ("a".toList, "local".toList) (some "10.0.0.1".toList),
        .remove ("a".toList, "local".toList), .removed 0, .register 0, .described 0 (some "s=a".toList), .tell 0 0,
        .request 0 none] = some s ∧ ¬ s.NoGhosts) ∧
    (∃ s, run (step id 300) {}
      [.new ("a".toList, "local".toList) true, .resolved ("a".toList, "local".toList) (some "10.0.0.1".toList),
        .register 0, .described 0 (some "s=a".toList), .remove ("a".toList, "local".toList), .removed 0, .tell 0 0,
        .request 0 none] = some s ∧ ¬ s.NoGhosts) ∧
    ∃ s, run (step id 300) {}
      [.new ("a".toList, "local".toList) true, .resolved ("a".toList, "local".toList) (some "10.0.0.1".toList),
        .register 0, .described 0 (some "s=a".toList), .tell 0 0,
        .request 0 (some "ANNOUNCE rtsp://10.0.0.1:8854/by-name/b RTSP/1.0".toList), .proceed 0,
        .response 0 (some "s=b".toList), .tell 0 0, .remove ("a".toList, "local".toList), .removed 0,
        .request 0 none] = some s ∧ ¬ s.NoGhosts := by
  have hghost : ∀ es, (run (step id 300) {} es).map (fun s : MDNSBrowse =>
      s.present.isEmpty && s.removing.isNone && s.activeResolvers.isEmpty && s.tasks.entries.isEmpty &&
        s.browser.sources.entries.any fun it => it.protocol = mdnsProtocol && it.domain = "local".toList) = some true →
      ∃ s, run (step id 300) {} es = some s ∧ ¬ s.NoGhosts := by
    intro es h
    obtain ⟨s, hrun, hs⟩ := Option.map_eq_some_iff.mp h
    simp only [Bool.and_eq_true, List.isEmpty_iff, Option.isNone_iff_eq_none, List.any_eq_true,
      decide_eq_true_eq] at hs
    obtain ⟨⟨⟨⟨hpresent, hremoved⟩, hresolvers⟩, htasks⟩, it, hit, hprot, hdomain⟩ := hs
    refine ⟨s, hrun, fun hno => hno "local".toList ⟨?_, hremoved, hresolvers, htasks⟩ it hit hprot hdomain⟩
    rw [hpresent]
    intro name h
    cases h
  exact ⟨hghost _ (by decide +kernel), hghost _ (by decide +kernel), hghost _ (by decide +kernel)⟩

end MDNSBrowse
end Aes67Daemon
