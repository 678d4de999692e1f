import Aes67Daemon.Browser.Store

/-!
# The mDNS services of the browser

An entry of a service is found by its name and its domain, and stored under an id
that is made of the checksum of its description.  The container refuses an entry
whose id another one has, and the browser does not look at the refusal.

## Main definitions

* `lastChange` — what the last call for a service says.
* `ServicesFollow` — the store has one entry for every service, as last changed.
* `ClashFree` — no service gets the id of another one.
* `services_follow_iff` — when the store follows the services.
-/
namespace Aes67Daemon

/-- What the calls for a service say: a description, or that it is gone. -/
def serviceCalls (name domain : Text) (es : List BrowserEvent) : List (Option RtspSource) :=
  es.filterMap fun
    | .change _ n d address sdp =>
      if n = name ∧ d = domain then some (some (rtspSource address sdp)) else none
    | .remove _ n d => if n = name ∧ d = domain then some none else none
    | _ => none

/-- What the last call for a service says. -/
def lastChange (name domain : Text) (es : List BrowserEvent) : Option RtspSource :=
  (serviceCalls name domain es).getLast?.join

/-- What an entry shows of a service: id, address, origin and SDP. -/
def RemoteEntry.shown (it : RemoteEntry) : Text × Text × SDPOrigin × Text :=
  (it.id, it.address, it.origin, it.sdp)

/-- What is to be shown of a service. -/
def RtspSource.shown (s : RtspSource) : Text × Text × SDPOrigin × Text :=
  (s.id, s.address, sdpGetOrigin s.sdp, s.sdp)

/-- A change, after other events, gives its service the id of no other one. -/
def BrowserEvent.ClashFree (es : List BrowserEvent) : BrowserEvent → Prop
  | .change _ name domain _ sdp => ∀ name' domain' s, (name', domain') ≠ (name, domain) →
      lastChange name' domain' es = some s → crc16 s.sdp ≠ crc16 sdp
  | _ => True

namespace Browser
variable {sapInterval : UInt16} {b : Browser} {es : List BrowserEvent} {name domain : Text}

/-- The mDNS entries with a name and a domain. -/
def services (name domain : Text) (b : Browser) : List RemoteEntry :=
  b.sources.entries.filter fun it => it.isService name domain

/-- There is exactly one mDNS entry for every service whose last call was a change,
as that call describes it, and none for the others. -/
def ServicesFollow (es : List BrowserEvent) (b : Browser) : Prop :=
  ∀ name domain, (b.services name domain).map RemoteEntry.shown =
    ((lastChange name domain es).map RtspSource.shown).toList

theorem service_eq_head? (b : Browser) (name domain : Text) :
    b.service name domain = (b.services name domain).head? :=
  (List.head?_filter ..).symm

theorem lastChange_append_change (now : ℕ) (n d address sdp : Text) :
    lastChange name domain (es ++ [.change now n d address sdp]) =
      if n = name ∧ d = domain then some (rtspSource address sdp)
      else lastChange name domain es := by
  rw [lastChange, serviceCalls, List.filterMap_append]
  by_cases h : n = name ∧ d = domain
  · simp [h]
  · simp [h, lastChange, serviceCalls]

theorem lastChange_append_remove (now : ℕ) (n d : Text) :
    lastChange name domain (es ++ [.remove now n d]) =
      if n = name ∧ d = domain then none else lastChange name domain es := by
  rw [lastChange, serviceCalls, List.filterMap_append]
  by_cases h : n = name ∧ d = domain
  · simp [h]
  · simp [h, lastChange, serviceCalls]

/-- The id of a description is made of it. -/
theorem id_of_lastChange {s : RtspSource} (h : lastChange name domain es = some s) :
    s.id = rtspId s.sdp := by
  induction es using List.reverseRecOn with
  | nil => cases h
  | append_singleton es e ih =>
      cases e with
      | change now n d address sdp =>
          rw [lastChange_append_change] at h
          split at h
          · obtain rfl := Option.some.inj h
            rfl
          · exact ih h
      | remove now n d =>
          rw [lastChange_append_remove] at h
          split at h
          · cases h
          · exact ih h
      | sap now m => exact ih (by simpa [lastChange, serviceCalls] using h)
      | sweep offset now => exact ih (by simpa [lastChange, serviceCalls] using h)

/-- The entry of a service shows what was last said of it. -/
theorem ServicesFollow.lastChange_of_mem (H : b.ServicesFollow es) {it : RemoteEntry}
    (hit : it ∈ b.services name domain) :
    ∃ s, lastChange name domain es = some s ∧ s.id = it.id ∧ b.services name domain = [it] := by
  have hshown := H name domain
  cases hlast : lastChange name domain es with
  | none =>
      rw [hlast] at hshown
      rw [List.map_eq_nil_iff.mp hshown] at hit
      cases hit
  | some s =>
      rw [hlast] at hshown
      obtain ⟨it', hit', hs⟩ := List.map_eq_singleton_iff.mp hshown
      rw [hit'] at hit
      obtain rfl := List.mem_singleton.mp hit
      exact ⟨s, rfl, (congrArg Prod.fst hs).symm, hit'⟩

theorem ServicesFollow.exists_of_lastChange (H : b.ServicesFollow es) {s : RtspSource}
    (h : lastChange name domain es = some s) :
    ∃ it ∈ b.sources.entries, it.isService name domain = true ∧ it.id = s.id := by
  have hshown := H name domain
  rw [h] at hshown
  obtain ⟨it, hit, hs⟩ := List.map_eq_singleton_iff.mp hshown
  have hmem : it ∈ b.services name domain := by rw [hit]; exact List.mem_singleton_self it
  exact ⟨it, (List.mem_filter.mp hmem).1, (List.mem_filter.mp hmem).2, congrArg Prod.fst hs⟩

theorem isService_self {it : RemoteEntry} (h : it.protocol = mdnsProtocol) :
    it.isService it.name it.domain = true := by
  simp [RemoteEntry.isService, h]

theorem isService_eq_true {it : RemoteEntry} : it.isService name domain = true ↔
    it.name = name ∧ it.protocol = mdnsProtocol ∧ it.domain = domain := by
  simp [RemoteEntry.isService, and_assoc]

/-- What the removal of an entry leaves of a service it is not the entry of. -/
theorem services_erase {it : RemoteEntry} (hit : it ∈ b.sources.entries)
    (h : it.isService name domain = false) (t : ℕ) :
    services name domain { sources := b.sources.erase it.id, lastUpdate := t } =
      b.services name domain := by
  refine Keyed.filter_eraseIf fun a ha hid => ?_
  rw [Keyed.eq_of_key ha hit (of_decide_eq_true hid), h]

/-- What a replacement leaves of a service neither record is an entry of. -/
theorem services_replace {it it' : RemoteEntry} (hit : it ∈ b.sources.entries)
    (h : it.isService name domain = false) (h' : it'.isService name domain = false) (t : ℕ) :
    services name domain { sources := b.sources.replace it.id it', lastUpdate := t } =
      b.services name domain := by
  by_cases hfree : ∀ a ∈ b.sources.entries, a.id = it'.id → a.id = it.id
  · have hsame : ∀ a ∈ b.sources.entries, a.id = it.id →
        a.isService name domain = it'.isService name domain := fun a ha hid => by
      rw [Keyed.eq_of_key ha hit hid, h, h']
    rw [services, Keyed.filter_replace (b := it') hfree hsame]
    refine (List.map_congr_left fun a ha => ?_).trans (List.map_id _)
    obtain ⟨hmem, hserv⟩ := List.mem_filter.mp ha
    refine if_neg fun hid => ?_
    rw [Keyed.eq_of_key hmem hit hid, h] at hserv
    cases hserv
  · push Not at hfree
    obtain ⟨a, ha, hid, hne⟩ := hfree
    rw [Keyed.replace_of_taken (b := it') ha hid hne]
    rfl

/-- What an insertion leaves of a service the record is no entry of. -/
theorem services_insert {it : RemoteEntry} (h : it.isService name domain = false) (t : ℕ) :
    services name domain { sources := b.sources.insert it, lastUpdate := t } =
      b.services name domain := by
  cases hfind : b.sources.find? it.id with
  | none =>
      rw [services, Keyed.filter_insert hfind, h]
      exact List.append_nil _
  | some a => rw [Keyed.insert_of_taken hfind]; rfl

/-- SAP sessions are no services. -/
theorem services_sap (H : b.IdsByProtocol) (now : ℕ) (m : SapMessage) :
    (b.onSapMessage sapInterval now m).services name domain = b.services name domain := by
  have hsap : ∀ it : RemoteEntry, it.protocol = sapProtocol → it.isService name domain = false := by
    intro it hprot
    by_contra hserv
    rw [Bool.not_eq_false, isService_eq_true, hprot] at hserv
    exact absurd hserv.2.1 (by decide)
  simp only [onSapMessage]
  split
  · split
    · exact services_insert (hsap _ rfl) _
    · rfl
  · rename_i it hfind
    obtain ⟨hit, hid⟩ := Keyed.find?_eq_some.mp hfind
    have hprot : it.protocol = sapProtocol := by
      rcases H it hit with ⟨hprot, -⟩ | ⟨-, sdp, hsdp⟩
      · exact hprot
      · exact absurd (hid.symm.trans hsdp) (sapId_ne_rtspId _ _ _)
    split
    · split
      · exact services_replace hit (hsap it hprot) (hsap (it.refreshed now) hprot) _
      · rfl
    · exact services_erase hit (hsap it hprot) _

theorem services_sweep (offset now : ℕ) :
    (b.sweep offset now).services name domain = b.services name domain := by
  refine Keyed.filter_eraseIf fun a ha hexp => ?_
  by_contra hserv
  rw [Bool.not_eq_false, isService_eq_true] at hserv
  simp only [RemoteEntry.expired, hserv.2.1, Bool.and_eq_true, decide_eq_true_eq] at hexp
  exact absurd hexp.1 (by decide)

/-- An entry of one service is none of another one. -/
theorem isService_of_ne {it : RemoteEntry} (h : it.isService name domain = true)
    {name' domain' : Text} (hne : ¬ (name = name' ∧ domain = domain')) :
    it.isService name' domain' = false := by
  by_contra hserv
  rw [Bool.not_eq_false, isService_eq_true] at hserv
  obtain ⟨hname, -, hdomain⟩ := isService_eq_true.mp h
  exact hne ⟨hname.symm.trans hserv.1, hdomain.symm.trans hserv.2.2⟩

/-- A removal is followed. -/
theorem follow_remove (H : b.ServicesFollow es) (now : ℕ) (n d : Text) :
    (b.onRemoveRtspSource now n d).ServicesFollow (es ++ [.remove now n d]) := by
  intro name domain
  rw [lastChange_append_remove, onRemoveRtspSource]
  cases hserv : b.service n d with
  | none =>
      by_cases hkey : n = name ∧ d = domain
      · obtain ⟨rfl, rfl⟩ := hkey
        rw [if_pos ⟨rfl, rfl⟩]
        rw [service_eq_head?, List.head?_eq_none_iff] at hserv
        simp [hserv]
      · rw [if_neg hkey]
        exact H name domain
  | some it =>
      have hmem : it ∈ b.services n d := by
        rw [service_eq_head?] at hserv
        exact List.mem_of_head? hserv
      obtain ⟨hit, hself⟩ := List.mem_filter.mp hmem
      by_cases hkey : n = name ∧ d = domain
      · obtain ⟨rfl, rfl⟩ := hkey
        rw [if_pos ⟨rfl, rfl⟩]
        have hnone : services n d { sources := b.sources.erase it.id, lastUpdate := seconds now } =
            [] := by
          refine List.filter_eq_nil_iff.mpr fun a ha hserv' => ?_
          obtain ⟨ha, hne⟩ := Keyed.mem_erase.mp ha
          obtain ⟨s, -, -, honly⟩ := H.lastChange_of_mem hmem
          have ha' : a ∈ b.services n d := List.mem_filter.mpr ⟨ha, hserv'⟩
          rw [honly] at ha'
          exact hne (congrArg _ (List.mem_singleton.mp ha'))
        dsimp only
        rw [hnone]
        rfl
      · rw [if_neg hkey]
        dsimp only
        rw [services_erase hit (isService_of_ne hself hkey)]
        exact H name domain

/-- A change that does not clash is one whose id only its own entry may have. -/
theorem clashFree_iff (H : b.ServicesFollow es) (hids : b.IdsByProtocol) {now : ℕ}
    {n d address sdp : Text} : (BrowserEvent.change now n d address sdp).ClashFree es ↔
      ∀ it ∈ b.sources.entries, it.id = rtspId sdp → it.isService n d = true := by
  constructor
  · intro hfree it hit hid
    have hprot : it.protocol = mdnsProtocol := by
      rcases hids it hit with ⟨-, addr, hash, hsap⟩ | ⟨hprot, -⟩
      · exact absurd (hsap.symm.trans hid) (sapId_ne_rtspId _ _ _)
      · exact hprot
    have hmem : it ∈ b.services it.name it.domain :=
      List.mem_filter.mpr ⟨hit, isService_self hprot⟩
    obtain ⟨s, hlast, hsid, -⟩ := H.lastChange_of_mem hmem
    have hcrc : crc16 s.sdp = crc16 sdp := by
      rw [← rtspId_inj, ← id_of_lastChange hlast, hsid, hid]
    by_contra hserv
    refine hfree it.name it.domain s (fun h => ?_) hlast hcrc
    obtain ⟨hname, hdomain⟩ := Prod.mk.inj h
    exact hserv (isService_eq_true.mpr ⟨hname, hprot, hdomain⟩)
  · intro hown name' domain' s hne hlast hcrc
    obtain ⟨it, hit, hserv, hid⟩ := H.exists_of_lastChange hlast
    have hself := hown it hit (by rw [hid, id_of_lastChange hlast, rtspId_inj.mpr hcrc])
    rw [isService_of_ne hserv fun h => hne (by rw [h.1, h.2])] at hself
    cases hself

section Change
variable {n d address sdp : Text} {now : ℕ}

variable (n d address sdp now) in
/-- After a change the last change of the service is this one, and others are as before. -/
theorem lastChange_changed (es : List BrowserEvent) :
    lastChange n d (es ++ [.change now n d address sdp]) = some (rtspSource address sdp) ∧
    ∀ name domain, ¬ (n = name ∧ d = domain) →
      lastChange name domain (es ++ [.change now n d address sdp]) = lastChange name domain es := by
  refine ⟨?_, fun name domain hkey => ?_⟩
  · rw [lastChange_append_change, if_pos ⟨rfl, rfl⟩]
  · rw [lastChange_append_change, if_neg hkey]

/-- The new entry of an unknown service is followed when its id is free. -/
theorem follow_insert_iff (H : b.ServicesFollow es) (hempty : b.services n d = []) :
    ({ sources := b.sources.insert (rtspEntry now n d (rtspSource address sdp))
       lastUpdate := seconds now } : Browser).ServicesFollow
      (es ++ [.change now n d address sdp]) ↔
    ∀ it ∈ b.sources.entries, it.id = rtspId sdp → it.isService n d = true := by
  obtain ⟨hnew, hother⟩ := lastChange_changed n d address sdp now es
  let entry := rtspEntry now n d (rtspSource address sdp)
  have hself : entry.isService n d = true := isService_self rfl
  have hnone : ∀ a ∈ b.sources.entries, ¬ a.isService n d = true :=
    List.filter_eq_nil_iff.mp hempty
  cases hfind : b.sources.find? (rtspId sdp) with
  | none =>
      refine iff_of_true (fun name domain => ?_) fun a ha hid =>
        absurd hid (Keyed.find?_eq_none.mp hfind a ha)
      by_cases hkey : n = name ∧ d = domain
      · obtain ⟨rfl, rfl⟩ := hkey
        have hservices : services n d
            { sources := b.sources.insert entry, lastUpdate := seconds now } = [entry] := by
          rw [services, Keyed.filter_insert (a := entry) hfind, hself, if_pos rfl]
          exact congrArg (· ++ [entry]) hempty
        rw [hservices, hnew]
        rfl
      · rw [services_insert (isService_of_ne hself hkey), hother name domain hkey]
        exact H name domain
  | some a =>
      obtain ⟨ha, hid⟩ := Keyed.find?_eq_some.mp hfind
      refine iff_of_false (fun hfollow => ?_) fun hown => hnone a ha (hown a ha hid)
      have hshown := hfollow n d
      rw [Keyed.insert_of_taken (a := entry) hfind, hnew] at hshown
      have : services n d { sources := b.sources, lastUpdate := seconds now } = [] := hempty
      rw [this] at hshown
      cases hshown

/-- The updated entry of a service is followed when no other entry has its new id. -/
theorem follow_replace_iff (H : b.ServicesFollow es) {it : RemoteEntry}
    (hmem : it ∈ b.services n d) :
    ({ sources := b.sources.replace it.id (it.updated now (rtspSource address sdp))
       lastUpdate := seconds now } : Browser).ServicesFollow
      (es ++ [.change now n d address sdp]) ↔
    ∀ it ∈ b.sources.entries, it.id = rtspId sdp → it.isService n d = true := by
  obtain ⟨hnew, hother⟩ := lastChange_changed n d address sdp now es
  obtain ⟨hit, hself⟩ := List.mem_filter.mp hmem
  obtain ⟨s, -, -, honly⟩ := H.lastChange_of_mem hmem
  let entry := it.updated now (rtspSource address sdp)
  have hself' : entry.isService n d = true := hself
  by_cases hown : ∀ a ∈ b.sources.entries, a.id = rtspId sdp → a.isService n d = true
  · refine iff_of_true (fun name domain => ?_) hown
    have hfree : ∀ a ∈ b.sources.entries, a.id = entry.id → a.id = it.id := by
      intro a ha hid
      have ha' : a ∈ b.services n d := List.mem_filter.mpr ⟨ha, hown a ha hid⟩
      rw [honly] at ha'
      rw [List.mem_singleton.mp ha']
    by_cases hkey : n = name ∧ d = domain
    · obtain ⟨rfl, rfl⟩ := hkey
      have hservices : services n d
          { sources := b.sources.replace it.id entry, lastUpdate := seconds now } = [entry] := by
        have hsame : ∀ a ∈ b.sources.entries, a.id = it.id →
            a.isService n d = entry.isService n d := fun a ha hid => by
          rw [Keyed.eq_of_key ha hit hid, hself, hself']
        rw [services, Keyed.filter_replace hfree hsame]
        change (b.services n d).map _ = _
        rw [honly, List.map_singleton, if_pos rfl]
      rw [hservices, hnew]
      rfl
    · rw [services_replace hit (isService_of_ne hself hkey) (isService_of_ne hself' hkey),
        hother name domain hkey]
      exact H name domain
  · refine iff_of_false (fun hfollow => hown ?_) hown
    intro a ha hid
    by_contra hserv'
    have hne : a.id ≠ it.id := fun h => hserv' (by rw [Keyed.eq_of_key ha hit h]; exact hself)
    have hshown := hfollow n d
    rw [Keyed.replace_of_taken (b := entry) ha hid hne, hnew] at hshown
    have : services n d { sources := b.sources, lastUpdate := seconds now } = [it] := honly
    rw [this] at hshown
    have hit_id : it.id = rtspId sdp := congrArg Prod.fst (List.singleton_inj.mp hshown)
    exact hne (hid.trans hit_id.symm)

end Change

/-- **A change is followed when it does not clash**, and only then. -/
theorem follow_change_iff (H : b.ServicesFollow es) (hids : b.IdsByProtocol) (now : ℕ)
    (n d address sdp : Text) :
    (b.onChangeRtspSource now n d (rtspSource address sdp)).ServicesFollow
      (es ++ [.change now n d address sdp]) ↔
    (BrowserEvent.change now n d address sdp).ClashFree es := by
  rw [clashFree_iff H hids, onChangeRtspSource]
  cases hserv : b.service n d with
  | none =>
      rw [service_eq_head?, List.head?_eq_none_iff] at hserv
      exact follow_insert_iff H hserv
  | some it =>
      rw [service_eq_head?] at hserv
      exact follow_replace_iff H (List.mem_of_head? hserv)

/-- **One event is followed when it does not clash.** -/
theorem follow_occur_iff (H : b.ServicesFollow es) (hids : b.IdsByProtocol) (e : BrowserEvent) :
    (b.occur sapInterval e).ServicesFollow (es ++ [e]) ↔ e.ClashFree es := by
  cases e with
  | sap now m =>
      refine iff_of_true (fun name domain => ?_) trivial
      have hlast : lastChange name domain (es ++ [.sap now m]) = lastChange name domain es := by
        simp [lastChange, serviceCalls]
      rw [hlast, occur, services_sap hids]
      exact H name domain
  | sweep offset now =>
      refine iff_of_true (fun name domain => ?_) trivial
      have hlast : lastChange name domain (es ++ [.sweep offset now]) = lastChange name domain es := by
        simp [lastChange, serviceCalls]
      rw [hlast, occur, services_sweep]
      exact H name domain
  | change now n d address sdp => exact follow_change_iff H hids now n d address sdp
  | remove now n d => exact iff_of_true (follow_remove H now n d) trivial

end Browser

/-- No change in a sequence of events clashes. -/
def ClashFreeRun (es : List BrowserEvent) : Prop :=
  ∀ pre e post, es = pre ++ e :: post → e.ClashFree pre

namespace Browser
variable {sapInterval : UInt16}

/-- **When the store follows the services**: after every event of a sequence there is
exactly one mDNS entry for every service whose last call was a change, as that call
describes it, and none for the others, exactly when no change gives its service the
checksum of another one that is there. -/
theorem services_follow_iff (sapInterval : UInt16) (es : List BrowserEvent) :
    (∀ pre, pre <+: es → (pre.foldl (occur sapInterval) {}).ServicesFollow pre) ↔
      ClashFreeRun es := by
  induction es using List.reverseRecOn with
  | nil =>
      refine iff_of_true (fun pre hpre => ?_) fun pre e post h => by simp at h
      obtain rfl := List.prefix_nil.mp hpre
      exact fun name domain => rfl
  | append_singleton es e ih =>
      have hfollow : (∀ pre, pre <+: es ++ [e] → (pre.foldl (occur sapInterval) {}).ServicesFollow pre) ↔
          (∀ pre, pre <+: es → (pre.foldl (occur sapInterval) {}).ServicesFollow pre) ∧
            ((es ++ [e]).foldl (occur sapInterval) {}).ServicesFollow (es ++ [e]) := by
        simp only [List.prefix_concat_iff, or_imp, forall_and, forall_eq, and_comm]
      have hclash : ClashFreeRun (es ++ [e]) ↔ ClashFreeRun es ∧ e.ClashFree es := by
        constructor
        · exact fun H => ⟨fun pre e' post h => H pre e' (post ++ [e]) (by rw [h]; simp),
            H es e [] rfl⟩
        · rintro ⟨H, he⟩ pre e' post h
          rcases List.eq_nil_or_concat post with rfl | ⟨post, e'', rfl⟩
          · obtain ⟨rfl, hlast⟩ := List.append_inj' h rfl
            obtain rfl := List.singleton_inj.mp hlast
            exact he
          · have hsplit : es ++ [e] = (pre ++ e' :: post) ++ [e''] := by
              rw [h]
              simp
            exact H pre e' post (List.append_inj' hsplit rfl).1
      rw [hfollow, hclash, ih]
      refine and_congr_right fun hfree => ?_
      rw [List.foldl_append, List.foldl_cons, List.foldl_nil]
      exact follow_occur_iff (ih.mpr hfree es (List.prefix_rfl))
        (idsByProtocol_run idsByProtocol_empty es) e

/-- Two services with one description: the second one is not stored. -/
theorem services_clash :
    ¬ ([.change 0 "a".toList "local".toList "10.0.0.1".toList "s=a".toList,
        .change 0 "b".toList "local".toList "10.0.0.2".toList "s=a".toList].foldl (occur 300)
      {}).ServicesFollow
      [.change 0 "a".toList "local".toList "10.0.0.1".toList "s=a".toList,
        .change 0 "b".toList "local".toList "10.0.0.2".toList "s=a".toList] := by
  intro H
  have hlength := congrArg List.length (H "b".toList "local".toList)
  revert hlength
  decide +kernel

end Browser
end Aes67Daemon
