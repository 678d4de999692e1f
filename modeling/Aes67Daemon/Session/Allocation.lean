import Aes67Daemon.Session.Events
import Mathlib.Logic.Function.Basic

/-!
# Versions that are allocated before they are stored

`add_source` takes its version from the global counter before it takes the lock
under which it stores the source, and `on_update_sources` counts after it has
released that lock.  Between allocation and storage another thread may store a
greater version of the same source.  Here both calls are split at the lock, and
the threads take these parts in any order.

A version is stored in order if it was allocated while no update of the sources
was under way, and no version of the source has been stored since.

## Main definitions

* `SessionManager.allocateSource`, `storeSource` — `add_source` before the lock and
  under it.
* `SessionManager.bumpSources`, `countVersion` — `on_update_sources` under the lock
  and after it.
* `Concurrent` — the session manager, the calls under way, and the versions stored.
* `ConcurrentStep.Orderly` — a version of a source is stored in order.
* `Concurrent.versions_increase` — versions of a source then only move forward.
-/
namespace Aes67Daemon

open Text

namespace SessionManager
variable {host : Host} {env : Env} {source : StreamSource} {info : StreamInfo}
  {it : Option StreamInfo} {s s' : SessionManager} {ret : Ret}

/-! ## The two halves of the calls -/

/-- `add_source` up to the lock: the record with its version. -/
def allocateSource (host : Host) (env : Env) (source : StreamSource) (s : SessionManager) :
    Except Ret StreamInfo × SessionManager :=
  if streamIdMax < source.id.toNat then (.error (.error .invalidStreamId), s)
  else if host.routingSize < source.map.length then (.error .outOfBounds, s)
  else
    match sourceStream host env source s.driver.sampleRate with
    | none => (.error (.error .cannotRetrieveMac), s)
    | some stream =>
      (.ok (sourceInfo host source stream s.gSessionVersion),
        { s with gSessionVersion := s.gSessionVersion + 1 })

/-- `add_source` from the lock on. -/
def storeSource (host : Host) (env : Env) (source : StreamSource) (info : StreamInfo)
    (s : SessionManager) : Option (Ret × SessionManager) :=
  match s.sources.find? source.id with
  | some old => registerSource host env source info (some old) (s.dropSource host env old)
  | none =>
    if s.sourceNames.contains source.name then some (.error .streamNameInUse, s)
    else registerSource host env source info none s

/-- `on_update_sources` under the lock. -/
def bumpSources (host : Host) (env : Env) (s : SessionManager) : SessionManager :=
  { s.onUpdateSources host env with gSessionVersion := s.gSessionVersion }

/-- `on_update_sources` after the lock. -/
def countVersion (s : SessionManager) : SessionManager :=
  { s with gSessionVersion := s.gSessionVersion + 1 }

/-- The halves of `add_source` make up the call. -/
theorem addSource_eq_storeSource (host : Host) (env : Env) (source : StreamSource)
    (s : SessionManager) :
    s.addSource host env source =
      match s.allocateSource host env source with
      | (.error ret, s) => some (ret, s)
      | (.ok info, s) => s.storeSource host env source info := by
  simp only [addSource, allocateSource]
  split
  · rfl
  split
  · rfl
  · cases sourceStream host env source s.driver.sampleRate <;> rfl

theorem allocateSource_cases (host : Host) (env : Env) (source : StreamSource)
    (s : SessionManager) :
    (∃ e, s.allocateSource host env source = (.error e, s)) ∨
    ∃ info, s.allocateSource host env source = (.ok info, s.countVersion) ∧
      info.sessionId = host.config.sessionId source.id ∧
      info.sessionVersion = host.config.sessionId source.id + s.gSessionVersion := by
  rw [allocateSource]
  split
  · exact .inl ⟨_, rfl⟩
  split
  · exact .inl ⟨_, rfl⟩
  · split
    · exact .inl ⟨_, rfl⟩
    · exact .inr ⟨_, rfl, rfl, rfl⟩

/-- What an attempt to store a source leaves under the ids. -/
structure StoresOnly (source : StreamSource) (info : StreamInfo) (s : SessionManager) (ret : Ret)
    (s' : SessionManager) : Prop where
  others : ∀ id, id ≠ source.id → s'.sources.find? id = s.sources.find? id
  failed : ret ≠ .ok → s'.sources.find? source.id = none
  stored : ret = .ok → ∃ info', s'.sources.find? source.id = some info' ∧
    info'.sessionId = info.sessionId ∧ info'.sessionVersion = info.sessionVersion

theorem storesOnly_erase {t : SessionManager} {e : ErrorCode} (h : t.sources = s.sources) :
    StoresOnly source info s (.error e) (t.eraseSource source.id) :=
  ⟨fun id hid => by rw [eraseSource, SortedMap.find?_erase_of_ne _ hid, h],
    fun _ => SortedMap.find?_erase_self .., nofun⟩

theorem storesOnly_kept {t : SessionManager} {e : ErrorCode} (h : t.sources = s.sources)
    (hnone : s.sources.find? source.id = none) : StoresOnly source info s (.error e) t :=
  ⟨fun id _ => by rw [h], fun _ => by rw [h, hnone], nofun⟩

theorem storesOnly_set {t : SessionManager} {info' : StreamInfo} (h : t.sources = s.sources)
    (hid : info'.sessionId = info.sessionId) (hver : info'.sessionVersion = info.sessionVersion) :
    StoresOnly source info s .ok (t.setSource source.id info') :=
  ⟨fun id hne => by rw [setSource, SortedMap.find?_insert_of_ne _ _ hne, h],
    fun hne => absurd rfl hne, fun _ => ⟨info', SortedMap.find?_insert_self .., hid, hver⟩⟩

theorem sources_dropSource (old : StreamInfo) :
    (s.dropSource host env old).sources = s.sources := by
  rw [dropSource]
  split <;> rfl

theorem storesOnly_registerSource (hit : it = none → s.sources.find? source.id = none)
    (h : registerSource host env source info it s = some (ret, s')) :
    StoresOnly source info s ret s' := by
  cases registerSource_cases h with
  | placed | single | dual => exact storesOnly_set rfl rfl rfl
  | undone => exact storesOnly_erase rfl
  | refused =>
      split
      · exact storesOnly_erase rfl
      next hnone => exact storesOnly_kept rfl (hit (by simpa using hnone))

/-- **What `add_source` does under the lock.** -/
theorem storeSource_spec (h : storeSource host env source info s = some (ret, s')) :
    s'.outside = s.outside ∧ s'.gSessionVersion = s.gSessionVersion ∧
      StoresOnly source info s ret s' := by
  rw [storeSource] at h
  split at h
  next old _ =>
    obtain ⟨hout, hver⟩ := outside_registerSource h
    obtain ⟨hdout, hdver⟩ : (s.dropSource host env old).outside = s.outside ∧
        (s.dropSource host env old).gSessionVersion = s.gSessionVersion := outside_dropSource old
    have hit : some old = none → (s.dropSource host env old).sources.find? source.id = none := nofun
    obtain ⟨hothers, hfailed, hstored⟩ := storesOnly_registerSource hit h
    refine ⟨hout.trans hdout, hver.trans hdver, fun id hid => ?_, hfailed, hstored⟩
    rw [hothers id hid, sources_dropSource]
  next hnone =>
    split at h
    · simp only [Option.some.injEq, Prod.mk.injEq] at h
      obtain ⟨rfl, rfl⟩ := h
      exact ⟨rfl, rfl, storesOnly_kept rfl hnone⟩
    · obtain ⟨hout, hver⟩ := outside_registerSource h
      exact ⟨hout, hver, storesOnly_registerSource (fun _ => hnone) h⟩

variable (host env s) in
/-- A removal takes at most its source out. -/
theorem find?_removeSource (id : UInt32) (id' : UInt8) :
    (s.removeSource host env id).2.sources.find? id' = s.sources.find? id' ∨
      (s.removeSource host env id).2.sources.find? id' = none := by
  have herase : ∀ t : SessionManager, t.sources = s.sources →
      (t.eraseSource id.toUInt8).sources.find? id' = s.sources.find? id' ∨
        (t.eraseSource id.toUInt8).sources.find? id' = none := by
    intro t ht
    rw [eraseSource, SortedMap.find?_erase, ht]
    split
    · exact .inr rfl
    · exact .inl rfl
  rw [removeSource]
  split
  · exact .inl rfl
  · split
    · exact .inl rfl
    · split
      · split
        · exact .inl rfl
        · exact herase _ rfl
      · exact herase _ rfl

end SessionManager

/-! ## Any order of the halves -/

/-- A call of `add_source` that has a version and waits for the lock. -/
structure Allocated where
  env : Env
  source : StreamSource
  info : StreamInfo
  /-- No update of the sources was under way at the allocation. -/
  quiet : Bool
  /-- How many versions of the source had been stored at the allocation. -/
  seen : ℕ

/-- The session manager, the calls under way, and the versions stored. -/
structure Concurrent where
  manager : SessionManager
  /-- The waiting call of each thread. -/
  allocated : ℕ → Option Allocated := fun _ => none
  /-- `on_update_sources` has released the lock and has not counted yet. -/
  updating : Bool := false
  /-- The versions stored for each id, newest first. -/
  versions : UInt8 → List UInt32 := fun _ => []

/-- One step of one thread. -/
inductive ConcurrentStep
  | allocate (t : ℕ) (env : Env) (source : StreamSource)
  | store (t : ℕ)
  | remove (env : Env) (id : UInt32)
  | bump (env : Env)
  | count

namespace Concurrent

/-- The versions stored when the sources are updated. -/
def bumped (s : Concurrent) (id : UInt8) : List UInt32 :=
  match s.manager.sources.find? id with
  | some info => (SessionManager.bump s.manager.updateSourceObservers info).sessionVersion :: s.versions id
  | none => s.versions id

/-- One step; the worker, which updates the sources, is one thread.  A call that
gets no version leaves nothing behind. -/
def occur (host : Host) (s : Concurrent) : ConcurrentStep → Option Concurrent
  | .allocate t env source =>
      if (s.allocated t).isSome then none
      else match s.manager.allocateSource host env source with
        | (.error _, m) => some { s with manager := m }
        | (.ok info, m) =>
          let a := { env, source, info, quiet := !s.updating, seen := (s.versions source.id).length }
          some { s with manager := m, allocated := Function.update s.allocated t (some a) }
  | .store t =>
      match s.allocated t with
      | none => none
      | some a => (s.manager.storeSource host a.env a.source a.info).map fun p =>
          { s with manager := p.2
                   allocated := Function.update s.allocated t none
                   versions :=
                    if p.1 = .ok then
                      Function.update s.versions a.source.id
                        (a.info.sessionVersion :: s.versions a.source.id)
                    else s.versions }
  | .remove env id => some { s with manager := (s.manager.removeSource host env id).2 }
  | .bump env =>
      if s.updating then none
      else some { s with manager := s.manager.bumpSources host env
                         updating := true
                         versions := s.bumped }
  | .count =>
      if s.updating then some { s with manager := s.manager.countVersion, updating := false }
      else none

end Concurrent

namespace ConcurrentStep

/-- A version of a source is stored in order: it was allocated while no update of
the sources was under way, and no version of the source has been stored since. -/
def Orderly (id : UInt8) (s : Concurrent) : ConcurrentStep → Prop
  | .store t => ∀ a, s.allocated t = some a → a.source.id = id →
      a.quiet = true ∧ a.seen = (s.versions id).length
  | _ => True

instance (id : UInt8) (s : Concurrent) : (e : ConcurrentStep) → Decidable (e.Orderly id s)
  | .store t => inferInstanceAs (Decidable (∀ a ∈ s.allocated t, _ → _))
  | .allocate .. | .remove .. | .bump _ | .count => isTrue trivial

/-- The sum of the session id and the counter does not wrap. -/
def Fits (host : Host) (id : UInt8) (s : Concurrent) (e : ConcurrentStep) : Prop :=
  ∀ s', s.occur host e = some s' → s'.manager.gSessionVersion ≠ s.manager.gSessionVersion →
    (host.config.sessionId id).toNat + s.manager.gSessionVersion.toNat + 1 < 2 ^ 32

instance (host : Host) (id : UInt8) (s : Concurrent) (e : ConcurrentStep) :
    Decidable (e.Fits host id s) :=
  inferInstanceAs (Decidable (∀ s' ∈ s.occur host e, _ → _))

end ConcurrentStep

namespace Concurrent
variable {host : Host} {id : UInt8} {s s' : Concurrent} {e : ConcurrentStep}

/-- The counter is ahead of the versions stored, and of those that are waiting. -/
structure Ahead (host : Host) (id : UInt8) (s : Concurrent) : Prop where
  observers : s.manager.updateSourceObservers = 1
  fits : (host.config.sessionId id).toNat + s.manager.gSessionVersion.toNat < 2 ^ 32
  increasing : (s.versions id).Pairwise (· > ·)
  /-- While an update is under way the counter may be level with a version. -/
  counted : ∀ v ∈ s.versions id, v.toNat + (if s.updating then 0 else 1) ≤
    (host.config.sessionId id).toNat + s.manager.gSessionVersion.toNat
  current : ∀ info, s.manager.sources.find? id = some info →
    (s.versions id).head? = some info.sessionVersion
  waiting : ∀ t a, s.allocated t = some a → a.source.id = id →
    a.info.sessionVersion.toNat <
        (host.config.sessionId id).toNat + s.manager.gSessionVersion.toNat ∧
      a.seen ≤ (s.versions id).length ∧
      (a.quiet = true → a.seen = (s.versions id).length →
        ∀ v ∈ s.versions id, v < a.info.sessionVersion)

/-- What a step does. -/
theorem occur_cases (h : s.occur host e = some s') :
    (s'.manager = s.manager ∧ s'.allocated = s.allocated ∧ s'.updating = s.updating ∧
      s'.versions = s.versions) ∨
    (∃ t env source info, e = .allocate t env source ∧
      info.sessionId = host.config.sessionId source.id ∧
      info.sessionVersion = host.config.sessionId source.id + s.manager.gSessionVersion ∧
      s' = { s with
        manager := s.manager.countVersion
        allocated := Function.update s.allocated t (some
          { env, source, info, quiet := !s.updating, seen := (s.versions source.id).length }) }) ∨
    (∃ t a ret m, e = .store t ∧ s.allocated t = some a ∧
      s.manager.storeSource host a.env a.source a.info = some (ret, m) ∧
      s' = { s with
        manager := m
        allocated := Function.update s.allocated t none
        versions :=
          if ret = .ok then
            Function.update s.versions a.source.id
              (a.info.sessionVersion :: s.versions a.source.id)
          else s.versions }) ∨
    (∃ env id, e = .remove env id ∧
      s' = { s with manager := (s.manager.removeSource host env id).2 }) ∨
    (∃ env, e = .bump env ∧ s.updating = false ∧
      s' = { s with manager := s.manager.bumpSources host env, updating := true, versions := s.bumped }) ∨
    (e = .count ∧ s.updating = true ∧
      s' = { s with manager := s.manager.countVersion, updating := false }) := by
  cases e with
  | allocate t env source =>
      rw [occur] at h
      split at h
      · cases h
      · rcases s.manager.allocateSource_cases host env source with ⟨e, he⟩ | ⟨info, hi, hsid, hver⟩
        · rw [he] at h
          obtain rfl := Option.some.inj h
          exact .inl ⟨rfl, rfl, rfl, rfl⟩
        · rw [hi] at h
          exact .inr (.inl ⟨t, env, source, info, rfl, hsid, hver, (Option.some.inj h).symm⟩)
  | store t =>
      rw [occur] at h
      split at h
      · cases h
      next a ha =>
        obtain ⟨⟨ret, m⟩, hstore, rfl⟩ := Option.map_eq_some_iff.mp h
        exact .inr (.inr (.inl ⟨t, a, ret, m, rfl, ha, hstore, rfl⟩))
  | remove env id => exact .inr (.inr (.inr (.inl ⟨env, id, rfl, (Option.some.inj h).symm⟩)))
  | bump env =>
      rw [occur] at h
      split at h
      · cases h
      next hidle =>
        exact .inr (.inr (.inr (.inr (.inl ⟨env, rfl, by simpa using hidle,
          (Option.some.inj h).symm⟩))))
  | count =>
      rw [occur] at h
      split at h
      next hupdating =>
        exact .inr (.inr (.inr (.inr (.inr ⟨rfl, hupdating, (Option.some.inj h).symm⟩))))
      · cases h

theorem toNat_add_one {a : UInt32} (h : a.toNat + 1 < 2 ^ 32) : (a + 1).toNat = a.toNat + 1 := by
  rw [UInt32.toNat_add, show (1 : UInt32).toNat = 1 from rfl, Nat.mod_eq_of_lt h]

theorem add_one_ne (a : UInt32) : a + 1 ≠ a := by
  intro h
  have hlt := a.toNat_lt
  have hval := congrArg UInt32.toNat h
  rw [UInt32.toNat_add, show (1 : UInt32).toNat = 1 from rfl] at hval
  omega

/-- What does not touch the versions of a source. -/
theorem Ahead.of_same (H : s.Ahead host id)
    (hobs : s'.manager.updateSourceObservers = s.manager.updateSourceObservers)
    (hg : s'.manager.gSessionVersion = s.manager.gSessionVersion)
    (hversions : s'.versions id = s.versions id)
    (hupdating : s.updating = true → s'.updating = true)
    (hfind : ∀ info, s'.manager.sources.find? id = some info →
      s.manager.sources.find? id = some info)
    (hallocated : ∀ t a, s'.allocated t = some a → s.allocated t = some a) :
    s'.Ahead host id where
  observers := hobs.trans H.observers
  fits := by rw [hg]; exact H.fits
  increasing := by rw [hversions]; exact H.increasing
  counted := by
    intro v hv
    rw [hversions] at hv
    have hle := H.counted v hv
    rw [hg]
    by_cases hu : s.updating = true
    · rw [if_pos hu] at hle
      rwa [if_pos (hupdating hu)]
    · rw [if_neg hu] at hle
      split <;> omega
  current info hinfo := by rw [hversions]; exact H.current info (hfind info hinfo)
  waiting t a ha hid := by rw [hversions, hg]; exact H.waiting t a (hallocated t a ha) hid

theorem ahead_allocate {t : ℕ} {env : Env} {source : StreamSource} {info : StreamInfo}
    (H : s.Ahead host id)
    (hfits : (host.config.sessionId id).toNat + s.manager.gSessionVersion.toNat + 1 < 2 ^ 32)
    (hver : info.sessionVersion = host.config.sessionId source.id + s.manager.gSessionVersion) :
    Ahead host id { s with
      manager := s.manager.countVersion
      allocated := Function.update s.allocated t (some
        { env, source, info, quiet := !s.updating, seen := (s.versions source.id).length }) } := by
  have hcount : s.manager.countVersion.gSessionVersion.toNat =
      s.manager.gSessionVersion.toNat + 1 := toNat_add_one (by omega)
  refine ⟨H.observers, ?_, H.increasing, fun v hv => ?_, H.current, fun t' a ha hid => ?_⟩
  · rw [hcount]
    omega
  · have hle := H.counted v hv
    dsimp only at hle ⊢
    rw [hcount]
    omega
  · dsimp only at ha ⊢
    rw [hcount]
    by_cases ht : t' = t
    · subst ht
      rw [Function.update_self] at ha
      obtain rfl := Option.some.inj ha
      obtain rfl : source.id = id := hid
      have hvalue : info.sessionVersion.toNat =
          (host.config.sessionId source.id).toNat + s.manager.gSessionVersion.toNat := by
        rw [hver, UInt32.toNat_add, Nat.mod_eq_of_lt H.fits]
      refine ⟨by dsimp only; omega, le_refl _, fun hquiet _ v hv => ?_⟩
      have hidle : s.updating = false := by simpa using hquiet
      have hle := H.counted v hv
      rw [hidle, if_neg (by simp)] at hle
      rw [UInt32.lt_iff_toNat_lt]
      dsimp only
      omega
    · rw [Function.update_of_ne ht] at ha
      obtain ⟨hlt, hseen, hnewer⟩ := H.waiting t' a ha hid
      exact ⟨by omega, hseen, hnewer⟩

/-- A call that waits after another one has stored was waiting before. -/
theorem waiting_of_stored {calls : ℕ → Option Allocated} {t t' : ℕ} {a : Allocated}
    (h : Function.update calls t none t' = some a) : calls t' = some a := by
  by_cases ht : t' = t
  · subst ht
    rw [Function.update_self] at h
    cases h
  · rwa [Function.update_of_ne ht] at h

/-- A version that is stored in order is the greatest one. -/
theorem ahead_push {t : ℕ} {a : Allocated} {m : SessionManager} {versions : UInt8 → List UInt32}
    (H : s.Ahead host a.source.id) (ha : s.allocated t = some a) (hquiet : a.quiet = true)
    (hseen : a.seen = (s.versions a.source.id).length) (hobs : m.updateSourceObservers = 1)
    (hg : m.gSessionVersion = s.manager.gSessionVersion)
    (hversions : versions a.source.id = a.info.sessionVersion :: s.versions a.source.id)
    (hstored : ∃ info, m.sources.find? a.source.id = some info ∧
      info.sessionVersion = a.info.sessionVersion) :
    Ahead host a.source.id { s with
      manager := m
      allocated := Function.update s.allocated t none
      versions := versions } := by
  obtain ⟨hlt, -, hnewer⟩ := H.waiting t a ha rfl
  refine ⟨hobs, by rw [hg]; exact H.fits, ?_, ?_, fun info hinfo => ?_, fun t' a' ha' hid => ?_⟩
  · dsimp only
    rw [hversions]
    exact List.pairwise_cons.mpr ⟨hnewer hquiet hseen, H.increasing⟩
  · dsimp only
    rw [hversions, hg]
    refine List.forall_mem_cons.mpr ⟨?_, H.counted⟩
    split <;> omega
  · dsimp only
    rw [hversions]
    obtain ⟨info', hfind, hver⟩ := hstored
    obtain rfl := Option.some.inj (hfind.symm.trans hinfo)
    rw [List.head?_cons, hver]
  · dsimp only
    rw [hversions, hg]
    obtain ⟨hlt', hseen', -⟩ := H.waiting t' a' (waiting_of_stored ha') hid
    refine ⟨hlt', ?_, fun _ hsame => ?_⟩
    · rw [List.length_cons]
      omega
    · rw [List.length_cons] at hsame
      omega

theorem ahead_store {t : ℕ} {a : Allocated} {ret : Ret} {m : SessionManager}
    (H : s.Ahead host id) (ha : s.allocated t = some a)
    (horder : a.source.id = id → a.quiet = true ∧ a.seen = (s.versions id).length)
    (hstore : s.manager.storeSource host a.env a.source a.info = some (ret, m)) :
    Ahead host id { s with
      manager := m
      allocated := Function.update s.allocated t none
      versions :=
        if ret = .ok then
          Function.update s.versions a.source.id
            (a.info.sessionVersion :: s.versions a.source.id)
        else s.versions } := by
  obtain ⟨hout, hg, hothers, hfailed, hstored⟩ := SessionManager.storeSource_spec hstore
  have hobs : m.updateSourceObservers = 1 :=
    (congrArg SessionManager.Outside.updateSourceObservers hout).trans H.observers
  by_cases hnew : ret = .ok ∧ a.source.id = id
  · obtain ⟨rfl, rfl⟩ := hnew
    obtain ⟨hquiet, hseen⟩ := horder rfl
    obtain ⟨info, hfind, -, hver⟩ := hstored rfl
    exact ahead_push H ha hquiet hseen hobs hg (by rw [if_pos rfl, Function.update_self])
      ⟨info, hfind, hver⟩
  · have hversions : (if ret = .ok then Function.update s.versions a.source.id
        (a.info.sessionVersion :: s.versions a.source.id) else s.versions) id = s.versions id := by
      split
      next hok => exact Function.update_of_ne (fun hid => hnew ⟨hok, hid.symm⟩) ..
      next => rfl
    refine H.of_same (hobs.trans H.observers.symm) hg hversions (fun hu => hu) (fun info hinfo => ?_)
      fun _ _ => waiting_of_stored
    by_cases hid : id = a.source.id
    · subst hid
      have hnone := hfailed fun hok => hnew ⟨hok, rfl⟩
      cases hnone.symm.trans hinfo
    · exact (hothers id hid).symm.trans hinfo

theorem ahead_remove {env : Env} {id' : UInt32} (H : s.Ahead host id) :
    Ahead host id { s with manager := (s.manager.removeSource host env id').2 } := by
  obtain ⟨hout, hg⟩ := SessionManager.outside_removeSource host env s.manager id'
  have hobs := congrArg SessionManager.Outside.updateSourceObservers hout
  refine H.of_same hobs hg rfl (fun hu => hu) (fun info hinfo => ?_) fun _ _ ha => ha
  rcases SessionManager.find?_removeSource host env s.manager id' id with
    hsame | hnone
  · exact hsame.symm.trans hinfo
  · cases hnone.symm.trans hinfo

/-- The newest version is the greatest one. -/
theorem Ahead.le_current {info : StreamInfo} (H : s.Ahead host id)
    (hf : s.manager.sources.find? id = some info) :
    info.sessionVersion ∈ s.versions id ∧ ∀ v ∈ s.versions id, v ≤ info.sessionVersion := by
  have hhead := H.current info hf
  have hinc := H.increasing
  cases hv : s.versions id with
  | nil =>
      rw [hv] at hhead
      cases hhead
  | cons w ws =>
      rw [hv] at hhead hinc
      obtain rfl : w = info.sessionVersion := Option.some.inj hhead
      exact ⟨List.mem_cons_self, List.forall_mem_cons.mpr
        ⟨le_refl _, fun v hmem => le_of_lt ((List.pairwise_cons.mp hinc).1 v hmem)⟩⟩

theorem ahead_bump {env : Env} (H : s.Ahead host id) (hidle : s.updating = false) :
    Ahead host id { s with
      manager := s.manager.bumpSources host env, updating := true, versions := s.bumped } := by
  have hcounted : ∀ v ∈ s.versions id, v.toNat + 1 ≤
      (host.config.sessionId id).toNat + s.manager.gSessionVersion.toNat := by
    intro v hv
    have hle := H.counted v hv
    rwa [hidle, if_neg (by simp)] at hle
  have hfind : (s.manager.bumpSources host env).sources.find? id =
      (s.manager.sources.find? id).map (SessionManager.bump s.manager.updateSourceObservers) :=
    SortedMap.find?_mapVal ..
  cases hf : s.manager.sources.find? id with
  | none =>
      have hsame : s.bumped id = s.versions id := by rw [bumped, hf]
      refine H.of_same rfl rfl hsame (fun _ => rfl) (fun info hinfo => ?_) fun _ _ ha => ha
      rw [hf] at hfind
      cases hfind.symm.trans hinfo
  | some info =>
      have hnew : s.bumped id = (info.sessionVersion + 1) :: s.versions id := by
        simp only [bumped, hf, H.observers, SessionManager.bump]
        rfl
      obtain ⟨hmem, hle⟩ := H.le_current hf
      have hbound := hcounted _ hmem
      have hfits := H.fits
      have hvalue : (info.sessionVersion + 1).toNat = info.sessionVersion.toNat + 1 :=
        toNat_add_one (by omega)
      refine ⟨H.observers, H.fits, ?_, ?_, fun info' hinfo => ?_, fun t a ha hid => ?_⟩
      · dsimp only
        rw [hnew]
        refine List.pairwise_cons.mpr ⟨fun v hv => ?_, H.increasing⟩
        have hv := hle v hv
        rw [UInt32.le_iff_toNat_le] at hv
        rw [gt_iff_lt, UInt32.lt_iff_toNat_lt]
        omega
      · dsimp only
        rw [hnew]
        refine List.forall_mem_cons.mpr ⟨?_, fun v hv => le_of_lt (hcounted v hv)⟩
        rw [if_pos rfl, hvalue]
        exact hbound
      · dsimp only
        rw [hnew]
        rw [hf, H.observers] at hfind
        obtain rfl := Option.some.inj (hfind.symm.trans hinfo)
        rfl
      · dsimp only
        rw [hnew, List.length_cons]
        obtain ⟨hlt, hseen, -⟩ := H.waiting t a ha hid
        exact ⟨hlt, by omega, fun _ hsame => by omega⟩

theorem ahead_count (H : s.Ahead host id)
    (hfits : (host.config.sessionId id).toNat + s.manager.gSessionVersion.toNat + 1 < 2 ^ 32) :
    Ahead host id { s with manager := s.manager.countVersion, updating := false } := by
  have hcount : s.manager.countVersion.gSessionVersion.toNat =
      s.manager.gSessionVersion.toNat + 1 := toNat_add_one (by omega)
  refine ⟨H.observers, ?_, H.increasing, fun v hv => ?_, H.current, fun t a ha hid => ?_⟩
  · rw [hcount]
    omega
  · have hle := H.counted v hv
    dsimp only
    rw [hcount, if_neg (by simp)]
    split at hle <;> omega
  · dsimp only
    rw [hcount]
    obtain ⟨hlt, hrest⟩ := H.waiting t a ha hid
    exact ⟨by omega, hrest⟩

/-- **One step**: versions stored in order stay behind the counter. -/
theorem ahead_occur (H : s.Ahead host id) (hstep : e.Fits host id s ∧ e.Orderly id s)
    (h : s.occur host e = some s') : s'.Ahead host id := by
  have hfits := hstep.1 s' h
  rcases occur_cases h with ⟨hm, ha, hu, hv⟩ | ⟨t, env, source, info, rfl, -, hver, rfl⟩ |
    ⟨t, a, ret, m, rfl, ha, hstore, rfl⟩ | ⟨env, id', rfl, rfl⟩ | ⟨env, rfl, hidle, rfl⟩ |
    ⟨rfl, -, rfl⟩
  · exact H.of_same (by rw [hm]) (by rw [hm]) (by rw [hv]) (fun hupd => hu.trans hupd)
      (fun info hinfo => by rwa [hm] at hinfo) fun t a hwait => by rwa [ha] at hwait
  · exact ahead_allocate H (hfits (add_one_ne _)) hver
  · exact ahead_store H ha (hstep.2 a ha) hstore
  · exact ahead_remove H
  · exact ahead_bump H hidle
  · exact ahead_count H (hfits (add_one_ne _))

/-! ## Session ids -/

/-- Sources have the session ids of their ids, and so have the waiting calls. -/
structure Identified (host : Host) (s : Concurrent) : Prop where
  stored : ∀ id info, s.manager.sources.find? id = some info →
    info.sessionId = host.config.sessionId id
  waiting : ∀ t a, s.allocated t = some a → a.info.sessionId = host.config.sessionId a.source.id

theorem identified_occur (H : s.Identified host) (h : s.occur host e = some s') :
    s'.Identified host := by
  rcases occur_cases h with ⟨hm, ha, -, -⟩ | ⟨t, env, source, info, rfl, hsid, -, rfl⟩ |
    ⟨t, a, ret, m, rfl, ha, hstore, rfl⟩ | ⟨env, id', rfl, rfl⟩ | ⟨env, rfl, -, rfl⟩ |
    ⟨rfl, -, rfl⟩
  · exact ⟨by rw [hm]; exact H.stored, by rw [ha]; exact H.waiting⟩
  · refine ⟨H.stored, fun t' a ha => ?_⟩
    dsimp only at ha
    by_cases ht : t' = t
    · subst ht
      rw [Function.update_self] at ha
      obtain rfl := Option.some.inj ha
      exact hsid
    · rw [Function.update_of_ne ht] at ha
      exact H.waiting t' a ha
  · obtain ⟨-, -, hothers, hfailed, hstored⟩ := SessionManager.storeSource_spec hstore
    refine ⟨fun id info hf => ?_, fun t' a' ha' => ?_⟩
    · by_cases hid : id = a.source.id
      · subst hid
        by_cases hok : ret = .ok
        · obtain ⟨info', hinfo', hsid, -⟩ := hstored hok
          obtain rfl := Option.some.inj (hinfo'.symm.trans hf)
          rw [hsid, H.waiting t a ha]
        · cases (hfailed hok).symm.trans hf
      · exact H.stored id info ((hothers id hid).symm.trans hf)
    · exact H.waiting t' a' (waiting_of_stored ha')
  · refine ⟨fun id info hf => ?_, H.waiting⟩
    rcases SessionManager.find?_removeSource host env s.manager id' id
      with hsame | hnone
    · exact H.stored id info (hsame.symm.trans hf)
    · cases hnone.symm.trans hf
  · refine ⟨fun id info hf => ?_, H.waiting⟩
    have hfind : (s.manager.bumpSources host env).sources.find? id =
        (s.manager.sources.find? id).map (SessionManager.bump s.manager.updateSourceObservers) :=
      SortedMap.find?_mapVal ..
    obtain ⟨old, hold, rfl⟩ := Option.map_eq_some_iff.mp (hfind.symm.trans hf)
    exact H.stored id old hold
  · exact ⟨H.stored, H.waiting⟩

/-- The session ids of one host are apart. -/
theorem sessionId_inj (c : Config) {id id' : UInt8} (h : c.sessionId id = c.sessionId id') :
    id = id' := by
  have h32 : id.toUInt32 = id'.toUInt32 := (UInt32.add_right_inj _).mp h
  have hval := congrArg UInt32.toNat h32
  rw [UInt8.toNat_toUInt32, UInt8.toNat_toUInt32] at hval
  exact UInt8.toNat_inj.mp hval

/-! ## Runs -/

/-- The worker has started, and no call is under way. -/
def start (host : Host) (env : Env) (now : ℕ) : Concurrent :=
  { manager := SessionManager.start host env now }

theorem find?_start (host : Host) (env : Env) (now : ℕ) (id : UInt8) :
    (start host env now).manager.sources.find? id = none := SortedMap.find?_empty id

theorem allocated_start (host : Host) (env : Env) (now t : ℕ) :
    (start host env now).allocated t = none := rfl

theorem ahead_start {env : Env} {now : ℕ}
    (hfits : (host.config.sessionId id).toNat + (UInt32.ofNat now).toNat < 2 ^ 32) :
    (start host env now).Ahead host id where
  observers := rfl
  fits := hfits
  increasing := .nil
  counted _ hv := by cases hv
  current _ hf := by
    rw [find?_start] at hf
    cases hf
  waiting t _ ha := by
    rw [allocated_start] at ha
    cases ha

theorem identified_start {env : Env} {now : ℕ} : (start host env now).Identified host where
  stored id _ hf := by
    rw [find?_start] at hf
    cases hf
  waiting t _ ha := by
    rw [allocated_start] at ha
    cases ha

/-- **Versions only move forward**: in every run in which the versions of a source
are stored in order, they increase, as long as the sum of its session id and the
counter does not wrap; and different sources have different session ids. -/
theorem versions_increase (host : Host) (env : Env) (now : ℕ) (id : UInt8)
    {es : List ConcurrentStep}
    (hstart : (host.config.sessionId id).toNat + (UInt32.ofNat now).toNat < 2 ^ 32)
    (hfits : Along (occur host) (fun s e => e.Fits host id s) (start host env now) es)
    (horder : Along (occur host) (fun s e => e.Orderly id s) (start host env now) es)
    (hrun : run (occur host) (start host env now) es = some s) :
    (s.versions id).Pairwise (· > ·) ∧
      ∀ id₁ id₂ info₁ info₂, s.manager.sources.find? id₁ = some info₁ →
        s.manager.sources.find? id₂ = some info₂ → id₁ ≠ id₂ →
        info₁.sessionId ≠ info₂.sessionId := by
  have hahead : s.Ahead host id := run_keeps (fun _ _ _ => ahead_occur) (ahead_start hstart)
    (hfits.and horder) hrun
  have hany : Along (occur host) (fun _ _ => True) (start host env now) es :=
    horder.imp fun _ _ _ => trivial
  have hids : s.Identified host :=
    run_keeps (fun _ _ _ H _ h => identified_occur H h) identified_start hany hrun
  refine ⟨hahead.increasing, fun id₁ id₂ info₁ info₂ h₁ h₂ hne heq => hne ?_⟩
  rw [hids.stored _ _ h₁, hids.stored _ _ h₂] at heq
  exact sessionId_inj _ heq

/-- A source is added, updated, removed and added again. -/
theorem versions_increase_again : ∃ s, run (occur {}) (start {} {} 0)
    [.allocate 0 (.answering none (.ok 7) (.error (.driver 1))) (stereoSource 1 "a".toList),
      .store 0, .bump {}, .count, .remove {} 1,
      .allocate 1 (.answering none (.ok 8) (.error (.driver 1))) (stereoSource 1 "b".toList),
      .store 1] = some s ∧
    (s.versions 1).length = 3 ∧ (s.versions 1).Pairwise (· > ·) := by
  have hrun : (run (occur {}) (start {} {} 0)
      [.allocate 0 (.answering none (.ok 7) (.error (.driver 1))) (stereoSource 1 "a".toList),
        .store 0, .bump {}, .count, .remove {} 1,
        .allocate 1 (.answering none (.ok 8) (.error (.driver 1))) (stereoSource 1 "b".toList),
        .store 1]).map (fun s => (s.versions 1).length) = some 3 := by decide +kernel
  obtain ⟨s, hs, hlength⟩ := Option.map_eq_some_iff.mp hrun
  exact ⟨s, hs, hlength, (versions_increase {} {} 0 1 (by decide +kernel) (by decide +kernel)
    (by decide +kernel) hs).1⟩

/-- A run without a wrap in which the stored versions of source 1 do not increase. -/
def Stale (es : List ConcurrentStep) : Prop :=
  Along (occur {}) (fun s e => e.Fits {} 1 s) (start {} {} 0) es ∧
    ∃ s, run (occur {}) (start {} {} 0) es = some s ∧ ¬ (s.versions 1).Pairwise (· > ·)

/-- Two calls store their versions in the other order; an update comes between the
allocation of a version and its storage; a version is allocated between the two
halves of an update. -/
theorem versions_stale :
    Stale [.allocate 0 {} { id := 1, name := "a".toList },
      .allocate 1 {} { id := 1, name := "a".toList }, .store 1, .store 0] ∧
    Stale [.allocate 0 {} { id := 1, name := "a".toList }, .store 0,
      .allocate 1 {} { id := 1, name := "a".toList }, .bump {}, .count, .store 1] ∧
    Stale [.allocate 0 {} { id := 1, name := "a".toList }, .store 0, .bump {},
      .allocate 1 {} { id := 1, name := "a".toList }, .count, .store 1] :=
  ⟨⟨by decide +kernel, exists_run_not (by decide +kernel)⟩,
    ⟨by decide +kernel, exists_run_not (by decide +kernel)⟩,
    ⟨by decide +kernel, exists_run_not (by decide +kernel)⟩⟩

end Concurrent
end Aes67Daemon
