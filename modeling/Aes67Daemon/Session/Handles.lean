import Aes67Daemon.Lib.Index
import Aes67Daemon.Session.Prepared
import Mathlib.Tactic.FinCases

/-!
# Who holds which handle

The driver registers a record under a handle, and the record says which leg of
which stream it is.  The tables say which handle a leg has.  The two are inverse
to each other: this is an `Indexes`, with the driver as the index and the tables
as the naming.

## Main definitions

* `Books.held`, `Books.holder` — the handle of a leg; the leg behind a handle.
* `Books.HandlesOwned` — the invariant.
* `sourceHandles_owned`, `sinkHandles_owned` — what it says of a run.
-/
namespace Aes67Daemon

/-- The removals the driver is asked for succeed. -/
structure Replies.RemovalsSucceed (rep : Replies) : Prop where
  dropFirst : rep.dropFirst = none
  dropSecond : rep.dropSecond = none
  rollback : rep.rollback = none

/-- The handle of one leg of a stored stream, if that leg is registered. -/
def Kind.handle? (k : Kind) (info : StreamInfo) (leg : Fin 2) : Option Handle :=
  if k.live info then
    match leg with
    | 0 => some info.handle.leg0
    | 1 => if info.st20227Enabled then some info.handle.leg1 else none
  else none

section
variable {k : Kind} {info : StreamInfo} {leg1 : TRTPStreamInfo} {h0 h1 : Handle}

theorem Kind.handle?_single_zero (h : k.live info = true) :
    k.handle? (info.single h0) 0 = some h0 := by
  cases k <;> simp_all [handle?, live, StreamInfo.single]

theorem Kind.handle?_single_one : k.handle? (info.single h0) 1 = none := by
  simp [handle?, StreamInfo.single]

theorem Kind.handle?_dual_zero (h : k.live info = true) :
    k.handle? (info.dual leg1 h0 h1) 0 = some h0 := by
  cases k <;> simp_all [handle?, live, StreamInfo.dual]

theorem Kind.handle?_dual_one (h : k.live info = true) :
    k.handle? (info.dual leg1 h0 h1) 1 = some h1 := by
  cases k <;> simp_all [handle?, live, StreamInfo.dual]

end

namespace Books

/-- The handle of a leg, according to a family of tables. -/
def heldIn (table : Kind → SortedMap UInt8 StreamInfo) (t : Slot) : Option Handle :=
  ((table t.kind).find? t.id).bind fun info => t.kind.handle? info t.leg

/-- The handle of a leg. -/
def held (b : Books) : Slot → Option Handle := heldIn b.table

/-- The leg registered under a handle, according to the driver's records. -/
def holderIn (d : Driver) (h : Handle) : Option Slot :=
  (d.registered.find? h).map TRTPStreamInfo.slot

/-- The leg registered under a handle. -/
def holder (b : Books) : Handle → Option Slot := holderIn b.driver

/-- The driver has exactly the handles of the stored legs registered, each for
the leg that has it, and was never asked for any other. -/
structure HandlesOwned (b : Books) : Prop where
  indexes : Indexes b.holder b.held
  noStray : b.driver.strayRemovals = []

/-! ## Tables -/

variable {table : Kind → SortedMap UInt8 StreamInfo} {k : Kind} {id : UInt8} {info : StreamInfo}

theorem heldIn_erase :
    heldIn (Function.update table k ((table k).erase id)) =
      Function.update (Function.update (heldIn table) ⟨k, id, 0⟩ none) ⟨k, id, 1⟩ none := by
  funext t
  obtain ⟨k', id', leg⟩ := t
  by_cases hk : k' = k
  · subst hk
    by_cases hid : id' = id
    · subst hid
      fin_cases leg <;> simp [heldIn]
    · simp [heldIn, SortedMap.find?_erase, hid]
  · simp [heldIn, hk]

theorem heldIn_insert :
    heldIn (Function.update table k ((table k).insert id info)) =
      Function.update (Function.update (heldIn table) ⟨k, id, 0⟩ (k.handle? info 0)) ⟨k, id, 1⟩
        (k.handle? info 1) := by
  funext t
  obtain ⟨k', id', leg⟩ := t
  by_cases hk : k' = k
  · subst hk
    by_cases hid : id' = id
    · subst hid
      fin_cases leg <;> simp [heldIn]
    · simp [heldIn, SortedMap.find?_insert, hid]
  · simp [heldIn, hk]

theorem heldIn_of_find? (h : (table k).find? id = some info) (leg : Fin 2) :
    heldIn table ⟨k, id, leg⟩ = k.handle? info leg := by
  simp [heldIn, h]

theorem heldIn_of_absent (h : (table k).find? id = none) (leg : Fin 2) :
    heldIn table ⟨k, id, leg⟩ = none := by
  simp [heldIn, h]

/-! ## The driver -/

theorem holderIn_hold (d : Driver) (h : Handle) (s : TRTPStreamInfo) :
    holderIn (d.hold h s) = Function.update (holderIn d) h (some s.slot) := by
  funext h'
  by_cases hh : h' = h <;>
    simp [holderIn, Driver.hold, SortedMap.find?_insert, hh]

theorem holderIn_of_fresh {d : Driver} {h : Handle} (hf : d.fresh h) : holderIn d h = none := by
  simp [holderIn, hf.2]

/-- A successful removal of a registered handle. -/
theorem removeRtpStream_of_holder {d : Driver} {h : Handle} {t : Slot}
    (hh : holderIn d h = some t) :
    holderIn (d.removeRtpStream none h).2 = Function.update (holderIn d) h none ∧
      (d.removeRtpStream none h).2.strayRemovals = d.strayRemovals := by
  obtain ⟨s, hs, -⟩ := Option.map_eq_some_iff.mp hh
  rw [Driver.removeRtpStream_registered hs]
  refine ⟨?_, rfl⟩
  funext h'
  by_cases hh' : h' = h <;> simp [holderIn, SortedMap.find?_erase, hh']

/-- Removing the handle that was just given out leaves nothing behind. -/
theorem removeRtpStream_hold {d : Driver} {h : Handle} (hf : d.fresh h) (s : TRTPStreamInfo) :
    ((d.hold h s).removeRtpStream none h).2 = d := by
  have hs : (d.hold h s).registered.find? h = some s := SortedMap.find?_insert_self _ _ _
  rw [Driver.removeRtpStream_registered hs]
  simp [Driver.hold, SortedMap.erase_of_find?_none hf.2]

/-! ## Legs come and go -/

/-- Giving up the handle of one leg. -/
theorem indexes_remove {d : Driver} {naming : Slot → Option Handle} {t : Slot} {h : Handle}
    (I : Indexes (holderIn d) naming) (hd : d.strayRemovals = []) (ht : naming t = some h) :
    Indexes (holderIn (d.removeRtpStream none h).2) (Function.update naming t none) ∧
      (d.removeRtpStream none h).2.strayRemovals = [] := by
  obtain ⟨hholder, hstray⟩ := removeRtpStream_of_holder ((I h t).mpr ht)
  rw [hholder, hstray]
  exact ⟨I.forget ht, hd⟩

/-- Registering one leg. -/
theorem indexes_hold {d : Driver} {naming : Slot → Option Handle} {h : Handle}
    {s : TRTPStreamInfo} (I : Indexes (holderIn d) naming) (hf : d.fresh h)
    (ht : naming s.slot = none) :
    Indexes (holderIn (d.hold h s)) (Function.update naming s.slot (some h)) := by
  rw [holderIn_hold]
  exact I.record (holderIn_of_fresh hf) ht

/-! ## Striking and entering -/

variable {host : Host} {env : Env} {b : Books} {name : Text}

/-- Dropping the legs of a stream in use gives up exactly its handles. -/
theorem HandlesOwned.strike (H : b.HandlesOwned) (hr : env.replies.RemovalsSucceed)
    (hfind : (b.table k).find? id = some info) :
    (b.strike host env k id info).HandlesOwned := by
  have hheld : ∀ leg, b.held ⟨k, id, leg⟩ = k.handle? info leg := heldIn_of_find? hfind
  have hstruck : (b.strike host env k id info).held =
      Function.update (Function.update b.held ⟨k, id, 0⟩ none) ⟨k, id, 1⟩ none := heldIn_erase
  by_cases hlive : k.live info = true
  case neg =>
    -- neither leg had a handle
    have hfree : ∀ leg, b.held ⟨k, id, leg⟩ = none := fun leg => by
      simp [hheld, Kind.handle?, hlive]
    have hsame : (b.strike host env k id info).held = b.held := by
      rw [hstruck, (Function.update_eq_self_iff (f := b.held)).mpr (hfree 0).symm,
        Function.update_eq_self_iff.mpr (hfree 1).symm]
    refine ⟨?_, by simpa [Books.strike, hlive] using H.noStray⟩
    rw [hsame]
    simpa [Books.strike, holder, hlive] using H.indexes
  case pos =>
    have h0 : b.held ⟨k, id, 0⟩ = some info.handle.leg0 := by simp [hheld, Kind.handle?, hlive]
    obtain ⟨I, hstray⟩ := indexes_remove H.indexes H.noStray h0
    have h1 : Function.update b.held ⟨k, id, 0⟩ none ⟨k, id, 1⟩ =
        if info.st20227Enabled then some info.handle.leg1 else none := by
      simp [hheld, Kind.handle?, hlive]
    have hdriver : (b.strike host env k id info).driver =
        SessionManager.dropLegs env info b.driver := by simp [Books.strike, hlive]
    have hdrop : Indexes (holderIn (SessionManager.dropLegs env info b.driver))
          (Function.update (Function.update b.held ⟨k, id, 0⟩ none) ⟨k, id, 1⟩ none) ∧
        (SessionManager.dropLegs env info b.driver).strayRemovals = [] := by
      unfold SessionManager.dropLegs
      rw [hr.dropFirst, hr.dropSecond]
      cases hdual : info.st20227Enabled
      · rw [Function.update_eq_self_iff.mpr (h1.trans (by simp [hdual])).symm]
        exact ⟨I, hstray⟩
      · exact indexes_remove I hstray (h1.trans (by simp [hdual]))
    exact ⟨by rw [holder, hdriver, hstruck]; exact hdrop.1, by rw [hdriver]; exact hdrop.2⟩

theorem HandlesOwned.vacate (H : b.HandlesOwned) (hr : env.replies.RemovalsSucceed) :
    (b.vacate host env k id).HandlesOwned := by
  unfold Books.vacate
  split
  · exact H
  · exact H.strike hr ‹_›

/-- Entering a stream gives its two legs their handles. -/
theorem held_enter : (b.enter host env k id name info).held =
    Function.update (Function.update b.held ⟨k, id, 0⟩ (k.handle? info 0)) ⟨k, id, 1⟩
      (k.handle? info 1) := heldIn_insert

/-- Entering a stream that is not in use gives it no handle. -/
theorem HandlesOwned.enter_idle (H : b.HandlesOwned) (habsent : (b.table k).find? id = none)
    (hlive : k.live info = false) : (b.enter host env k id name info).HandlesOwned := by
  have hheld : ∀ leg, b.held ⟨k, id, leg⟩ = none := heldIn_of_absent habsent
  have hfree : ∀ leg, k.handle? info leg = none := fun leg => by simp [Kind.handle?, hlive]
  refine ⟨?_, H.noStray⟩
  rw [held_enter, hfree, hfree, (Function.update_eq_self_iff (f := b.held)).mpr (hheld 0).symm,
    Function.update_eq_self_iff.mpr (hheld 1).symm]
  exact H.indexes

/-- Entering a stream whose primary leg was registered. -/
theorem HandlesOwned.enter_single (H : b.HandlesOwned) (habsent : (b.table k).find? id = none)
    {h0 : Handle} (hf : b.driver.fresh h0) (hslot : info.stream.leg0.slot = ⟨k, id, 0⟩)
    (hlive : k.live info = true) :
    ({ b with driver := b.driver.hold h0 info.stream.leg0 }.enter host env k id name
      (info.single h0)).HandlesOwned := by
  have hheld : ∀ leg, b.held ⟨k, id, leg⟩ = none := heldIn_of_absent habsent
  have I := indexes_hold H.indexes hf (by rw [hslot]; exact hheld 0)
  have hsame : Function.update (Function.update b.held ⟨k, id, 0⟩ (some h0)) ⟨k, id, 1⟩ none =
      Function.update b.held ⟨k, id, 0⟩ (some h0) :=
    Function.update_eq_self_iff.mpr (by simp [hheld])
  refine ⟨?_, H.noStray⟩
  rw [held_enter, Kind.handle?_single_zero hlive, Kind.handle?_single_one]
  rw [hslot, ← hsame] at I
  exact I

/-- Entering a stream both of whose legs were registered. -/
theorem HandlesOwned.enter_dual (H : b.HandlesOwned) (habsent : (b.table k).find? id = none)
    {h0 h1 : Handle} {leg1 : TRTPStreamInfo} (hf : b.driver.fresh h0)
    (hf1 : (b.driver.hold h0 info.stream.leg0).fresh h1)
    (hslot : info.stream.leg0.slot = ⟨k, id, 0⟩) (hslot1 : leg1.slot = ⟨k, id, 1⟩)
    (hlive : k.live info = true) :
    ({ b with driver := (b.driver.hold h0 info.stream.leg0).hold h1 leg1 }.enter host env k id name
      (info.dual leg1 h0 h1)).HandlesOwned := by
  have hheld : ∀ leg, b.held ⟨k, id, leg⟩ = none := heldIn_of_absent habsent
  have I := indexes_hold H.indexes hf (by rw [hslot]; exact hheld 0)
  have h1free : Function.update b.held info.stream.leg0.slot (some h0) leg1.slot = none := by
    simp [hslot, hslot1, hheld]
  have I := indexes_hold I hf1 h1free
  refine ⟨?_, H.noStray⟩
  rw [held_enter, Kind.handle?_dual_zero hlive, Kind.handle?_dual_one hlive, ← hslot, ← hslot1]
  exact I

end Books

/-! ## Requests -/

/-- When the secondary leg is refused, the handle a request removes again is the
one it was given for the primary leg. -/
def Request.RollsBack (host : Host) (s : SessionManager) (r : Request) : Prop :=
  ∀ info h0 leg1, r.LosesSecondLeg host s info h0 leg1 →
    r.undoHandle ((s.books.table r.kind).find? r.id) h0 = some h0

theorem Request.RollsBack.defined {host : Host} {s : SessionManager} {r : Request}
    (h : r.RollsBack host s) : r.Defined host s := fun info h0 leg1 hl => by
  rw [h info h0 leg1 hl]; rfl

/-- Requests about sinks remove the right handle. -/
theorem Request.rollsBack_of_sink {host : Host} {s : SessionManager} {r : Request}
    (h : r.kind = .sink) : r.RollsBack host s := by
  intro info h0 leg1 _
  cases r with
  | addSource env source => cases h
  | removeSource env id => cases h
  | addSink env sink => rfl
  | removeSink env id => rfl

namespace SessionManager
variable {host : Host}

/-- A removal that is to succeed succeeds. -/
theorem removeLegs_fst {env : Env} (hr : env.replies.RemovalsSucceed) (old : StreamInfo)
    (d : Driver) : (removeLegs env old d).1 = none := by
  unfold removeLegs
  rw [hr.dropFirst, hr.dropSecond]
  simp only [Driver.removeRtpStream_none]
  split <;> simp

/-- **One request keeps every handle owned.** -/
theorem handlesOwned_serve {s : SessionManager} {r : Request} {ret : Ret} {b : Books}
    (H : s.books.HandlesOwned) (hr : r.env.replies.RemovalsSucceed) (hroll : r.RollsBack host s)
    (h : Books.Serve host s r ret b) : b.HandlesOwned := by
  cases h with
  | unchanged => exact H
  | removalFailed hrem hfind hlive hdrop => simp [removeLegs_fst hr] at hdrop
  | removed hrem hfind => exact H.strike hr hfind
  | admitted hprep hname hbooks =>
      have Hv : (s.books.vacate host r.env r.kind r.id).HandlesOwned := H.vacate hr
      have habsent : ((s.books.vacate host r.env r.kind r.id).table r.kind).find? r.id = none :=
        Books.find?_vacate
      cases hbooks with
      | placed hlive => exact Hv.enter_idle habsent hlive
      | refused => exact Hv
      | undone hlive hfirst hfresh hleg1 hsecond hundo =>
          -- the handle removed is the one just given out
          have hh := hroll _ _ _ ⟨hprep, hname, hlive, hfirst, hfresh, hleg1, hsecond⟩
          rw [hundo] at hh
          obtain rfl := Option.some.inj hh
          rw [hr.rollback, Books.removeRtpStream_hold hfresh]
          exact Hv
      | single hlive hfirst hfresh hleg1 =>
          exact Hv.enter_single habsent hfresh (prepared_slot hprep) hlive
      | dual hlive hfirst hfresh hleg1 hsecond hfresh1 =>
          exact Hv.enter_dual habsent hfresh hfresh1 (prepared_slot hprep)
            (secondLeg_slot hprep hleg1) hlive

/-- A session manager starts with nothing registered. -/
theorem handlesOwned_create : (create host).books.HandlesOwned := by
  have hheld : (create host).books.held = fun _ => none := by
    funext t
    rcases t with ⟨_ | _, id, leg⟩ <;> rfl
  have hholder : (create host).books.holder = fun _ => none := rfl
  exact ⟨by rw [hheld, hholder]; exact Indexes.none, rfl⟩

/-- **Runs keep every handle owned.** -/
theorem handlesOwned_run {rs : List Request} {s : SessionManager} (h0 : s.books.HandlesOwned)
    (hr : ∀ r ∈ rs, r.env.replies.RemovalsSucceed)
    (H : Along (step host) (fun s r => r.RollsBack host s) s rs) :
    ∃ s', run (step host) s rs = some s' ∧ s'.books.HandlesOwned := by
  refine run_invariant (P := fun s r => r.env.replies.RemovalsSucceed ∧ r.RollsBack host s) ?_ h0
    ((along_of_forall hr).and H)
  rintro s r hs ⟨hrep, hroll⟩
  obtain ⟨ret, s', -, hstep, hserve⟩ := step_cases hroll.defined
  exact ⟨s', hstep, handlesOwned_serve hs hrep hroll hserve⟩

end SessionManager

/-! ## What it says of the streams -/

/-- A record refers to the handle of its primary leg and, when it has two legs,
to that of the secondary one. -/
def StreamInfo.Refers (info : StreamInfo) (h : Handle) : Prop :=
  h = info.handle.leg0 ∨ (info.st20227Enabled = true ∧ h = info.handle.leg1)

theorem Kind.exists_handle? {k : Kind} {info : StreamInfo} {h : Handle} :
    (∃ leg, k.handle? info leg = some h) ↔ k.live info = true ∧ info.Refers h := by
  constructor
  · rintro ⟨leg, hleg⟩
    by_cases hlive : k.live info = true
    · refine ⟨hlive, ?_⟩
      fin_cases leg
      · have hleg : info.handle.leg0 = h := by simpa [handle?, hlive] using hleg
        exact .inl hleg.symm
      · have hleg : info.st20227Enabled = true ∧ info.handle.leg1 = h := by
          simpa [handle?, hlive] using hleg
        exact .inr ⟨hleg.1, hleg.2.symm⟩
    · simp [handle?, hlive] at hleg
  · rintro ⟨hlive, rfl | ⟨hdual, rfl⟩⟩
    · exact ⟨0, by simp [handle?, hlive]⟩
    · exact ⟨1, by simp [handle?, hlive, hdual]⟩

/-- The driver has exactly the handles of the stored streams of a kind that are
in use registered for that kind, no two streams share one, and every removal so
far was of a registered handle. -/
structure SessionManager.HandlesExact (k : Kind) (s : SessionManager) : Prop where
  registered : ∀ h, (∃ st, s.driver.registered.find? h = some st ∧
      st.bSource = decide (k = .source)) ↔
    ∃ id info, (s.books.table k).find? id = some info ∧ k.live info = true ∧ info.Refers h
  unshared : ∀ h id id' info info', (s.books.table k).find? id = some info →
    k.live info = true → info.Refers h → (s.books.table k).find? id' = some info' →
    k.live info' = true → info'.Refers h → id = id'
  legs_differ : ∀ id info, (s.books.table k).find? id = some info → k.live info = true →
    info.st20227Enabled = true → info.handle.leg0 ≠ info.handle.leg1
  noStray : s.driver.strayRemovals = []

namespace Books

theorem exists_held {b : Books} {k : Kind} {id : UInt8} {h : Handle} :
    (∃ leg, b.held ⟨k, id, leg⟩ = some h) ↔
      ∃ info, (b.table k).find? id = some info ∧ k.live info = true ∧ info.Refers h := by
  simp only [← Kind.exists_handle?, held, heldIn, Option.bind_eq_some_iff]
  exact exists_comm.trans (exists_congr fun info => exists_and_left)

/-- **The invariant, stream by stream.** -/
theorem HandlesOwned.exact {s : SessionManager} (H : s.books.HandlesOwned) (k : Kind) :
    s.HandlesExact k where
  registered h := by
    simp only [← exists_held]
    constructor
    · rintro ⟨st, hst, hk⟩
      have hslot : s.books.held st.slot = some h :=
        (H.indexes h st.slot).mp (by simp [holder, holderIn, hst])
      have hkind : st.slot.kind = k := by
        rw [TRTPStreamInfo.slot, hk]
        cases k <;> rfl
      exact ⟨st.slot.id, st.slot.leg, by rw [← hkind]; exact hslot⟩
    · rintro ⟨id, leg, hheld⟩
      obtain ⟨st, hst, hslot⟩ := Option.map_eq_some_iff.mp ((H.indexes _ _).mpr hheld)
      have hkind : st.slot.kind = k := by rw [hslot]
      refine ⟨st, hst, ?_⟩
      rw [← hkind, TRTPStreamInfo.slot]
      cases st.bSource <;> rfl
  unshared h id id' info info' hf hl hr hf' hl' hr' := by
    obtain ⟨leg, hheld⟩ := exists_held.mpr ⟨info, hf, hl, hr⟩
    obtain ⟨leg', hheld'⟩ := exists_held.mpr ⟨info', hf', hl', hr'⟩
    exact congrArg Slot.id (H.indexes.unique hheld hheld')
  legs_differ id info hf hl hdual := by
    intro heq
    have h0 : s.books.held ⟨k, id, 0⟩ = some info.handle.leg0 := by
      rw [held, heldIn_of_find? hf]; simp [Kind.handle?, hl]
    have h1 : s.books.held ⟨k, id, 1⟩ = some info.handle.leg0 := by
      rw [held, heldIn_of_find? hf]; simp [Kind.handle?, hl, hdual, heq]
    exact absurd (H.indexes.unique h0 h1) (by simp)
  noStray := H.noStray

/-- A handle is registered when some leg has it. -/
theorem HandlesOwned.registered_iff {b : Books} (H : b.HandlesOwned) {h : Handle} :
    (b.driver.registered.find? h).isSome ↔ ∃ t, b.held t = some h := by
  simp only [← H.indexes h, holder, holderIn, ← Option.isSome_iff_exists, Option.isSome_map]

/-- Striking a stream takes exactly its handles out of the driver. -/
theorem HandlesOwned.registered_strike {host : Host} {env : Env} {b : Books} {k : Kind}
    {id : UInt8} {old : StreamInfo} (H : b.HandlesOwned) (hr : env.replies.RemovalsSucceed)
    (hfind : (b.table k).find? id = some old) (hlive : k.live old = true) (h : Handle) :
    ((b.strike host env k id old).driver.registered.find? h).isSome ↔
      (b.driver.registered.find? h).isSome ∧ ¬ old.Refers h := by
  have hstruck : (b.strike host env k id old).held =
      Function.update (Function.update b.held ⟨k, id, 0⟩ none) ⟨k, id, 1⟩ none := heldIn_erase
  have hrefers : (∃ leg, b.held ⟨k, id, leg⟩ = some h) ↔ old.Refers h := by
    rw [exists_held]; simp [hfind, hlive]
  rw [(H.strike hr hfind).registered_iff, H.registered_iff, ← hrefers, hstruck]
  constructor
  · rintro ⟨t, ht⟩
    have hne : ∀ leg, t ≠ ⟨k, id, leg⟩ := by
      rintro leg rfl
      fin_cases leg <;> simp at ht
    have ht : b.held t = some h := by
      simpa [Function.update_apply, hne 0, hne 1] using ht
    exact ⟨⟨t, ht⟩, fun ⟨leg, hleg⟩ => hne leg (H.indexes.unique ht hleg)⟩
  · rintro ⟨⟨t, ht⟩, hnot⟩
    have hne : ∀ leg, t ≠ ⟨k, id, leg⟩ := fun leg hleg => hnot ⟨leg, hleg ▸ ht⟩
    exact ⟨t, by simpa [Function.update_apply, hne 0, hne 1] using ht⟩

end Books

namespace SessionManager
variable {host : Host}

/-- **Every handle of a source is registered, once, and no other handle is**: in
every run of requests each of which, when the secondary leg of a source is
refused, goes on to remove the handle it was just given. -/
theorem sourceHandles_owned (host : Host) (rs : List Request)
    (hr : ∀ r ∈ rs, r.env.replies.RemovalsSucceed)
    (H : Along (step host) (fun s r => r.RollsBack host s) (create host) rs) :
    ∃ s, run (step host) (create host) rs = some s ∧ s.HandlesExact .source := by
  obtain ⟨s, hrun, hs⟩ := handlesOwned_run handlesOwned_create hr H
  exact ⟨s, hrun, hs.exact .source⟩

/-- A source with one leg that comes and goes. -/
theorem sourceHandles_owned_once :
    ∃ s, run (step redundantHost) (create redundantHost)
      [.addSource (.answering none (.ok 7) (.ok 8)) (stereoSource 1 "a".toList),
        .removeSource (.answering none (.ok 7) (.ok 8)) 1] = some s ∧ s.HandlesExact .source :=
  sourceHandles_owned redundantHost _
    (fun r hr => by
      rcases List.mem_pair.mp hr with rfl | rfl <;> exact ⟨rfl, rfl, rfl⟩)
    ⟨fun _ _ _ hl => absurd hl.leg1 (by
        simp [Request.secondLeg, Env.answering, Env.secondaryIp, Env.getInterfaceIp]),
      fun _ _ => ⟨fun _ _ _ hl => absurd hl.prepared (by simp [Request.prepared]),
        fun _ _ => trivial⟩⟩

/-- A refused secondary leg of a new source has no handle to go back to.  On an
update the handle of the new primary leg stays registered without a source, and
the removed one is removed twice. -/
theorem sourceHandles_lost :
    run (step redundantHost) (create redundantHost)
      [.addSource (.answering (some 0x0a000001) (.ok 8) (.error (.driver 1)))
        (stereoSource 1 "a".toList)] = none ∧
    ∃ s, run (step redundantHost) (create redundantHost)
      [.addSource (.answering none (.ok 7) (.error (.driver 1))) (stereoSource 1 "a".toList),
        .addSource (.answering (some 0x0a000001) (.ok 8) (.error (.driver 1)))
          (stereoSource 1 "a".toList)] = some s ∧
      s.sources.entries = [] ∧ s.driver.registered.contains 8 = true ∧
      s.driver.strayRemovals = [7] ∧ ¬ s.HandlesExact .source := by
  refine ⟨Option.isNone_iff_eq_none.mp (by decide +kernel), ?_⟩
  have h : (run (step redundantHost) (create redundantHost)
      [.addSource (.answering none (.ok 7) (.error (.driver 1))) (stereoSource 1 "a".toList),
        .addSource (.answering (some 0x0a000001) (.ok 8) (.error (.driver 1)))
          (stereoSource 1 "a".toList)]).map (fun s => (s.sources.entries,
        s.driver.registered.contains 8, s.driver.strayRemovals)) = some ([], true, [7]) := by
    decide +kernel
  obtain ⟨s, hs, heq⟩ := Option.map_eq_some_iff.mp h
  simp only [Prod.mk.injEq] at heq
  obtain ⟨hempty, hleak, hstray⟩ := heq
  exact ⟨s, hs, hempty, hleak, hstray, fun H => by simpa [hstray] using H.noStray⟩

/-- An update of a sink that fails after the old legs were dropped strikes the
sink and nothing else. -/
theorem addSink_failed {s s' : SessionManager} {env : Env} {sink : StreamSink}
    {old info : StreamInfo} {e : ErrorCode} (hr : env.replies.RemovalsSucceed)
    (hfind : s.sinks.find? sink.id = some old)
    (hprep : (Request.addSink env sink).prepared host s = some info)
    (h : s.addSink host env sink = (.error e, s')) :
    s'.books = s.books.strike host env .sink sink.id old := by
  have hold : (s.books.table .sink).find? sink.id = some old := hfind
  have hvac : s.books.vacate host env .sink sink.id = s.books.strike host env .sink sink.id old :=
    vacate_of_find?_some hold
  have hserve := addSink_books h
  generalize hret : Ret.error e = ret at hserve
  generalize hb : s'.books = b at hserve
  cases hserve with
  | unchanged hne hpre => exact absurd (hold.symm.trans (hpre _ hprep).1) (by simp)
  | removalFailed hrem => cases hrem
  | removed hrem => cases hrem
  | admitted hprep' hname hbooks =>
      cases hbooks with
      | placed hlive => cases hlive
      | refused => exact hvac
      | undone hlive hfirst hfresh hleg1 hsecond hundo =>
          obtain rfl := Option.some.inj hundo
          rw [← hvac]
          refine Books.ext rfl rfl ?_ rfl
          simp only [Request.env, hr.rollback]
          exact Books.removeRtpStream_hold hfresh _
      | single => cases hret
      | dual => cases hret

/-- **Every handle of a sink is registered, once, and no other handle is**; and
a sink whose update failed is gone, with its old handles, and without new ones. -/
theorem sinkHandles_owned (host : Host) (rs : List Request) (hsink : ∀ r ∈ rs, r.kind = .sink)
    (hr : ∀ r ∈ rs, r.env.replies.RemovalsSucceed) :
    ∃ s, run (step host) (create host) rs = some s ∧ s.HandlesExact .sink ∧
      ∀ (env : Env) (sink : StreamSink) (old info : StreamInfo) (e : ErrorCode)
        (s' : SessionManager), env.replies.RemovalsSucceed →
        s.sinks.find? sink.id = some old →
        (Request.addSink env sink).prepared host s = some info →
        s.addSink host env sink = (.error e, s') →
        s'.sinks.find? sink.id = none ∧
          ∀ h, (s'.driver.registered.find? h).isSome ↔
            (s.driver.registered.find? h).isSome ∧ ¬ old.Refers h := by
  have H : Along (step host) (fun s r => r.RollsBack host s) (create host) rs :=
    (along_of_forall hsink).imp fun s r hk => Request.rollsBack_of_sink hk
  obtain ⟨s, hrun, hs⟩ := handlesOwned_run handlesOwned_create hr H
  refine ⟨s, hrun, hs.exact .sink, ?_⟩
  intro env sink old info e s' hrep hfind hprep h
  have hb := addSink_failed hrep hfind hprep h
  have hold : (s.books.table .sink).find? sink.id = some old := hfind
  have htable : s'.sinks = (s.books.strike host env .sink sink.id old).table .sink := by
    rw [← hb]; rfl
  have hdriver : s'.driver = (s.books.strike host env .sink sink.id old).driver := by
    rw [← hb]; rfl
  refine ⟨by simp [htable, Books.strike], ?_⟩
  intro h'
  rw [hdriver]
  exact hs.registered_strike hrep hold rfl h'

/-- An update whose secondary leg is refused. -/
theorem sinkHandles_owned_update :
    ∃ s, run (step redundantHost) (create redundantHost)
      [.addSink (.answering (some 0x0a000001) (.ok 7) (.ok 8))
          (stereoSink 1 "a".toList (redundantSdp "239.1.0.1/15".toList "239.1.0.2/15".toList)),
        .addSink (.answering (some 0x0a000001) (.ok 9) (.error (.driver 1)))
          (stereoSink 1 "a".toList (redundantSdp "239.1.0.1/15".toList "239.1.0.2/15".toList))] =
      some s ∧ s.HandlesExact .sink := by
  obtain ⟨s, hrun, hs, -⟩ := sinkHandles_owned redundantHost
    [.addSink (.answering (some 0x0a000001) (.ok 7) (.ok 8))
        (stereoSink 1 "a".toList (redundantSdp "239.1.0.1/15".toList "239.1.0.2/15".toList)),
      .addSink (.answering (some 0x0a000001) (.ok 9) (.error (.driver 1)))
        (stereoSink 1 "a".toList (redundantSdp "239.1.0.1/15".toList "239.1.0.2/15".toList))]
    (fun r hr => by rcases List.mem_pair.mp hr with rfl | rfl <;> rfl)
    (fun r hr => by rcases List.mem_pair.mp hr with rfl | rfl <;> exact ⟨rfl, rfl, rfl⟩)
  exact ⟨s, hrun, hs⟩

end SessionManager
end Aes67Daemon
