import Aes67Daemon.Lib.Index
import Aes67Daemon.Session.Prepared

/-!
# The name indices

`source_names_` and `sink_names_` lead from a name to the id of the stream that
has it.  A disabled source is not in the index.  The index is written with the
requested name and erased with the name in the driver's record, so the two have
to be the same text; and an update may give a stream a name that the index has
for another one.  As long as neither happens, each index is the inverse of its
table.

## Main definitions

* `Books.naming` — the names of the streams in use.
* `Books.NamesIndexed` — the indices are inverse to the namings.
* `Request.NameSafe` — the request gives its stream a name of its own that fits.
* `names_exact` — what follows for a run.
-/
namespace Aes67Daemon

open Text

namespace Books

/-- The names of the streams in use, according to a family of tables. -/
def namingIn (table : Kind → SortedMap UInt8 StreamInfo) (k : Kind) (id : UInt8) : Option Text :=
  ((table k).find? id).bind fun info => if k.live info then some info.stream.leg0.cName else none

/-- The names of the streams in use. -/
def naming (b : Books) : Kind → UInt8 → Option Text := namingIn b.table

/-- Each name index leads from the names of the streams in use to their ids. -/
def NamesIndexed (b : Books) : Prop := ∀ k, Indexes (b.names k).find? (b.naming k)

/-! ## Tables and maps -/

section
variable {table : Kind → SortedMap UInt8 StreamInfo} {k : Kind} {id : UInt8} {info : StreamInfo}

theorem find?_erase_eq_update {κ α : Type} [LinearOrder κ] [DecidableEq κ] (m : SortedMap κ α) (n : κ) :
    (m.erase n).find? = Function.update m.find? n none := by
  funext n'
  by_cases h : n' = n <;> simp [SortedMap.find?_erase, h]

theorem find?_insert_eq_update {κ α : Type} [LinearOrder κ] [DecidableEq κ] (m : SortedMap κ α) (n : κ) (a : α) :
    (m.insert n a).find? = Function.update m.find? n (some a) := by
  funext n'
  by_cases h : n' = n <;> simp [SortedMap.find?_insert, h]

theorem namingIn_erase_self : namingIn (Function.update table k ((table k).erase id)) k =
    Function.update (namingIn table k) id none := by
  funext id'
  by_cases h : id' = id <;> simp [namingIn, SortedMap.find?_erase, h]

theorem namingIn_insert_self : namingIn (Function.update table k ((table k).insert id info)) k =
    Function.update (namingIn table k) id
      (if k.live info then some info.stream.leg0.cName else none) := by
  funext id'
  by_cases h : id' = id <;> simp [namingIn, SortedMap.find?_insert, h]

theorem namingIn_update_of_ne {k' : Kind} (h : k' ≠ k) (m : SortedMap UInt8 StreamInfo) :
    namingIn (Function.update table k m) k' = namingIn table k' := by
  funext id'
  simp [namingIn, Function.update_of_ne h]

end

/-! ## Striking and entering -/

variable {host : Host} {env : Env} {b : Books} {k : Kind} {id : UInt8} {name : Text}
  {info old : StreamInfo}

theorem naming_of_absent (h : (b.table k).find? id = none) : b.naming k id = none := by
  simp [naming, namingIn, h]

theorem naming_of_find? (h : (b.table k).find? id = some old) :
    b.naming k id = if k.live old then some old.stream.leg0.cName else none := by
  simp [naming, namingIn, h]

/-- Striking a stream takes its name out of the index. -/
theorem NamesIndexed.strike (H : b.NamesIndexed) (hfind : (b.table k).find? id = some old) :
    (b.strike host env k id old).NamesIndexed := by
  intro k'
  by_cases hk : k' = k
  case neg =>
    have hnames : (b.strike host env k id old).names k' = b.names k' := by
      by_cases hlive : k.live old = true <;> simp [Books.strike, hlive, hk]
    rw [naming, hnames, Books.strike, namingIn_update_of_ne hk]
    exact H k'
  case pos =>
    subst hk
    have hnaming : (b.strike host env k' id old).naming k' = Function.update (b.naming k') id none :=
      namingIn_erase_self
    have hid := naming_of_find? hfind
    by_cases hlive : k'.live old = true
    · have hnames : (b.strike host env k' id old).names k' =
          (b.names k').erase old.stream.leg0.cName := by simp [Books.strike, hlive]
      rw [hnaming, hnames, find?_erase_eq_update]
      exact (H k').forget (hid.trans (if_pos hlive))
    · have hnames : (b.strike host env k' id old).names k' = b.names k' := by
        simp [Books.strike, hlive]
      rw [hnaming, hnames, (Function.update_eq_self_iff (f := b.naming k')).mpr (by simp [hid, hlive])]
      exact H k'

theorem NamesIndexed.vacate (H : b.NamesIndexed) : (b.vacate host env k id).NamesIndexed := by
  unfold Books.vacate
  split
  · exact H
  · exact H.strike ‹_›

/-- After an id was vacated, a name is free that only its stream had. -/
theorem NamesIndexed.find?_vacate_names (H : b.NamesIndexed)
    (hname : (b.table k).find? id = none → (b.names k).find? name = none)
    (hown : ∀ id', (b.names k).find? name = some id' → id' = id) :
    ((b.vacate host env k id).names k).find? name = none := by
  unfold Books.vacate
  split
  · exact hname ‹_›
  · rename_i old hfind
    rw [Option.eq_none_iff_forall_ne_some]
    intro id' hid'
    have hstruck : (b.strike host env k id old).NamesIndexed := H.strike hfind
    have hnew := (hstruck k name id').mp hid'
    have hnaming : (b.strike host env k id old).naming k = Function.update (b.naming k) id none :=
      namingIn_erase_self
    rw [hnaming, Function.update_apply] at hnew
    split at hnew
    · cases hnew
    · rename_i hne
      exact hne (hown id' ((H k name id').mpr hnew))

/-- A stream that is not in use brings no name. -/
theorem NamesIndexed.enter_idle (H : b.NamesIndexed) (habsent : (b.table k).find? id = none)
    (hlive : k.live info = false) : (b.enter host env k id name info).NamesIndexed := by
  intro k'
  have hnames : (b.enter host env k id name info).names = b.names := by simp [Books.enter, hlive]
  by_cases hk : k' = k
  · subst hk
    have hnaming : (b.enter host env k' id name info).naming k' =
        Function.update (b.naming k') id none :=
      namingIn_insert_self.trans (by simp [hlive, naming])
    rw [hnaming, hnames, (Function.update_eq_self_iff (f := b.naming k')).mpr
      (naming_of_absent habsent).symm]
    exact H k'
  · rw [hnames, naming, Books.enter, namingIn_update_of_ne hk]
    exact H k'

/-- A stream in use brings a free name. -/
theorem NamesIndexed.enter (H : b.NamesIndexed) (habsent : (b.table k).find? id = none)
    (hfree : (b.names k).find? name = none) (hcName : info.stream.leg0.cName = name)
    (hlive : k.live info = true) : (b.enter host env k id name info).NamesIndexed := by
  intro k'
  by_cases hk : k' = k
  · subst hk
    have hnaming : (b.enter host env k' id name info).naming k' =
        Function.update (b.naming k') id (some name) :=
      namingIn_insert_self.trans (by simp [hlive, naming, hcName])
    have hnames : (b.enter host env k' id name info).names k' = (b.names k').insert name id := by
      simp [Books.enter, hlive]
    rw [hnaming, hnames, find?_insert_eq_update]
    exact (H k').record hfree (naming_of_absent habsent)
  · have hnames : (b.enter host env k id name info).names k' = b.names k' := by
      simp [Books.enter, hlive, hk]
    rw [hnames, naming, Books.enter, namingIn_update_of_ne hk]
    exact H k'

end Books

/-! ## Requests -/

/-- A stream that gets registered has a name that fits into the driver's record
and that the index does not have for another stream. -/
structure Request.NameSafe (host : Host) (s : SessionManager) (r : Request) : Prop where
  fits : ∀ info, r.Registers host s info → cStr host.nameSize r.name = r.name
  own : ∀ info, r.Registers host s info →
    ∀ id', (s.books.names r.kind).find? r.name = some id' → id' = r.id

namespace SessionManager
variable {host : Host}

/-- **One request keeps the names indexed.** -/
theorem namesIndexed_serve {s : SessionManager} {r : Request} {ret : Ret} {b : Books}
    (H : s.books.NamesIndexed) (hsafe : r.NameSafe host s) (h : Books.Serve host s r ret b) :
    b.NamesIndexed := by
  cases h with
  | unchanged => exact H
  | removalFailed => exact H
  | removed hrem hfind => exact H.strike hfind
  | @admitted info _ _ hprep hname hbooks =>
      have Hv : (s.books.vacate host r.env r.kind r.id).NamesIndexed := H.vacate
      have habsent : ((s.books.vacate host r.env r.kind r.id).table r.kind).find? r.id = none :=
        Books.find?_vacate
      have hsafe_enter : r.Registers host s info → r.kind.live info = true ∧
          ((s.books.vacate host r.env r.kind r.id).names r.kind).find? r.name = none ∧
          info.stream.leg0.cName = r.name := fun hreg =>
        ⟨hreg.live, H.find?_vacate_names hname (hsafe.own info hreg),
          (prepared_name hprep).trans (hsafe.fits info hreg)⟩
      cases hbooks with
      | placed hlive => exact Hv.enter_idle habsent hlive
      | refused => exact Hv
      | undone => exact Hv
      | single hlive hfirst hfresh hleg1 =>
          obtain ⟨-, hfree, hcName⟩ := hsafe_enter
            (Request.registers_single hprep hname hlive hfirst hfresh hleg1)
          exact Books.NamesIndexed.enter (b := { Books.vacate _ _ _ _ _ with driver := _ }) Hv habsent
            hfree hcName (Kind.live_single.trans hlive)
      | dual hlive hfirst hfresh hleg1 hsecond hfresh1 =>
          obtain ⟨-, hfree, hcName⟩ := hsafe_enter
            (Request.registers_dual hprep hname hlive hfirst hfresh hsecond hfresh1)
          exact Books.NamesIndexed.enter (b := { Books.vacate _ _ _ _ _ with driver := _ }) Hv habsent
            hfree hcName (Kind.live_dual.trans hlive)

/-- The indices of a new session manager. -/
theorem namesIndexed_create : (create host).books.NamesIndexed := by
  intro k
  cases k <;> exact Indexes.none

/-- **Runs keep the names indexed.** -/
theorem namesIndexed_run {rs : List Request} {s : SessionManager} (h0 : s.books.NamesIndexed)
    (H : Along (step host) (fun s r => r.Defined host s ∧ r.NameSafe host s) s rs) :
    ∃ s', run (step host) s rs = some s' ∧ s'.books.NamesIndexed := by
  refine run_invariant ?_ h0 H
  rintro s r hs ⟨hdef, hsafe⟩
  obtain ⟨ret, s', -, hstep, hserve⟩ := step_cases hdef
  exact ⟨s', hstep, namesIndexed_serve hs hsafe hserve⟩

/-- The index of a kind of streams maps a name to an id exactly when the stream
with that id is in use and has that name, and no two streams in use share one. -/
structure NamesExact (k : Kind) (s : SessionManager) : Prop where
  indexed : ∀ n id, (s.books.names k).find? n = some id ↔
    ∃ info, (s.books.table k).find? id = some info ∧ k.live info = true ∧
      info.stream.leg0.cName = n
  unique : ∀ id id' info info', (s.books.table k).find? id = some info → k.live info = true →
    (s.books.table k).find? id' = some info' → k.live info' = true →
    info.stream.leg0.cName = info'.stream.leg0.cName → id = id'

/-- The invariant, stream by stream. -/
theorem namesExact_of_indexed {s : SessionManager} (H : s.books.NamesIndexed) (k : Kind) :
    s.NamesExact k where
  indexed n id := by
    rw [H k n id]
    simp [Books.naming, Books.namingIn, Option.bind_eq_some_iff]
  unique id id' info info' hf hl hf' hl' hn := by
    refine (H k).unique (n := info.stream.leg0.cName) ?_ ?_
    · rw [Books.naming_of_find? hf, if_pos hl]
    · rw [Books.naming_of_find? hf', if_pos hl', hn]

/-- A lookup by name finds an id in range exactly when the index has it. -/
theorem getD_eq_iff {o : Option UInt8} {id : UInt8} (hid : id.toNat ≤ streamIdMax) :
    o.getD (UInt8.ofNat (streamIdMax + 1)) = id ↔ o = some id := by
  cases o with
  | none =>
      simp only [Option.getD_none, reduceCtorEq, iff_false]
      rintro rfl
      exact absurd hid (by decide)
  | some id' => simp

/-- **The name indices are exact, and so are lookups by name**: in every run of
requests that have a defined outcome and give registered streams names of their
own that fit. -/
theorem names_exact (host : Host) (rs : List Request)
    (H : Along (step host) (fun s r => r.Defined host s ∧ r.NameSafe host s) (create host) rs) :
    ∃ s, run (step host) (create host) rs = some s ∧ s.NamesExact .source ∧ s.NamesExact .sink ∧
      ∀ n (id : UInt8), id.toNat ≤ streamIdMax →
        (s.getSourceId n = id ↔ ∃ info, s.sources.find? id = some info ∧ info.enabled = true ∧
          info.stream.leg0.cName = n) ∧
        (s.getSinkId n = id ↔ ∃ info, s.sinks.find? id = some info ∧
          info.stream.leg0.cName = n) := by
  obtain ⟨s, hrun, hs⟩ := namesIndexed_run namesIndexed_create H
  refine ⟨s, hrun, namesExact_of_indexed hs .source, namesExact_of_indexed hs .sink, ?_⟩
  intro n id hid
  constructor
  · rw [getSourceId, getD_eq_iff hid]
    exact (namesExact_of_indexed hs .source).indexed n id
  · rw [getSinkId, getD_eq_iff hid]
    simpa [Kind.live] using (namesExact_of_indexed hs .sink).indexed n id

end SessionManager

/-- A name that fits, that the index has for no other stream, and a host without a secondary interface. -/
def Request.FreshName (host : Host) (s : SessionManager) (r : Request) : Prop :=
  r.env.secondaryIp host = none ∧ cStr host.nameSize r.name = r.name ∧
    ∀ id' ∈ (s.books.names r.kind).find? r.name, id' = r.id

instance (host : Host) (s : SessionManager) (r : Request) : Decidable (r.FreshName host s) :=
  inferInstanceAs (Decidable (_ ∧ _ ∧ _))

theorem Request.FreshName.safe {host : Host} {s : SessionManager} {r : Request} (h : r.FreshName host s) :
    r.Defined host s ∧ r.NameSafe host s := by
  obtain ⟨hnone, hfits, hown⟩ := h
  refine ⟨fun info h0 leg1 hloses => absurd hloses.leg1 ?_, ⟨fun _ _ => hfits, fun _ _ => hown⟩⟩
  cases r <;> simp_all [Request.secondLeg, Request.env]

namespace SessionManager

/-- Two sources and a sink; a source is renamed, the other one removed, and a third one takes the name
that is free. -/
def renamed : List Request :=
  [.addSource (.answering none (.ok 7) (.error (.driver 1))) (stereoSource 1 "a".toList),
    .addSource (.answering none (.ok 8) (.error (.driver 1))) (stereoSource 2 "b".toList),
    .addSink (.answering none (.ok 9) (.error (.driver 1)))
      (stereoSink 1 "a".toList (redundantSdp "239.1.0.1/15".toList "239.1.0.2/15".toList)),
    .addSource (.answering none (.ok 10) (.error (.driver 1))) (stereoSource 2 "c".toList),
    .removeSource (.answering none (.ok 0) (.error (.driver 1))) 1,
    .addSource (.answering none (.ok 11) (.error (.driver 1))) (stereoSource 3 "b".toList)]

theorem names_exact_renaming : ∃ s, run (step {}) (create {}) renamed = some s ∧
    (s.sources.entries.map Prod.fst, s.sinks.entries.map Prod.fst) = ([2, 3], [1]) ∧
    s.NamesExact .source ∧ s.NamesExact .sink := by
  have hfresh : Along (step {}) (fun s r => r.FreshName {} s) (create {}) renamed := by decide +kernel
  have hkept : (run (step {}) (create {}) renamed).map (fun s =>
      (s.sources.entries.map Prod.fst, s.sinks.entries.map Prod.fst)) = some ([2, 3], [1]) := by decide +kernel
  obtain ⟨s, hrun, hsource, hsink, -⟩ := names_exact {} renamed (hfresh.imp fun _ _ h => h.safe)
  rw [hrun] at hkept
  exact ⟨s, hrun, Option.some.inj hkept, hsource, hsink⟩

/-- An update may take a name from another source, and a long name is indexed in
full but stored, and later erased, as the driver's record holds it. -/
theorem names_clash :
    (∃ s, run (step {}) (create {})
      [.addSource (.answering none (.ok 7) (.error (.driver 1))) (stereoSource 1 "a".toList),
        .addSource (.answering none (.ok 8) (.error (.driver 1))) (stereoSource 2 "b".toList),
        .addSource (.answering none (.ok 9) (.error (.driver 1))) (stereoSource 2 "a".toList)] =
        some s ∧ s.getSourceId "a".toList = 2 ∧ ¬ s.NamesExact .source) ∧
    ∃ s, run (step {}) (create {})
      [.addSource (.answering none (.ok 7) (.error (.driver 1)))
        (stereoSource 1 (List.replicate 64 'x'))] = some s ∧
        s.getSourceId (List.replicate 63 'x') = 64 ∧ ¬ s.NamesExact .source := by
  constructor
  · have h : (run (step {}) (create {})
        [.addSource (.answering none (.ok 7) (.error (.driver 1))) (stereoSource 1 "a".toList),
          .addSource (.answering none (.ok 8) (.error (.driver 1))) (stereoSource 2 "b".toList),
          .addSource (.answering none (.ok 9) (.error (.driver 1))) (stereoSource 2 "a".toList)]).map
        (fun s => (s.getSourceId "a".toList, (s.sources.find? 1).map fun i =>
          (i.enabled, i.stream.leg0.cName), s.sourceNames.find? "a".toList)) =
        some (2, some (true, "a".toList), some 2) := by decide +kernel
    obtain ⟨s, hs, heq⟩ := Option.map_eq_some_iff.mp h
    simp only [Prod.mk.injEq, Option.map_eq_some_iff] at heq
    obtain ⟨hget, ⟨info, hfind, hen, hname⟩, hidx⟩ := heq
    refine ⟨s, hs, hget, fun H => ?_⟩
    have h1 := (H.indexed "a".toList 1).mpr ⟨info, hfind, hen, hname⟩
    exact absurd (hidx.symm.trans h1) (by decide)
  · have h : (run (step {}) (create {})
        [.addSource (.answering none (.ok 7) (.error (.driver 1)))
          (stereoSource 1 (List.replicate 64 'x'))]).map
        (fun s => (s.getSourceId (List.replicate 63 'x'), (s.sources.find? 1).map fun i =>
          (i.enabled, i.stream.leg0.cName), s.sourceNames.find? (List.replicate 63 'x'))) =
        some (64, some (true, List.replicate 63 'x'), none) := by decide +kernel
    obtain ⟨s, hs, heq⟩ := Option.map_eq_some_iff.mp h
    simp only [Prod.mk.injEq, Option.map_eq_some_iff] at heq
    obtain ⟨hget, ⟨info, hfind, hen, hname⟩, hidx⟩ := heq
    refine ⟨s, hs, hget, fun H => ?_⟩
    have h1 := (H.indexed _ 1).mpr ⟨info, hfind, hen, hname⟩
    exact absurd (hidx.symm.trans h1) (by simp)

end SessionManager
end Aes67Daemon
