import Aes67Daemon.Lib.Admission
import Aes67Daemon.Session.RefClocks
import Aes67Daemon.Session.Settled
import Aes67Daemon.Session.StreamList

/-!
# The status file

At termination the daemon saves the streams that its REST API shows, and at startup it adds
them one after the other, sources first, and ignores how each request ends.  So the streams that
come back are those that are fit and whose names are still free when it is their turn, as they
are read back.

## Main definitions

* `saveStatus`, `loadStatus` — writing and loading the status file.
* `Smooth` — nothing outside the daemon fails during a request.
* `Adding`, `run_adding` — streams that are added one after the other.
* `exists_loadStatus` — what is shown after loading a file.
-/
namespace Aes67Daemon

open Text

namespace SessionManager

/-! ## Saving and loading -/

/-- What `save_status` writes to the status file. -/
def saveStatus (s : SessionManager) : Text := streamsToJson s.getSources s.getSinks

/-- What the outside world answers while a stream of the status file is added; no two streams of a
kind have the same id there. -/
abbrev Answers := Kind → UInt8 → Env

/-- The requests of `load_status`. -/
def loadRequests (answers : Answers) (sources : List StreamSource) (sinks : List StreamSink) : List Request :=
  sources.map (fun source => .addSource (answers .source source.id) source) ++
    sinks.map fun sink => .addSink (answers .sink sink.id) sink

/-- `load_status`, for the text of the status file: what it returns, and the state after it. -/
def loadStatus (host : Host) (answers : Answers) (js : Text) (s : SessionManager) : Option (Bool × SessionManager) :=
  match jsonToStreams host.readJson js with
  | none => some (false, s)
  | some (sources, sinks) => (run (step host) s (loadRequests answers sources sinks)).map fun s => (true, s)

/-- A session manager without streams. -/
structure Empty (s : SessionManager) : Prop where
  table : ∀ k, s.books.table k = .empty
  names : ∀ k, s.books.names k = .empty

/-- Nothing outside the daemon fails during a request: MAC addresses are found, and the driver
has two handles. -/
structure Smooth (s : SessionManager) (r : Request) : Prop where
  mac : ∀ ip, (retrieveMac r.env ip).isSome = true
  driver : ∃ h0 h1, r.env.replies.addFirst = .ok h0 ∧ r.env.replies.addSecond = .ok h1 ∧
    s.driver.fresh h0 ∧ s.driver.fresh h1 ∧ h0 ≠ h1

/-! ## One request -/

variable {host : Host} {s s' : SessionManager} {r : Request}

theorem Smooth.accepts_second (H : s.Smooth r) {h0 : Handle} (hfirst : r.env.replies.addFirst = .ok h0)
    (leg0 : TRTPStreamInfo) : (s.driver.hold h0 leg0).accepts r.env.replies.addSecond := by
  obtain ⟨g0, g1, hg0, hg1, -, hfresh, hne⟩ := H.driver
  obtain rfl := Except.ok.inj (hfirst.symm.trans hg0)
  rw [hg1]
  refine ⟨hfresh.1, ?_⟩
  show (s.driver.registered.insert h0 leg0).find? g1 = none
  rw [SortedMap.find?_insert_of_ne _ _ hne.symm]
  exact hfresh.2

/-- The books after a new stream was entered into its table; it takes its name if it is in use. -/
def Entered (host : Host) (s : SessionManager) (r : Request) (b : Books) : Prop :=
  ∃ info info', r.prepared host s = some info ∧ Stored host r info info' ∧
    b.table = Function.update s.books.table r.kind ((s.books.table r.kind).insert r.id info') ∧
    b.names = if r.kind.live info then
      Function.update s.books.names r.kind ((s.books.names r.kind).insert r.name r.id) else s.books.names

/-- **A stream that is added smoothly** under an id that is not in use is entered exactly when it
can be prepared and its name is not in use. -/
theorem step_smooth (hr : r.removes = false) (habsent : (s.books.table r.kind).find? r.id = none) (H : s.Smooth r) :
    ∃ s', s.step host r = some s' ∧ s'.ptp = s.ptp ∧
      if (r.prepared host s).isSome = true ∧ (s.books.names r.kind).find? r.name = none then s.Entered host r s'.books
      else s'.books = s.books := by
  have hvacate : s.books.vacate host r.env r.kind r.id = s.books := vacate_of_find?_none habsent
  have hdefined : r.Defined host s := by
    intro info h0 leg1 hlost
    have hsecond := hlost.second
    rw [hvacate] at hsecond
    exact absurd (H.accepts_second hlost.first info.stream.leg0) hsecond
  obtain ⟨ret, s', hserve, hstep, hbooks⟩ := step_cases hdefined
  refine ⟨s', hstep, congrArg Outside.ptp (serve_outside hserve).1, ?_⟩
  generalize s'.books = b at hbooks
  cases hbooks with
  | unchanged hret hpre =>
      rw [if_neg]
      rintro ⟨hprep, hname⟩
      obtain ⟨info, hinfo⟩ := Option.isSome_iff_exists.mp hprep
      have htaken := (hpre info hinfo).2
      rw [SortedMap.contains, hname] at htaken
      cases htaken
  | removalFailed hrem => rw [hr] at hrem; cases hrem
  | removed hrem => rw [hr] at hrem; cases hrem
  | @admitted info _ _ hprep hname hadmit =>
      rw [if_pos ⟨by rw [hprep]; rfl, hname habsent⟩]
      rw [habsent, hvacate] at hadmit
      cases hadmit with
      | placed hlive => exact ⟨info, info, hprep, .placed hlive, rfl, rfl⟩
      | refused hlive hfirst =>
          obtain ⟨h0, -, h, -, hfresh, -⟩ := H.driver
          rw [h] at hfirst
          exact absurd hfresh hfirst
      | undone hlive hfirst hfresh hleg1 hsecond => exact absurd (H.accepts_second hfirst info.stream.leg0) hsecond
      | @single h0 hlive hfirst hfresh hleg1 =>
          refine ⟨info, _, hprep, .single h0 hlive hleg1, rfl, ?_⟩
          have hsame : r.kind.live (info.single h0) = r.kind.live info := Kind.live_single
          rw [← hsame]
          rfl
      | @dual h0 h1 leg1 hlive hfirst hfresh hleg1 =>
          refine ⟨info, _, hprep, .dual leg1 h0 h1 hlive hleg1, rfl, ?_⟩
          have hsame : r.kind.live (info.dual leg1 h0 h1) = r.kind.live info := Kind.live_dual
          rw [← hsame]
          rfl

/-! ## Requests that add streams -/

/-- Requests that add streams of one kind: which are fit, which take their names, and what is
shown of a stream that is stored. -/
structure Adding {α β : Type} (host : Host) (ptp : Ptp) (k : Kind) (A : Admission α Text) (request : α → Request)
    (view : UInt8 × StreamInfo → β) (shown : α → β) : Prop where
  kind : ∀ a, (request a).kind = k
  adds : ∀ a, (request a).removes = false
  name : ∀ a, (request a).name = A.name a
  fit : ∀ a s, s.ptp = ptp → s.Smooth (request a) → ((request a).prepared host s).isSome = A.fit a
  takes : ∀ a s info, (request a).prepared host s = some info → k.live info = A.takes a
  shown : ∀ a s info info', (request a).prepared host s = some info → Stored host (request a) info info' →
    view ((request a).id, info') = shown a

/-- **What is shown after streams were added one after the other**, in the order of their ids. -/
theorem run_adding {α β : Type} {k : Kind} {A : Admission α Text} {request : α → Request}
    {view : UInt8 × StreamInfo → β} {shown : α → β} (B : Adding host s.ptp k A request view shown)
    {as : List α} {taken : List Text} (hids : as.Pairwise fun a b => (request a).id < (request b).id)
    (habove : ∀ a ∈ as, ∀ e ∈ (s.books.table k).entries, e.1 < (request a).id)
    (htaken : ∀ n, (s.books.names k).find? n = none ↔ n ∉ taken) (H : Along (step host) Smooth s (as.map request)) :
    ∃ s', run (step host) s (as.map request) = some s' ∧ s'.ptp = s.ptp ∧
      (∀ k', k' ≠ k → s'.books.table k' = s.books.table k' ∧ s'.books.names k' = s.books.names k') ∧
      (s'.books.table k).entries.map view = (s.books.table k).entries.map view ++ (A.admitted taken as).map shown := by
  induction as generalizing s taken with
  | nil => exact ⟨s, rfl, rfl, fun _ _ => ⟨rfl, rfl⟩, (List.append_nil _).symm⟩
  | cons a as ih =>
      obtain ⟨hfirst, hids⟩ := List.pairwise_cons.mp hids
      obtain ⟨ha, habove⟩ := List.forall_mem_cons.mp habove
      obtain ⟨hsmooth, H⟩ := along_cons.mp H
      have habsent : (s.books.table (request a).kind).find? (request a).id = none := by
        rw [B.kind]
        exact SortedMap.find?_none_of_lt ha
      obtain ⟨s₁, hs₁, hptp, hbooks⟩ := step_smooth (B.adds a) habsent hsmooth
      have hB : Adding host s₁.ptp k A request view shown := hptp.symm ▸ B
      have hcond : ((request a).prepared host s).isSome = true ∧
          (s.books.names (request a).kind).find? (request a).name = none ↔ A.fit a = true ∧ A.name a ∉ taken := by
        rw [B.fit a s rfl hsmooth, B.kind, B.name, htaken]
      rw [List.map_cons, run_cons, hs₁, Option.bind_some, Admission.admitted]
      rw [if_congr hcond rfl rfl] at hbooks
      split at hbooks
      · rename_i hadmitted
        obtain ⟨info, info', hprep, hstored, htable, hnames⟩ := hbooks
        rw [B.kind] at htable hnames
        rw [if_pos hadmitted]
        have hk : s₁.books.table k = (s.books.table k).insert (request a).id info' := by
          rw [htable, Function.update_self]
        have hothers : ∀ k', k' ≠ k → s₁.books.table k' = s.books.table k' ∧ s₁.books.names k' = s.books.names k' := by
          intro k' hk'
          rw [htable, hnames, Function.update_of_ne hk']
          refine ⟨rfl, ?_⟩
          split
          · rw [Function.update_of_ne hk']
          · rfl
        have hnow : ∀ n, (s₁.books.names k).find? n = none ↔ n ∉ A.taking a taken := by
          intro n
          rw [Admission.mem_taking, not_or, ← htaken n, ← B.takes a s info hprep, ← B.name, hnames]
          by_cases hlive : k.live info = true
          · rw [if_pos hlive, Function.update_self, SortedMap.find?_insert]
            by_cases hn : n = (request a).name
            · simp [hn, hlive]
            · simp [hn]
          · rw [if_neg hlive]
            simp [hlive]
        have hlast : ∀ b ∈ as, ∀ e ∈ (s₁.books.table k).entries, e.1 < (request b).id := by
          intro b hb e he
          rw [hk, SortedMap.entries_insert_of_lt ha, List.mem_append, List.mem_singleton] at he
          rcases he with he | rfl
          · exact habove b hb e he
          · exact hfirst b hb
        obtain ⟨s', hrun, hptp', hother, hshown⟩ := ih hB hids hlast hnow (H s₁ hs₁)
        refine ⟨s', hrun, hptp'.trans hptp, fun k' hk' => ?_, ?_⟩
        · rw [(hother k' hk').1, (hother k' hk').2]
          exact hothers k' hk'
        · rw [hshown, hk, SortedMap.entries_insert_of_lt ha, List.map_append, List.map_singleton, List.map_cons,
            B.shown a s info info' hprep hstored, List.append_assoc, List.singleton_append]
      · rename_i hrefused
        rw [if_neg hrefused]
        obtain ⟨s', hrun, hptp', hother, hshown⟩ := ih hB hids (by rw [hbooks]; exact habove) (by rw [hbooks]; exact htaken) (H s₁ hs₁)
        rw [hbooks] at hother hshown
        exact ⟨s', hrun, hptp'.trans hptp, hother, hshown⟩

/-! ## What a status file brings back -/

/-- The channels of a source have to fit the routing, and a source that is in use takes its name. -/
def sourceRules (host : Host) : Admission StreamSource Text where
  fit s := decide (s.id.toNat ≤ streamIdMax ∧ s.map.length ≤ host.routingSize)
  takes s := s.enabled
  name s := s.name

/-- A sink has to be described, and takes its name. -/
def sinkRules (host : Host) (ptp : Ptp) (answers : Answers) : Admission StreamSink Text where
  fit s := decide (s.id.toNat ≤ streamIdMax) && (preparedSink host (answers .sink s.id) ptp s).toOption.isSome
  takes _ := true
  name s := s.name

/-- What is shown of a source that is loaded. -/
def loadedSource (host : Host) (answers : Answers) (s : StreamSource) : StreamSource :=
  s.readBack host (answers .source s.id)

/-- What is shown of a sink that is loaded. -/
def loadedSink (host : Host) (answers : Answers) (s : StreamSink) : StreamSink :=
  s.readBack host ((sinkSdpText host (answers .sink s.id) s).toOption.getD [])

variable {answers : Answers}

theorem adding_sources (ptp : Ptp) : Adding host ptp .source (sourceRules host)
    (fun s => .addSource (answers .source s.id) s) (fun e => getSource_ e.1 e.2) (loadedSource host answers) where
  kind _ := rfl
  adds _ := rfl
  name _ := rfl
  fit source s _ hsmooth := by
    have hstream : (sourceStream host (answers .source source.id) source s.driver.sampleRate).isSome = true := by
      unfold sourceStream
      dsimp only
      split
      · rfl
      · rw [Option.isSome_map]
        exact hsmooth.mac _
    rw [Request.prepared]
    show _ = decide (source.id.toNat ≤ streamIdMax ∧ source.map.length ≤ host.routingSize)
    by_cases hunfit : streamIdMax < source.id.toNat ∨ host.routingSize < source.map.length
    · rw [if_pos hunfit, decide_eq_false (by omega)]
      rfl
    · rw [if_neg hunfit, Option.isSome_map, hstream, decide_eq_true (by omega)]
  takes source s info hprep := by
    rcases prepared_cases hprep with ⟨_, _, _, hr, -, -, rfl⟩ | ⟨_, _, hr, -⟩
    · cases hr
      rfl
    · cases hr
  shown _ _ _ _ hprep hstored := getSource_stored hprep hstored

theorem adding_sinks (ptp : Ptp) : Adding host ptp .sink (sinkRules host ptp answers)
    (fun s => .addSink (answers .sink s.id) s) (fun e => getSink_ e.1 e.2) (loadedSink host answers) where
  kind _ := rfl
  adds _ := rfl
  name _ := rfl
  fit sink s hptp _ := by
    rw [Request.prepared, hptp]
    show _ = (decide (sink.id.toNat ≤ streamIdMax) && (preparedSink host (answers .sink sink.id) ptp sink).toOption.isSome)
    by_cases hid : streamIdMax < sink.id.toNat
    · rw [if_pos hid, decide_eq_false (not_le.mpr hid), Bool.false_and]
      rfl
    · rw [if_neg hid, decide_eq_true (not_lt.mp hid), Bool.true_and]
  takes _ _ _ _ := rfl
  shown _ _ _ _ hprep hstored := by
    obtain ⟨sdp, -, htext, -, hread⟩ := getSink_stored hprep hstored
    rw [loadedSink, htext]
    exact hread

/-- **What is shown after a status file was loaded** whose streams are in the order of their ids:
those that are admitted, as they are read back. -/
theorem exists_loadStatus {js : Text} {sources : List StreamSource} {sinks : List StreamSink}
    (hjs : jsonToStreams host.readJson js = some (sources, sinks)) (hsources : sources.Pairwise fun a b => a.id < b.id)
    (hsinks : sinks.Pairwise fun a b => a.id < b.id) (hempty : s.Empty)
    (H : Along (step host) Smooth s (loadRequests answers sources sinks)) :
    ∃ s', s.loadStatus host answers js = some (true, s') ∧
      s'.getSources = ((sourceRules host).admitted [] sources).map (loadedSource host answers) ∧
      s'.getSinks = ((sinkRules host s.ptp answers).admitted [] sinks).map (loadedSink host answers) := by
  have hnone : ∀ {t : SessionManager} {k : Kind}, t.books.names k = .empty → ∀ n, (t.books.names k).find? n = none ↔ n ∉ [] := by
    intro t k ht n
    rw [ht]
    exact iff_of_true rfl List.not_mem_nil
  have hno : ∀ {t : SessionManager} {k : Kind} {id : UInt8}, t.books.table k = .empty →
      ∀ e ∈ (t.books.table k).entries, e.1 < id := by
    intro t k id ht e he
    rw [ht] at he
    cases he
  obtain ⟨s₁, hrun₁, hptp₁, hother₁, hshown₁⟩ := run_adding (adding_sources s.ptp) hsources
    (fun _ _ => hno (hempty.table .source)) (hnone (hempty.names .source)) H.left
  obtain ⟨hsinks₁, hnames₁⟩ := hother₁ .sink (by decide)
  rw [hempty.table] at hsinks₁ hshown₁
  rw [hempty.names] at hnames₁
  obtain ⟨s₂, hrun₂, -, hother₂, hshown₂⟩ := run_adding (adding_sinks s₁.ptp) hsinks
    (fun _ _ => hno hsinks₁) (hnone hnames₁) (H.right hrun₁)
  rw [hptp₁, hsinks₁] at hshown₂
  refine ⟨s₂, ?_, ?_, hshown₂⟩
  · rw [loadStatus, hjs]
    show (run (step host) s (loadRequests answers sources sinks)).map _ = _
    rw [loadRequests, run_append, hrun₁, Option.bind_some, hrun₂]
    rfl
  · rw [getSources, ← books_source, (hother₂ .source (by decide)).1]
    exact hshown₁

end SessionManager
end Aes67Daemon
