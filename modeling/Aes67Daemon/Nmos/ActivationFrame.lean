import Aes67Daemon.Nmos.ReadBack
import Aes67Daemon.Session.DestinationMac
import Aes67Daemon.Session.Settled

/-!
# What an activation leaves alone

The second pass of `is08_apply_action_json` changes a channel by reading a whole stream,
changing its map and adding it again.  In a settled state the stream that is added again has
the settings it had, apart from that channel; the other streams are not touched.

## Main definitions

* `Addressed` — a channel that an item with an input writes to.
* `SessionManager.Framed` — nothing but addressed channels has changed.
* `Settled.applyStep` — one round.
* `CmHost.activation_framed` — an activation.
-/
namespace Aes67Daemon

open Text

/-- The settings of a source without its channels. -/
def StreamSource.unmapped (s : StreamSource) : StreamSource := { s with map := [] }

/-- The settings of a sink without its channels. -/
def StreamSink.unmapped (s : StreamSink) : StreamSink := { s with map := [] }

/-- An item with an input writes to a channel. -/
def Addressed (work : List Is08WorkItem) (c : StreamChannel) : Prop :=
  ∃ w ∈ work, w.clear = false ∧ w.assign.target = c

section
variable {w : Is08WorkItem} {work : List Is08WorkItem} {c : StreamChannel}

theorem addressed_singleton : Addressed [w] c ↔ w.clear = false ∧ w.assign.target = c := by
  simp [Addressed]

theorem addressed_cons : Addressed (w :: work) c ↔ Addressed [w] c ∨ Addressed work c := by
  simp [Addressed]

end

namespace SessionManager
variable {host : Host} {env : Env} {sec : Option UInt32} {w : Is08WorkItem} {work : List Is08WorkItem}
  {r : Request} {s s' s₁ : SessionManager}

/-- Nothing but addressed channels has changed, and only their streams were added again. -/
structure Framed (host : Host) (s s' : SessionManager) (work : List Is08WorkItem) : Prop where
  sources : ∀ id, (s'.getSource id).map StreamSource.unmapped = (s.getSource id).map StreamSource.unmapped
  sinks : ∀ id, (s'.getSink id).map StreamSink.unmapped = (s.getSink id).map StreamSink.unmapped
  shape : ∀ k id, s'.shape k id = s.shape k id
  channels : ∀ c, ¬ Addressed work c → s'.alsaAt c = s.alsaAt c
  others : ∀ k id, (∀ i, ¬ Addressed work ⟨k, id, i⟩) →
    (s'.books.table k).find? id = (s.books.table k).find? id
  requests : ∃ rs, run (step host) s rs = some s' ∧
    ∀ r ∈ rs, r.removes = false ∧ ∃ i, Addressed work ⟨r.kind, r.id, i⟩

/-- The driver registers the legs of the stream that the round of an item adds again. -/
def DriverSucceeds (host : Host) (s : SessionManager) (w : Env × Is08WorkItem) : Prop :=
  ∀ r info, s.itemRequest w.1 w.2 = some (some r) → r.prepared host s = some info → r.kind.live info = true →
    (s.books.vacate host r.env r.kind r.id).driver.accepts r.env.replies.addFirst ∧
    ∀ h0 leg1, r.env.replies.addFirst = .ok h0 → r.secondLeg host info = some leg1 →
      ((s.books.vacate host r.env r.kind r.id).driver.hold h0 info.stream.leg0).accepts r.env.replies.addSecond

/-- A driver with two handles to give away registers whatever a round adds again. -/
theorem driverSucceeds_of_fresh {h0 h1 : Handle} (hfirst : env.replies.addFirst = .ok h0)
    (hsecond : env.replies.addSecond = .ok h1) (hne : h1 ≠ h0) (hfresh0 : s.driver.fresh h0)
    (hfresh1 : s.driver.fresh h1) : DriverSucceeds host s (env, w) := by
  intro r info hr _ _
  have henv : r.env = env := (itemRequest_eq_some hr).env
  have hvacated : ∀ {h : Handle}, s.driver.fresh h → (s.books.vacate host env r.kind r.id).driver.fresh h := by
    intro h hfresh
    refine ⟨hfresh.1, Option.eq_none_iff_forall_ne_some.mpr fun stream hreg => ?_⟩
    have hbefore : s.driver.registered.find? h = some stream := Books.registered_of_vacate hreg
    rw [hfresh.2] at hbefore
    cases hbefore
  rw [henv, hfirst, hsecond]
  refine ⟨hvacated hfresh0, fun h0' leg1 heq _ => ?_⟩
  obtain rfl := Except.ok.inj heq
  refine ⟨hfresh1.1, ?_⟩
  rw [Driver.hold, SortedMap.find?_insert_of_ne _ _ hne]
  exact (hvacated hfresh1).2

/-! ## One round -/

/-- **A round adds a stream again with other channels.** -/
theorem itemRequest_again (h : s.itemRequest env w = some (some r)) :
    (∃ src map, s.getSource src.id = some src ∧ r = .addSource env { src with map := map }) ∨
    ∃ sink map, s.getSink sink.id = some sink ∧ r = .addSink env { sink with map := map } := by
  have hsource : ∀ {id : UInt8} {src : StreamSource}, s.getSource id = some src → src.id = id := by
    intro id src hsrc
    obtain ⟨info, -, rfl⟩ := Option.map_eq_some_iff.mp hsrc
    rfl
  have hsink : ∀ {id : UInt8} {sink : StreamSink}, s.getSink id = some sink → sink.id = id := by
    intro id sink hget
    obtain ⟨info, -, rfl⟩ := Option.map_eq_some_iff.mp hget
    rfl
  unfold itemRequest at h
  split at h
  · split at h
    · cases h
    · rename_i src hsrc
      have hsrc' : s.getSource src.id = some src := by rw [hsource hsrc, hsrc]
      split at h
      · cases h
      · split at h
        · split at h
          · cases h
          · obtain ⟨c, -, h⟩ := Option.bind_eq_some_iff.mp h
            obtain ⟨map, -, h⟩ := Option.bind_eq_some_iff.mp h
            cases h
            exact .inl ⟨src, map, hsrc', rfl⟩
        · obtain ⟨map, -, h⟩ := Option.bind_eq_some_iff.mp h
          cases h
          exact .inl ⟨src, map, hsrc', rfl⟩
  · split at h
    · cases h
    · split at h
      · cases h
      · rename_i sink hget
        obtain ⟨map, -, h⟩ := Option.bind_eq_some_iff.mp h
        cases h
        exact .inr ⟨sink, map, by rw [hsink hget, hget], rfl⟩

/-- **The outside world lets a settled stream be added again.** -/
theorem Settled.itemGranted (H : s.Settled host sec)
    (hmac : ∀ ip, Address.inMulticast ip = false → (retrieveMac env ip).isSome)
    (hdriver : DriverSucceeds host s (env, w)) : ItemGranted host s (env, w) := by
  intro r hr
  have hr : s.itemRequest env w = some (some r) := hr
  have hspec := itemRequest_eq_some hr
  obtain ⟨info, hprep⟩ : ∃ info, r.prepared host s = some info := by
    rcases itemRequest_again hr with ⟨src, map, hsrc, rfl⟩ | ⟨sink, map, hsink, rfl⟩
    · obtain ⟨info, hfind, -⟩ := Option.map_eq_some_iff.mp hsrc
      have hid := H.range .source src.id info hfind
      obtain ⟨stream, hstream⟩ : ∃ stream, sourceStream host env { src with map := map } s.driver.sampleRate =
          some stream := by
        rw [sourceStream]
        split
        · exact ⟨_, rfl⟩
        · rename_i hunicast
          obtain ⟨mac, hmac⟩ := Option.isSome_iff_exists.mp (hmac _ (Bool.eq_false_iff.mpr hunicast))
          exact ⟨_, by rw [hmac]; rfl⟩
      have hfits : map.length ≤ host.routingSize :=
        (hspec.length_eq (by simp [Request.kind, Request.id, hsrc] : s.channels _ _ = some src.map)).trans_le (H.source _ _ hsrc).fits
      exact ⟨_, by rw [Request.prepared, if_neg (not_or.mpr ⟨not_lt.mpr hid, not_lt.mpr hfits⟩), hstream]; rfl⟩
    · obtain ⟨info, hfind, -⟩ := Option.map_eq_some_iff.mp hsink
      have hid := H.range .sink sink.id info hfind
      have hlength : map.length < 256 := hspec.length_lt
      have hfits : map.length ≤ host.routingSize :=
        (hspec.length_eq (by simp [Request.kind, Request.id, hsink] : s.channels _ _ = some sink.map)).trans_le (H.sink _ _ hsink).fits
      obtain ⟨info, hinfo⟩ := ((H.sink _ _ hsink).withMap hlength hfits).preparedSink env
      exact ⟨info, by rw [Request.prepared, if_neg (not_lt.mpr hid), hinfo]; rfl⟩
  exact ⟨info, hprep, hdriver r info hr hprep⟩

theorem getSource_congr {id : UInt8} (h : (s'.books.table .source).find? id = (s.books.table .source).find? id) :
    s'.getSource id = s.getSource id := congrArg (Option.map (getSource_ id)) h

theorem getSink_congr {id : UInt8} (h : (s'.books.table .sink).find? id = (s.books.table .sink).find? id) :
    s'.getSink id = s.getSink id := congrArg (Option.map (getSink_ id)) h

/-- A table in which one entry has been replaced by a like one. -/
theorem of_replaced {α β : Type} {P : α → Prop} (view : α → β) {old new : UInt8 → Option α} {i : UInt8} {a b : α}
    (hold : old i = some a) (hnew : new i = some b) (hview : view b = view a)
    (hother : ∀ j, j ≠ i → new j = old j) (hall : ∀ j c, old j = some c → P c) (hb : P b) :
    (∀ j c, new j = some c → P c) ∧ ∀ j, (new j).map view = (old j).map view := by
  constructor
  · intro j c hc
    by_cases hj : j = i
    · subst hj
      rw [hnew] at hc
      cases hc
      exact hb
    · rw [hother j hj] at hc
      exact hall j c hc
  · intro j
    by_cases hj : j = i
    · subst hj
      rw [hnew, hold, Option.map_some, Option.map_some, hview]
    · rw [hother j hj]

/-- **A settled stream that is added again with other channels** is settled, and has the
settings it had. -/
theorem Settled.serve (H : s.Settled host sec) (hsec : env.secondaryIp host = sec)
    (hr : s.itemRequest env w = some (some r)) (h : s.serve host r = some (.ok, s')) :
    s'.Settled host sec ∧
      (∀ id, (s'.getSource id).map StreamSource.unmapped = (s.getSource id).map StreamSource.unmapped) ∧
      ∀ id, (s'.getSink id).map StreamSink.unmapped = (s.getSink id).map StreamSink.unmapped := by
  have hspec := itemRequest_eq_some hr
  have hother : ∀ k id, ¬ (k = r.kind ∧ id = r.id) → (s'.books.table k).find? id = (s.books.table k).find? id := by
    obtain ⟨_, _, -, -, htable⟩ := find?_of_serve_ok (serve_books h) hspec.adds
    exact fun k id hne => (htable k id).trans (if_neg hne)
  have hptp : s'.ptp = s.ptp := congrArg Outside.ptp (serve_outside h).1
  have hrange : s'.InRange := by
    have hocc : s.occur host (.request r) = some s' := by rw [occur, step, h]; rfl
    exact inRange_occur H.range hocc
  rcases itemRequest_again hr with ⟨src, map, hsrc, rfl⟩ | ⟨sink, map, hsink, rfl⟩
  · have hlength : map.length < 256 := hspec.length_lt
    have hfits : map.length ≤ host.routingSize :=
      (hspec.length_eq (by simp [Request.kind, Request.id, hsrc] : s.channels _ _ = some src.map)).trans_le (H.source _ _ hsrc).fits
    have hsettled := (H.source _ _ hsrc).withMap hlength hfits
    have hafter : s'.getSource src.id = some { src with map := map } :=
      (getSource_addSource h).trans (congrArg some (hsettled.readBack env hsec))
    have hsources : ∀ id, id ≠ src.id → s'.getSource id = s.getSource id := fun id hid =>
      getSource_congr (hother .source id fun heq => hid heq.2)
    have hsinks : ∀ id, s'.getSink id = s.getSink id := fun id =>
      getSink_congr (hother .sink id fun heq => by cases heq.1)
    obtain ⟨hsource, hsame⟩ := of_replaced StreamSource.unmapped hsrc hafter rfl hsources H.source hsettled
    refine ⟨⟨hrange, hsource, fun id sink hsink => ?_⟩, hsame, fun id => by rw [hsinks]⟩
    rw [hsinks] at hsink
    rw [hptp]
    exact H.sink id sink hsink
  · have hlength : map.length < 256 := hspec.length_lt
    have hfits : map.length ≤ host.routingSize :=
      (hspec.length_eq (by simp [Request.kind, Request.id, hsink] : s.channels _ _ = some sink.map)).trans_le (H.sink _ _ hsink).fits
    have hsettled := (H.sink _ _ hsink).withMap hlength hfits
    have huse : sink.useSdp = true := congrArg StreamSink.useSdp (H.sink _ _ hsink).readBack.symm
    have hafter : s'.getSink sink.id = some { sink with map := map } := by
      have hadd : s.addSink host env { sink with map := map } = (.ok, s') := Option.some.inj h
      have huse' : ({ sink with map := map } : StreamSink).useSdp = true := huse
      exact (getSink_addSink huse' hadd).trans (congrArg some hsettled.readBack)
    have hsinks : ∀ id, id ≠ sink.id → s'.getSink id = s.getSink id := fun id hid =>
      getSink_congr (hother .sink id fun heq => hid heq.2)
    have hsources : ∀ id, s'.getSource id = s.getSource id := fun id =>
      getSource_congr (hother .source id fun heq => by cases heq.1)
    obtain ⟨hsettledSinks, hsame⟩ := of_replaced StreamSink.unmapped hsink hafter rfl hsinks H.sink hsettled
    refine ⟨⟨hrange, fun id src hsrc => ?_, by rwa [hptp]⟩, fun id => by rw [hsources], hsame⟩
    rw [hsources] at hsrc
    exact H.source id src hsrc

/-! ## Frames -/

theorem shape_of_isSome (hchannels : ∀ k id, (s'.channels k id).isSome = (s.channels k id).isSome)
    (halsa : ∀ c, (s'.alsaAt c).isSome = (s.alsaAt c).isSome) (k : Kind) (id : UInt8) :
    s'.shape k id = s.shape k id := by
  have hsame := hchannels k id
  cases hmap : s.channels k id with
  | none =>
      rw [hmap, Option.isSome_none, Option.isSome_eq_false_iff, Option.isNone_iff_eq_none] at hsame
      rw [shape, shape, hmap, hsame]
  | some map =>
      rw [hmap, Option.isSome_some] at hsame
      obtain ⟨map', hmap'⟩ := Option.isSome_iff_exists.mp hsame
      have hindex : ∀ i, i < map'.length ↔ i < map.length := by
        intro i
        have hat := halsa ⟨k, id, i⟩
        rw [alsaAt, alsaAt, hmap, hmap', Option.bind_some, Option.bind_some] at hat
        rw [← isSome_getElem? map' i, ← isSome_getElem? map i, hat]
      rw [shape, shape, hmap, hmap', Option.map_some, Option.map_some,
        le_antisymm (le_of_forall_lt fun i hi => (hindex i).mp hi) (le_of_forall_lt fun i hi => (hindex i).mpr hi)]

theorem Framed.refl (s : SessionManager) (work : List Is08WorkItem) : Framed host s s work where
  sources _ := rfl
  sinks _ := rfl
  shape _ _ := rfl
  channels _ _ := rfl
  others _ _ _ := rfl
  requests := ⟨[], rfl, fun r hr => by cases hr⟩

/-- The frame of one round, and that of the rounds after it. -/
theorem Framed.cons (h₁ : Framed host s s₁ [w]) (h : Framed host s₁ s' work) : Framed host s s' (w :: work) where
  sources id := (h.sources id).trans (h₁.sources id)
  sinks id := (h.sinks id).trans (h₁.sinks id)
  shape k id := (h.shape k id).trans (h₁.shape k id)
  channels c hc := by
    rw [addressed_cons, not_or] at hc
    exact (h.channels c hc.2).trans (h₁.channels c hc.1)
  others k id hid := by
    have hboth := fun i => not_or.mp (mt addressed_cons.mpr (hid i))
    exact (h.others k id fun i => (hboth i).2).trans (h₁.others k id fun i => (hboth i).1)
  requests := by
    obtain ⟨rs₁, hrun₁, hrs₁⟩ := h₁.requests
    obtain ⟨rs, hrun, hrs⟩ := h.requests
    refine ⟨rs₁ ++ rs, by rw [run_append, hrun₁]; exact hrun, fun r hr => ?_⟩
    rcases List.mem_append.mp hr with hr | hr
    · obtain ⟨hadds, i, haddr⟩ := hrs₁ r hr
      exact ⟨hadds, i, addressed_cons.mpr (.inl haddr)⟩
    · obtain ⟨hadds, i, haddr⟩ := hrs r hr
      exact ⟨hadds, i, addressed_cons.mpr (.inr haddr)⟩

/-- **One round** adds the stream it addresses again, and leaves the rest as it is. -/
theorem Settled.applyStep (H : s.Settled host sec) (hready : Ready s w) (hsec : env.secondaryIp host = sec)
    (hmac : ∀ ip, Address.inMulticast ip = false → (retrieveMac env ip).isSome)
    (hdriver : DriverSucceeds host s (env, w)) :
    ∃ s', s.applyStep host (env, w) = some s' ∧ s'.Settled host sec ∧ Framed host s s' [w] ∧
      ∀ c, (s'.alsaAt c).isSome = (s.alsaAt c).isSome := by
  have happlied := hready.applied_iff.mpr (H.itemGranted hmac hdriver)
  cases hclear : w.clear with
  | true =>
      refine ⟨s, ?_, H, Framed.refl s [w], fun _ => rfl⟩
      simp [SessionManager.applyStep, applyItem, itemRequest_clear hclear]
  | false =>
      obtain ⟨s', hstep, halsa, hchannels, hsome⟩ := hready.applyStep happlied
      obtain ⟨r, hr⟩ := hready.itemRequest hclear env
      have hspec := itemRequest_eq_some hr
      have hserve : s.serve host r = some (.ok, s') := by
        obtain ⟨t, ht⟩ := happlied hclear
        have hsame : t = s' := by
          rw [SessionManager.applyStep, ht] at hstep
          exact Option.some.inj hstep
        rw [applyItem, hr, Option.bind_some] at ht
        obtain ⟨⟨ret, u⟩, hserve, heq⟩ := Option.map_eq_some_iff.mp ht
        simp only [Prod.mk.injEq, Option.some.injEq] at heq
        rw [hserve, heq.1, heq.2, hsame]
      obtain ⟨hsettled, hsources, hsinks⟩ := H.serve hsec hr hserve
      have haddr : Addressed [w] ⟨r.kind, r.id, w.assign.target.index⟩ := by
        rw [addressed_singleton, hspec.kind, hspec.id]
        exact ⟨hclear, rfl⟩
      refine ⟨s', hstep, hsettled, ⟨hsources, hsinks, shape_of_isSome hchannels hsome, fun c hc => ?_,
        fun k id hid => ?_, ?_⟩, hsome⟩
      · rw [addressed_singleton, hclear] at hc
        rw [halsa, assignments_cons, hclear, if_neg Bool.false_ne_true, assignments_nil]
        exact Assign.exec_of_ne fun heq => hc ⟨rfl, heq.symm⟩
      · obtain ⟨_, _, -, -, htable⟩ := find?_of_serve_ok (serve_books hserve) hspec.adds
        refine (htable k id).trans (if_neg fun heq => ?_)
        obtain ⟨rfl, rfl⟩ := heq
        exact hid _ haddr
      · refine ⟨[r], by rw [run_cons, step, hserve]; rfl, fun r' hr' => ?_⟩
        obtain rfl := List.mem_singleton.mp hr'
        exact ⟨hspec.adds, _, haddr⟩

/-- **All rounds** of an activation in a settled state. -/
theorem Settled.run_rounds {envs : ℕ → Env} (H : s.Settled host sec) (hready : ∀ w ∈ work, Ready s w)
    (hsec : ∀ n, (envs n).secondaryIp host = sec)
    (hmac : ∀ n ip, Address.inMulticast ip = false → (retrieveMac (envs n) ip).isSome)
    (hdriver : Along (SessionManager.applyStep host) (DriverSucceeds host) s (rounds envs work)) :
    ∃ s', run (SessionManager.applyStep host) s (rounds envs work) = some s' ∧ Framed host s s' work := by
  induction work generalizing s envs with
  | nil => exact ⟨s, rfl, Framed.refl s []⟩
  | cons w work ih =>
      rw [rounds_cons] at hdriver ⊢
      obtain ⟨hfirst, hrest⟩ := along_cons.mp hdriver
      obtain ⟨s₁, hs₁, hsettled, hframe, hsome⟩ :=
        H.applyStep (hready w List.mem_cons_self) (hsec 0) (hmac 0) hfirst
      have hready₁ : ∀ v ∈ work, Ready s₁ v := fun v hv =>
        (hready v (List.mem_cons_of_mem _ hv)).of_isSome hsome
      obtain ⟨s', hrun, hframe'⟩ :=
        ih hsettled hready₁ (fun n => hsec (n + 1)) (fun n => hmac (n + 1)) (hrest s₁ hs₁)
      exact ⟨s', by rw [run_cons, hs₁]; exact hrun, hframe.cons hframe'⟩

end SessionManager

namespace CmHost

/-- **An activation changes nothing but the channels it addresses**: with the streams added
in the present circumstances, MAC addresses that can be resolved and a driver that registers
what it is given, every accepted action is applied, the settings of all streams are as
before, and so are the channels that no item with an input writes to. -/
theorem activation_framed {h : CmHost} {env : Env} {now : ℕ} {events : List Event} {s : SessionManager}
    (hrun : run (SessionManager.occur h.host) (SessionManager.start h.host env now) events = some s)
    {sec : Option UInt32}
    (hadded : Along (SessionManager.occur h.host) (SessionManager.AddedAlike h.host sec s)
      (SessionManager.start h.host env now) events)
    {readJson : Text → Option Ptree} {actionJson : Text} {action : Ptree} {groups : List Is08Group}
    (hread : readJson actionJson = some action) (haccept : h.resolveAction s action = .ok groups) {envs : ℕ → Env}
    (hsec : ∀ n, (envs n).secondaryIp h.host = sec)
    (hmac : ∀ n ip, Address.inMulticast ip = false → (SessionManager.retrieveMac (envs n) ip).isSome)
    (hdriver : Along (SessionManager.applyStep h.host) (SessionManager.DriverSucceeds h.host) s
      (rounds envs (work groups))) :
    ∃ s', h.is08ApplyActionJson readJson envs actionJson false s = some (.ok (canonicalJson groups), s') ∧
      SessionManager.Framed h.host s s' (work groups) := by
  obtain ⟨s', hrounds, hframe⟩ :=
    (SessionManager.settled_of_run hrun hadded).run_rounds (ready_of_accepted haccept) hsec hmac hdriver
  exact ⟨s', by rw [apply_accepted hread haccept, hrounds]; rfl, hframe⟩

/-! ## A sample activation -/

/-- A host with a secondary interface, whose ids are different. -/
def redundantMapHost : CmHost := { mapHost with host := redundantHost }

/-- A source with two legs, and a sink. -/
def redundantStreams : List Request :=
  [.addSource (.answering (some 7) (.ok 7) (.ok 8)) (stereoSource 1 "a".toList),
    .addSink (.answering (some 7) (.ok 9) (.ok 10))
      { stereoSink 1 "b".toList (SessionManager.versionSdp "1".toList) with map := [2, 3] }]

/-- The answers to an activation: two more handles, and a MAC address for every address. -/
def grantingEnv : Env := { Env.answering (some 7) (.ok 11) (.ok 12) with arpCache := fun _ _ => some [0, 0, 0, 0, 0, 1] }

/-- The first channel of the source is connected to the first one of the sink, and the rest stays. -/
theorem activation_framed_redundant : ∃ s action groups s',
    run (SessionManager.occur redundantHost) (SessionManager.start redundantHost {} 0)
      (redundantStreams.map .request) = some s ∧
    Json.read (actionText redundantMapHost (sinkItem redundantMapHost 1 1)) = some action ∧
    redundantMapHost.resolveAction s action = .ok groups ∧ work groups = [sinkItem redundantMapHost 1 1] ∧
    redundantMapHost.is08ApplyActionJson Json.read (fun _ => grantingEnv)
      (actionText redundantMapHost (sinkItem redundantMapHost 1 1)) false s = some (.ok (canonicalJson groups), s') ∧
    SessionManager.Framed redundantHost s s' (work groups) := by
  have heval : (run (SessionManager.occur redundantHost) (SessionManager.start redundantHost {} 0)
      (redundantStreams.map .request)).map (fun s => (decide (s.driver.fresh 11), decide (s.driver.fresh 12),
        (Json.read (actionText redundantMapHost (sinkItem redundantMapHost 1 1))).bind fun action =>
          (redundantMapHost.resolveAction s action).toOption.map work)) =
      some (true, true, some [sinkItem redundantMapHost 1 1]) := by
    decide +kernel
  obtain ⟨s, hrun, heq⟩ := Option.map_eq_some_iff.mp heval
  simp only [Prod.mk.injEq, decide_eq_true_eq] at heq
  obtain ⟨hfresh, hfresh', haccept⟩ := heq
  obtain ⟨action, hread, haccept⟩ := Option.bind_eq_some_iff.mp haccept
  obtain ⟨groups, haccept, hwork⟩ := Option.map_eq_some_iff.mp haccept
  have hok := toOption_eq_some haccept
  have hdriver : Along (SessionManager.applyStep redundantHost) (SessionManager.DriverSucceeds redundantHost) s
      (rounds (fun _ => grantingEnv) (work groups)) := by
    have hfirst : grantingEnv.replies.addFirst = .ok 11 := rfl
    have hsecond : grantingEnv.replies.addSecond = .ok 12 := rfl
    rw [hwork]
    exact ⟨SessionManager.driverSucceeds_of_fresh hfirst hsecond (by decide) hfresh hfresh', fun _ _ => trivial⟩
  have hadded : Along (SessionManager.occur redundantHost) (SessionManager.AddedAlike redundantHost (some 7) s)
      (SessionManager.start redundantHost {} 0) (redundantStreams.map .request) := by
    refine SessionManager.along_addedAlike ?_ hrun
    decide +kernel
  have hsec : ∀ n : ℕ, ((fun _ => grantingEnv) n).secondaryIp redundantHost = some 7 := fun _ => rfl
  have hmac : ∀ (n : ℕ) ip, Address.inMulticast ip = false →
      (SessionManager.retrieveMac ((fun _ => grantingEnv) n) ip).isSome := fun _ _ _ => rfl
  obtain ⟨s', happly, hframe⟩ := activation_framed (h := redundantMapHost) hrun hadded hread hok hsec hmac hdriver
  exact ⟨s, action, groups, s', hrun, hread, hok, hwork, happly, hframe⟩

end CmHost
end Aes67Daemon
