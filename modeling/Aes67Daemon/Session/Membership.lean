import Aes67Daemon.Session.Prepared
import Aes67Daemon.Session.Worker

/-!
# Group membership

Each leg has a socket with a reference count for every group.  The counts are
kept by `on_add_…` and `on_remove_…`; what they should count are the registered
legs that send to, or listen to, the group.  The second leg is joined and left
only along with a first leg whose destination is a group, so the counts are right
as long as no stream has a group as its second destination and none as its first.

The groups of PTP are joined by the worker, on its own account.

## Main definitions

* `Igmp.Tracks` — a socket counts and joins the groups as they are used.
* `Books.uses` — how many legs use a group.
* `Books.Joined` — the invariant; `memberships_exact` — what it says of a run.
-/
namespace Aes67Daemon

open Text

/-! ## One socket -/

namespace Igmp

/-- On the groups that satisfy `P`, the socket counts `n` users, and it is a
member, on the interface `ifc`, of those that have any. -/
def Tracks (i : Igmp) (ifc : Text) (P : UInt32 → Prop) (n : UInt32 → ℕ) : Prop :=
  ∀ g, P g → i.refs g = n g ∧ ((g, ifc) ∈ i.members ↔ 0 < n g)

theorem refs_insert (m : SortedMap UInt32 ℕ) (l : List (UInt32 × Text)) (a g : UInt32) (c : ℕ) :
    refs { mcastRef := m.insert a c, members := l } g =
      if g = a then c else refs { mcastRef := m, members := l } g := by
  by_cases h : g = a <;> simp [refs, SortedMap.find?_insert, h]

variable {i : Igmp} {P : UInt32 → Prop} {n m : UInt32 → ℕ} {ip a : UInt32}

theorem joined_eq : i.joined true (Address.toText ip) (Address.toText a) =
    if 0 < i.refs a then { i with mcastRef := i.mcastRef.insert a (i.refs a + 1) }
    else { mcastRef := i.mcastRef.insert a 1
           members := i.members.insert (a, Address.toText ip) } := by
  by_cases h : 0 < i.refs a <;> simp [joined, join, h]

theorem left_eq : i.left true (Address.toText ip) (Address.toText a) =
    if i.refs a = 0 then i
    else if 1 < i.refs a then { i with mcastRef := i.mcastRef.insert a (i.refs a - 1) }
    else { mcastRef := i.mcastRef.insert a (i.refs a - 1)
           members := i.members.filter (· ≠ (a, Address.toText ip)) } := by
  by_cases h : i.refs a = 0
  · simp [left, leave, h]
  · by_cases h1 : 1 < i.refs a <;> simp [left, leave, h, refs_insert, h1]

/-- Joining a group counts one more user. -/
theorem Tracks.joined (h : i.Tracks (Address.toText ip) P n)
    (hm : ∀ g, P g → m g = n g + if a = g then 1 else 0) :
    (i.joined true (Address.toText ip) (Address.toText a)).Tracks (Address.toText ip) P m := by
  intro g hg
  obtain ⟨hrefs, hmem⟩ := h g hg
  have hmg := hm g hg
  rw [joined_eq]
  by_cases hga : g = a
  · subst hga
    rw [if_pos rfl] at hmg
    by_cases hpos : 0 < i.refs g
    · rw [if_pos hpos, refs_insert, if_pos rfl, hmem]
      omega
    · rw [if_neg hpos, refs_insert, if_pos rfl]
      simp only [List.mem_insert_iff, true_or, true_iff]
      omega
  · rw [if_neg (Ne.symm hga), add_zero] at hmg
    rw [hmg]
    by_cases hpos : 0 < i.refs a
    · rw [if_pos hpos, refs_insert, if_neg hga]
      exact ⟨hrefs, hmem⟩
    · rw [if_neg hpos, refs_insert, if_neg hga]
      exact ⟨hrefs, by simp [List.mem_insert_iff, hga, hmem]⟩

/-- Leaving a group counts one user less. -/
theorem Tracks.left (h : i.Tracks (Address.toText ip) P m)
    (hm : ∀ g, P g → m g = n g + if a = g then 1 else 0) :
    (i.left true (Address.toText ip) (Address.toText a)).Tracks (Address.toText ip) P n := by
  intro g hg
  obtain ⟨hrefs, hmem⟩ := h g hg
  have hmg := hm g hg
  rw [left_eq]
  by_cases hga : g = a
  · subst hga
    rw [if_pos rfl] at hmg
    rw [if_neg (by omega)]
    by_cases h1 : 1 < i.refs g
    · rw [if_pos h1, refs_insert, if_pos rfl, hmem]
      omega
    · rw [if_neg h1, refs_insert, if_pos rfl]
      simp only [List.mem_filter, ne_eq, not_true_eq_false, decide_false, Bool.false_eq_true,
        and_false, false_iff]
      omega
  · rw [if_neg (Ne.symm hga), add_zero] at hmg
    rw [hmg] at hrefs hmem
    by_cases h0 : i.refs a = 0
    · rw [if_pos h0]
      exact ⟨hrefs, hmem⟩
    · rw [if_neg h0]
      by_cases h1 : 1 < i.refs a
      · rw [if_pos h1, refs_insert, if_neg hga]
        exact ⟨hrefs, hmem⟩
      · rw [if_neg h1, refs_insert, if_neg hga]
        exact ⟨hrefs, by simp [hga, hmem]⟩

theorem Tracks.congr {ifc : Text} (h : i.Tracks ifc P n) (hm : ∀ g, P g → m g = n g) :
    i.Tracks ifc P m := fun g hg => by rw [hm g hg]; exact h g hg

end Igmp

/-! ## Both sockets -/

/-- The groups of the streams: every group but those of PTP. -/
def StreamGroup (g : UInt32) : Prop :=
  Address.inMulticast g = true ∧ Address.toText g ≠ ptpPrimaryMcastAddr ∧
    Address.toText g ≠ ptpPdelayMcastAddr

/-- The address of the interface of a leg. -/
def interfaceText (host : Host) (sec : Option UInt32) : Fin 2 → Text
  | 0 => host.config.ipAddrStr
  | 1 => ipText sec

/-- The socket options succeed, and the secondary interface has the address
`sec`. -/
structure Env.Steady (host : Host) (sec : Option UInt32) (env : Env) : Prop where
  joinOk : ∀ leg, env.joinOk leg = true
  leaveOk : ∀ leg, env.leaveOk leg = true
  secondary : env.secondaryIp host = sec

/-- The destination of a leg that is in use. -/
def Kind.dest? (k : Kind) (info : StreamInfo) (leg : Fin 2) : Option UInt32 :=
  if k.live info then
    match leg with
    | 0 => some info.stream.leg0.ui32DestIP
    | 1 => if info.st20227Enabled then some info.stream.leg1.ui32DestIP else none
  else none

/-- A stream with two legs has an interface for the second, and does not have a
group as its second destination only. -/
structure StreamInfo.LegsAlike (sec : Option UInt32) (info : StreamInfo) : Prop where
  interface : info.st20227Enabled = true → ∃ ip, sec = some ip
  groups : info.st20227Enabled = true → Address.inMulticast info.stream.leg0.ui32DestIP = true ∨
    ¬ StreamGroup info.stream.leg1.ui32DestIP

/-- Each socket counts the users `n` of its groups. -/
def TracksLegs (host : Host) (sec : Option UInt32) (n : Fin 2 → UInt32 → ℕ) (igmp : Legs Igmp) :
    Prop :=
  ∀ leg, (igmp.get leg).Tracks (interfaceText host sec leg) StreamGroup (n leg)

section
variable {host : Host} {sec : Option UInt32} {env : Env} {k : Kind} {info : StreamInfo}
  {igmp : Legs Igmp} {n m : Fin 2 → UInt32 → ℕ}

theorem dest?_zero (hlive : k.live info = true) :
    k.dest? info 0 = some info.stream.leg0.ui32DestIP := by simp [Kind.dest?, hlive]

theorem dest?_one (hlive : k.live info = true) :
    k.dest? info 1 = if info.st20227Enabled then some info.stream.leg1.ui32DestIP else none := by
  simp [Kind.dest?, hlive]

/-- When the first destination is no group, no leg of the stream uses one. -/
theorem not_uses_of_unicast (hlive : k.live info = true) (hlegs : info.LegsAlike sec)
    (huni : ¬ Address.inMulticast info.stream.leg0.ui32DestIP = true) (leg : Fin 2) {g : UInt32}
    (hg : StreamGroup g) : k.dest? info leg ≠ some g := by
  intro h
  match leg with
  | 0 =>
      rw [dest?_zero hlive] at h
      exact huni (Option.some.inj h ▸ hg.1)
  | 1 =>
      rw [dest?_one hlive] at h
      split at h
      · rename_i hdual
        rcases hlegs.groups hdual with hmul | hnot
        · exact huni hmul
        · exact hnot (Option.some.inj h ▸ hg)
      · cases h

/-- Joining the legs of a stream counts its users. -/
theorem TracksLegs.joinLegs (h : TracksLegs host sec n igmp) (henv : env.Steady host sec)
    (hlive : k.live info = true) (hlegs : info.LegsAlike sec)
    (hm : ∀ leg g, m leg g = n leg g + if k.dest? info leg = some g then 1 else 0) :
    TracksLegs host sec m (SessionManager.joinLegs host env info igmp) := by
  unfold SessionManager.joinLegs
  by_cases hmul : Address.inMulticast info.stream.leg0.ui32DestIP = true
  case neg =>
    rw [if_neg hmul]
    exact fun leg => (h leg).congr fun g hg => by
      rw [hm leg g, if_neg (not_uses_of_unicast hlive hlegs hmul leg hg), add_zero]
  case pos =>
    rw [if_pos hmul, henv.joinOk, henv.joinOk, henv.secondary]
    intro leg
    match leg with
    | 0 => exact (h 0).joined fun g _ => by rw [hm 0 g, dest?_zero hlive]; simp
    | 1 =>
        by_cases hdual : info.st20227Enabled = true
        · obtain ⟨ip, rfl⟩ := hlegs.interface hdual
          rw [if_pos hdual]
          exact (h 1).joined fun g _ => by rw [hm 1 g, dest?_one hlive, if_pos hdual]; simp
        · rw [if_neg hdual]
          exact (h 1).congr fun g _ => by rw [hm 1 g, dest?_one hlive, if_neg hdual]; simp

/-- Leaving the legs of a stream takes its users away. -/
theorem TracksLegs.leaveLegs (h : TracksLegs host sec m igmp) (henv : env.Steady host sec)
    (hlive : k.live info = true) (hlegs : info.LegsAlike sec)
    (hm : ∀ leg g, m leg g = n leg g + if k.dest? info leg = some g then 1 else 0) :
    TracksLegs host sec n (SessionManager.leaveLegs host env info igmp) := by
  unfold SessionManager.leaveLegs
  by_cases hmul : Address.inMulticast info.stream.leg0.ui32DestIP = true
  case neg =>
    rw [if_neg hmul]
    exact fun leg => (h leg).congr fun g hg => by
      rw [hm leg g, if_neg (not_uses_of_unicast hlive hlegs hmul leg hg), add_zero]
  case pos =>
    rw [if_pos hmul, henv.leaveOk, henv.leaveOk, henv.secondary]
    intro leg
    match leg with
    | 0 => exact (h 0).left fun g _ => by rw [hm 0 g, dest?_zero hlive]; simp
    | 1 =>
        by_cases hdual : info.st20227Enabled = true
        · obtain ⟨ip, rfl⟩ := hlegs.interface hdual
          rw [if_pos hdual]
          exact (h 1).left fun g _ => by rw [hm 1 g, dest?_one hlive, if_pos hdual]; simp
        · rw [if_neg hdual]
          exact (h 1).congr fun g _ => by rw [hm 1 g, dest?_one hlive, if_neg hdual]; simp

end

/-! ## The books -/

namespace Books

/-- How many legs, among the tables, have the index `leg` and the destination `g`. -/
def usesIn (table : Kind → SortedMap UInt8 StreamInfo) (leg : Fin 2) (g : UInt32) : ℕ :=
  (table .source).entries.countP (fun e => Kind.source.dest? e.2 leg = some g) +
    (table .sink).entries.countP (fun e => Kind.sink.dest? e.2 leg = some g)

/-- How many legs in use have the index `leg` and the destination `g`. -/
def uses (b : Books) : Fin 2 → UInt32 → ℕ := usesIn b.table

/-- The sockets count and join the groups of the legs in use, and no stream has
legs that are handled differently. -/
structure Joined (host : Host) (sec : Option UInt32) (b : Books) : Prop where
  tracks : TracksLegs host sec b.uses b.igmp
  alike : ∀ k id info, (b.table k).find? id = some info → k.live info = true → info.LegsAlike sec

section
variable {table : Kind → SortedMap UInt8 StreamInfo} {k : Kind} {id : UInt8} {info : StreamInfo}

theorem usesIn_erase (h : (table k).find? id = some info) (leg : Fin 2) (g : UInt32) :
    usesIn table leg g = usesIn (Function.update table k ((table k).erase id)) leg g +
      if k.dest? info leg = some g then 1 else 0 := by
  cases k
  · simp only [usesIn, Function.update_self, Function.update_of_ne (show Kind.sink ≠ .source by
      decide), SortedMap.countP_erase_add _ h, decide_eq_true_eq]
    omega
  · simp only [usesIn, Function.update_self, Function.update_of_ne (show Kind.source ≠ .sink by
      decide), SortedMap.countP_erase_add _ h, decide_eq_true_eq]
    omega

theorem usesIn_insert (h : (table k).find? id = none) (leg : Fin 2) (g : UInt32) :
    usesIn (Function.update table k ((table k).insert id info)) leg g =
      usesIn table leg g + if k.dest? info leg = some g then 1 else 0 := by
  cases k
  · simp only [usesIn, Function.update_self, Function.update_of_ne (show Kind.sink ≠ .source by
      decide), SortedMap.countP_insert_new _ _ h, decide_eq_true_eq]
    omega
  · simp only [usesIn, Function.update_self, Function.update_of_ne (show Kind.source ≠ .sink by
      decide), SortedMap.countP_insert_new _ _ h, decide_eq_true_eq]
    omega

end

variable {host : Host} {sec : Option UInt32} {env : Env} {b : Books} {k : Kind} {id : UInt8}
  {name : Text} {info old : StreamInfo}

theorem dest?_idle (hlive : ¬ k.live info = true) (leg : Fin 2) : k.dest? info leg = none := by
  simp [Kind.dest?, hlive]

/-- Striking a stream leaves its groups. -/
theorem Joined.strike (H : b.Joined host sec) (henv : env.Steady host sec)
    (hfind : (b.table k).find? id = some old) : (b.strike host env k id old).Joined host sec := by
  have huses : ∀ leg g, b.uses leg g = (b.strike host env k id old).uses leg g +
      if k.dest? old leg = some g then 1 else 0 := usesIn_erase hfind
  constructor
  · by_cases hlive : k.live old = true
    · have higmp : (b.strike host env k id old).igmp =
          SessionManager.leaveLegs host env old b.igmp := by simp [Books.strike, hlive]
      rw [higmp]
      exact H.tracks.leaveLegs henv hlive (H.alike k id old hfind hlive) huses
    · have higmp : (b.strike host env k id old).igmp = b.igmp := by simp [Books.strike, hlive]
      rw [higmp]
      exact fun leg => (H.tracks leg).congr fun g _ => by
        rw [huses leg g, dest?_idle hlive]; simp
  · intro k' id' info' hfind' hlive'
    by_cases hk : k' = k
    · subst hk
      simp only [Books.strike, Function.update_self, SortedMap.find?_erase] at hfind'
      split at hfind'
      · cases hfind'
      · exact H.alike k' id' info' hfind' hlive'
    · simp only [Books.strike, Function.update_of_ne hk] at hfind'
      exact H.alike k' id' info' hfind' hlive'

theorem Joined.vacate (H : b.Joined host sec) (henv : env.Steady host sec) :
    (b.vacate host env k id).Joined host sec := by
  unfold Books.vacate
  split
  · exact H
  · exact H.strike henv ‹_›

/-- Entering a stream joins its groups. -/
theorem Joined.enter (H : b.Joined host sec) (henv : env.Steady host sec)
    (habsent : (b.table k).find? id = none) (hlegs : k.live info = true → info.LegsAlike sec) :
    (b.enter host env k id name info).Joined host sec := by
  have huses : ∀ leg g, (b.enter host env k id name info).uses leg g = b.uses leg g +
      if k.dest? info leg = some g then 1 else 0 := usesIn_insert habsent
  constructor
  · by_cases hlive : k.live info = true
    · have higmp : (b.enter host env k id name info).igmp =
          SessionManager.joinLegs host env info b.igmp := by simp [Books.enter, hlive]
      rw [higmp]
      exact H.tracks.joinLegs henv hlive (hlegs hlive) huses
    · have higmp : (b.enter host env k id name info).igmp = b.igmp := by
        simp [Books.enter, hlive]
      rw [higmp]
      exact fun leg => (H.tracks leg).congr fun g _ => by
        rw [huses leg g, dest?_idle hlive]; simp
  · intro k' id' info' hfind' hlive'
    by_cases hk : k' = k
    · subst hk
      simp only [Books.enter, Function.update_self, SortedMap.find?_insert] at hfind'
      split at hfind'
      · cases hfind'
        exact hlegs hlive'
      · exact H.alike k' id' info' hfind' hlive'
    · simp only [Books.enter, Function.update_of_ne hk] at hfind'
      exact H.alike k' id' info' hfind' hlive'

end Books

/-! ## Requests -/

/-- A stream that gets both legs registered has a group as its first destination
or none as its second. -/
def Request.LegsAlike (host : Host) (s : SessionManager) (r : Request) : Prop :=
  ∀ info leg1, r.Registers host s info → r.secondLeg host info = some leg1 →
    Address.inMulticast info.stream.leg0.ui32DestIP = true ∨ ¬ StreamGroup leg1.ui32DestIP

namespace SessionManager
variable {host : Host} {sec : Option UInt32}

/-- A request that wants a secondary leg finds the interface for it. -/
theorem interface_of_secondLeg {r : Request} {info : StreamInfo} {leg1 : TRTPStreamInfo}
    (henv : r.env.Steady host sec) (h : r.secondLeg host info = some leg1) : ∃ ip, sec = some ip := by
  cases r with
  | addSource env source =>
      obtain ⟨ip, hip, -⟩ := Option.map_eq_some_iff.mp h
      split at hip
      · exact ⟨ip, henv.secondary ▸ hip⟩
      · cases hip
  | addSink env sink =>
      obtain ⟨ip, hip, -⟩ := Option.map_eq_some_iff.mp h
      split at hip
      · exact ⟨ip, henv.secondary ▸ hip⟩
      · cases hip
  | removeSource env id => cases h
  | removeSink env id => cases h

/-- **One request keeps the sockets in step.** -/
theorem joined_serve {s : SessionManager} {r : Request} {ret : Ret} {b : Books}
    (H : s.books.Joined host sec) (henv : r.env.Steady host sec) (hlegs : r.LegsAlike host s)
    (h : Books.Serve host s r ret b) : b.Joined host sec := by
  cases h with
  | unchanged => exact H
  | removalFailed => exact ⟨H.tracks, H.alike⟩
  | removed hrem hfind => exact H.strike henv hfind
  | @admitted info _ _ hprep hname hbooks =>
      have Hv : (s.books.vacate host r.env r.kind r.id).Joined host sec := H.vacate henv
      have habsent : ((s.books.vacate host r.env r.kind r.id).table r.kind).find? r.id = none :=
        Books.find?_vacate
      cases hbooks with
      | placed hlive => exact Hv.enter henv habsent fun h => absurd (hlive.symm.trans h) (by simp)
      | refused => exact Hv
      | undone => exact ⟨Hv.tracks, Hv.alike⟩
      | single hlive hfirst hfresh hleg1 =>
          exact Books.Joined.enter (b := { Books.vacate _ _ _ _ _ with driver := _ })
            ⟨Hv.tracks, Hv.alike⟩ henv habsent fun _ => ⟨nofun, nofun⟩
      | dual hlive hfirst hfresh hleg1 hsecond hfresh1 =>
          have hreg := Request.registers_dual hprep hname hlive hfirst hfresh hsecond hfresh1
          exact Books.Joined.enter (b := { Books.vacate _ _ _ _ _ with driver := _ })
            ⟨Hv.tracks, Hv.alike⟩ henv habsent fun _ =>
              ⟨fun _ => interface_of_secondLeg henv hleg1, fun _ => hlegs info _ hreg hleg1⟩

/-- Joining the PTP group does not count for any other group. -/
theorem tracks_joined_ptp {i : Igmp} {n : UInt32 → ℕ} {ip : UInt32}
    (h : i.Tracks (Address.toText ip) StreamGroup n) :
    (i.joined true (Address.toText ip) ptpPrimaryMcastAddr).Tracks (Address.toText ip) StreamGroup
      n := by
  have hptp : ptpPrimaryMcastAddr = Address.toText 0xe0000181 := by decide
  rw [hptp]
  refine h.joined fun g hg => ?_
  have hne : (0xe0000181 : UInt32) ≠ g := fun heq => hg.2.1 (by rw [← heq, hptp])
  rw [if_neg hne, add_zero]

/-- When the worker has started, no group of a stream is joined. -/
theorem joined_init {env : Env} (henv : env.Steady host sec) (now : ℕ) :
    ((create host).init host env now).books.Joined host sec := by
  have h0 : ∀ ifc, Igmp.Tracks {} ifc StreamGroup fun _ => 0 := fun ifc g _ =>
    ⟨rfl, by simp⟩
  constructor
  · intro leg
    match leg with
    | 0 =>
        change (Igmp.joined {} (env.joinOk 0) host.config.ipAddrStr ptpPrimaryMcastAddr).Tracks _ _ _
        rw [henv.joinOk]
        exact tracks_joined_ptp (h0 _)
    | 1 =>
        change (if host.config.interfaceName1 = [] then ({} : Igmp) else Igmp.joined {} (env.joinOk 1)
          (ipText (env.secondaryIp host)) ptpPrimaryMcastAddr).Tracks _ _ _
        rw [henv.joinOk, henv.secondary]
        split
        · exact h0 _
        · cases sec with
          | none => exact h0 _
          | some ip => exact tracks_joined_ptp (h0 _)
  · intro k id info hfind
    cases k <;> cases hfind

/-- **Runs keep the sockets in step.** -/
theorem joined_run {rs : List Request} {s : SessionManager} (h0 : s.books.Joined host sec)
    (henv : ∀ r ∈ rs, r.env.Steady host sec)
    (H : Along (step host) (fun s r => r.Defined host s ∧ r.LegsAlike host s) s rs) :
    ∃ s', run (step host) s rs = some s' ∧ s'.books.Joined host sec := by
  refine run_invariant (P := fun s r => r.env.Steady host sec ∧ r.Defined host s ∧
    r.LegsAlike host s) ?_ h0 ((along_of_forall henv).and H)
  rintro s r hs ⟨hsteady, hdef, hlegs⟩
  obtain ⟨ret, s', -, hstep, hserve⟩ := step_cases hdef
  exact ⟨s', hstep, joined_serve hs hsteady hlegs hserve⟩

/-- **The reference counts are exact, and the sockets are members of the groups
in use**: in every run of requests that have a defined outcome and do not
register a stream whose second destination only is a group. -/
theorem memberships_exact (host : Host) (sec : Option UInt32) (env₀ : Env) (now : ℕ)
    (rs : List Request) (henv₀ : env₀.Steady host sec) (henv : ∀ r ∈ rs, r.env.Steady host sec)
    (H : Along (step host) (fun s r => r.Defined host s ∧ r.LegsAlike host s)
      ((create host).init host env₀ now) rs) :
    ∃ s, run (step host) ((create host).init host env₀ now) rs = some s ∧
      ∀ leg g, StreamGroup g →
        (s.igmp.get leg).refs g = s.books.uses leg g ∧
        ((g, interfaceText host sec leg) ∈ (s.igmp.get leg).members ↔ 0 < s.books.uses leg g) := by
  obtain ⟨s, hrun, hs⟩ := joined_run (joined_init henv₀ now) henv H
  exact ⟨s, hrun, hs.tracks⟩

/-- A source with two multicast legs. -/
theorem memberships_exact_redundant :
    ∃ s, run (step redundantHost)
      ((create redundantHost).init redundantHost (.answering (some 0x0a000001) (.ok 7) (.ok 8)) 0)
      [.addSource (.answering (some 0x0a000001) (.ok 7) (.ok 8)) (stereoSource 1 "a".toList)] =
        some s ∧
      ∀ leg g, StreamGroup g →
        (s.igmp.get leg).refs g = s.books.uses leg g ∧
        ((g, interfaceText redundantHost (some 0x0a000001) leg) ∈ (s.igmp.get leg).members ↔
          0 < s.books.uses leg g) :=
  memberships_exact redundantHost (some 0x0a000001) _ 0 _
    ⟨fun _ => rfl, fun _ => rfl, by decide⟩
    (fun r hr => by rw [List.mem_singleton.mp hr]; exact ⟨fun _ => rfl, fun _ => rfl, by decide⟩)
    ⟨⟨fun info h0 leg1 hl => by
        obtain rfl := Except.ok.inj hl.first
        exact absurd ⟨by decide, rfl⟩ hl.second,
      fun info leg1 hreg _ => .inl (by
        rcases prepared_cases hreg.prepared with
          ⟨env, source, stream, hr, -, hstream, rfl⟩ | ⟨env, sink, hr, -⟩
        · obtain ⟨rfl, rfl⟩ := Request.addSource.inj hr
          have hdest := (sourceStream_fields hstream).2.2.2.2
          rw [show (sourceInfo _ _ stream _).stream.leg0 = stream from rfl, hdest]
          decide
        · cases hr)⟩, fun _ _ => trivial⟩

/-- A source that sends to a host and, redundantly, to a group: the driver has
both legs, but nobody joined the group. -/
theorem membership_missing :
    ∃ s, run (step redundantHost)
      ((create redundantHost).init redundantHost (.answering (some 0x0a000001) (.ok 7) (.ok 8)) 0)
      [.addSource { Env.answering (some 0x0a000001) (.ok 7) (.ok 8) with
          arpCache := fun _ _ => some [0, 1, 2, 3, 4, 5] }
        { stereoSource 1 "a".toList with
          address := "10.0.0.5".toList, addressSec := "239.1.1.1".toList }] = some s ∧
      StreamGroup 0xef010101 ∧ s.books.uses 1 0xef010101 = 1 ∧
      (s.igmp.get 1).refs 0xef010101 = 0 := by
  have h : (run (step redundantHost)
      ((create redundantHost).init redundantHost (.answering (some 0x0a000001) (.ok 7) (.ok 8)) 0)
      [.addSource { Env.answering (some 0x0a000001) (.ok 7) (.ok 8) with
          arpCache := fun _ _ => some [0, 1, 2, 3, 4, 5] }
        { stereoSource 1 "a".toList with
          address := "10.0.0.5".toList, addressSec := "239.1.1.1".toList }]).map
      (fun s => (s.books.uses 1 0xef010101, (s.igmp.get 1).refs 0xef010101)) = some (1, 0) := by
    decide +kernel
  obtain ⟨s, hs, heq⟩ := Option.map_eq_some_iff.mp h
  simp only [Prod.mk.injEq] at heq
  exact ⟨s, hs, ⟨by decide, by decide, by decide⟩, heq.1, heq.2⟩

end SessionManager
end Aes67Daemon
