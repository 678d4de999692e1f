import Aes67Daemon.Lib.Run
import Aes67Daemon.Lib.Text

/-!
# Discovering a registry

With auto-discovery the manager has one address and one port for all the registries that
Avahi tells of: each registry that is resolved takes the place of the one before, and each
one that goes away clears both, whichever it was.  A client of the registry reads the
address and the port one after the other, and the callbacks can run in between.

## Main definitions

* `effectiveRegistryAddress`, `effectiveRegistryPort` — what the clients read.
* `Discovery`, `Discovery.step` — the callbacks, and a client that reads.
* `Discovery.Usable` — a registry that is present is in force, and the client has read one.
* `Discovery.usable_iff` — this is so all along exactly when no registry goes away while
  another one is present, and none takes another's place while the client reads.
-/
namespace Aes67Daemon

/-- The settings about the registry. -/
structure RegistryConfig where
  autoDiscover : Bool
  address : Text
  port : UInt16

/-- `discovered_registry_address_` and `discovered_registry_port_`. -/
structure Discovered where
  address : Text := []
  port : UInt16 := 0

/-- `effective_registry_address`. -/
def effectiveRegistryAddress (c : RegistryConfig) (d : Discovered) : Text :=
  if c.autoDiscover ∧ d.address ≠ [] then d.address else c.address

/-- `effective_registry_port`. -/
def effectiveRegistryPort (c : RegistryConfig) (d : Discovered) : UInt16 :=
  if c.autoDiscover ∧ d.address ≠ [] then d.port else c.port

variable {ν : Type}

/-- What Avahi tells of the services, and what a client does. -/
inductive DiscoveryEvent (ν : Type)
  | new (service : ν)
  | remove (service : ν)
  /-- The resolver prints an address, which is not empty. -/
  | found (service : ν) (address : Text) (nonempty : address ≠ []) (port : UInt16)
  | failed (service : ν)
  /-- The client reads the address, or the port, ... -/
  | readFirst (addressFirst : Bool)
  /-- ... and then the other one: the order of evaluation is not specified. -/
  | readSecond

/-- A client that has read one of the two. -/
structure Reading where
  addressFirst : Bool
  /-- The address and the port at that time. -/
  pair : Text × UInt16
  /-- The pairs that were right at that time. -/
  right : List (Text × UInt16)

/-- The discovery, with what has been seen of the services. -/
structure Discovery (ν : Type) where
  discovered : Discovered := {}
  announced : List ν := []
  /-- The services with a resolver that has not answered. -/
  resolving : List ν := []
  /-- The services that have been resolved and not removed since. -/
  present : List (ν × Text × UInt16) := []
  reading : Option Reading := none
  /-- What the client has read last, and the pairs that were right when it did. -/
  client : Option ((Text × UInt16) × List (Text × UInt16)) := none

namespace Discovery

/-- The address and the port. -/
def inForce (c : RegistryConfig) (s : Discovery ν) : Text × UInt16 :=
  (effectiveRegistryAddress c s.discovered, effectiveRegistryPort c s.discovered)

/-- The pairs of the registries that are present, or the configured one when none is. -/
def rightPairs (c : RegistryConfig) (s : Discovery ν) : List (Text × UInt16) :=
  if s.present = [] then [(c.address, c.port)] else s.present.map Prod.snd

/-- What a client has read when the pair has become `now`. -/
def Reading.read (r : Reading) (now : Text × UInt16) : Text × UInt16 :=
  if r.addressFirst then (r.pair.1, now.2) else (now.1, r.pair.2)

/-- A registry that is present is in force, and the client has read a pair that was right. -/
structure Usable (c : RegistryConfig) (s : Discovery ν) : Prop where
  registry : s.present ≠ [] → s.inForce c ∈ s.present.map Prod.snd
  client : ∀ p ∈ s.client, p.1 ∈ p.2

/-- What is discovered goes with the last service, and a client starts with a right pair. -/
structure Grounded (s : Discovery ν) : Prop where
  cleared : s.present = [] → s.discovered.address = []
  reading : ∀ r ∈ s.reading, r.pair ∈ r.right

variable {c : RegistryConfig} {s s' : Discovery ν} {e : DiscoveryEvent ν}

theorem inForce_of_cleared (h : s.discovered.address = []) :
    s.inForce c = (c.address, c.port) := by
  simp [inForce, effectiveRegistryAddress, effectiveRegistryPort, h]

/-- The pair in force is right. -/
theorem inForce_right (H : s.Usable c) (G : s.Grounded) : s.inForce c ∈ s.rightPairs c := by
  unfold rightPairs
  split
  · rename_i hnone
    rw [inForce_of_cleared (G.cleared hnone)]
    exact List.mem_singleton.mpr rfl
  · rename_i hsome
    exact H.registry hsome

/-- A pair is right that agrees in one part with the one in force, then or now. -/
theorem read_right (H : s.Usable c) (G : s.Grounded) {r : Reading} (hr : r ∈ s.reading)
    (hsame : r.pair.1 = (s.inForce c).1 ∨ r.pair.2 = (s.inForce c).2) :
    Reading.read r (s.inForce c) ∈ r.right ++ s.rightPairs c := by
  have hthen := List.mem_append_left (s.rightPairs c) (G.reading r hr)
  have hnow := List.mem_append_right r.right (inForce_right H G)
  unfold Reading.read
  split
  · rcases hsame with hsame | hsame
    · rw [hsame]
      exact hnow
    · rw [← hsame]
      exact hthen
  · rcases hsame with hsame | hsame
    · rw [← hsame]
      exact hthen
    · rw [hsame]
      exact hnow

variable [DecidableEq ν]

/-- The services that are present without one. -/
def without (s : Discovery ν) (service : ν) : List (ν × Text × UInt16) := s.present.filter fun r => r.1 ≠ service

/-- The callbacks `registry_browse_callback` and `registry_resolve_callback`, and the client. -/
def step (c : RegistryConfig) (s : Discovery ν) : DiscoveryEvent ν → Option (Discovery ν)
  | .new service => some { s with announced := service :: s.announced, resolving := service :: s.resolving }
  | .remove service =>
    if service ∈ s.announced then some { s with discovered := {}, present := s.without service } else none
  | .found service address _ port =>
    if service ∈ s.resolving then
      some
        { s with
          discovered := ⟨address, port⟩
          resolving := s.resolving.erase service
          present := (service, address, port) :: s.without service }
    else none
  | .failed service =>
    if service ∈ s.resolving then some { s with resolving := s.resolving.erase service } else none
  | .readFirst addressFirst => some { s with reading := some ⟨addressFirst, s.inForce c, s.rightPairs c⟩ }
  | .readSecond =>
    s.reading.map fun r =>
      { s with reading := none, client := some (Reading.read r (s.inForce c), r.right ++ s.rightPairs c) }

/-- A service is removed as the last one that is present, or another one is at the
configured place; and a client that reads finds the address or the port unchanged, or
finds a pair that is right by chance. -/
def KeepsUsable (c : RegistryConfig) (s : Discovery ν) : DiscoveryEvent ν → Prop
  | .remove service => service ∈ s.announced → s.without service ≠ [] →
    (c.address, c.port) ∈ (s.without service).map Prod.snd
  | .readSecond => ∀ r ∈ s.reading, r.pair.1 = (s.inForce c).1 ∨ r.pair.2 = (s.inForce c).2 ∨
    Reading.read r (s.inForce c) ∈ r.right ++ s.rightPairs c
  | _ => True

instance decidableKeepsUsable (c : RegistryConfig) (s : Discovery ν) :
    ∀ e : DiscoveryEvent ν, Decidable (s.KeepsUsable c e)
  | .remove service => inferInstanceAs (Decidable (service ∈ s.announced → _ → _ ∈ (s.without service).map Prod.snd))
  | .readSecond => inferInstanceAs (Decidable (∀ r ∈ s.reading, _ = _ ∨ _ = _ ∨ _ ∈ r.right ++ s.rightPairs c))
  | .new _ | .found .. | .failed _ | .readFirst _ => isTrue trivial

theorem grounded_step (G : s.Grounded) (H : s.Usable c) (hs : s.step c e = some s') : s'.Grounded := by
  cases e with
  | new service =>
      obtain rfl := Option.some.inj hs
      exact ⟨G.cleared, G.reading⟩
  | remove service =>
      obtain ⟨-, hs⟩ := Option.ite_none_right_eq_some.mp hs
      obtain rfl := Option.some.inj hs
      exact ⟨fun _ => rfl, G.reading⟩
  | found service address nonempty port =>
      obtain ⟨-, hs⟩ := Option.ite_none_right_eq_some.mp hs
      obtain rfl := Option.some.inj hs
      exact ⟨fun hnone => absurd hnone (List.cons_ne_nil _ _), G.reading⟩
  | failed service =>
      obtain ⟨-, hs⟩ := Option.ite_none_right_eq_some.mp hs
      obtain rfl := Option.some.inj hs
      exact ⟨G.cleared, G.reading⟩
  | readFirst addressFirst =>
      obtain rfl := Option.some.inj hs
      refine ⟨G.cleared, fun r hr => ?_⟩
      obtain rfl := Option.some.inj hr
      exact inForce_right H G
  | readSecond =>
      obtain ⟨r, -, rfl⟩ := Option.map_eq_some_iff.mp hs
      exact ⟨G.cleared, fun r hr => by cases hr⟩

theorem usable_step (hauto : c.autoDiscover = true) (G : s.Grounded) (H : s.Usable c) (hs : s.step c e = some s') :
    s'.Usable c ↔ s.KeepsUsable c e := by
  cases e with
  | new service =>
      obtain rfl := Option.some.inj hs
      exact iff_of_true ⟨H.registry, H.client⟩ trivial
  | remove service =>
      obtain ⟨hannounced, hs⟩ := Option.ite_none_right_eq_some.mp hs
      obtain rfl := Option.some.inj hs
      have hinForce : inForce c { s with discovered := {}, present := s.without service } = (c.address, c.port) :=
        inForce_of_cleared rfl
      rw [KeepsUsable, forall_prop_of_true hannounced, ← hinForce]
      constructor
      · intro H'
        exact H'.registry
      · intro hkeeps
        exact ⟨hkeeps, H.client⟩
  | found service address nonempty port =>
      obtain ⟨-, hs⟩ := Option.ite_none_right_eq_some.mp hs
      obtain rfl := Option.some.inj hs
      refine iff_of_true ⟨fun _ => ?_, H.client⟩ trivial
      simp [inForce, effectiveRegistryAddress, effectiveRegistryPort, hauto, nonempty]
  | failed service =>
      obtain ⟨-, hs⟩ := Option.ite_none_right_eq_some.mp hs
      obtain rfl := Option.some.inj hs
      exact iff_of_true ⟨H.registry, H.client⟩ trivial
  | readFirst addressFirst =>
      obtain rfl := Option.some.inj hs
      exact iff_of_true ⟨H.registry, H.client⟩ trivial
  | readSecond =>
      obtain ⟨r, hr, rfl⟩ := Option.map_eq_some_iff.mp hs
      have hreading : r ∈ s.reading := hr
      constructor
      · intro H' r' hr'
        obtain rfl := Option.some.inj (hr.symm.trans hr')
        exact .inr (.inr (H'.client _ rfl))
      · intro hkeeps
        refine ⟨H.registry, fun p hp => ?_⟩
        obtain rfl := Option.some.inj hp
        rcases hkeeps r hreading with hsame | hsame | hchance
        · exact read_right H G hreading (.inl hsame)
        · exact read_right H G hreading (.inr hsame)
        · exact hchance

/-- **A usable registry is kept exactly when no registry goes away beside another one, and
none takes another's place while a client reads.** -/
theorem usable_iff (hauto : c.autoDiscover = true) (events : List (DiscoveryEvent ν)) :
    (∀ n s, run (step c) {} (events.take n) = some s → s.Usable c) ↔ Along (step c) (KeepsUsable c) {} events := by
  have hstart : ({} : Discovery ν).Usable c := ⟨fun hsome => absurd rfl hsome, fun p hp => by cases hp⟩
  refine always_iff_of (I := Grounded) (fun s e s' G H hs => grounded_step G H hs)
    (fun s e s' G H hs => usable_step hauto G H hs) (fun s e _ hs => ?_) ⟨fun _ => rfl, fun r hr => by cases hr⟩ hstart
  cases e with
  | remove service =>
      intro hannounced
      rw [step, if_pos hannounced] at hs
      cases hs
  | readSecond =>
      intro r hr
      have hnone : s.reading = none := Option.map_eq_none_iff.mp hs
      cases hnone.symm.trans hr
  | new service => trivial
  | found service address nonempty port => trivial
  | failed service => trivial
  | readFirst addressFirst => trivial

/-- A client reads while a second registry, at the same port, takes the place of the first. -/
def handover : List (DiscoveryEvent ℕ) :=
  [.new 0, .new 1, .found 0 "10.0.0.2".toList (by decide) 8080, .readFirst true,
    .found 1 "10.0.0.3".toList (by decide) 8080, .readSecond]

theorem registry_kept :
    ∃ s, run (step ⟨true, "10.0.0.1".toList, 80⟩) {} handover = some s ∧ s.Usable ⟨true, "10.0.0.1".toList, 80⟩ :=
  ⟨_, rfl, (usable_iff rfl handover).mpr (by decide) 6 _ rfl⟩

/-- A registry that goes away takes the one in use with it, although that one is still there. -/
theorem registry_lost :
    ∃ s, run (step ⟨true, "10.0.0.1".toList, 80⟩) ({} : Discovery ℕ)
        [.new 0, .new 1, .found 0 "10.0.0.2".toList (by decide) 8080, .found 1 "10.0.0.3".toList (by decide) 8080,
          .remove 0] = some s ∧
      s.present = [(1, "10.0.0.3".toList, 8080)] ∧ s.inForce ⟨true, "10.0.0.1".toList, 80⟩ = ("10.0.0.1".toList, 80) :=
  ⟨_, rfl, by decide, by decide⟩

end Discovery
end Aes67Daemon
