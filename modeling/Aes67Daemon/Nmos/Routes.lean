import Aes67Daemon.Lib.Pattern
import Aes67Daemon.Lib.Text
import Mathlib.Data.List.Dedup
import Mathlib.Data.List.Pairwise

/-!
# Routes of the NMOS server

A plain request goes to the first route that has its method and matches its path, or
its path with a slash added.  No two routes of one method match a common path, so the
order in which they are registered does not matter, and a resource can be asked for
under every id.

## Main definitions

* `compile` — a pattern as the routes write it.
* `nmosRoutes` — the routes, in the order of registration.
* `dispatch` — the route of a request, with the id in its path.
* `Unambiguous` — routes of which no two are for one request.
-/
namespace Aes67Daemon

open Text Pattern

/-- The pieces of a pattern: `\\c`, `([^/]+)`, `.*`, `.`, `c?` and single characters. -/
def compile : Text → List Piece
  | [] => []
  | '\\' :: c :: s => .one (.lit c) :: compile s
  | '(' :: '[' :: '^' :: '/' :: ']' :: '+' :: ')' :: s => .group (.except '/') :: compile s
  | '.' :: '*' :: s => .star .dot :: compile s
  | '.' :: s => .one .dot :: compile s
  | c :: '?' :: s => .opt (.lit c) :: compile s
  | c :: s => .one (.lit c) :: compile s

structure NmosRoute where
  method : Text
  pattern : List Piece
  deriving DecidableEq

/-- The methods and the patterns, as they are registered. -/
def routeTexts : List (Text × Text) := [
  ("OPTIONS".toList, ".*".toList),
  ("GET".toList, "/x-nmos/".toList),
  ("GET".toList, "/x-nmos/node/".toList),
  ("GET".toList, "/x-nmos/node/v1.3/".toList),
  ("GET".toList, "/x-nmos/node/v1\\.3/self/?".toList),
  ("GET".toList, "/x-nmos/node/v1.3/devices/".toList),
  ("GET".toList, "/x-nmos/node/v1.3/devices/([^/]+)".toList),
  ("GET".toList, "/x-nmos/node/v1.3/sources/".toList),
  ("GET".toList, "/x-nmos/node/v1.3/sources/([^/]+)".toList),
  ("GET".toList, "/x-nmos/node/v1.3/flows/".toList),
  ("GET".toList, "/x-nmos/node/v1.3/flows/([^/]+)".toList),
  ("GET".toList, "/x-nmos/node/v1.3/senders/([^/]+)/sdp".toList),
  ("GET".toList, "/x-nmos/node/v1.3/senders/".toList),
  ("GET".toList, "/x-nmos/node/v1.3/senders/([^/]+)".toList),
  ("GET".toList, "/x-nmos/node/v1.3/receivers/".toList),
  ("GET".toList, "/x-nmos/node/v1.3/receivers/([^/]+)".toList),
  ("GET".toList, "/x-manifest/senders/([^/]+)/manifest".toList),
  ("GET".toList, "/x-nmos/connection/".toList),
  ("GET".toList, "/x-nmos/connection/v1.1/".toList),
  ("GET".toList, "/x-nmos/connection/v1.1/single/".toList),
  ("GET".toList, "/x-nmos/connection/v1.1/bulk/".toList),
  ("GET".toList, "/x-nmos/connection/v1.1/single/senders/".toList),
  ("GET".toList, "/x-nmos/connection/v1\\.1/single/senders/([^/]+)/?".toList),
  ("GET".toList, "/x-nmos/connection/v1\\.1/single/senders/([^/]+)/constraints/?".toList),
  ("GET".toList, "/x-nmos/connection/v1\\.1/single/senders/([^/]+)/staged/?".toList),
  ("PATCH".toList, "/x-nmos/connection/v1\\.1/single/senders/([^/]+)/staged".toList),
  ("GET".toList, "/x-nmos/connection/v1\\.1/single/senders/([^/]+)/active/?".toList),
  ("GET".toList, "/x-nmos/connection/v1\\.1/single/senders/([^/]+)/transportfile/?".toList),
  ("GET".toList, "/x-nmos/connection/v1\\.1/single/senders/([^/]+)/transporttype".toList),
  ("GET".toList, "/x-nmos/connection/v1.1/single/receivers/".toList),
  ("GET".toList, "/x-nmos/connection/v1\\.1/single/receivers/([^/]+)/?".toList),
  ("GET".toList, "/x-nmos/connection/v1\\.1/single/receivers/([^/]+)/constraints/?".toList),
  ("GET".toList, "/x-nmos/connection/v1\\.1/single/receivers/([^/]+)/staged/?".toList),
  ("PATCH".toList, "/x-nmos/connection/v1\\.1/single/receivers/([^/]+)/staged".toList),
  ("GET".toList, "/x-nmos/connection/v1\\.1/single/receivers/([^/]+)/active/?".toList),
  ("GET".toList, "/x-nmos/connection/v1\\.1/single/receivers/([^/]+)/transporttype".toList),
  ("GET".toList, "/x-nmos/connection/v1.1/bulk/senders".toList),
  ("GET".toList, "/x-nmos/connection/v1.1/bulk/receivers".toList),
  ("POST".toList, "/x-nmos/connection/v1.1/bulk/senders".toList),
  ("POST".toList, "/x-nmos/connection/v1.1/bulk/receivers".toList),
  ("GET".toList, "/x-nmos/query/".toList),
  ("GET".toList, "/x-nmos/query/v1.3/".toList),
  ("GET".toList, "/x-nmos/query/v1.3/subscriptions/".toList),
  ("POST".toList, "/x-nmos/query/v1.3/subscriptions/".toList),
  ("GET".toList, "/x-nmos/query/v1.3/subscriptions/([^/]+)".toList),
  ("DELETE".toList, "/x-nmos/query/v1.3/subscriptions/([^/]+)".toList),
  ("GET".toList, "/x-nmos/query/v1.3/nodes/".toList),
  ("GET".toList, "/x-nmos/query/v1.3/nodes/([^/]+)".toList),
  ("GET".toList, "/x-nmos/query/v1.3/devices/".toList),
  ("GET".toList, "/x-nmos/query/v1.3/devices/([^/]+)".toList),
  ("GET".toList, "/x-nmos/query/v1.3/sources/".toList),
  ("GET".toList, "/x-nmos/query/v1.3/sources/([^/]+)".toList),
  ("GET".toList, "/x-nmos/query/v1.3/flows/".toList),
  ("GET".toList, "/x-nmos/query/v1.3/flows/([^/]+)".toList),
  ("GET".toList, "/x-nmos/query/v1.3/senders/".toList),
  ("GET".toList, "/x-nmos/query/v1.3/senders/([^/]+)".toList),
  ("GET".toList, "/x-nmos/query/v1.3/receivers/".toList),
  ("GET".toList, "/x-nmos/query/v1.3/receivers/([^/]+)".toList)]

/-- The ones of the channel mapping, which are registered when it is enabled. -/
def is08RouteTexts : List (Text × Text) := [
  ("GET".toList, "/x-nmos/channelmapping/".toList),
  ("GET".toList, "/x-nmos/channelmapping/v1.0/".toList),
  ("GET".toList, "/x-nmos/channelmapping/v1.0/map/".toList),
  ("GET".toList, "/x-nmos/channelmapping/v1.0/inputs/".toList),
  ("GET".toList, "/x-nmos/channelmapping/v1\\.0/inputs/([^/]+)/caps/?".toList),
  ("GET".toList, "/x-nmos/channelmapping/v1\\.0/inputs/([^/]+)/parent/?".toList),
  ("GET".toList, "/x-nmos/channelmapping/v1\\.0/inputs/([^/]+)/channels/?".toList),
  ("GET".toList, "/x-nmos/channelmapping/v1\\.0/inputs/([^/]+)/properties/?".toList),
  ("GET".toList, "/x-nmos/channelmapping/v1.0/outputs/".toList),
  ("GET".toList, "/x-nmos/channelmapping/v1\\.0/outputs/([^/]+)/caps/?".toList),
  ("GET".toList, "/x-nmos/channelmapping/v1\\.0/outputs/([^/]+)/sourceid/?".toList),
  ("GET".toList, "/x-nmos/channelmapping/v1\\.0/outputs/([^/]+)/channels/?".toList),
  ("GET".toList, "/x-nmos/channelmapping/v1\\.0/outputs/([^/]+)/properties/?".toList),
  ("GET".toList, "/x-nmos/channelmapping/v1\\.0/map/active/?".toList),
  ("GET".toList, "/x-nmos/channelmapping/v1.0/map/activations/".toList),
  ("GET".toList, "/x-nmos/channelmapping/v1\\.0/map/activations/([^/]+)/?".toList),
  ("DELETE".toList, "/x-nmos/channelmapping/v1\\.0/map/activations/([^/]+)/?".toList),
  ("POST".toList, "/x-nmos/channelmapping/v1\\.0/map/activations/?".toList)]

def allRoutes : List NmosRoute :=
  (routeTexts ++ is08RouteTexts).map fun r => ⟨r.1, compile r.2⟩

/-- The routes of the server, in the order of registration. -/
def nmosRoutes (is08Enabled : Bool) : List NmosRoute :=
  if is08Enabled then allRoutes else routeTexts.map fun r => ⟨r.1, compile r.2⟩

/-- The path with a slash added, empty where there is one already. -/
def pathSlash (path : Text) : Text :=
  if path = [] ∨ path.getLast? = some '/' then [] else path ++ ['/']

/-- The text of the group when the route is asked for by a path, which is tried as it is
and then with a slash added. -/
def NmosRoute.asked (r : NmosRoute) (path : Text) : Option Text :=
  (regexMatch r.pattern path).or
    (if pathSlash path = [] then none else regexMatch r.pattern (pathSlash path))

/-- The first route with the method and the path of a request, with the id in the path. -/
def dispatch (routes : List NmosRoute) (method path : Text) : Option (NmosRoute × Text) :=
  routes.findSome? fun r => if r.method = method then (r.asked path).map (r, ·) else none

/-! ## Routes apart -/

/-- What a route is asked for by, each path perhaps with a slash added. -/
def NmosRoute.closed (r : NmosRoute) : List Piece := r.pattern ++ [.opt (.lit '/')]

def NmosRoute.wellFormed (r : NmosRoute) : Bool :=
  Delimited '/' r.pattern && spelled r.pattern

/-- Well-formed routes, of which no two of one method have a path in common. -/
def routesApart (routes : List NmosRoute) : Bool :=
  routes.all NmosRoute.wellFormed &&
    (routes.map NmosRoute.method).dedup.all fun method =>
      allApart 200 ((routes.filter fun r => r.method = method).map NmosRoute.closed)

/-- A table of literals, and the characters in them.  The kernel takes a literal for what
its characters make, but is slow to decode it again. -/
inductive Literals : List (Text × Text) → List (Text × Text) → Prop
  | nil : Literals [] []
  | cons {a b : String} {x y : Text} {l l' : List (Text × Text)} (ha : a = .ofList x) (hb : b = .ofList y)
      (h : Literals l l') : Literals ((a.toList, b.toList) :: l) ((x, y) :: l')

theorem Literals.eq {l l' : List (Text × Text)} (h : Literals l l') : l = l' := by
  induction h with
  | nil => rfl
  | cons ha hb _ ih => rw [ih, ha, hb, String.toList_ofList, String.toList_ofList]

theorem routesApart_of_literals {l l' : List (Text × Text)} (h : Literals l l')
    (H : routesApart (l'.map fun r => ⟨r.1, compile r.2⟩) = true) :
    routesApart (l.map fun r => ⟨r.1, compile r.2⟩) = true := by
  rw [h.eq]
  exact H

theorem routesApart_allRoutes : routesApart allRoutes = true :=
  routesApart_of_literals
    (by
      simp only [routeTexts, is08RouteTexts, List.cons_append, List.nil_append]
      -- one row of the table at a time
      repeat first | exact .nil | apply Literals.cons rfl rfl)
    (by decide +kernel)

section dispatch

variable {r r' : NmosRoute} {routes : List NmosRoute} {method path cap cap' : Text}

theorem asked_eq_some_iff :
    r.asked path = some cap ↔
      regexMatch r.pattern path = some cap ∨
        regexMatch r.pattern path = none ∧ pathSlash path ≠ [] ∧
          regexMatch r.pattern (pathSlash path) = some cap := by
  rw [NmosRoute.asked, Option.or_eq_some_iff]
  by_cases h : pathSlash path = [] <;> simp [h]

theorem pathSlash_of_ne (h : pathSlash path ≠ []) : pathSlash path = path ++ ['/'] := by
  unfold pathSlash at h ⊢
  split
  · rename_i hp
    exact absurd (if_pos hp) h
  · rfl

/-- A route that is asked for matches the path with a slash, or with none, after its
pattern. -/
theorem isSome_closed_of_asked (h : r.asked path = some cap) :
    ∀ q, pathSlash path = [] ∧ q = path ∨ pathSlash path ≠ [] ∧ q = path ++ ['/'] →
      (regexMatch r.closed q).isSome = true := by
  have hnone : ∀ {s}, (regexMatch r.pattern s).isSome = true → (regexMatch r.closed s).isSome = true := by
    intro s hs
    simpa [NmosRoute.closed] using regexMatch_append hs (q := [.opt (.lit '/')]) (t := []) rfl
  rintro q (⟨hempty, rfl⟩ | ⟨hne, rfl⟩)
  · rcases asked_eq_some_iff.mp h with h | ⟨-, h, -⟩
    · exact hnone (by simp [h])
    · exact absurd hempty h
  · rcases asked_eq_some_iff.mp h with h | ⟨-, -, h⟩
    · exact regexMatch_append (by simp [h]) rfl
    · rw [pathSlash_of_ne hne] at h
      exact hnone (by simp [h])

/-- **Routes apart are not asked for by one path.** -/
theorem asked_apart (hapart : Apart r.closed r'.closed) (h : r.asked path = some cap) :
    r'.asked path = none := by
  rw [← Option.not_isSome_iff_eq_none]
  intro h'
  obtain ⟨cap', h'⟩ := Option.isSome_iff_exists.mp h'
  have hcommon : ∃ q, pathSlash path = [] ∧ q = path ∨ pathSlash path ≠ [] ∧ q = path ++ ['/'] := by
    by_cases hp : pathSlash path = []
    · exact ⟨path, .inl ⟨hp, rfl⟩⟩
    · exact ⟨_, .inr ⟨hp, rfl⟩⟩
  obtain ⟨q, hq⟩ := hcommon
  have hnone := hapart q (isSome_closed_of_asked h q hq)
  have hsome := isSome_closed_of_asked h' q hq
  rw [hnone] at hsome
  cases hsome

/-- Routes of which no two of one method are asked for by one path. -/
def Unambiguous (routes : List NmosRoute) : Prop :=
  ∀ r ∈ routes, ∀ r' ∈ routes, r.method = r'.method → ∀ path cap cap',
    r.asked path = some cap → r'.asked path = some cap' → r = r'

theorem unambiguous_of_routesApart (H : routesApart routes = true) : Unambiguous routes := by
  rw [routesApart, Bool.and_eq_true, List.all_eq_true, List.all_eq_true] at H
  intro r hr r' hr' hmethod path cap cap' h h'
  by_contra hne
  have hapart := H.2 r.method (List.mem_dedup.mpr (List.mem_map_of_mem hr))
  have hpairwise := List.pairwise_map.mp (pairwise_of_allApart hapart)
  have hclosed : Apart r.closed r'.closed := by
    have : Std.Symm fun r r' : NmosRoute => Apart r.closed r'.closed := ⟨fun _ _ h => Apart.symm h⟩
    exact hpairwise.forall (List.mem_filter.mpr ⟨hr, by simp⟩)
      (List.mem_filter.mpr ⟨hr', by simp [hmethod]⟩) hne
  rw [asked_apart hclosed h] at h'
  cases h'

theorem wellFormed_of_mem (H : routesApart routes = true) (hr : r ∈ routes) :
    Delimited '/' r.pattern = true ∧ spelled r.pattern = true := by
  rw [routesApart, Bool.and_eq_true, List.all_eq_true] at H
  simpa [NmosRoute.wellFormed] using H.1 r hr

/-- **What a request is dispatched to.** -/
theorem dispatch_eq_some_iff (H : Unambiguous routes) :
    dispatch routes method path = some (r, cap) ↔
      r ∈ routes ∧ r.method = method ∧ r.asked path = some cap := by
  have hsound : ∀ {r cap}, dispatch routes method path = some (r, cap) →
      r ∈ routes ∧ r.method = method ∧ r.asked path = some cap := by
    intro r cap h
    obtain ⟨a, ha, hfound⟩ := List.exists_of_findSome?_eq_some h
    split at hfound
    · obtain ⟨c, hc, heq⟩ := Option.map_eq_some_iff.mp hfound
      obtain ⟨rfl, rfl⟩ := Prod.mk.inj heq
      exact ⟨ha, ‹_›, hc⟩
    · cases hfound
  refine ⟨hsound, ?_⟩
  rintro ⟨hr, rfl, h⟩
  have hsome : (dispatch routes r.method path).isSome = true := by
    rw [dispatch, List.findSome?_isSome_iff]
    exact ⟨r, hr, by simp [h]⟩
  obtain ⟨⟨r', cap'⟩, hfound⟩ := Option.isSome_iff_exists.mp hsome
  obtain ⟨hr', hmethod, h'⟩ := hsound hfound
  obtain rfl := H r' hr' r hr hmethod path _ _ h' h
  obtain rfl : cap' = cap := Option.some.inj (h'.symm.trans h)
  exact hfound

theorem Unambiguous.subset (H : Unambiguous routes) {routes' : List NmosRoute}
    (hsub : routes' ⊆ routes) : Unambiguous routes' :=
  fun r hr r' hr' => H r (hsub hr) r' (hsub hr')

end dispatch

/-! ## The routes of the server -/

section served

variable {is08Enabled : Bool} {r : NmosRoute} {method path cap id : Text}

theorem nmosRoutes_subset : nmosRoutes is08Enabled ⊆ allRoutes := by
  cases is08Enabled with
  | true => exact List.Subset.refl _
  | false =>
      rw [allRoutes, List.map_append]
      exact List.subset_append_left _ _

theorem nmosRoutes_unambiguous : Unambiguous (nmosRoutes is08Enabled) :=
  (unambiguous_of_routesApart routesApart_allRoutes).subset nmosRoutes_subset

/-- **The order of the routes does not matter**: none has to be registered before another. -/
theorem dispatch_perm {routes : List NmosRoute} (hperm : routes.Perm (nmosRoutes is08Enabled))
    (method path : Text) :
    dispatch routes method path = dispatch (nmosRoutes is08Enabled) method path := by
  refine Option.ext fun ⟨r, cap⟩ => ?_
  rw [dispatch_eq_some_iff (nmosRoutes_unambiguous.subset hperm.subset),
    dispatch_eq_some_iff nmosRoutes_unambiguous, hperm.mem_iff]

theorem dispatch_perm_reverse :
    dispatch (nmosRoutes true).reverse "GET".toList "/x-nmos/node/v1.3/senders/7f/sdp".toList =
      dispatch (nmosRoutes true) "GET".toList "/x-nmos/node/v1.3/senders/7f/sdp".toList :=
  dispatch_perm (List.reverse_perm _) _ _

/-- What a route captures of a path it matches, with a slash or without. -/
theorem capture_of_asked (hr : r ∈ nmosRoutes is08Enabled) (h : r.asked path = some cap) :
    cap = ((groupAt r.pattern).map (part '/' · path)).getD [] ∧
      (groupAt r.pattern = none ∨ cap ≠ []) := by
  have hdelim := (wellFormed_of_mem routesApart_allRoutes (nmosRoutes_subset hr)).1
  rcases asked_eq_some_iff.mp h with h | ⟨-, hne, h⟩
  · exact regexMatch_delimited hdelim h
  · have := regexMatch_delimited hdelim h
    simpa [pathSlash_of_ne hne, part_append] using this

/-- **What a handler is given.**  The id is the whole part of the path at the place of
the group: it is not empty and has no slash. -/
theorem dispatch_captured (h : dispatch (nmosRoutes is08Enabled) method path = some (r, cap)) :
    cap = ((groupAt r.pattern).map (part '/' · path)).getD [] ∧ '/' ∉ cap ∧
      (cap = [] ↔ groupAt r.pattern = none) := by
  obtain ⟨hr, -, hasked⟩ := (dispatch_eq_some_iff nmosRoutes_unambiguous).mp h
  obtain ⟨rfl, hne⟩ := capture_of_asked hr hasked
  refine ⟨rfl, ?_, fun h => hne.resolve_right (not_not_intro h), fun h => by rw [h]; rfl⟩
  cases groupAt r.pattern with
  | none => exact List.not_mem_nil
  | some n => exact not_mem_part '/' n path

/-- **A slash at the end may be left out**: what is found with it is found without it. -/
theorem dispatch_of_slash (hne : path ≠ []) (hlast : path.getLast? ≠ some '/')
    (h : dispatch (nmosRoutes is08Enabled) method (path ++ ['/']) = some (r, cap)) :
    dispatch (nmosRoutes is08Enabled) method path = some (r, cap) := by
  obtain ⟨hr, hmethod, hasked⟩ := (dispatch_eq_some_iff nmosRoutes_unambiguous).mp h
  have hslash : pathSlash path = path ++ ['/'] := if_neg (by simp [hne, hlast])
  have hmatch : regexMatch r.pattern (path ++ ['/']) = some cap := by
    rcases asked_eq_some_iff.mp hasked with h | ⟨-, h, -⟩
    · exact h
    · exact absurd (if_pos (.inr (by simp))) h
  have hsome : ∃ cap', r.asked path = some cap' := by
    cases hpath : regexMatch r.pattern path with
    | none => exact ⟨cap, asked_eq_some_iff.mpr (.inr ⟨hpath, by simp [hslash], by rw [hslash, hmatch]⟩)⟩
    | some cap' => exact ⟨cap', asked_eq_some_iff.mpr (.inl hpath)⟩
  obtain ⟨cap', hcap'⟩ := hsome
  have hcap : cap' = cap := by
    rw [(capture_of_asked hr hcap').1, (capture_of_asked hr hasked).1]
    simp [part_append]
  exact (dispatch_eq_some_iff nmosRoutes_unambiguous).mpr ⟨hr, hmethod, hcap ▸ hcap'⟩

theorem mem_nmosRoutes {t : Text × Text} {n : ℕ} (h : routeTexts[n]? = some t) :
    (⟨t.1, compile t.2⟩ : NmosRoute) ∈ nmosRoutes is08Enabled := by
  have hmem := List.mem_of_getElem? h
  rw [nmosRoutes]
  split
  · exact List.mem_map.mpr ⟨t, List.mem_append_left _ hmem, rfl⟩
  · exact List.mem_map.mpr ⟨t, hmem, rfl⟩

theorem dispatch_of_slash_senders :
    dispatch (nmosRoutes false) "GET".toList "/x-nmos/node/v1.3/senders".toList =
      dispatch (nmosRoutes false) "GET".toList "/x-nmos/node/v1.3/senders/".toList := by
  have h : dispatch (nmosRoutes false) "GET".toList ("/x-nmos/node/v1.3/senders".toList ++ ['/']) =
      some (⟨"GET".toList, compile "/x-nmos/node/v1.3/senders/".toList⟩, []) :=
    (dispatch_eq_some_iff nmosRoutes_unambiguous).mpr
      ⟨mem_nmosRoutes (n := 12) rfl, rfl, asked_eq_some_iff.mpr (.inl (by decide +kernel))⟩
  exact (dispatch_of_slash (by decide) (by decide) h).trans h.symm

/-- **Every route can be asked for**, with every id, by the path it spells. -/
theorem dispatch_spell (hr : r ∈ nmosRoutes is08Enabled) (hne : id ≠ []) (hid : '/' ∉ id) :
    dispatch (nmosRoutes is08Enabled) r.method (spell id r.pattern) =
      some (r, if groupAt r.pattern = none then [] else id) := by
  obtain ⟨hdelim, hspelled⟩ := wellFormed_of_mem routesApart_allRoutes (nmosRoutes_subset hr)
  obtain ⟨cap, hcap⟩ := Option.isSome_iff_exists.mp (isSome_regexMatch_spell hdelim hspelled hne hid)
  refine (dispatch_eq_some_iff nmosRoutes_unambiguous).mpr ⟨hr, rfl, asked_eq_some_iff.mpr (.inl ?_)⟩
  rw [hcap, (regexMatch_delimited hdelim hcap).1]
  cases hgroup : groupAt r.pattern with
  | none => rfl
  | some n => simp [part_spell hdelim hspelled hid hgroup]

theorem dispatch_spell_sdp :
    dispatch (nmosRoutes false) "GET".toList "/x-nmos/node/v1.3/senders/7f/sdp".toList =
      some (⟨"GET".toList, compile "/x-nmos/node/v1.3/senders/([^/]+)/sdp".toList⟩, "7f".toList) :=
  @dispatch_spell false ⟨"GET".toList, compile "/x-nmos/node/v1.3/senders/([^/]+)/sdp".toList⟩ "7f".toList
    (mem_nmosRoutes (n := 11) rfl) (by decide) (by decide)

end served
end Aes67Daemon
