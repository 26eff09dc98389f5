import Routing.Proofs.Finding
import Routing.Router.Dispatch

/-!
# Routers that served

Requests change nothing of a sealed router but which chains it keeps composed, and a chain that is
kept is what composing it again would give.

* `Router.Serves` — a sealed router after some requests.
* `Router.Keeps`, `Router.Serves.keeps` — it has the routes that were sealed.
* `Router.Keeps.dispatch_found` — what a request gets that finds a route.
-/

namespace Routing

namespace Route

/-- The route after it was matched. It keeps its composition, unless a layer panicked. -/
def kept (r : Route) : Route := { r with composed := r.composition.value }

theorem ready_of_uncomposed {r : Route} (h : r.composed = none) :
    r.ready = (r.composition, r.kept) := by
  simp only [ready, h]
  rfl

theorem ready_kept_of_value {r : Route} {handler : Handler}
    (h : r.composition.value = some handler) : r.kept.ready = (.of handler, r.kept) := by
  simp only [ready, kept, h]

/-- A composition that panicked is tried again. -/
theorem ready_kept_of_panic {r : Route} (h : r.composition.value = none) :
    r.kept.ready = (r.composition, r.kept) :=
  ready_of_uncomposed h

end Route

variable [Regex.Engine]

namespace Node

variable {ρ : Type}

theorem slots_put (segments : List Segment) (r : ρ) (n : Node ρ) :
    (n.put segments r).slots = n.slots := by
  cases segments <;> rfl

theorem routeAt_put {n : Node ρ} {segments : List Segment} (h : (n.labelAt? segments).isSome)
    (r : ρ) (position : List Segment) :
    (n.put segments r).routeAt position =
      if position = segments then some r else n.routeAt position := by
  unfold routeAt
  rw [labelAt?_put]
  by_cases hp : position = segments
  · subst hp
    obtain ⟨l, hl⟩ := Option.isSome_iff_exists.1 h
    simp [hl]
  · simp [hp]

theorem Sound.put {n : Node ρ} (hn : n.Sound) (segments : List Segment) (r : ρ) :
    (n.put segments r).Sound where
  counted := counted_put hn.counted segments r
  ordered position := by
    rw [branchesAt_put]
    exact hn.ordered position
  proper position := by
    rw [branchesAt_put]
    exact hn.proper position
  bearing position l hp hl hb := by
    rw [labelAt?_put] at hl
    obtain ⟨old, hold, rfl⟩ := Option.map_eq_some_iff.1 hl
    by_cases hat : position = segments
    · simp [hat]
    · simp only [hat, ↓reduceIte] at hb ⊢
      exact hn.bearing position old hp hold hb

end Node

namespace Sealed

theorem router_find (s : Sealed) (m : Method) (path : Text) :
    (s.find m path).router = (s.lookup m (Text.Percent.text path)).router := rfl

theorem router_resolve (s : Sealed) (m : Method) (path : Text) :
    (s.resolve m path).router = (s.lookup m (Text.Percent.text path)).router := rfl

/-- Only the route at the position is another one. -/
theorem route?_keep {s : Sealed} {m : Method} {segments : List Segment} {old : Route}
    (hroute : s.forest.route? m segments = some old) (new : Route) (m' : Method)
    (segments' : List Segment) :
    (s.keep m segments new).forest.route? m' segments' =
      if m' = m ∧ segments' = segments then some new else s.forest.route? m' segments' := by
  have hmem : m ∈ s.forest.methods := by
    by_contra hm
    rw [Forest.route?_eq, Forest.root_eq_bare hm] at hroute
    cases segments <;> cases hroute
  have hsome : ((s.forest.root m).labelAt? segments).isSome := by
    rw [Forest.route?_eq] at hroute
    obtain ⟨l, hl, -⟩ := Option.bind_eq_some_iff.1 hroute
    rw [hl]
    rfl
  rw [Forest.route?_eq, Forest.route?_eq]
  change ((s.forest.set m ((s.forest.root m).put segments new)).root m').routeAt segments' = _
  rw [Forest.root_set hmem]
  by_cases hm : m' = m
  · subst hm
    simp [Node.routeAt_put hsome]
  · simp [hm]

end Sealed

namespace Router

/-- What is left of a sealed router by requests. -/
inductive Serves (r : Router) : Sealed → Prop where
  | start : Serves r r.seal
  | find {s : Sealed} (m : Method) (path : Text) : Serves r s → Serves r (s.find m path).router
  | resolve {s : Sealed} (m : Method) (path : Text) :
      Serves r s → Serves r (s.resolve m path).router
  | dispatch {s : Sealed} (disk : Directory) (req : Request) :
      Serves r s → Serves r (s.dispatch disk req).router

/-- The sealed router has the routes of the router, some of which it keeps composed. -/
structure Keeps (r : Router) (s : Sealed) : Prop where
  sound : s.forest.Sound
  routes : ∀ m segments route, s.forest.route? m segments = some route →
    ∃ old, r.table m segments = some old ∧ (route = old ∨ route = old.kept)

/-- What is run for a route is its composition, whether it was composed before or is now. -/
theorem Keeps.exists_ready {r : Router} {s : Sealed} (h : r.Keeps s) (hr : r.Uncomposed)
    {m : Method} {segments : List Segment} {route : Route}
    (hroute : s.forest.route? m segments = some route) :
    ∃ old composing, r.table m segments = some old ∧
      (composing = old.composition.events ∨ composing = [] ∧ old.composition.value.isSome) ∧
      route.ready = (⟨composing, old.composition.value⟩, old.kept) := by
  obtain ⟨old, hold, rfl | rfl⟩ := h.routes m segments route hroute
  · rw [Route.ready_of_uncomposed (hr m segments route hold)]
    exact ⟨route, _, hold, Or.inl rfl, rfl⟩
  · cases hvalue : old.composition.value with
    | some handler =>
      rw [Route.ready_kept_of_value hvalue]
      exact ⟨old, [], hold, Or.inr ⟨rfl, by rw [hvalue]; rfl⟩, by rw [hvalue, Run.of]⟩
    | none =>
      rw [Route.ready_kept_of_panic hvalue]
      exact ⟨old, _, hold, Or.inl rfl, rfl⟩

theorem keeps_seal {r : Router} (h : r.forest.Sound) : r.Keeps r.seal :=
  ⟨h, fun _ _ route hroute => ⟨route, hroute, Or.inl rfl⟩⟩

/-- The route at which a walk ends is the one at the position of its segments. -/
theorem Keeps.route?_of_arrive? {r : Router} {s : Sealed} (h : r.Keeps s) {m : Method}
    {path : Text} {arrival : Arrival Route} {route : Route}
    (harrive : s.arrive? m path = some (arrival, route)) :
    s.forest.route? m arrival.segments = some route := by
  obtain ⟨hwalks, hroute⟩ := Sealed.arrive?_eq_some_iff.1 harrive
  have hlocate := hwalks.locate? (h.sound.root m)
  rw [Forest.route?_eq, Node.routeAt_eq, hlocate, Option.bind_some, hroute]

theorem Keeps.keep {r : Router} {s : Sealed} (h : r.Keeps s) (hr : r.Uncomposed) {m : Method}
    {segments : List Segment} {route : Route}
    (hroute : s.forest.route? m segments = some route) :
    r.Keeps (s.keep m segments route.ready.2) := by
  obtain ⟨old, composing, hold, -, hready⟩ := h.exists_ready hr hroute
  have hslots : ((s.forest.root m).put segments route.ready.2).slots = 0 := by
    rw [Node.slots_put, h.sound.slots_root]
  refine ⟨h.sound.set m ((h.sound.root m).put segments _) hslots, fun m' segments' route' => ?_⟩
  rw [Sealed.route?_keep hroute]
  intro hroute'
  by_cases hkey : m' = m ∧ segments' = segments
  · obtain ⟨rfl, rfl⟩ := hkey
    rw [if_pos ⟨rfl, rfl⟩, hready] at hroute'
    exact ⟨old, hold, Or.inr (Option.some.inj hroute').symm⟩
  · rw [if_neg hkey] at hroute'
    exact h.routes m' segments' route' hroute'

theorem Keeps.lookup {r : Router} {s : Sealed} (h : r.Keeps s) (hr : r.Uncomposed) (m : Method)
    (path : Text) : r.Keeps (s.lookup m path).router := by
  unfold Sealed.lookup
  cases harrive : s.arrive? m path with
  | none => exact h
  | some arrived => exact h.keep hr (h.route?_of_arrive? harrive)

theorem Serves.keeps {r : Router} (hr : r.Reachable) {s : Sealed} (h : r.Serves s) :
    r.Keeps s := by
  induction h with
  | start => exact keeps_seal hr.sound
  | @find s m path _ ih =>
    rw [Sealed.router_find]
    exact ih.lookup hr.uncomposed m _
  | @resolve s m path _ ih =>
    rw [Sealed.router_resolve]
    exact ih.lookup hr.uncomposed m _
  | @dispatch s disk req _ ih =>
    change r.Keeps (s.resolve req.method req.uri.path).router
    rw [Sealed.router_resolve]
    exact ih.lookup hr.uncomposed _ _

/-- **A request that finds a route runs its composition**, which is composed now unless it was
before, without a panic. -/
theorem Keeps.dispatch_found {r : Router} {s : Sealed} (h : r.Keeps s) (hr : r.Uncomposed)
    (disk : Directory) {req : Request} {segments : List Segment}
    (hat : s.foundAt? req.method req.uri.path = some segments) :
    ∃ route params, r.table req.method segments = some route ∧
      (s.find req.method req.uri.path).answer = route.found params ∧
      ∃ composing, (composing = route.composition.events ∨
          composing = [] ∧ route.composition.value.isSome) ∧
        (s.dispatch disk req).run = (⟨composing, route.composition.value⟩ : Run Handler) >>=
          fun handler => handler { req with params := some params } := by
  obtain ⟨⟨arrival, found⟩, harrive, rfl⟩ := Option.map_eq_some_iff.1 hat
  obtain ⟨route, composing, hroute, hcomposing, hready⟩ :=
    h.exists_ready hr (h.route?_of_arrive? harrive)
  refine ⟨route, arrival.params, hroute, ?_, composing, hcomposing, ?_⟩
  · rw [Sealed.find_of_arrive? harrive, hready, Route.found]
  · simp only [Sealed.dispatch, Sealed.resolve, Sealed.lookup, harrive, hready, Served.map,
      Run.map_bind]
    rfl

end Router

end Routing
