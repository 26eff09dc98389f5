import Routing.Proofs.Serving
import Routing.Proofs.Tracing

/-!
# What a sealed router keeps

A sealed router remembers which routes it composed, and nothing else of what it was asked. Whatever
it keeps, it finds and answers the same.

* `Sealed.forget` — the router without the compositions that its routes keep.
* `Chain.wraps`, `Chain.events_compose` — the layers that are put around something when a chain is
  composed, and the events that they leave.
* `Router.Recalls` — the router as it was sealed, but for the routes with these keys, which keep
  their compositions unless a layer panics.
* `Router.Recalls.lookup` — a route that is found keeps its composition from then on.
* `Router.Recalls.answer_find`, `Router.Recalls.answer_resolve`, `Router.Recalls.allowedAt` — what
  is kept makes no difference to the answers.
-/

namespace Routing

variable [Regex.Engine]

/-! ## What routes keep -/

namespace Route

/-- The route without the composition that it keeps. -/
def forget (r : Route) : Route := { r with composed := none }

omit [Regex.Engine] in
theorem forget_of_uncomposed {r : Route} (h : r.composed = none) : r.forget = r := by
  simp only [forget, ← h]

end Route

namespace Branches

variable {ρ σ : Type} {shape : ρ → σ} {wanted : Edge → Bool} {change : Node ρ → Node ρ}

/-- A change that cannot be seen at the node it is made at cannot be seen at all. -/
theorem mapRoutes_modify_of_find? {b : Branches ρ} {c : Node ρ} (h : b.find? wanted = some c)
    (hc : (change c).mapRoutes shape = c.mapRoutes shape) :
    (b.modify wanted change).mapRoutes shape = b.mapRoutes shape := by
  induction b with
  | nil => cases h
  | cons edge slots route below rest _ ih =>
    by_cases hw : wanted edge = true
    · simp only [find?, hw, ↓reduceIte, Option.some.injEq] at h
      subst h
      simp only [Node.mapRoutes, Node.mk.injEq] at hc
      simp [modify, hw, mapRoutes, hc]
    · simp only [find?, hw, Bool.false_eq_true, ↓reduceIte] at h
      simp [modify, hw, mapRoutes, ih h]

end Branches

namespace Node

variable {ρ σ : Type} {shape : ρ → σ}

theorem mapRoutes_put {n : Node ρ} {segments : List Segment} {old new : ρ}
    (h : n.routeAt segments = some old) (hshape : shape new = shape old) :
    (n.put segments new).mapRoutes shape = n.mapRoutes shape := by
  induction segments generalizing n with
  | nil =>
    have hroute : n.route = some old := h
    simp [put, modifyAt, mapRoutes, hroute, hshape]
  | cons s rest ih =>
    have hput : n.put (s :: rest) new =
        { n with below := n.below.modify (Edge.madeFrom s) (put rest new) } := rfl
    cases hfind : n.below.find? (Edge.madeFrom s) with
    | none => simp [routeAt_cons, hfind] at h
    | some c =>
      have hc : c.routeAt rest = some old := by simpa [routeAt_cons, hfind] using h
      have hbelow := Branches.mapRoutes_modify_of_find? hfind (ih hc)
      simp only [hput, mapRoutes, hbelow]

theorem routeAt_mapRoutes (change : ρ → σ) (n : Node ρ) (position : List Segment) :
    (n.mapRoutes change).routeAt position = (n.routeAt position).map change := by
  unfold routeAt
  rw [labelAt?_mapRoutes]
  cases n.labelAt? position <;> rfl

end Node

namespace Forest

def mapRoutes (change : Route → Route) (f : Forest) : Forest :=
  ⟨f.roots.map fun root => root.graft (root.tree.mapRoutes change)⟩

variable {change : Route → Route}

@[simp] theorem methods_mapRoutes (f : Forest) : (f.mapRoutes change).methods = f.methods := by
  simp only [methods, mapRoutes, List.map_map]
  rfl

@[simp] theorem root_mapRoutes (f : Forest) (m : Method) :
    (f.mapRoutes change).root m = (f.root m).mapRoutes change := by
  have hfind : (f.mapRoutes change).root? m = (f.root? m).map (Node.mapRoutes change) := by
    rw [root?, mapRoutes, List.find?_map, root?, Option.map_map, Option.map_map]
    rfl
  rw [root, hfind, root]
  cases f.root? m <;> rfl

theorem sound_mapRoutes {f : Forest} : (f.mapRoutes change).Sound ↔ f.Sound := by
  have hroot (root : Root) : (root.graft (root.tree.mapRoutes change)).Sound ↔ root.Sound := by
    constructor
    · rintro ⟨hlabel, hslots, htree⟩
      exact ⟨hlabel, hslots, Node.sound_mapRoutes.1 htree⟩
    · rintro ⟨hlabel, hslots, htree⟩
      exact ⟨hlabel, hslots, Node.sound_mapRoutes.2 htree⟩
  constructor
  · rintro ⟨hmethods, hroots⟩
    refine ⟨by rwa [methods_mapRoutes] at hmethods, fun root hmem => ?_⟩
    exact (hroot root).1 (hroots _ (List.mem_map_of_mem hmem))
  · rintro ⟨hmethods, hroots⟩
    refine ⟨by rwa [methods_mapRoutes], fun root hmem => ?_⟩
    obtain ⟨old, hold, rfl⟩ := List.mem_map.1 hmem
    exact (hroot old).2 (hroots old hold)

theorem Sound.mapRoutes_set {f : Forest} (hf : f.Sound) {m : Method} {tree : Tree}
    (h : tree.mapRoutes change = (f.root m).mapRoutes change) :
    (f.set m tree).mapRoutes change = f.mapRoutes change := by
  have hroots : (f.set m tree).roots.map (fun root => root.graft (root.tree.mapRoutes change)) =
      f.roots.map fun root => root.graft (root.tree.mapRoutes change) := by
    rw [Forest.set, List.map_map]
    refine List.map_congr_left fun root hmem => ?_
    by_cases hm : root.method = m
    · subst hm
      rw [root_of_mem hf.methods hmem] at h
      simp only [Function.comp_apply, ↓reduceIte, Root.tree_graft, h]
      rfl
    · simp [hm]
  exact congrArg Forest.mk hroots

end Forest

namespace Sealed

/-- The router without the compositions that its routes keep. -/
def forget (s : Sealed) : Sealed := { s with forest := s.forest.mapRoutes Route.forget }

/-- What is kept of a route cannot be seen when it is forgotten. -/
theorem forget_keep {s : Sealed} (h : s.forest.Sound) {m : Method} {segments : List Segment}
    {old new : Route} (hroute : s.forest.route? m segments = some old)
    (hforget : new.forget = old.forget) : (s.keep m segments new).forget = s.forget := by
  rw [Forest.route?_eq] at hroute
  have hforest := h.mapRoutes_set (Node.mapRoutes_put hroute hforget)
  exact congrArg (fun forest => ({ s with forest := forest } : Sealed)) hforest

end Sealed

/-! ## What unmatched requests get -/

namespace Sealed

/-- What is allowed is told by the methods, and by which of them have a route. -/
theorem allowedAt_congr {s s' : Sealed} (hmethods : s'.forest.methods = s.forest.methods)
    {path : Text} (harrive : ∀ m, (s'.arrive? m path).isSome = (s.arrive? m path).isSome)
    (m : Method) : s'.allowedAt m path = s.allowedAt m path := by
  have hempty : s'.forest.roots.isEmpty = s.forest.roots.isEmpty := by
    have := congrArg List.isEmpty hmethods
    rwa [Forest.methods, Forest.methods, List.isEmpty_map, List.isEmpty_map] at this
  have hothers : s'.otherMethods m path = s.otherMethods m path := by
    simp only [otherMethods, hmethods, harrive]
  rw [allowedAt, hempty, hothers, allowedAt]

theorem fallback_congr {s s' : Sealed} (hoptions : s'.options = s.options)
    (hfiles : s'.files = s.files) {m : Method} {path : Text}
    (hallowed : s'.allowedAt m path = s.allowedAt m path) :
    s'.fallback m path = s.fallback m path := by
  simp only [fallback, hoptions, hfiles, hallowed]

end Sealed

/-! ## What is composed -/

namespace Chain

/-- What the layers behind this one, counted from the outermost, make of the handler. -/
def inside (c : Chain) (handler : Handler) (number : Nat) : Run Handler :=
  compose ⟨c.layers.drop (number + 1)⟩ handler

/-- The layers that composing puts around something, the innermost first: those behind which no
layer panics. -/
def wraps (c : Chain) (handler : Handler) : List Nat :=
  (List.range c.length).reverse.filter fun number => (c.inside handler number).value.isSome

/-- The layer with this number around what the layers behind it made of the handler. -/
def wrapAt (c : Chain) (handler : Handler) (number : Nat) : Run Handler :=
  match c.layers[number]?, (c.inside handler number).value with
  | some layer, some inner => layer.wrap inner
  | _, _ => .panicked

omit [Regex.Engine]

theorem wraps_cons (layer : Layer) (layers : List Layer) (handler : Handler) :
    wraps ⟨layer :: layers⟩ handler = (wraps ⟨layers⟩ handler).map (· + 1) ++
      if (compose ⟨layers⟩ handler).value.isSome then [0] else [] := by
  simp only [wraps, length, List.length_cons, List.range_succ_eq_map, List.reverse_cons,
    List.filter_append, ← List.map_reverse, List.filter_map, List.filter_singleton,
    Bool.cond_eq_ite]
  rfl

/-- Composing puts every layer around a handler once, the innermost first, until one panics. -/
theorem events_compose (c : Chain) (handler : Handler) :
    (c.compose handler).events =
      (c.wraps handler).flatMap fun number => (c.wrapAt handler number).events := by
  obtain ⟨layers⟩ := c
  induction layers with
  | nil => rfl
  | cons layer layers ih =>
    have hinner (number : Nat) :
        wrapAt ⟨layer :: layers⟩ handler (number + 1) = wrapAt ⟨layers⟩ handler number := rfl
    rw [wraps_cons, List.flatMap_append, List.flatMap_map]
    simp only [hinner, ← ih]
    cases hvalue : (compose ⟨layers⟩ handler).value with
    | none =>
      rw [compose_cons, Run.bind_of_panic hvalue]
      simp
    | some inner =>
      have houter : wrapAt ⟨layer :: layers⟩ handler 0 = layer.wrap inner := by
        simp [wrapAt, inside, hvalue]
      rw [compose_cons, Run.bind_of_value hvalue]
      simp [houter]

end Chain

/-- The method and the position of a route. -/
abbrev Key := Method × List Segment

/-- A layer of a route is put around a handler. -/
structure Wrapping where
  key : Key
  /-- The number of the layer, counted from the outermost. -/
  layer : Nat
  deriving DecidableEq

namespace Route

omit [Regex.Engine]

/-- What it takes to make the route ready, the innermost layer first. -/
def wrappings (r : Route) (key : Key) : List Wrapping :=
  match r.composed with
  | some _ => []
  | none => (r.chain.wraps r.handler).map (⟨key, ·⟩)

theorem key_of_mem_wrappings {r : Route} {key : Key} {w : Wrapping} (h : w ∈ r.wrappings key) :
    w.key = key := by
  unfold wrappings at h
  split at h
  · cases h
  · obtain ⟨number, -, rfl⟩ := List.mem_map.1 h
    rfl

theorem events_ready (r : Route) (key : Key) :
    r.ready.1.events =
      (r.wrappings key).flatMap fun w => (r.chain.wrapAt r.handler w.layer).events := by
  cases h : r.composed with
  | some handler =>
    simp only [ready, wrappings, h, List.flatMap_nil]
    rfl
  | none => simp only [ready, wrappings, h, List.flatMap_map, Chain.events_compose]

/-- The route at this key after calls that matched the routes with these. -/
def recalled (r : Route) (keys : List Key) (key : Key) : Route :=
  if key ∈ keys then r.kept else r

/-- The answers are those of the composition, and what is kept is not kept twice. -/
theorem ready_recalled {r : Route} (h : r.composed = none) (keys : List Key) (key : Key) :
    (r.recalled keys key).ready.1.value = r.composition.value ∧
      (r.recalled keys key).ready.2 = r.kept := by
  unfold recalled
  split
  · cases hvalue : r.composition.value with
    | some handler =>
      rw [ready_kept_of_value hvalue]
      exact ⟨rfl, rfl⟩
    | none =>
      rw [ready_kept_of_panic hvalue]
      exact ⟨hvalue, rfl⟩
  · rw [ready_of_uncomposed h]
    exact ⟨rfl, rfl⟩

/-- Only a composition that panicked is tried again. -/
theorem wrappings_recalled {r : Route} (h : r.composed = none) (keys : List Key) (key : Key) :
    (r.recalled keys key).wrappings key =
      if key ∈ keys ∧ r.composition.value.isSome then [] else r.wrappings key := by
  unfold recalled
  by_cases hkey : key ∈ keys
  · cases hvalue : r.composition.value with
    | some handler => simp [hkey, wrappings, kept, hvalue]
    | none => simp [hkey, wrappings, kept, hvalue, h]
  · simp [hkey]

end Route

/-! ## Routers that keep compositions -/

namespace Router

/-- The router as it was sealed, but for the routes with these keys, which keep their compositions
unless a layer panics. -/
structure Recalls (r : Router) (keys : List Key) (s : Sealed) : Prop where
  forget : s.forget = r.seal
  routes : ∀ m segments, s.forest.route? m segments =
    (r.table m segments).map (·.recalled keys (m, segments))

theorem forget_seal {r : Router} (hr : r.Reachable) : r.seal.forget = r.seal := by
  have hroot : ∀ m, (r.forest.mapRoutes Route.forget).root m = r.forest.root m := by
    intro m
    rw [Forest.root_mapRoutes]
    have hsound := hr.sound.root m
    apply (Node.sound_mapRoutes.2 hsound).ext_routes hsound rfl
    · exact Node.branchesAt_mapRoutes Route.forget _
    · intro position
      rw [Node.routeAt_mapRoutes, ← Forest.route?_eq]
      cases hroute : r.forest.route? m position with
      | none => rfl
      | some route =>
        rw [Option.map_some, Route.forget_of_uncomposed (hr.uncomposed m position route hroute)]
  have hforest : r.forest.mapRoutes Route.forget = r.forest :=
    Forest.ext_roots (Forest.sound_mapRoutes.2 hr.sound) hr.sound r.forest.methods_mapRoutes hroot
  exact congrArg (fun forest => ({ r.seal with forest := forest } : Sealed)) hforest

theorem recalls_seal {r : Router} (hr : r.Reachable) : r.Recalls [] r.seal where
  forget := forget_seal hr
  routes m segments := by
    have hsame : (fun route : Route => route.recalled [] (m, segments)) = id := by
      funext route
      simp [Route.recalled]
    rw [hsame, Option.map_id_fun, id_eq]
    rfl

section

variable {r : Router} {keys : List Key} {s : Sealed} (h : r.Recalls keys s) (hr : r.Reachable)

include h

theorem Recalls.mapRoutes_forest : s.forest.mapRoutes Route.forget = r.forest :=
  congrArg Sealed.forest h.forget

theorem Recalls.methods : s.forest.methods = r.forest.methods := by
  rw [← h.mapRoutes_forest, Forest.methods_mapRoutes]

theorem Recalls.branchesAt (m : Method) (position : List Segment) :
    (s.forest.root m).branchesAt position = (r.forest.root m).branchesAt position := by
  rw [← h.mapRoutes_forest, Forest.root_mapRoutes, Node.branchesAt_mapRoutes]

include hr

theorem Recalls.sound : s.forest.Sound := by
  apply Forest.sound_mapRoutes.1
  rw [h.mapRoutes_forest]
  exact hr.sound

/-- **The same is found** as on the router as it was sealed. -/
theorem Recalls.finding? (m : Method) (path : Text) :
    s.finding? m path = (r.seal.finding? m path).map fun f =>
      { f with route := f.route.recalled keys (m, f.segments) } := by
  have hsealed : r.seal.forest.Sound := hr.sound
  exact Sealed.finding?_congr hsealed (h.sound hr) (h.branchesAt m) (h.routes m) path

theorem Recalls.finding?_of_none {m : Method} {path : Text}
    (hf : r.seal.finding? m path = none) : s.finding? m path = none := by
  rw [h.finding? hr, hf, Option.map_none]

theorem Recalls.finding?_of_some {m : Method} {path : Text} {f : Finding}
    (hf : r.seal.finding? m path = some f) :
    f.route.composed = none ∧ r.table m f.segments = some f.route ∧
      s.finding? m path = some { f with route := f.route.recalled keys (m, f.segments) } := by
  have hroute : r.table m f.segments = some f.route := (Sealed.walks_of_finding? hr.sound hf).2
  refine ⟨hr.uncomposed m f.segments f.route hroute, hroute, ?_⟩
  rw [h.finding? hr, hf, Option.map_some]

theorem Recalls.answer_lookup (m : Method) (path : Text) :
    (s.lookup m path).answer = (r.seal.lookup m path).answer := by
  cases hf : r.seal.finding? m path with
  | none =>
    rw [Sealed.lookup_of_none hf, Sealed.lookup_of_none (h.finding?_of_none hr hf)]
    rfl
  | some f =>
    obtain ⟨hnone, -, hs⟩ := h.finding?_of_some hr hf
    rw [Sealed.lookup_of_some hf, Sealed.lookup_of_some hs]
    simp only [Served.answer, Run.map, (Route.ready_recalled hnone keys (m, f.segments)).1,
      Route.ready_of_uncomposed hnone]

/-- A route that is found keeps its composition from then on. -/
theorem Recalls.lookup (m : Method) (path : Text) :
    r.Recalls (keys ++ ((r.seal.finding? m path).map fun f => (m, f.segments)).toList)
      (s.lookup m path).router := by
  cases hf : r.seal.finding? m path with
  | none =>
    rw [Sealed.lookup_of_none (h.finding?_of_none hr hf)]
    simpa using h
  | some f =>
    obtain ⟨hnone, htable, hs⟩ := h.finding?_of_some hr hf
    have hroute := (Sealed.walks_of_finding? (h.sound hr) hs).2
    rw [Sealed.lookup_of_some hs, (Route.ready_recalled hnone keys (m, f.segments)).2]
    refine ⟨?_, fun m' segments' => ?_⟩
    · have hforget : f.route.kept.forget = (f.route.recalled keys (m, f.segments)).forget := by
        unfold Route.recalled
        split <;> rfl
      exact (Sealed.forget_keep (h.sound hr) hroute hforget).trans h.forget
    · rw [Sealed.route?_keep hroute]
      by_cases hkey : m' = m ∧ segments' = f.segments
      · obtain ⟨rfl, rfl⟩ := hkey
        rw [if_pos ⟨rfl, rfl⟩, htable]
        simp [Route.recalled]
      · rw [if_neg hkey, h.routes]
        have hne : (m', segments') ≠ (m, f.segments) := by simpa using hkey
        simp [Route.recalled, hne]

/-- What an unmatched request gets. -/
theorem Recalls.allowedAt (m : Method) (path : Text) :
    s.allowedAt m path = r.seal.allowedAt m path := by
  apply Sealed.allowedAt_congr h.methods
  intro other
  rw [← Sealed.isSome_finding?, ← Sealed.isSome_finding?, h.finding? hr, Option.isSome_map]

theorem Recalls.answer_resolve (m : Method) (path : Text) :
    (s.resolve m path).answer = (r.seal.resolve m path).answer := by
  have hfallback (path : Text) : s.fallback m path = r.seal.fallback m path := by
    have hoptions : s.options = r.seal.options := by rw [← h.forget, Sealed.forget]
    have hfiles : s.files = r.seal.files := by rw [← h.forget, Sealed.forget]
    exact Sealed.fallback_congr hoptions hfiles (h.allowedAt hr m path)
  have hlookup := h.answer_lookup hr m (Text.Percent.text path)
  simp only [Sealed.resolve, Served.answer_map, hlookup, hfallback]

theorem Recalls.answer_find (m : Method) (path : Text) :
    (s.find m path).answer = (r.seal.find m path).answer := by
  have hlookup := h.answer_lookup hr m (Text.Percent.text path)
  simp only [Sealed.find, Served.answer_map, hlookup]

end

end Router

end Routing
