import Routing.Proofs.Below

/-!
# What a walk tells

The node at the end of a walk matters only for its route. All else that a walk tells, the segments
that were taken and the parameters that were captured, is told by the branches of the tree.

* `Node.trace?` — what the walk of a path tells, without the node at its end.
* `Node.Sound.trace?_congr` — trees with the same branches are walked alike.
* `Sealed.finding?`, `Sealed.finding?_eq` — the route that is found for a path, by the trace of its
  walk and the position of the route.
* `Sealed.finding?_congr` — trees that differ in their routes alone let the same routes be found.
-/

namespace Routing

variable [Regex.Engine]

/-- The segments that a walk took, and the parameters that it captured. -/
structure Trace where
  segments : List Segment
  params : List Param

def Arrival.trace {ρ : Type} (arrival : Arrival ρ) : Trace :=
  ⟨arrival.segments, arrival.captures.map Capture.param⟩

/-- The trace of a walk that took an edge before. -/
def Trace.behind (t : Trace) (edge : Edge) (part : Option Text) : Trace :=
  ⟨edge.segment :: t.segments, (part.toList.map fun part => ⟨edge.id, part⟩) ++ t.params⟩

theorem Arrival.trace_behind {ρ : Type} (arrival : Arrival ρ) (edge : Edge) (slots : Nat)
    (part : Option Text) : (arrival.behind edge slots part).trace = arrival.trace.behind edge part := by
  cases part <;> rfl

/-- No more than one branch is followed. -/
theorem Branches.Follows.unique {ρ : Type} {b : Branches ρ} {ahead : Text} {edge edge' : Edge}
    {child child' : Node ρ} {a a' : Advance} (h : b.Follows ahead edge child a)
    (h' : b.Follows ahead edge' child' a') : edge' = edge ∧ child' = child ∧ a' = a := by
  induction b with
  | nil => exact absurd h not_follows_nil
  | cons first slots route below rest _ ih =>
    cases hfirst : first.advance? ahead with
    | none =>
      rw [follows_cons_of_none hfirst] at h h'
      exact ih h h'
    | some b =>
      rw [follows_cons_of_some hfirst] at h h'
      obtain ⟨rfl, rfl, rfl⟩ := h
      exact h'

namespace Node

variable {ρ : Type}

def trace? (n : Node ρ) (path : Text) : Option Trace := (n.walk? path).map Arrival.trace

theorem trace?_eq_some_iff {n : Node ρ} {path : Text} {t : Trace} :
    n.trace? path = some t ↔ ∃ arrival, n.Walks path arrival ∧ arrival.trace = t := by
  simp only [trace?, Option.map_eq_some_iff, walk?_eq_some_iff]

theorem trace?_of_stop {n : Node ρ} {path : Text} (h : skipSlash path = []) :
    n.trace? path = some ⟨[], []⟩ := by
  rw [trace?, walk?_of_stop h]
  rfl

theorem trace?_of_follows {n child : Node ρ} {path : Text} {edge : Edge} {a : Advance}
    (hgo : skipSlash path ≠ []) (h : n.below.Follows (skipSlash path) edge child a) :
    n.trace? path = (child.trace? a.rest).map (·.behind edge a.part) := by
  rw [trace?, walk?_of_go hgo, Branches.walk?_of_follows h, trace?, Option.map_map, Option.map_map]
  congr 1
  funext arrival
  exact arrival.trace_behind edge child.slots a.part

theorem trace?_of_not_follows {n : Node ρ} {path : Text} (hgo : skipSlash path ≠ [])
    (h : ∀ edge child a, ¬ n.below.Follows (skipSlash path) edge child a) :
    n.trace? path = none := by
  rw [Option.eq_none_iff_forall_not_mem]
  intro t ht
  obtain ⟨arrival, hwalks, -⟩ := trace?_eq_some_iff.1 ht
  cases hwalks with
  | stop hstop => exact hgo hstop
  | go _ hfollows _ => exact h _ _ _ hfollows

/-- **Trees with the same branches are walked alike.** -/
theorem Sound.trace?_congr {n n' : Node ρ} (hn : n.Sound) (hn' : n'.Sound)
    (hb : ∀ position, n'.branchesAt position = n.branchesAt position) (path : Text) :
    n'.trace? path = n.trace? path := by
  apply Option.ext
  intro t
  rw [trace?_eq_some_iff, trace?_eq_some_iff]
  constructor
  · rintro ⟨arrival, hwalks, rfl⟩
    obtain ⟨arrival', hwalks', hsegments, hparams⟩ := hwalks.transfer hn' hn hb
    exact ⟨arrival', hwalks', congrArg₂ Trace.mk hsegments hparams⟩
  · rintro ⟨arrival, hwalks, rfl⟩
    obtain ⟨arrival', hwalks', hsegments, hparams⟩ :=
      hwalks.transfer hn hn' fun position => (hb position).symm
    exact ⟨arrival', hwalks', congrArg₂ Trace.mk hsegments hparams⟩

end Node

/-- A route that is found: where it is, and what its wildcards captured. -/
structure Finding where
  segments : List Segment
  route : Route
  params : Params

namespace Sealed

/-- The route that is found for a decoded path. -/
def finding? (s : Sealed) (m : Method) (path : Text) : Option Finding :=
  (s.arrive? m path).map fun (arrival, route) => ⟨arrival.segments, route, arrival.params⟩

theorem isSome_finding? (s : Sealed) (m : Method) (path : Text) :
    (s.finding? m path).isSome = (s.arrive? m path).isSome := Option.isSome_map

theorem foundAt?_eq (s : Sealed) (m : Method) (path : Text) :
    s.foundAt? m path = (s.finding? m (Text.Percent.text path)).map Finding.segments := by
  rw [foundAt?, finding?, Option.map_map]
  rfl

theorem lookup_of_none {s : Sealed} {m : Method} {path : Text} (h : s.finding? m path = none) :
    s.lookup m path = ⟨.of none, s⟩ := by
  have harrive : s.arrive? m path = none := Option.map_eq_none_iff.1 h
  simp only [lookup, harrive]

theorem lookup_of_some {s : Sealed} {m : Method} {path : Text} {f : Finding}
    (h : s.finding? m path = some f) :
    s.lookup m path = ⟨f.route.ready.1.map fun handler => some ⟨handler, f.params⟩,
      s.keep m f.segments f.route.ready.2⟩ := by
  obtain ⟨⟨arrival, route⟩, harrive, rfl⟩ := Option.map_eq_some_iff.1 h
  simp only [lookup, harrive]

theorem answer_find (s : Sealed) (m : Method) (path : Text) :
    (s.find m path).answer =
      match s.finding? m (Text.Percent.text path) with
      | some f => f.route.ready.1.value.map fun handler => .ok ⟨handler, f.params⟩
      | none => some (.error (.routeNotFound m path)) := by
  unfold finding?
  cases harrive : s.arrive? m (Text.Percent.text path) with
  | none => exact find_of_not_arrive? harrive
  | some found => exact find_of_arrive? harrive

/-- **What is found is told by the trace of the walk** and the route at its position. -/
theorem finding?_eq {s : Sealed} (h : s.forest.Sound) (m : Method) (path : Text) :
    s.finding? m path = ((s.forest.root m).trace? path).bind fun t =>
      (s.forest.route? m t.segments).map fun route => ⟨t.segments, route, ⟨t.params⟩⟩ := by
  have hroute {arrival : Arrival Route} (hwalks : (s.forest.root m).Walks path arrival) :
      s.forest.route? m arrival.trace.segments = arrival.node.route := by
    have hlocate : (s.forest.root m).locate? arrival.trace.segments = some arrival.node :=
      hwalks.locate? (h.root m)
    rw [Forest.route?_eq, Node.routeAt_eq, hlocate, Option.bind_some]
  have hparams {arrival : Arrival Route} (hwalks : (s.forest.root m).Walks path arrival)
      (route : Route) : (⟨arrival.segments, route, arrival.params⟩ : Finding) =
        ⟨arrival.trace.segments, route, ⟨arrival.trace.params⟩⟩ := by
    rw [hwalks.params (h.root m) (h.slots_root m)]
    rfl
  apply Option.ext
  intro f
  rw [finding?, Option.map_eq_some_iff, Option.bind_eq_some_iff]
  constructor
  · rintro ⟨⟨arrival, route⟩, harrive, rfl⟩
    obtain ⟨hwalks, hend⟩ := arrive?_eq_some_iff.1 harrive
    refine ⟨arrival.trace, Node.trace?_eq_some_iff.2 ⟨arrival, hwalks, rfl⟩, ?_⟩
    rw [hroute hwalks, hend, Option.map_some]
    exact congrArg some (hparams hwalks route).symm
  · rintro ⟨t, ht, hf⟩
    obtain ⟨arrival, hwalks, rfl⟩ := Node.trace?_eq_some_iff.1 ht
    rw [hroute hwalks, Option.map_eq_some_iff] at hf
    obtain ⟨route, hend, rfl⟩ := hf
    exact ⟨(arrival, route), arrive?_eq_some_iff.2 ⟨hwalks, hend⟩, hparams hwalks route⟩

/-- **Trees that differ in their routes alone** let the same routes be found. -/
theorem finding?_congr {s s' : Sealed} (hs : s.forest.Sound) (hs' : s'.forest.Sound) {m : Method}
    {change : List Segment → Route → Route}
    (hbranches : ∀ position,
      (s'.forest.root m).branchesAt position = (s.forest.root m).branchesAt position)
    (hroutes : ∀ segments,
      s'.forest.route? m segments = (s.forest.route? m segments).map (change segments))
    (path : Text) :
    s'.finding? m path =
      (s.finding? m path).map fun f => { f with route := change f.segments f.route } := by
  have htrace := (hs.root m).trace?_congr (hs'.root m) hbranches path
  rw [finding?_eq hs', finding?_eq hs, htrace, Option.map_bind]
  congr 1
  funext t
  rw [hroutes, Function.comp_apply, Option.map_map, Option.map_map]
  rfl

/-- A route that is found is the one at the end of a walk. -/
theorem walks_of_finding? {s : Sealed} (h : s.forest.Sound) {m : Method} {path : Text} {f : Finding}
    (hf : s.finding? m path = some f) :
    (∃ arrival, (s.forest.root m).Walks path arrival ∧ arrival.segments = f.segments) ∧
      s.forest.route? m f.segments = some f.route := by
  rw [finding?_eq h, Option.bind_eq_some_iff] at hf
  obtain ⟨t, ht, hf⟩ := hf
  obtain ⟨route, hroute, rfl⟩ := Option.map_eq_some_iff.1 hf
  obtain ⟨arrival, hwalks, rfl⟩ := Node.trace?_eq_some_iff.1 ht
  exact ⟨⟨arrival, hwalks, rfl⟩, hroute⟩

end Sealed

end Routing
