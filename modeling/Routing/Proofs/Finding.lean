import Routing.Proofs.Covering
import Routing.Proofs.Walking
import Routing.Router.Sealed

/-!
# Finding routes

A sealed router finds a route for a path if the walk of the decoded path ends at a node that has
one. The walk spells the path, so what is found is told by the segments of the route and the texts
that stand for them.

* `Sealed.arrive?_eq_some_iff`, `Sealed.find_eq_ok_iff` — finding is walking.
* `Sealed.Finds`, `Sealed.foundAt?` — that a route is found, and its position.
* `Route.found` — what is answered when a route is found; `Router.Reachable.finds_iff_exists` says
  that this is a handler as long as no layer panics.
* `Router.Reachable.find_sound` — what is found spells the path, and every wildcard has its
  parameter.
-/

namespace Routing

/-- What `find` answers when it comes to the route with these parameters. It panics with the layers
of the route. -/
def Route.found (r : Route) (params : Params) : Option (Except RouterError Match) :=
  r.composition.value.map fun handler => .ok ⟨handler, params⟩

theorem Route.found_eq_ok_iff {r : Route} {params : Params} {found : Match} :
    r.found params = some (.ok found) ↔
      r.composition.value = some found.handler ∧ found.params = params := by
  obtain ⟨handler, params'⟩ := found
  simp [found, eq_comm]

section

variable [Regex.Engine]

/-- No walk ends at a route where there is none. -/
theorem Tree.not_walks_bare {path : Text} {arrival : Arrival Route} {route : Route}
    (h : Tree.bare.Walks path arrival) : arrival.node.route ≠ some route := by
  cases h with
  | stop => intro hroute; cases hroute
  | go _ hfollows _ => exact absurd hfollows Branches.not_follows_nil

namespace Sealed

/-- **A route is arrived at by a walk in the tree of the method.** A method without a tree is like
one without routes. -/
theorem arrive?_eq_some_iff {s : Sealed} {m : Method} {path : Text} {arrival : Arrival Route}
    {route : Route} :
    s.arrive? m path = some (arrival, route) ↔
      (s.forest.root m).Walks path arrival ∧ arrival.node.route = some route := by
  unfold arrive? Forest.root
  cases s.forest.root? m with
  | none =>
    constructor
    · intro h
      cases h
    · rintro ⟨hwalks, hroute⟩
      exact absurd hroute (Tree.not_walks_bare hwalks)
  | some tree =>
    simp only [Option.bind_eq_bind, Option.bind_some, Option.getD_some, ← Node.walk?_eq_some_iff,
      Option.bind_eq_some_iff, pure, Option.some.injEq, Prod.mk.injEq]
    constructor
    · rintro ⟨_, hwalk, _, hroute, rfl, rfl⟩
      exact ⟨hwalk, hroute⟩
    · rintro ⟨hwalk, hroute⟩
      exact ⟨arrival, hwalk, route, hroute, rfl, rfl⟩

/-- The position of the route that is found for a path. -/
def foundAt? (s : Sealed) (m : Method) (path : Text) : Option (List Segment) :=
  (s.arrive? m (Text.Percent.text path)).map fun found => found.1.segments

/-- The path finds a route, whether or not its layers panic when they are put around it. -/
def Finds (s : Sealed) (m : Method) (path : Text) : Prop :=
  ∀ e, (s.find m path).answer ≠ some (.error e)

theorem find_of_arrive? {s : Sealed} {m : Method} {path : Text} {arrival : Arrival Route}
    {route : Route} (h : s.arrive? m (Text.Percent.text path) = some (arrival, route)) :
    (s.find m path).answer =
      route.ready.1.value.map fun handler => .ok ⟨handler, arrival.params⟩ := by
  simp only [find, lookup, h, Served.answer, Served.map, Run.map, Option.map_map]
  rfl

theorem find_of_not_arrive? {s : Sealed} {m : Method} {path : Text}
    (h : s.arrive? m (Text.Percent.text path) = none) :
    (s.find m path).answer = some (.error (.routeNotFound m path)) := by
  simp only [find, lookup, h]
  rfl

/-- What is found is the composed handler of the route at which the walk of the decoded path
ends. -/
theorem find_eq_ok_iff {s : Sealed} {m : Method} {path : Text} {found : Match} :
    (s.find m path).answer = some (.ok found) ↔ ∃ arrival route,
      s.arrive? m (Text.Percent.text path) = some (arrival, route) ∧
        route.ready.1.value = some found.handler ∧ found.params = arrival.params := by
  obtain ⟨handler, params⟩ := found
  cases harrive : s.arrive? m (Text.Percent.text path) with
  | none => simp [find_of_not_arrive? harrive]
  | some arrived =>
    obtain ⟨arrival, route⟩ := arrived
    simp [find_of_arrive? harrive, eq_comm]

theorem finds_of_find {s : Sealed} {m : Method} {path : Text} {found : Match}
    (h : (s.find m path).answer = some (.ok found)) : s.Finds m path := by
  intro e he
  rw [h] at he
  cases he

theorem finds_iff {s : Sealed} {m : Method} {path : Text} :
    s.Finds m path ↔ ∃ arrival route,
      s.arrive? m (Text.Percent.text path) = some (arrival, route) := by
  unfold Finds
  cases harrive : s.arrive? m (Text.Percent.text path) with
  | none => simp [find_of_not_arrive? harrive]
  | some arrived =>
    obtain ⟨arrival, route⟩ := arrived
    simp [find_of_arrive? harrive]

theorem Finds.exists_foundAt? {s : Sealed} {m : Method} {path : Text} (h : s.Finds m path) :
    ∃ segments, s.foundAt? m path = some segments := by
  obtain ⟨arrival, route, harrive⟩ := finds_iff.1 h
  exact ⟨arrival.segments, by rw [foundAt?, harrive, Option.map_some]⟩

end Sealed

namespace Instance

omit [Regex.Engine]

/-- Wildcards with a name bind it to a text that is not empty. -/
theorem binding_ne_nil {i : Instance} (hproper : i.segment.Proper) (hplain : i.Plain) {p : Param}
    (h : i.binding? = some p) : p.key ≠ [] ∧ p.value ≠ [] := by
  obtain ⟨segment, text⟩ := i
  cases segment with
  | literal id => cases h
  | wildcard name =>
    cases h
    exact ⟨hproper.1, hplain.1⟩
  | regex name raw =>
    cases h
    exact ⟨hproper.1, hplain.1⟩

/-- There are as many bindings as wildcards. -/
theorem length_bindings (is : List Instance) :
    (bindings is).length = Pattern.wildcards (is.map Instance.segment) := by
  induction is with
  | nil => rfl
  | cons i is ih =>
    have hcons : (bindings (i :: is)).length =
        i.binding?.toList.length + (bindings is).length := by
      cases h : i.binding? <;> simp [bindings, Params.length, h, Nat.add_comm]
    have hone : i.binding?.toList.length = Pattern.wildcards [i.segment] := by
      obtain ⟨segment, text⟩ := i
      cases segment <;> rfl
    rw [hcons, hone, ih, List.map_cons, ← Pattern.wildcards_cons]

end Instance

theorem Spells.plain {is : List Instance} {path : Text} (h : Spells is path) :
    ∀ i ∈ is, i.Plain := by
  induction h with
  | nil => simp
  | cons _ hfits _ ih => exact List.forall_mem_cons.2 ⟨hfits.plain, ih⟩

/-- The segments on the way to a route are proper. -/
theorem Router.Reachable.proper_of_table {r : Router} (h : r.Reachable) {m : Method}
    {segments : List Segment} {route : Route} (hroute : r.table m segments = some route) :
    ∀ s ∈ segments, s.Proper := by
  have hentry : ⟨m, segments, route⟩ ∈ r.forest.entries := h.sound.mem_entries_iff.2 hroute
  exact h.sound.proper_entry hentry

/-- Where a walk ends at a route, the table has it under the segments that were followed. -/
theorem Router.Reachable.table_of_walks {r : Router} (h : r.Reachable) {m : Method} {path : Text}
    {arrival : Arrival Route} {route : Route} (hwalks : (r.forest.root m).Walks path arrival)
    (hroute : arrival.node.route = some route) : r.table m arrival.segments = some route := by
  have hlocate := hwalks.locate? (h.sound.root m)
  rw [table, Forest.route?_eq, Node.routeAt_eq, hlocate, Option.bind_some, hroute]

theorem Router.Reachable.find_of_arrive? {r : Router} (h : r.Reachable) {m : Method} {path : Text}
    {arrival : Arrival Route} {route : Route}
    (harrive : r.seal.arrive? m (Text.Percent.text path) = some (arrival, route)) :
    (r.seal.find m path).answer = route.found arrival.params := by
  obtain ⟨hwalks, hroute⟩ := Sealed.arrive?_eq_some_iff.1 harrive
  rw [Sealed.find_of_arrive? harrive, h.run_ready (h.table_of_walks hwalks hroute), Route.found]

/-- As long as no layer panics, what finds a route answers with a handler. -/
theorem Router.Reachable.finds_iff_exists {r : Router} (h : r.Reachable)
    (hcalm : ∀ m segments route, r.table m segments = some route → ∃ handler,
      route.composition.value = some handler) {m : Method} {path : Text} :
    r.seal.Finds m path ↔ ∃ found, (r.seal.find m path).answer = some (.ok found) := by
  constructor
  · intro hfinds
    obtain ⟨arrival, route, harrive⟩ := Sealed.finds_iff.1 hfinds
    obtain ⟨hwalks, hroute⟩ := Sealed.arrive?_eq_some_iff.1 harrive
    obtain ⟨handler, hhandler⟩ := hcalm _ _ _ (h.table_of_walks hwalks hroute)
    exact ⟨⟨handler, arrival.params⟩, by rw [h.find_of_arrive? harrive, Route.found, hhandler]; rfl⟩
  · rintro ⟨found, hfound⟩
    exact Sealed.finds_of_find hfound

/-- What is found are a route of the method whose segments the path spells, and the bindings of its
wildcards. -/
theorem Router.Reachable.exists_spells_of_finds {r : Router} (h : r.Reachable) {m : Method}
    {path : Text} (hfinds : r.seal.Finds m path) :
    ∃ is route, Spells is (Text.Percent.text path) ∧
      r.table m (is.map Instance.segment) = some route ∧
      r.seal.foundAt? m path = some (is.map Instance.segment) ∧
      (r.seal.find m path).answer = route.found (Instance.bindings is) := by
  obtain ⟨arrival, route, harrive⟩ := Sealed.finds_iff.1 hfinds
  obtain ⟨hwalks, hroute⟩ := Sealed.arrive?_eq_some_iff.1 harrive
  have htable : r.table m arrival.segments = some route := h.table_of_walks hwalks hroute
  obtain ⟨is, hspells, hsegments, hcaptures⟩ := hwalks.exists_spells
  have hparams : arrival.params = Instance.bindings is := by
    rw [hwalks.params (h.sound.root m) (h.sound.slots_root m), ← hcaptures, Instance.bindings]
  refine ⟨is, route, hspells, ?_, ?_, ?_⟩
  · rw [hsegments, htable]
  · rw [Sealed.foundAt?, harrive, hsegments, Option.map_some]
  · rw [h.find_of_arrive? harrive, hparams]

/-- **What is found is what the path spells.** The decoded path spells the segments of a route of
the method, each with a text that stands for it; the handler is that of the route with its layers;
and each wildcard binds its text, in the order of the path, so that no parameter is left blank. -/
theorem Router.Reachable.find_sound {r : Router} (h : r.Reachable) {m : Method} {path : Text}
    {found : Match} (hfind : (r.seal.find m path).answer = some (.ok found)) :
    ∃ is route, Spells is (Text.Percent.text path) ∧
      r.table m (is.map Instance.segment) = some route ∧
      r.seal.foundAt? m path = some (is.map Instance.segment) ∧
      route.composition.value = some found.handler ∧
      found.params = Instance.bindings is ∧
      found.params.length = Pattern.wildcards (is.map Instance.segment) ∧
      ∀ p ∈ found.params.slots, p.key ≠ [] ∧ p.value ≠ [] := by
  obtain ⟨is, route, hspells, hroute, hat, hanswer⟩ :=
    h.exists_spells_of_finds (Sealed.finds_of_find hfind)
  rw [hfind] at hanswer
  obtain ⟨hhandler, hparams⟩ := Route.found_eq_ok_iff.1 hanswer.symm
  have hproper : ∀ i ∈ is, i.segment.Proper := by
    intro i hi
    exact h.proper_of_table hroute i.segment (List.mem_map_of_mem hi)
  refine ⟨is, route, hspells, hroute, hat, hhandler, hparams, ?_, ?_⟩
  · rw [hparams, Instance.length_bindings]
  · rw [hparams]
    intro p hp
    obtain ⟨i, hi, hbinding⟩ := List.mem_filterMap.1 hp
    exact Instance.binding_ne_nil (hproper i hi) (hspells.plain i hi) hbinding

end

open Regex.Standard

/-- The sample with the route `/{n:[0-9]}/b`. -/
def Router.numbered : Router :=
  let pattern := ['/', '{', 'n', ':', '[', '0', '-', '9', ']', '}', '/', 'b']
  (sample.handle .get pattern silent).router

theorem Router.reachable_numbered : numbered.Reachable := .handle _ _ _ _ reachable_sample

/-- The expression is tried before the plain wildcard, on a path that was escaped. -/
theorem Router.find_sound_numbered :
    let path := ['/', '%', '3', '7', '/', 'b']
    ∃ found, (numbered.seal.find .get path).answer = some (.ok found) ∧
      found.params = ⟨[⟨['n'], ['7']⟩]⟩ ∧
      ∃ is route, Spells is (Text.Percent.text path) ∧
        numbered.table .get (is.map Instance.segment) = some route ∧
        numbered.seal.foundAt? .get path = some (is.map Instance.segment) ∧
        route.composition.value = some found.handler ∧
        found.params = Instance.bindings is ∧
        found.params.length = Pattern.wildcards (is.map Instance.segment) ∧
        ∀ p ∈ found.params.slots, p.key ≠ [] ∧ p.value ≠ [] :=
  ⟨_, rfl, rfl, reachable_numbered.find_sound rfl⟩

end Routing
