import Routing.Proofs.Reachable

/-!
# Taking a tree apart and building it again

A tree that was taken apart can be built again from what came out of it. Whatever stands at a node
was on the way to some route, so no branch is lost; and routes come out in the order of the
branches, so each branch is made before those that stand behind it.

* `Node.Drained` — what comes out, and in which order.
* `Node.Sound.drained` — a sound tree is drained of each route once.
* `Node.Built` — what the routes that were attached so far have made of an empty tree.
* `Node.Sound.build_drain` — all of them make the tree that they came from.
* `Router.Reachable.drain_rebuilds` — both for the trees of a router.
-/

namespace Routing

open Segment (Before)

section

variable [Regex.Engine]

namespace Node

variable {ρ : Type}

/-- In the tree one position comes before another: it is above the other, or an earlier branch of
the node where their ways part leads to it. -/
inductive Earlier (n : Node ρ) (a b : List Segment) : Prop where
  | above : a <+: b → a ≠ b → Earlier n a b
  | beside (position : List Segment) (s t : Segment) : [s, t].Sublist (n.branchesAt position) →
      position ++ [s] <+: a → position ++ [t] <+: b → Earlier n a b

/-- Every route of the tree came out once, with the segments that locate its node, and those that
are earlier in the tree came first. -/
structure Drained (n : Node ρ) (entries : List (List Segment × ρ)) : Prop where
  mem_iff : ∀ segments route, (segments, route) ∈ entries ↔
    ∃ c, n.locate? segments = some c ∧ c.route = some route
  nodup : (entries.map Prod.fst).Nodup
  routes : entries.map Prod.snd = n.nodes.filterMap Node.route
  ordered : entries.Pairwise fun e e' => n.Earlier e.1 e'.1

/-! ## The order of the routes -/

theorem Earlier.cons {n c : Node ρ} {s : Segment} (hf : n.below.find? (Edge.madeFrom s) = some c)
    {a b : List Segment} (h : c.Earlier a b) : n.Earlier (s :: a) (s :: b) := by
  cases h with
  | above hp hne => exact .above (by simpa using hp) (by simpa using hne)
  | beside position t u hsub ha hb =>
    refine .beside (s :: position) t u ?_ (by simpa using ha) (by simpa using hb)
    rwa [branchesAt_of_find? hf]

/-- Only the branches of a node matter for what is below it. -/
theorem Earlier.of_below {n : Node ρ} {a b : List Segment}
    (h : (⟨0, none, n.below⟩ : Node ρ).Earlier a b) : n.Earlier a b := by
  cases h with
  | above hp hne => exact .above hp hne
  | beside position t u hsub ha hb =>
    refine .beside position t u ?_ ha hb
    cases position with
    | nil => exact hsub
    | cons p position => rwa [branchesAt_cons] at hsub ⊢

/-- What is earlier behind later branches is so behind all of them. -/
theorem Earlier.of_rest {edge : Edge} {slots : Nat} {route : Option ρ} {below rest : Branches ρ}
    (hn : (Branches.cons edge slots route below rest).segments.Nodup) {a b : List Segment}
    (h : (⟨0, none, rest⟩ : Node ρ).Earlier a b) :
    (⟨0, none, .cons edge slots route below rest⟩ : Node ρ).Earlier a b := by
  cases h with
  | above hp hne => exact .above hp hne
  | beside position t u hsub ha hb =>
    refine .beside position t u ?_ ha hb
    cases position with
    | nil => exact hsub.cons edge.segment
    | cons p position =>
      cases hf : rest.find? (Edge.madeFrom p) with
      | none =>
        rw [branchesAt_cons, hf] at hsub
        cases hsub
      | some c =>
        rw [branchesAt_of_find? hf] at hsub
        rwa [branchesAt_of_find? (Branches.find?_madeFrom_of_rest hn hf)]

end Node

namespace Branches

variable {ρ : Type}

theorem map_snd_routes (b : Branches ρ) : b.routes.map Prod.snd = b.nodes.filterMap Node.route := by
  induction b with
  | nil => rfl
  | cons edge slots route below rest ihb ihr =>
    cases route <;> simp [routes, nodes, ← ihb, ← ihr, Function.comp_def]

/-- The route of a node comes before those behind its branches. -/
theorem pairwise_node_routes {b : Branches ρ} (hb : b.Distinct)
    (h : b.routes.Pairwise fun e e' => (⟨0, none, b⟩ : Node ρ).Earlier e.1 e'.1) {slots : Nat}
    {route : Option ρ} :
    (⟨slots, route, b⟩ : Node ρ).routes.Pairwise fun e e' =>
      (⟨slots, route, b⟩ : Node ρ).Earlier e.1 e'.1 := by
  rw [Node.routes, List.pairwise_append]
  refine ⟨by cases route <;> simp, h.imp fun he => he.of_below, ?_⟩
  intro e he e' he'
  obtain ⟨r, -, rfl⟩ := List.mem_map.1 he
  obtain ⟨s, rest, hkey, -⟩ := (mem_routes_iff hb).1 he'
  exact .above List.nil_prefix (by simp [hkey])

/-- **Routes come out in the order of the branches.** -/
theorem pairwise_routes {b : Branches ρ} (hb : b.Distinct) :
    b.routes.Pairwise fun e e' => (⟨0, none, b⟩ : Node ρ).Earlier e.1 e'.1 := by
  induction b with
  | nil => exact .nil
  | cons edge slots route below rest ihb ihr =>
    rw [routes_cons, List.pairwise_append, List.pairwise_map]
    refine ⟨?_, (ihr hb.rest).imp fun he => he.of_rest hb.here, ?_⟩
    · exact (pairwise_node_routes hb.under (ihb hb.under)).imp fun he =>
        he.cons (by simp [find?_madeFrom_cons])
    · intro e he e' he'
      -- The first branch leads to the one route, and a later one to the other.
      obtain ⟨⟨segments, r⟩, -, rfl⟩ := List.mem_map.1 he
      obtain ⟨s, behind, hkey, hroute⟩ := (mem_routes_iff hb.rest).1 he'
      obtain ⟨c, hc, -⟩ := Option.bind_eq_some_iff.1 hroute
      refine .beside [] edge.segment s ?_ (by simp) (by simp [hkey])
      exact (List.singleton_sublist.2 (mem_segments_of_find? hc)).cons_cons edge.segment

end Branches

namespace Node

variable {ρ : Type}

/-- **A sound tree is drained of each route once, in the order of the tree.** -/
theorem Sound.drained {n : Node ρ} (hn : n.Sound) : n.Drained n.drain := by
  rw [drain_eq]
  refine ⟨?_, hn.nodup_routes, ?_, ?_⟩
  · intro segments route
    rw [hn.mem_routes_iff, routeAt_eq, Option.bind_eq_some_iff]
  · cases hr : n.route <;> simp [Node.routes, nodes, hr, n.below.map_snd_routes]
  · exact Branches.pairwise_node_routes hn.distinct (Branches.pairwise_routes hn.distinct)

/-! ## Building -/

/-- Makes a position for the segments and puts the route there. The tree that is grown is the one
that extending it in place leaves, by `Node.extend_cases`. -/
def attach (n : Node ρ) (entry : List Segment × ρ) : Except TreeError (Node ρ) :=
  (n.grow entry.1).map (put entry.1 entry.2)

/-- The tree was built by attaching the routes to an empty one. -/
structure Built (entries : List (List Segment × ρ)) (n : Node ρ) : Prop where
  sound : n.Sound
  slots : n.slots = 0
  branchesAt : ∀ position, n.branchesAt position =
    seatAll Before [] (entries.filterMap fun entry => next? position entry.1)
  routeAt : ∀ position route, n.routeAt position = some route ↔ (position, route) ∈ entries

theorem built_nil : Built [] (⟨0, none, .nil⟩ : Node ρ) where
  sound := sound_bare
  slots := rfl
  branchesAt position := by cases position <;> rfl
  routeAt position route := by cases position <;> simp [routeAt_nil, routeAt_cons, Branches.find?]

/-- **A route that the tree admits is attached**, unless there was one at its position. -/
theorem Built.attach {entries : List (List Segment × ρ)} {n : Node ρ} (h : Built entries n)
    {entry : List Segment × ρ} (ha : n.Admits entry.1) (hp : ∀ s ∈ entry.1, s.Proper)
    (hnew : entry.1 ∉ entries.map Prod.fst) :
    ∃ n', n.attach entry = .ok n' ∧ Built (entries ++ [entry]) n' := by
  obtain ⟨grown, hgrow⟩ := h.sound.grow_isOk_iff.2 ha
  have hcounted := h.sound.counted
  refine ⟨grown.put entry.1 entry.2, by rw [Node.attach, hgrow]; rfl,
    h.sound.place hp ha hgrow entry.2, ?_, fun position => ?_, fun position route => ?_⟩
  · have hslots : (grown.put entry.1 entry.2).slots = grown.slots := by
      cases entry.1 <;> rfl
    rw [hslots, slots_grow hgrow hcounted, h.slots]
  · rw [branchesAt_put, branchesAt_grow hcounted hgrow, h.branchesAt, List.filterMap_append,
      seatAll_append]
    cases hnext : next? position entry.1 <;> simp [hnext]
  · rw [routeAt_place hcounted hgrow, List.mem_append, List.mem_singleton, ← h.routeAt]
    by_cases hposition : position = entry.1
    · obtain ⟨segments, r⟩ := entry
      obtain rfl : position = segments := hposition
      have hnone : n.routeAt position ≠ some route := by
        intro hroute
        exact hnew (List.mem_map.2 ⟨_, (h.routeAt position route).1 hroute, rfl⟩)
      simp [hnone, eq_comm]
    · have hne : (position, route) ≠ entry := fun heq => hposition (congrArg Prod.fst heq)
      simp [hposition, hne]

/-- A tree admits the segments of its own routes. -/
theorem Sound.admits_of_mem_routes {n : Node ρ} (hn : n.Sound) {entry : List Segment × ρ}
    (he : entry ∈ n.routes) : n.Admits entry.1 := by
  have hroute : n.routeAt entry.1 = some entry.2 := hn.mem_routes_iff.1 he
  obtain ⟨c, hc, -⟩ := Option.bind_eq_some_iff.1 (n.routeAt_eq _ ▸ hroute)
  exact hn.grow_isOk_iff.1 ⟨n, grow_of_locate? (by rw [hc]; rfl)⟩

/-- What was built from routes of a tree admits the others: its branches are among those of the
tree. -/
theorem Built.admits {entries : List (List Segment × ρ)} {n t : Node ρ} (h : Built entries t)
    (hn : n.Sound) (hsub : ∀ e ∈ entries, e ∈ n.routes) {entry : List Segment × ρ}
    (he : entry ∈ n.routes) : t.Admits entry.1 where
  readable := (hn.admits_of_mem_routes he).readable
  free position s hs u hu := by
    rw [h.branchesAt, mem_seatAll] at hu
    obtain ⟨e, hmem, hnext⟩ := List.mem_filterMap.1 (hu.resolve_left List.not_mem_nil)
    exact Segment.not_clashes_of_mem (hn.ordered position) (hn.mem_branchesAt he hs)
      (hn.mem_branchesAt (hsub e hmem) hnext)

/-- **The routes of a tree can be attached one after the other**, whatever was attached before. -/
theorem Built.foldlM_attach {n : Node ρ} (hn : n.Sound) {done todo : List (List Segment × ρ)}
    (hsplit : n.routes = done ++ todo) {t : Node ρ} (h : Built done t) :
    ∃ t', todo.foldlM Node.attach t = .ok t' ∧ Built n.routes t' := by
  induction todo generalizing done t with
  | nil => exact ⟨t, rfl, by rwa [hsplit, List.append_nil]⟩
  | cons entry todo ih =>
    have hmem : entry ∈ n.routes := by simp [hsplit]
    have hnew : entry.1 ∉ done.map Prod.fst := by
      have hnodup := hn.nodup_routes
      rw [hsplit, List.map_append, List.map_cons] at hnodup
      intro hold
      exact (List.nodup_append.1 hnodup).2.2 _ hold _ List.mem_cons_self rfl
    have hadmits : t.Admits entry.1 := h.admits hn (fun e he => by simp [hsplit, he]) hmem
    obtain ⟨next, hattach, hnext⟩ := h.attach hadmits (hn.proper_of_mem_routes hmem) hnew
    obtain ⟨t', hrest, hbuilt⟩ := ih (by simpa using hsplit) hnext
    refine ⟨t', ?_, hbuilt⟩
    rw [List.foldlM_cons, hattach]
    exact hrest

/-- **A tree that was taken apart is built again.** -/
theorem Sound.build_drain {n : Node ρ} (hn : n.Sound) (hs : n.slots = 0) :
    n.drain.foldlM attach (⟨0, none, .nil⟩ : Node ρ) = .ok n := by
  rw [drain_eq]
  obtain ⟨t, hbuild, ht⟩ := Built.foldlM_attach hn (List.nil_append n.routes).symm built_nil
  have hsame : t = n := by
    apply ht.sound.ext_routes hn (ht.slots.trans hs.symm)
    · intro position
      rw [ht.branchesAt, hn.seatAll_routes]
    · intro position
      apply Option.ext
      intro route
      rw [ht.routeAt, hn.mem_routes_iff]
  rw [hbuild, hsame]

end Node

namespace Router

/-- **Every tree of every router can be taken apart and built again.** It is drained of each route
once, in the order of the tree, and what comes out makes an empty root of the method that root. -/
theorem Reachable.drain_rebuilds {r : Router} (h : r.Reachable) :
    ∀ root ∈ r.forest.roots, root.tree.Drained root.tree.drain ∧
      (root.tree.drain.foldlM Node.attach (Root.bare root.method).tree).map
        (Root.bare root.method).graft = .ok root := by
  intro root hroot
  obtain ⟨hlabel, hslots, htree⟩ := h.sound.roots root hroot
  refine ⟨htree.drained, ?_⟩
  have hbuild : root.tree.drain.foldlM Node.attach (Root.bare root.method).tree = .ok root.tree :=
    htree.build_drain hslots
  rw [hbuild]
  obtain ⟨method, label, tree⟩ := root
  obtain rfl : label = .literal method.name := hlabel
  rfl

end Router

end

namespace Router

open Regex.Standard

/-- The routes `/a` and `/{x}/b` come out in this order. -/
theorem drain_rebuilds_sample :
    (sample.forest.roots.map fun root => root.tree.drain.map Prod.fst) =
        [[[.literal ['a']], [.wildcard ['x'], .literal ['b']]]] ∧
      ∀ root ∈ sample.forest.roots, root.tree.Drained root.tree.drain ∧
        (root.tree.drain.foldlM Node.attach (Root.bare root.method).tree).map
          (Root.bare root.method).graft = .ok root :=
  ⟨by decide, reachable_sample.drain_rebuilds⟩

end Router

end Routing
