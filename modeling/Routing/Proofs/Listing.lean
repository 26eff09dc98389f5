import Routing.Proofs.Soundness

/-!
# The routes of a sound tree

The list of the routes of a sound tree has every route once, under the segments that lead to it,
and its order is that of the branches: a tree grown along the list has the same branches in the
same order.

* `Node.Sound.mem_routes_iff`, `Node.Sound.nodup_routes` — which routes are in the list.
* `Node.Sound.seatAll_routes` — the branches that the list makes at a position.
* `Node.Sound.maxSlots_le_iff` — the most wildcards on the way to any route.
-/

namespace Routing

open Segment (Before)

variable [Regex.Engine]

namespace Branches

variable {ρ : Type}

theorem routes_cons (edge : Edge) (slots : Nat) (route : Option ρ) (below rest : Branches ρ) :
    (cons edge slots route below rest).routes =
      ((⟨slots, route, below⟩ : Node ρ).routes.map fun (segments, r) =>
        (edge.segment :: segments, r)) ++ rest.routes := by
  cases route <;> simp [routes, Node.routes]

theorem mem_routes_iff {b : Branches ρ} (hb : b.Distinct) {segments : List Segment} {r : ρ} :
    (segments, r) ∈ b.routes ↔ ∃ s rest, segments = s :: rest ∧
      (b.find? (Edge.madeFrom s)).bind (·.routeAt rest) = some r := by
  induction b generalizing segments with
  | nil => simp [routes, find?]
  | cons edge slots route below others ihb ihr =>
    have head (rest : List Segment) : (rest, r) ∈ (⟨slots, route, below⟩ : Node ρ).routes ↔
        (⟨slots, route, below⟩ : Node ρ).routeAt rest = some r := by
      simp only [Node.routes, List.mem_append, ihb hb.under]
      cases rest with
      | nil => simp [Node.routeAt_nil, eq_comm]
      | cons s rest => simp [Node.routeAt_cons]
    rw [routes_cons, List.mem_append, ihr hb.rest]
    simp only [List.mem_map, Prod.mk.injEq, Prod.exists]
    constructor
    · rintro (⟨rest, r', hm, rfl, rfl⟩ | ⟨s, rest, rfl, hl⟩)
      · exact ⟨edge.segment, rest, rfl, by simpa [find?_madeFrom_cons] using (head rest).1 hm⟩
      · obtain ⟨c, hc, hl⟩ := Option.bind_eq_some_iff.1 hl
        exact ⟨s, rest, rfl, by rw [find?_madeFrom_of_rest hb.here hc]; exact hl⟩
    · rintro ⟨s, rest, rfl, hl⟩
      rw [find?_madeFrom_cons] at hl
      by_cases hs : edge.segment = s
      · simp only [hs, ↓reduceIte, Option.bind_some] at hl
        exact Or.inl ⟨rest, r, (head rest).2 hl, by rw [hs], rfl⟩
      · simp only [hs, ↓reduceIte] at hl
        exact Or.inr ⟨s, rest, rfl, hl⟩

theorem nodup_routes {b : Branches ρ} (hb : b.Distinct) : (b.routes.map Prod.fst).Nodup := by
  induction b with
  | nil => simp [routes]
  | cons edge slots route below others ihb ihr =>
    have head : ((⟨slots, route, below⟩ : Node ρ).routes.map Prod.fst).Nodup := by
      rw [Node.routes, List.map_append, List.nodup_append]
      refine ⟨by cases route <;> simp, ihb hb.under, ?_⟩
      rintro a ha a' ha' rfl
      obtain ⟨⟨segments, r⟩, hm, rfl⟩ := List.mem_map.1 ha'
      obtain ⟨s, rest, rfl, -⟩ := (mem_routes_iff hb.under).1 hm
      simp at ha
    rw [routes_cons, List.map_append, List.map_map, List.nodup_append]
    refine ⟨?_, ihr hb.rest, ?_⟩
    · have := head.map (f := (edge.segment :: ·)) fun _ _ h => (List.cons.inj h).2
      simpa [Function.comp_def] using this
    · rintro a ha a' ha' rfl
      obtain ⟨⟨segments, r⟩, -, rfl⟩ := List.mem_map.1 ha
      obtain ⟨⟨segments', r'⟩, hm, he⟩ := List.mem_map.1 ha'
      obtain ⟨s, rest, rfl, hl⟩ := (mem_routes_iff hb.rest).1 hm
      obtain ⟨c, hc, -⟩ := Option.bind_eq_some_iff.1 hl
      obtain rfl : s = edge.segment := (List.cons.inj he).1
      exact (List.nodup_cons.1 hb.here).1 (mem_segments_of_find? hc)

theorem maxSlots_le_iff {b : Branches ρ} {k : Nat} :
    b.maxSlots ≤ k ↔ ∀ c ∈ b.nodes, c.slots ≤ k := by
  induction b with
  | nil => simp [maxSlots, nodes]
  | cons edge slots route below rest ihb ihr =>
    simp only [maxSlots, nodes, List.forall_mem_cons, List.forall_mem_append, ← ihb, ← ihr]
    omega

/-- Sound branches, none of which ends without a route. -/
structure Bearing (b : Branches ρ) : Prop where
  sound : ∀ s c, b.find? (Edge.madeFrom s) = some c → c.Sound
  ends : ∀ s c, b.find? (Edge.madeFrom s) = some c → c.below = nil → c.route.isSome

end Branches

namespace Node

variable {ρ : Type}

theorem Sound.bearing_below {n : Node ρ} (h : n.Sound) : n.below.Bearing where
  sound _ _ hf := h.child hf
  ends s c hf hb := h.bearing [s] c.label (by simp) (by simp [labelAt?_cons, hf]) (by
    simp [label, hb])

end Node

namespace Branches

variable {ρ : Type}

theorem Bearing.rest {edge : Edge} {slots : Nat} {route : Option ρ} {below rest : Branches ρ}
    (h : (cons edge slots route below rest).Bearing)
    (hn : (cons edge slots route below rest).segments.Nodup) : rest.Bearing where
  sound s c hf := h.sound s c (find?_madeFrom_of_rest hn hf)
  ends s c hf := h.ends s c (find?_madeFrom_of_rest hn hf)

/-- There is a route at or below the node of the first branch. -/
theorem Bearing.routes_ne_nil {edge : Edge} {slots : Nat} {route : Option ρ}
    {below rest : Branches ρ} (h : (cons edge slots route below rest).Bearing) :
    (⟨slots, route, below⟩ : Node ρ).routes ≠ [] := by
  induction below generalizing edge slots route rest with
  | nil =>
    have := h.ends edge.segment ⟨slots, route, nil⟩ (by simp [find?_madeFrom_cons]) rfl
    obtain ⟨r, rfl⟩ := Option.isSome_iff_exists.1 this
    simp [Node.routes]
  | cons edge' slots' route' below' rest' ih _ =>
    have hs : (⟨slots, route, cons edge' slots' route' below' rest'⟩ : Node ρ).Sound :=
      h.sound edge.segment _ (by simp [find?_madeFrom_cons])
    have := ih hs.bearing_below
    rw [Node.routes, routes_cons]
    simp [this]

/-- The routes in their order make the branches in their order. -/
theorem seatAll_routes {b : Branches ρ} (hb : b.Bearing) {before : List Segment}
    (ho : (before ++ b.segments).Pairwise Segment.Leads) :
    seatAll Before before (b.routes.filterMap fun entry => next? [] entry.1) =
      before ++ b.segments := by
  induction b generalizing before with
  | nil => simp [routes]
  | cons edge slots route below rest _ ih =>
    have hlen : (⟨slots, route, below⟩ : Node ρ).routes.length ≠ 0 :=
      fun h => hb.routes_ne_nil (List.length_eq_zero_iff.1 h)
    obtain ⟨k, hk⟩ := Nat.exists_eq_succ_of_ne_zero hlen
    have hhead : ((⟨slots, route, below⟩ : Node ρ).routes.map fun (segments, r) =>
        (edge.segment :: segments, r)).filterMap (fun entry => next? [] entry.1) =
          List.replicate (k + 1) edge.segment := by
      rw [List.filterMap_map, ← Nat.succ_eq_add_one, ← hk, List.eq_replicate_iff]
      constructor
      · simp [Function.comp_def]
      · simp [Function.comp_def, eq_comm]
    have hlead : ∀ s ∈ before, s.Leads edge.segment := fun s hs =>
      (List.pairwise_append.1 ho).2.2 s hs edge.segment (by simp)
    have hseat : seat Before before edge.segment = before ++ [edge.segment] :=
      seat_last Before (fun hm => (Segment.leads_iff.1 (hlead _ hm)).1 rfl)
        fun s hs => (Segment.leads_iff.1 (hlead s hs)).2.2
    have hn : (cons edge slots route below rest).segments.Nodup :=
      Segment.nodup_of_pairwise_leads (List.pairwise_append.1 ho).2.1
    rw [routes_cons, List.filterMap_append, hhead, seatAll_append, seatAll_replicate, hseat,
      ih (hb.rest hn) (by simpa using ho)]
    simp

/-- The routes behind a branch, without its segment. -/
theorem filterMap_routes {b : Branches ρ} (hb : b.Distinct) (s : Segment)
    (position : List Segment) :
    (b.routes.filterMap fun entry => next? (s :: position) entry.1) =
      match b.find? (Edge.madeFrom s) with
      | some c => c.routes.filterMap fun entry => next? position entry.1
      | none => [] := by
  induction b with
  | nil => rfl
  | cons edge slots route below rest _ ih =>
    rw [routes_cons, List.filterMap_append, ih hb.rest, find?_madeFrom_cons, List.filterMap_map]
    by_cases hs : edge.segment = s
    · have hm : rest.find? (Edge.madeFrom s) = none :=
        find?_madeFrom_eq_none_iff.2 (hs ▸ (List.nodup_cons.1 hb.here).1)
      simp [hs, hm]
    · simp [hs, Ne.symm hs, Function.comp_def]

end Branches

namespace Node

variable {ρ : Type}

/-- **The list has the route at every position, and no other.** -/
theorem Sound.mem_routes_iff {n : Node ρ} (hn : n.Sound) {segments : List Segment} {r : ρ} :
    (segments, r) ∈ n.routes ↔ n.routeAt segments = some r := by
  rw [routes, List.mem_append, Branches.mem_routes_iff hn.distinct]
  cases segments with
  | nil => simp [routeAt_nil, eq_comm]
  | cons s rest => simp [routeAt_cons]

theorem Sound.nodup_routes {n : Node ρ} (hn : n.Sound) : (n.routes.map Prod.fst).Nodup := by
  rw [routes, List.map_append, List.nodup_append]
  refine ⟨by cases n.route <;> simp, Branches.nodup_routes hn.distinct, ?_⟩
  rintro a ha a' ha' rfl
  obtain ⟨⟨segments, r⟩, hm, rfl⟩ := List.mem_map.1 ha'
  obtain ⟨s, rest, rfl, -⟩ := (Branches.mem_routes_iff hn.distinct).1 hm
  simp at ha

/-- The route of the root leads nowhere. -/
theorem filterMap_routes (n : Node ρ) (position : List Segment) :
    (n.routes.filterMap fun entry => next? position entry.1) =
      n.below.routes.filterMap fun entry => next? position entry.1 := by
  cases hr : n.route <;> simp [routes, hr]

/-- **The list makes the branches of the tree.** -/
theorem Sound.seatAll_routes {n : Node ρ} (hn : n.Sound) (position : List Segment) :
    seatAll Before [] (n.routes.filterMap fun entry => next? position entry.1) =
      n.branchesAt position := by
  rw [filterMap_routes]
  induction position generalizing n with
  | nil => exact Branches.seatAll_routes hn.bearing_below (hn.ordered [])
  | cons s position ih =>
    rw [Branches.filterMap_routes hn.distinct, branchesAt_cons]
    cases hf : n.below.find? (Edge.madeFrom s) with
    | none => rfl
    | some c => simpa [filterMap_routes] using ih (hn.child hf)

/-- The segments of a route lead along branches. -/
theorem Sound.mem_branchesAt {n : Node ρ} (hn : n.Sound) {entry : List Segment × ρ}
    {position : List Segment} {s : Segment} (he : entry ∈ n.routes)
    (hs : next? position entry.1 = some s) : s ∈ n.branchesAt position := by
  rw [← hn.seatAll_routes, mem_seatAll]
  exact Or.inr (List.mem_filterMap.2 ⟨entry, he, hs⟩)

theorem Sound.proper_of_mem_routes {n : Node ρ} (hn : n.Sound) {entry : List Segment × ρ}
    (he : entry ∈ n.routes) : ∀ s ∈ entry.1, s.Proper := by
  intro s hs
  obtain ⟨position, rest, hsplit⟩ := List.append_of_mem hs
  have hnext : next? position entry.1 = some s := next?_eq_some_iff.2 ⟨rest, by simp [hsplit]⟩
  exact hn.proper position s (hn.mem_branchesAt he hnext)

/-- A branch is on the way to a route. -/
theorem Sound.exists_route {n : Node ρ} (hn : n.Sound) {position : List Segment} {s : Segment}
    (h : s ∈ n.branchesAt position) : ∃ entry ∈ n.routes, position ++ [s] <+: entry.1 := by
  rw [← hn.seatAll_routes, mem_seatAll] at h
  obtain ⟨entry, hm, hnext⟩ := List.mem_filterMap.1 (h.resolve_left List.not_mem_nil)
  exact ⟨entry, hm, next?_eq_some_iff.1 hnext⟩

/-- **No node is deeper than the deepest route.** -/
theorem Sound.maxSlots_le_iff {n : Node ρ} (hn : n.Sound) (hne : n.routes ≠ []) {k : Nat} :
    n.maxSlots ≤ k ↔ ∀ entry ∈ n.routes, n.slots + Pattern.wildcards entry.1 ≤ k := by
  have hnodes : n.maxSlots ≤ k ↔ ∀ c ∈ n.nodes, c.slots ≤ k := by
    rw [maxSlots, nodes, List.forall_mem_cons, ← Branches.maxSlots_le_iff, Nat.max_le]
  have hslots {position : List Segment} {c : Node ρ} (hl : n.locate? position = some c) :
      c.slots = n.slots + Pattern.wildcards position :=
    hn.counted position c.label (by simp [labelAt?, hl])
  rw [hnodes]
  constructor
  · rintro h ⟨segments, r⟩ hm
    obtain ⟨c, hl, -⟩ := Option.bind_eq_some_iff.1 (n.routeAt_eq _ ▸ hn.mem_routes_iff.1 hm)
    rw [← hslots hl]
    exact h c (hn.mem_nodes_iff.2 ⟨segments, hl⟩)
  · intro h c hc
    obtain ⟨position, hl⟩ := hn.mem_nodes_iff.1 hc
    rw [hslots hl]
    obtain ⟨entry, hm, above, hsplit⟩ : ∃ entry ∈ n.routes, position <+: entry.1 := by
      rcases List.eq_nil_or_concat position with rfl | ⟨above, s, rfl⟩
      · obtain ⟨entry, hm⟩ := List.exists_mem_of_ne_nil _ hne
        exact ⟨entry, hm, List.nil_prefix⟩
      · rw [List.concat_eq_append] at hl ⊢
        exact hn.exists_route (mem_branchesAt_iff.2 (by rw [hl]; rfl))
    have := h entry hm
    rw [← hsplit, Pattern.wildcards_append] at this
    omega

end Node

end Routing
