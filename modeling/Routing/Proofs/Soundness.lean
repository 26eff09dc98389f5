import Routing.Proofs.Positions

/-!
# Sound trees

What every tree of a router keeps to, stated by position, and kept by putting routes into it.

* `Node.Sound` — slots count wildcards, branches stand in order and do not clash, segments are
  what patterns are made of, and no branch ends without a route.
* `Node.sound_mapRoutes` — which routes there are has no part in it.
* `Node.Sound.ext_routes` — trees with the same branches and the same routes are the same tree.
* `Node.Sound.mem_nodes_iff` — every node of a sound tree has a position.
-/

namespace Routing

variable [Regex.Engine]

/-- The segments that patterns are made of. -/
def Segment.Proper : Segment → Prop
  | literal text => text ≠ [] ∧ '/' ∉ text ∧ '{' ∉ text ∧ '}' ∉ text
  | wildcard name => name ≠ [] ∧ ':' ∉ name
  | regex name raw => name ≠ [] ∧ ':' ∉ name ∧ raw ≠ []

namespace Branches

variable {ρ : Type}

theorem find?_madeFrom_cons (edge : Edge) (slots : Nat) (route : Option ρ)
    (below rest : Branches ρ) (s : Segment) :
    (cons edge slots route below rest).find? (Edge.madeFrom s) =
      if edge.segment = s then some ⟨slots, route, below⟩ else rest.find? (Edge.madeFrom s) := by
  by_cases h : edge.segment = s <;> simp [find?, Edge.madeFrom, h]

/-- The node of a later branch is found behind the first one too, when no two have one segment. -/
theorem find?_madeFrom_of_rest {edge : Edge} {slots : Nat} {route : Option ρ}
    {below rest : Branches ρ} {s : Segment} {c : Node ρ}
    (hn : (cons edge slots route below rest).segments.Nodup)
    (h : rest.find? (Edge.madeFrom s) = some c) :
    (cons edge slots route below rest).find? (Edge.madeFrom s) = some c := by
  rw [find?_madeFrom_cons, if_neg, h]
  rintro rfl
  have hm := (List.nodup_cons.1 hn).1
  rw [find?_madeFrom_eq_none_iff.2 hm] at h
  cases h

theorem modify_of_find? {b : Branches ρ} {s : Segment} {c : Node ρ}
    (h : b.find? (Edge.madeFrom s) = some c) : b.modify (Edge.madeFrom s) (fun _ => c) = b := by
  induction b with
  | nil => rfl
  | cons edge slots route below rest _ ih =>
    by_cases hw : Edge.madeFrom s edge = true
    · simp only [find?, hw, ↓reduceIte, Option.some.injEq] at h
      simp [modify, hw, ← h]
    · simp only [find?, hw, Bool.false_eq_true, ↓reduceIte] at h
      simp [modify, hw, ih h]

end Branches

namespace Node

variable {ρ σ : Type}

theorem branchesAt_nil (n : Node ρ) : n.branchesAt [] = n.below.segments := rfl

theorem branchesAt_cons (n : Node ρ) (s : Segment) (position : List Segment) :
    n.branchesAt (s :: position) =
      ((n.below.find? (Edge.madeFrom s)).map (·.branchesAt position)).getD [] := by
  unfold branchesAt
  rw [labelAt?_cons]
  cases n.below.find? (Edge.madeFrom s) <;> simp

theorem branchesAt_of_find? {n c : Node ρ} {s : Segment}
    (h : n.below.find? (Edge.madeFrom s) = some c) (position : List Segment) :
    n.branchesAt (s :: position) = c.branchesAt position := by
  simp [branchesAt_cons, h]

theorem routeAt_nil (n : Node ρ) : n.routeAt [] = n.route := rfl

theorem routeAt_cons (n : Node ρ) (s : Segment) (position : List Segment) :
    n.routeAt (s :: position) =
      (n.below.find? (Edge.madeFrom s)).bind (·.routeAt position) := by
  unfold routeAt
  rw [labelAt?_cons]
  cases n.below.find? (Edge.madeFrom s) <;> simp

structure Sound (n : Node ρ) : Prop where
  counted : n.Counted
  ordered : ∀ position, (n.branchesAt position).Pairwise Segment.Leads
  proper : ∀ position, ∀ s ∈ n.branchesAt position, s.Proper
  /-- A branch does not end without a route. -/
  bearing : ∀ position l, position ≠ [] → n.labelAt? position = some l → l.branches = [] →
    l.route.isSome

theorem Sound.nodup {n : Node ρ} (h : n.Sound) (position : List Segment) :
    (n.branchesAt position).Nodup :=
  Segment.nodup_of_pairwise_leads (h.ordered position)

theorem Sound.child {n c : Node ρ} {s : Segment} (h : n.Sound)
    (hf : n.below.find? (Edge.madeFrom s) = some c) : c.Sound where
  counted := (h.counted.child hf).1
  ordered position := branchesAt_of_find? hf position ▸ h.ordered (s :: position)
  proper position := branchesAt_of_find? hf position ▸ h.proper (s :: position)
  bearing position l hp hl hb :=
    h.bearing (s :: position) l (by simp) (by simpa [labelAt?_cons, hf] using hl) hb

theorem sound_bare : (⟨0, none, .nil⟩ : Node ρ).Sound where
  counted position l hl := by
    cases position with
    | nil => cases hl; rfl
    | cons s position => simp [labelAt?_cons, Branches.find?] at hl
  ordered position := by
    cases position <;> simp [branchesAt_nil, branchesAt_cons, Branches.find?]
  proper position s hs := by
    cases position <;> simp [branchesAt_nil, branchesAt_cons, Branches.find?] at hs
  bearing position l hp hl := by
    cases position with
    | nil => exact absurd rfl hp
    | cons s position => simp [labelAt?_cons, Branches.find?] at hl

/-- What routes there are says nothing about the soundness of a tree, only where they are. -/
theorem sound_mapRoutes {change : ρ → σ} {n : Node ρ} : (n.mapRoutes change).Sound ↔ n.Sound := by
  constructor
  · intro h
    refine ⟨fun position l hl => ?_, fun position => ?_, fun position => ?_,
      fun position l hp hl hb => ?_⟩
    · exact h.counted position (l.map change) (by rw [labelAt?_mapRoutes, hl]; rfl)
    · exact branchesAt_mapRoutes change n position ▸ h.ordered position
    · exact branchesAt_mapRoutes change n position ▸ h.proper position
    · have := h.bearing position (l.map change) hp (by rw [labelAt?_mapRoutes, hl]; rfl) hb
      simpa [Label.map] using this
  · intro h
    refine ⟨fun position l hl => ?_, fun position => ?_, fun position => ?_,
      fun position l hp hl hb => ?_⟩
    · rw [labelAt?_mapRoutes, Option.map_eq_some_iff] at hl
      obtain ⟨l', hl', rfl⟩ := hl
      exact h.counted position l' hl'
    · exact (branchesAt_mapRoutes change n position).symm ▸ h.ordered position
    · exact (branchesAt_mapRoutes change n position).symm ▸ h.proper position
    · rw [labelAt?_mapRoutes, Option.map_eq_some_iff] at hl
      obtain ⟨l', hl', rfl⟩ := hl
      simpa [Label.map] using h.bearing position l' hp hl' hb

end Node

/-! ## Trees and their labels -/

namespace Branches

variable {ρ : Type}

/-- Branches of which no two have one segment, nor any two at a node below. -/
structure Distinct (b : Branches ρ) : Prop where
  here : b.segments.Nodup
  below : ∀ s c, b.find? (Edge.madeFrom s) = some c → ∀ position, (c.branchesAt position).Nodup

theorem Distinct.rest {edge : Edge} {slots : Nat} {route : Option ρ} {below rest : Branches ρ}
    (h : (cons edge slots route below rest).Distinct) : rest.Distinct where
  here := (List.nodup_cons.1 h.here).2
  below s c hf := h.below s c (find?_madeFrom_of_rest h.here hf)

theorem Distinct.under {edge : Edge} {slots : Nat} {route : Option ρ} {below rest : Branches ρ}
    (h : (cons edge slots route below rest).Distinct) : below.Distinct := by
  have hc := h.below edge.segment ⟨slots, route, below⟩ (by simp [find?_madeFrom_cons])
  refine ⟨hc [], fun s c hf position => ?_⟩
  have := hc (s :: position)
  rwa [Node.branchesAt_of_find? hf] at this

theorem ext_labels {b b' : Branches ρ} (hb : b.Distinct) (hs : b.segments = b'.segments)
    (h : ∀ s position, (b.find? (Edge.madeFrom s)).bind (·.labelAt? position) =
      (b'.find? (Edge.madeFrom s)).bind (·.labelAt? position)) : b = b' := by
  induction b generalizing b' with
  | nil => exact (segments_eq_nil_iff.1 hs.symm).symm
  | cons edge slots route below rest ihb ihr =>
    cases b' with
    | nil => cases hs
    | cons edge' slots' route' below' rest' =>
      obtain rfl := Edge.segment_injective (List.cons.inj hs).1
      have hrest : rest.segments = rest'.segments := (List.cons.inj hs).2
      have head (position : List Segment) :
          (⟨slots, route, below⟩ : Node ρ).labelAt? position =
            (⟨slots', route', below'⟩ : Node ρ).labelAt? position := by
        simpa [find?_madeFrom_cons] using h edge.segment position
      have hl : (⟨slots, route, below.segments⟩ : Label ρ) = ⟨slots', route', below'.segments⟩ :=
        Option.some.inj (head [])
      obtain ⟨rfl, rfl, hbelow⟩ := Label.mk.inj hl
      obtain rfl : below = below' := ihb hb.under hbelow fun s position => by
        simpa [Node.labelAt?_cons] using head (s :: position)
      obtain rfl : rest = rest' := ihr hb.rest hrest fun s position => by
        by_cases hse : edge.segment = s
        · -- The first branch has this segment, so no later one does.
          subst hse
          have hm := (List.nodup_cons.1 hb.here).1
          rw [find?_madeFrom_eq_none_iff.2 hm, find?_madeFrom_eq_none_iff.2 (hrest ▸ hm)]
        · simpa [find?_madeFrom_cons, hse] using h s position
      rfl

theorem mem_nodes_of_locate? {b : Branches ρ} {s : Segment} {position : List Segment}
    {c : Node ρ} (h : (b.find? (Edge.madeFrom s)).bind (·.locate? position) = some c) :
    c ∈ b.nodes := by
  induction b generalizing s position with
  | nil => simp [find?] at h
  | cons edge slots route below rest ihb ihr =>
    rw [find?_madeFrom_cons] at h
    by_cases hse : edge.segment = s
    · simp only [hse, ↓reduceIte, Option.bind_some] at h
      cases position with
      | nil => cases h; simp [nodes]
      | cons p position =>
        have hb : c ∈ below.nodes := ihb h
        simp [nodes, hb]
    · simp only [hse, ↓reduceIte] at h
      simp [nodes, ihr h]

theorem exists_locate? {b : Branches ρ} (hb : b.Distinct) {c : Node ρ} (h : c ∈ b.nodes) :
    ∃ s position, (b.find? (Edge.madeFrom s)).bind (·.locate? position) = some c := by
  induction b with
  | nil => cases h
  | cons edge slots route below rest ihb ihr =>
    simp only [nodes, List.mem_cons, List.mem_append] at h
    rcases h with rfl | h | h
    · exact ⟨edge.segment, [], by simp [find?_madeFrom_cons]⟩
    · obtain ⟨s, position, hl⟩ := ihb hb.under h
      exact ⟨edge.segment, s :: position, by
        simpa [find?_madeFrom_cons, Node.locate?_cons] using hl⟩
    · obtain ⟨s, position, hl⟩ := ihr hb.rest h
      obtain ⟨d, hd, hl⟩ := Option.bind_eq_some_iff.1 hl
      exact ⟨s, position, by rw [find?_madeFrom_of_rest hb.here hd]; exact hl⟩

end Branches

namespace Node

variable {ρ : Type}

theorem Sound.distinct {n : Node ρ} (h : n.Sound) : n.below.Distinct :=
  ⟨h.nodup [], fun _ _ hf => (h.child hf).nodup⟩

/-- **Trees with the same labels are the same tree.** -/
theorem ext_labels {n n' : Node ρ} (hn : n.Sound)
    (h : ∀ position, n.labelAt? position = n'.labelAt? position) : n = n' := by
  have hl : n.label = n'.label := Option.some.inj (h [])
  obtain ⟨slots, route, below⟩ := n
  obtain ⟨slots', route', below'⟩ := n'
  obtain ⟨rfl, rfl, hs⟩ := Label.mk.inj hl
  obtain rfl : below = below' := Branches.ext_labels hn.distinct hs fun s position => by
    simpa [labelAt?_cons] using h (s :: position)
  rfl

/-- There is a node wherever a branch leads. -/
theorem isSome_labelAt?_iff {n : Node ρ} {position : List Segment} {s : Segment} :
    (n.labelAt? (position ++ [s])).isSome ↔ s ∈ n.branchesAt position := by
  rw [mem_branchesAt_iff, labelAt?, Option.isSome_map]

/-- In a sound tree labels follow from branches and routes. -/
theorem Sound.labelAt?_eq {n : Node ρ} (hn : n.Sound) {position : List Segment}
    (h : (n.labelAt? position).isSome) :
    n.labelAt? position = some ⟨n.slots + Pattern.wildcards position, n.routeAt position,
      n.branchesAt position⟩ := by
  obtain ⟨l, hl⟩ := Option.isSome_iff_exists.1 h
  have hslots := hn.counted position l hl
  simp [routeAt, branchesAt, hl, ← hslots]

/-- **Sound trees with the same branches and the same routes are the same.** -/
theorem Sound.ext_routes {n n' : Node ρ} (hn : n.Sound) (hn' : n'.Sound)
    (hs : n.slots = n'.slots) (hb : ∀ position, n.branchesAt position = n'.branchesAt position)
    (hr : ∀ position, n.routeAt position = n'.routeAt position) : n = n' := by
  refine ext_labels hn fun position => ?_
  have hsome : (n.labelAt? position).isSome ↔ (n'.labelAt? position).isSome := by
    rcases List.eq_nil_or_concat position with rfl | ⟨above, s, rfl⟩
    · simp
    · rw [List.concat_eq_append, isSome_labelAt?_iff, isSome_labelAt?_iff, hb]
  by_cases h : (n.labelAt? position).isSome
  · rw [hn.labelAt?_eq h, hn'.labelAt?_eq (hsome.1 h), hs, hb, hr]
  · have h' := mt hsome.2 h
    rw [Option.not_isSome_iff_eq_none.1 h, Option.not_isSome_iff_eq_none.1 h']

/-- **Every node of a sound tree has a position.** -/
theorem Sound.mem_nodes_iff {n : Node ρ} (hn : n.Sound) {c : Node ρ} :
    c ∈ n.nodes ↔ ∃ position, n.locate? position = some c := by
  constructor
  · intro h
    rcases List.mem_cons.1 h with rfl | h
    · exact ⟨[], rfl⟩
    · obtain ⟨s, position, hl⟩ := Branches.exists_locate? hn.distinct h
      exact ⟨s :: position, hl⟩
  · rintro ⟨position, hl⟩
    cases position with
    | nil => cases hl; exact List.mem_cons_self
    | cons s position => exact List.mem_cons_of_mem _ (Branches.mem_nodes_of_locate? hl)

end Node

end Routing
