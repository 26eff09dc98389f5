import Routing.Proofs.Regularity

/-!
# Where segments aim

Literals may lead along wildcards, so the position that segments reach is one of its own. What is
changed along segments is changed at that position.

* `Node.aim?` — the position that segments reach.
* `Node.Sound.reach?_eq_aim`, `Node.Sound.modifyAt_of_aim` — reaching and changing by position.
* `Node.routeAt_modifyAt_madeFrom` — the routes of a tree when those below a position were changed.
-/

namespace Routing

variable [Regex.Engine]

namespace Branches

variable {ρ : Type}

theorem segments_eq_children (b : Branches ρ) :
    b.segments = b.children.map fun c => c.1.segment := by
  induction b with
  | nil => rfl
  | cons edge slots route below rest _ ih =>
    rw [segments_cons, children, List.map_cons, ih]

theorem segment_mem_segments {b : Branches ρ} {c : Edge × Node ρ} (h : c ∈ b.children) :
    c.1.segment ∈ b.segments := by
  rw [b.segments_eq_children]
  exact List.mem_map_of_mem h

theorem modify_eq_self {b : Branches ρ} {s : Segment} {c : Node ρ}
    (h : b.find? (Edge.madeFrom s) = some c) {change : Node ρ → Node ρ} (hc : change c = c) :
    b.modify (Edge.madeFrom s) change = b :=
  calc b.modify (Edge.madeFrom s) change = b.modify (Edge.madeFrom s) fun _ => c :=
        modify_congr h hc
    _ = b := modify_of_find? h

/-- The first branch that is wanted is the one of its segment. -/
theorem modify_wanted {b : Branches ρ} (hb : b.segments.Nodup) {wanted : Edge → Bool}
    {c : Edge × Node ρ} (h : b.children.find? (wanted ·.1) = some c)
    (change : Node ρ → Node ρ) :
    b.modify wanted change = b.modify (Edge.madeFrom c.1.segment) change := by
  induction b with
  | nil => cases h
  | cons edge slots route below rest _ ih =>
    by_cases hw : wanted edge = true
    · have hhere : (edge, (⟨slots, route, below⟩ : Node ρ)) = c := by simpa [children, hw] using h
      subst hhere
      simp [modify, hw, Edge.madeFrom]
    · have hrest : rest.children.find? (wanted ·.1) = some c := by
        simpa [children, hw] using h
      obtain ⟨hfirst, hothers⟩ := List.nodup_cons.1 hb
      have hmem : c.1.segment ∈ rest.segments :=
        segment_mem_segments (List.mem_of_find?_eq_some hrest)
      have hne : edge.segment ≠ c.1.segment := by
        intro heq
        exact hfirst (heq ▸ hmem)
      simp [modify, hw, Edge.madeFrom, hne, ih hothers hrest]

theorem modify_of_none_wanted {b : Branches ρ} {wanted : Edge → Bool}
    (h : b.children.find? (wanted ·.1) = none) (change : Node ρ → Node ρ) :
    b.modify wanted change = b := by
  induction b with
  | nil => rfl
  | cons edge slots route below rest _ ih =>
    have hnone := List.forall_mem_cons.1 (List.find?_eq_none.1 h)
    have hrest : rest.children.find? (wanted ·.1) = none := List.find?_eq_none.2 hnone.2
    simp [modify, hnone.1, ih hrest]

end Branches

namespace Node

variable {ρ : Type}

/-- The position that the segments reach when literals are taken the way a path is. -/
def aim? : List Segment → Node ρ → Option (List Segment)
  | [], _ => some []
  | s :: rest, n =>
    (n.below.children.find? (Edge.takes s ·.1)).bind fun c =>
      (aim? rest c.2).map (c.1.segment :: ·)

theorem aim?_cons (n : Node ρ) (s : Segment) (rest : List Segment) :
    n.aim? (s :: rest) = (n.below.children.find? (Edge.takes s ·.1)).bind fun c =>
      (c.2.aim? rest).map (c.1.segment :: ·) := rfl

theorem reach?_cons (n : Node ρ) (s : Segment) (rest : List Segment) :
    n.reach? (s :: rest) = (n.below.find? (Edge.takes s)).bind (reach? rest) := rfl

/-- **Segments reach the node at the position that they aim at.** -/
theorem Sound.reach?_eq_aim {n : Node ρ} (hn : n.Sound) (segments : List Segment) :
    n.reach? segments = (n.aim? segments).bind (n.locate? ·) := by
  induction segments generalizing n with
  | nil => rfl
  | cons s rest ih =>
    rw [reach?_cons, aim?_cons, Branches.find?_eq_children]
    cases hfind : n.below.children.find? (Edge.takes s ·.1) with
    | none => rfl
    | some c =>
      have hc := Branches.find?_of_child (hn.nodup []) (List.mem_of_find?_eq_some hfind)
      rw [Option.map_some, Option.bind_some, Option.bind_some, ih (hn.child hc), Option.bind_map]
      cases c.2.aim? rest with
      | none => rfl
      | some position =>
        rw [Option.bind_some, Option.bind_some, Function.comp_apply, locate?_cons, hc,
          Option.bind_some]

/-- **What is changed along segments is changed at the position that they aim at.** -/
theorem Sound.modifyAt_of_aim {n : Node ρ} (hn : n.Sound) {segments position : List Segment}
    (h : n.aim? segments = some position) (change : Node ρ → Node ρ) :
    n.modifyAt Edge.takes change segments = n.modifyAt Edge.madeFrom change position := by
  induction segments generalizing n position with
  | nil => cases h; rfl
  | cons s rest ih =>
    obtain ⟨c, hfind, hrest⟩ := Option.bind_eq_some_iff.1 h
    obtain ⟨further, haim, rfl⟩ := Option.map_eq_some_iff.1 hrest
    have hc := Branches.find?_of_child (hn.nodup []) (List.mem_of_find?_eq_some hfind)
    have hbelow := ih (hn.child hc) haim
    rw [modifyAt, modifyAt, Branches.modify_wanted (hn.nodup []) hfind,
      Branches.modify_congr hc hbelow]

/-- Segments that aim at nothing change nothing. -/
theorem Sound.modifyAt_of_aim_eq_none {n : Node ρ} (hn : n.Sound) {segments : List Segment}
    (h : n.aim? segments = none) (change : Node ρ → Node ρ) :
    n.modifyAt Edge.takes change segments = n := by
  induction segments generalizing n with
  | nil => cases h
  | cons s rest ih =>
    rw [aim?_cons] at h
    have hsame : n.below.modify (Edge.takes s) (modifyAt Edge.takes change rest) = n.below := by
      cases hfind : n.below.children.find? (Edge.takes s ·.1) with
      | none => exact Branches.modify_of_none_wanted hfind _
      | some c =>
        rw [hfind, Option.bind_some, Option.map_eq_none_iff] at h
        have hc := Branches.find?_of_child (hn.nodup []) (List.mem_of_find?_eq_some hfind)
        have hbelow : modifyAt Edge.takes change rest c.2 = c.2 := ih (hn.child hc) h
        rw [Branches.modify_wanted (hn.nodup []) hfind, Branches.modify_eq_self hc hbelow]
    rw [modifyAt, hsame]

/-- Below the position every route is changed, and nowhere else. -/
theorem routeAt_modifyAt_madeFrom (change : ρ → ρ) (position : List Segment) (n : Node ρ)
    (key : List Segment) :
    (n.modifyAt Edge.madeFrom (mapRoutes change) position).routeAt key =
      if position <+: key then (n.routeAt key).map change else n.routeAt key := by
  induction position generalizing n key with
  | nil =>
    rw [modifyAt, if_pos List.nil_prefix, routeAt, routeAt, labelAt?_mapRoutes, Option.bind_map,
      Option.map_bind]
    rfl
  | cons s position ih =>
    cases key with
    | nil => simp [modifyAt, routeAt_nil]
    | cons t key =>
      rw [routeAt_cons, routeAt_cons, modifyAt, Branches.find?_madeFrom_modify]
      by_cases ht : t = s
      · subst ht
        cases n.below.find? (Edge.madeFrom t) with
        | none => simp
        | some c => simp [ih]
      · simp [ht, Ne.symm ht]

end Node

end Routing
