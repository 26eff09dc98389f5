import Routing.Proofs.Growing
import Routing.Tree.Extend

/-!
# Extending is growing

A tree that is extended is grown along the segments, or stays as it was, and the way that is
answered is the one on which the position of the segments is found.

* `Node.wayTo?` — the spots where the branches for some segments are found.
* `Node.exists_descends` — a descent follows the segments as far as there are branches.
* `Node.hang_reverse` — what is put together apart from the tree.
* `Branches.spot?_insert` — a new branch is at the spot that it was given.
* `Node.extend_cases` — extending refuses what growing refuses, and leaves what growing answers.
-/

namespace Routing

open Segment (Before)

variable [Regex.Engine]

variable {ρ : Type}

/-! ## Ways and positions -/

namespace Node

/-- The way to the position of the segments. -/
def wayTo? : List Segment → Node ρ → Option (List Spot)
  | [], _ => some []
  | s :: rest, n =>
    (n.below.spot? s).bind fun spot =>
      (n.below.at? spot).bind fun (_, child) => (wayTo? rest child).map (spot :: ·)

/-- The first branch of the segment is found at its spot. -/
theorem wayTo?_cons_eq_some_iff {n : Node ρ} {s : Segment} {rest : List Segment}
    {way : List Spot} :
    n.wayTo? (s :: rest) = some way ↔ ∃ spot child further, n.below.spot? s = some spot ∧
      n.below.find? (Edge.madeFrom s) = some child ∧ child.wayTo? rest = some further ∧
        way = spot :: further := by
  cases hspot : n.below.spot? s with
  | none => simp [wayTo?, hspot]
  | some spot =>
    obtain ⟨edge, child, hat, -, hfind⟩ := Branches.at?_of_spot? hspot
    simp [wayTo?, hspot, hat, hfind, eq_comm]

theorem wayTo?_append {front rest : List Segment} {n c : Node ρ} {way further : List Spot}
    (hway : n.wayTo? front = some way) (hc : n.locate? front = some c)
    (hfurther : c.wayTo? rest = some further) :
    n.wayTo? (front ++ rest) = some (way ++ further) := by
  induction front generalizing n way with
  | nil =>
    cases hway
    cases hc
    exact hfurther
  | cons s front ih =>
    obtain ⟨spot, child, way, hspot, hfind, hbelow, rfl⟩ := wayTo?_cons_eq_some_iff.1 hway
    rw [locate?_cons, hfind] at hc
    exact wayTo?_cons_eq_some_iff.2 ⟨spot, child, way ++ further, hspot, hfind, ih hbelow hc, rfl⟩

/-- **A way leads to the position that it was found for.** -/
theorem follow?_of_wayTo? {segments : List Segment} {n : Node ρ} {way : List Spot}
    (h : n.wayTo? segments = some way) : n.follow? way = n.locate? segments := by
  induction segments generalizing n way with
  | nil =>
    cases h
    rfl
  | cons s rest ih =>
    obtain ⟨spot, child, further, hspot, hfind, hfurther, rfl⟩ := wayTo?_cons_eq_some_iff.1 h
    obtain ⟨edge, child', hat, -, hfind'⟩ := Branches.at?_of_spot? hspot
    obtain rfl := Option.some.inj (hfind.symm.trans hfind')
    rw [follow?, hat, locate?_cons, hfind]
    exact ih hfurther

theorem changeAt_of_wayTo? {segments : List Segment} {n : Node ρ} {way : List Spot}
    (h : n.wayTo? segments = some way) (change : Node ρ → Node ρ) :
    n.changeAt change way = n.modifyAt Edge.madeFrom change segments := by
  induction segments generalizing n way with
  | nil =>
    cases h
    rfl
  | cons s rest ih =>
    obtain ⟨spot, child, further, hspot, hfind, hfurther, rfl⟩ := wayTo?_cons_eq_some_iff.1 h
    rw [changeAt, modifyAt, Branches.changeAt_of_spot? hspot,
      Branches.modify_congr hfind (ih hfurther)]

/-- What a change makes of the node at the position is all that matters. -/
theorem modifyAt_congr {segments : List Segment} {n c : Node ρ} (h : n.locate? segments = some c)
    {change change' : Node ρ → Node ρ} (hc : change c = change' c) :
    n.modifyAt Edge.madeFrom change segments = n.modifyAt Edge.madeFrom change' segments := by
  induction segments generalizing n with
  | nil =>
    cases h
    exact hc
  | cons s rest ih =>
    rw [locate?_cons, Option.bind_eq_some_iff] at h
    obtain ⟨child, hf, hbelow⟩ := h
    rw [modifyAt, modifyAt, Branches.modify_congr hf (ih hbelow)]

/-! ## Following segments as far as they lead -/

/-- The descent went along `front`, and there is no branch for what is left. -/
structure Descends (n : Node ρ) (front : List Segment) (d : Descent ρ) : Prop where
  way : n.wayTo? front = some d.way
  node : n.locate? front = some d.node
  stuck : ∀ s ∈ d.left.head?, s ∉ d.node.below.segments

theorem Descends.branchesAt {n : Node ρ} {front : List Segment} {d : Descent ρ}
    (hd : n.Descends front d) : n.branchesAt front = d.node.below.segments := by
  rw [Node.branchesAt, labelAt?, hd.node]
  rfl

theorem descend_of_spot? {n child : Node ρ} {s : Segment} {rest : List Segment} {spot : Spot}
    (hspot : n.below.spot? s = some spot) (hfind : n.below.find? (Edge.madeFrom s) = some child) :
    n.descend (s :: rest) = { child.descend rest with way := spot :: (child.descend rest).way } := by
  obtain ⟨edge, child', hat, -, hfind'⟩ := Branches.at?_of_spot? hspot
  obtain rfl := Option.some.inj (hfind.symm.trans hfind')
  rw [descend]
  split
  · rename_i hnone
    rw [hspot] at hnone
    cases hnone
  · rename_i spot' hspot'
    obtain rfl := Option.some.inj (hspot.symm.trans hspot')
    simp only [hat, Option.get_some]

theorem descend_of_not_mem {n : Node ρ} {s : Segment} (hm : s ∉ n.below.segments)
    (rest : List Segment) : n.descend (s :: rest) = ⟨[], n, s :: rest⟩ := by
  have hnone := Branches.spot?_eq_none_iff.2 (Branches.find?_madeFrom_eq_none_iff.2 hm)
  rw [descend]
  split
  · rfl
  · rename_i spot hspot
    rw [hnone] at hspot
    cases hspot

theorem exists_descends (segments : List Segment) (n : Node ρ) :
    ∃ front, segments = front ++ (n.descend segments).left ∧
      n.Descends front (n.descend segments) := by
  induction segments generalizing n with
  | nil => exact ⟨[], rfl, rfl, rfl, by simp [descend]⟩
  | cons s rest ih =>
    cases hspot : n.below.spot? s with
    | none =>
      have hm : s ∉ n.below.segments := by
        rwa [← Branches.find?_madeFrom_eq_none_iff, ← Branches.spot?_eq_none_iff]
      rw [descend_of_not_mem hm]
      exact ⟨[], rfl, rfl, rfl, by simpa using hm⟩
    | some spot =>
      obtain ⟨edge, child, -, -, hfind⟩ := Branches.at?_of_spot? hspot
      obtain ⟨front, hsplit, h⟩ := ih child
      rw [descend_of_spot? hspot hfind]
      refine ⟨s :: front, congrArg (s :: ·) hsplit, ?_, ?_, h.stuck⟩
      · exact wayTo?_cons_eq_some_iff.2 ⟨spot, child, _, hspot, hfind, h.way, rfl⟩
      · rw [locate?_cons, hfind]
        exact h.node

theorem descend_of_wayTo? {segments : List Segment} {n : Node ρ} {way : List Spot}
    (h : n.wayTo? segments = some way) :
    (n.descend segments).way = way ∧ (n.descend segments).left = [] := by
  induction segments generalizing n way with
  | nil =>
    cases h
    exact ⟨rfl, rfl⟩
  | cons s rest ih =>
    obtain ⟨spot, child, further, hspot, hfind, hfurther, rfl⟩ := wayTo?_cons_eq_some_iff.1 h
    obtain ⟨hway, hleft⟩ := ih hfurther
    rw [descend_of_spot? hspot hfind]
    exact ⟨congrArg (spot :: ·) hway, hleft⟩

/-- What is below the end of a descent grows with the rest. -/
theorem grow_append {front : List Segment} {n c : Node ρ} (h : n.locate? front = some c)
    (rest : List Segment) :
    n.grow (front ++ rest) =
      (c.grow rest).map fun c' => n.modifyAt Edge.madeFrom (fun _ => c') front := by
  induction front generalizing n with
  | nil =>
    cases h
    cases hg : c.grow rest <;> simp [hg, modifyAt, Except.map]
  | cons s front ih =>
    rw [locate?_cons, Option.bind_eq_some_iff] at h
    obtain ⟨child, hf, hc⟩ := h
    rw [List.cons_append, grow, hf]
    simp only [ih hc]
    cases c.grow rest with
    | error e => rfl
    | ok c' =>
      have hbelow : n.below.modify (Edge.madeFrom s)
          (fun _ => child.modifyAt Edge.madeFrom (fun _ => c') front) =
          n.below.modify (Edge.madeFrom s) (modifyAt Edge.madeFrom (fun _ => c') front) :=
        Branches.modify_congr hf rfl
      simp only [Except.map, bind, Except.bind, pure, Except.pure, modifyAt, hbelow]

/-! ## New nodes -/

/-- New nodes for segments, whatever has been read. -/
def sprout (slots : Nat) : List Segment → Except TreeError (List (Edge × Node ρ))
  | [] => return []
  | s :: rest => do
    let edge ← Edge.ofSegment s
    let others ← sprout (slots + edge.width) rest
    return (edge, ⟨slots + edge.width, none, .nil⟩) :: others

theorem answers_sproutIn (slots : Nat) (segments : List Segment) :
    Reading.Answers (sproutIn (ρ := ρ) slots segments) (sprout slots segments) := by
  induction segments generalizing slots with
  | nil => exact Reading.answers_pure _
  | cons s rest ih =>
    exact (Edge.answers_ofSegmentIn s).bind fun edge =>
      (ih _).bind fun _ => Reading.answers_pure _

end Node

/-- Nodes one below the other, the first of them on top. -/
def Branches.nest : List (Edge × Node ρ) → Branches ρ
  | [] => nil
  | (edge, n) :: rest => cons edge n.slots n.route (nest rest) nil

/-- The spot of the only branch of a node. -/
def Edge.alone (edge : Edge) : Spot := ⟨edge.kind, 0⟩

theorem Branches.add_eq_ok {new : Edge × Node ρ} {b below : Branches ρ} {spot : Spot}
    (h : b.add new = .ok (below, spot)) :
    below = b.insert new.1 new.2 ∧ spot = b.spotFor new.1 := by
  obtain ⟨-, -, hadded⟩ := bind_eq_ok_iff.1 h
  cases hadded
  exact ⟨rfl, rfl⟩

theorem Branches.add_nil (new : Edge × Node ρ) :
    (nil : Branches ρ).add new =
      .ok (cons new.1 new.2.slots new.2.route new.2.below nil, new.1.alone) := rfl

namespace Node

theorem sprout_cons_cases {slots : Nat} {s : Segment} {rest : List Segment}
    {sprouts : List (Edge × Node ρ)} (h : sprout slots (s :: rest) = .ok sprouts) :
    ∃ edge others, edge.segment = s ∧ sprout (slots + edge.width) rest = .ok others ∧
      sprouts = (edge, ⟨slots + edge.width, none, .nil⟩) :: others := by
  simp only [sprout, bind_eq_ok_iff, pure_eq_ok_iff] at h
  obtain ⟨edge, hs, others, hothers, rfl⟩ := h
  exact ⟨edge, others, Edge.segment_ofSegment hs, hothers, rfl⟩

theorem below_of_mem_sprout {slots : Nat} {segments : List Segment}
    {sprouts : List (Edge × Node ρ)} (h : sprout slots segments = .ok sprouts) :
    ∀ c ∈ sprouts, c.2.below = .nil := by
  induction segments generalizing slots sprouts with
  | nil =>
    cases h
    simp
  | cons s rest ih =>
    obtain ⟨edge, others, -, hothers, rfl⟩ := sprout_cons_cases h
    exact List.forall_mem_cons.2 ⟨rfl, ih hothers⟩

/-- A shoot is made of new nodes, one below the other. -/
theorem map_nest_sprout (slots : Nat) (segments : List Segment) :
    (sprout slots segments).map Branches.nest = Branches.shoot (ρ := ρ) slots segments := by
  induction segments generalizing slots with
  | nil => rfl
  | cons s rest ih =>
    cases hs : Edge.ofSegment s with
    | error e => simp [sprout, Branches.shoot, hs, bind, Except.bind, Except.map]
    | ok edge =>
      rw [sprout, Branches.shoot, hs]
      simp only [bind, Except.bind, ← ih]
      cases sprout (ρ := ρ) (slots + edge.width) rest <;> rfl

/-- New nodes one below the other are on the way of the segments. -/
theorem wayTo?_nest {slots : Nat} {segments : List Segment} {sprouts : List (Edge × Node ρ)}
    (h : sprout slots segments = .ok sprouts) {n : Node ρ} (hn : n.below = .nest sprouts) :
    n.wayTo? segments = some (sprouts.map fun c => c.1.alone) := by
  induction segments generalizing slots sprouts n with
  | nil =>
    cases h
    rfl
  | cons s rest ih =>
    obtain ⟨edge, others, rfl, hothers, rfl⟩ := sprout_cons_cases h
    let child : Node ρ := ⟨slots + edge.width, none, .nest others⟩
    refine wayTo?_cons_eq_some_iff.2 ⟨edge.alone, child, _, ?_, ?_, ih hothers rfl, rfl⟩
    · rw [hn, Branches.nest, Branches.spot?_cons, if_pos rfl]
      rfl
    · simp [hn, child, Branches.nest, Branches.find?, Edge.madeFrom]

theorem hang_append (parents parents' : List (Edge × Node ρ)) (head : Edge × Node ρ)
    (spots : List Spot) :
    hang (parents ++ parents') head spots =
      (hang parents head spots).bind fun (head, spots) => hang parents' head spots := by
  induction parents generalizing head spots with
  | nil => rfl
  | cons parent parents ih =>
    obtain ⟨edge, parent⟩ := parent
    rw [List.cons_append, hang, hang]
    cases parent.below.add head with
    | error e => rfl
    | ok added => exact ih _ _

/-- **New nodes are put together from the last to the first**, and the spots come in this order. -/
theorem hang_reverse {c : Edge × Node ρ} {rest : List (Edge × Node ρ)}
    (h : ∀ c' ∈ c :: rest, c'.2.below = .nil) :
    ∃ last parents, (c :: rest).reverse = last :: parents ∧
      hang parents last [] = .ok ((c.1, { c.2 with below := Branches.nest rest }),
        (rest.map fun c' => c'.1.alone).reverse) := by
  induction rest generalizing c with
  | nil =>
    refine ⟨c, [], rfl, ?_⟩
    have hc := h c List.mem_cons_self
    simp [hang, Branches.nest, ← hc]
  | cons d rest ih =>
    obtain ⟨hc, hrest⟩ := List.forall_mem_cons.1 h
    obtain ⟨last, parents, hreverse, hhang⟩ := ih hrest
    refine ⟨last, parents ++ [c], ?_, ?_⟩
    · rw [List.reverse_cons, hreverse, List.cons_append]
    · rw [hang_append, hhang]
      simp only [Except.bind, hang, hc, Branches.add_nil, bind, List.map_cons, List.reverse_cons]
      rfl

end Node

/-! ## The new branch -/

omit [Regex.Engine] in
/-- Behind a branch of another kind that a new one is put before, there is none of its own kind. -/
theorem Segment.kind_ne_of_before_of_leads {s t u : Segment} (h : s.Before t)
    (hkind : t.kind ≠ s.kind) (h' : t.Leads u) : u.kind ≠ s.kind := by
  cases s <;> cases t <;> cases u <;> simp_all [Before, Leads, kind]

namespace Branches

theorem ofKind_eq_nil_iff {b : Branches ρ} {kind : Kind} :
    b.ofKind kind = [] ↔ ∀ s ∈ b.segments, s.kind ≠ kind := by
  induction b with
  | nil => simp [ofKind, children]
  | cons edge slots route below rest _ ih =>
    rw [ofKind_cons, segments_cons, List.forall_mem_cons, ← ih]
    by_cases h : edge.kind = kind
    · have hs : edge.segment.kind = kind := h
      simp [h, hs]
    · have hs : edge.segment.kind ≠ kind := h
      simp [h, hs]

theorem spotFor_cons_of_precedes {new edge : Edge} (h : new.precedes edge = true) {slots : Nat}
    {route : Option ρ} {below rest : Branches ρ}
    (ho : (cons edge slots route below rest).segments.Pairwise Segment.Leads) :
    (cons edge slots route below rest).spotFor new = new.alone := by
  have hindex : ((cons edge slots route below rest).ofKind new.kind).findIdx
      (fun c => new.precedes c.1) = 0 := by
    rw [ofKind_cons]
    by_cases hkind : edge.kind = new.kind
    · simp [hkind, List.findIdx_cons, h]
    · -- Branches of one kind stand together, and another kind has begun.
      have hnil : rest.ofKind new.kind = [] := by
        rw [ofKind_eq_nil_iff]
        intro s hs
        have hleads : edge.segment.Leads s := (List.pairwise_cons.1 ho).1 s hs
        exact Segment.kind_ne_of_before_of_leads ((new.precedes_iff edge).1 h) hkind hleads
      simp [hkind, hnil]
  exact congrArg (Spot.mk new.kind) hindex

theorem spotFor_cons_of_not_precedes {new edge : Edge} (h : ¬ new.precedes edge = true)
    (slots : Nat) (route : Option ρ) (below rest : Branches ρ) :
    (cons edge slots route below rest).spotFor new = edge.before (rest.spotFor new) := by
  rw [spotFor, ofKind_cons, Edge.before]
  by_cases hkind : edge.kind = new.kind
  · simp [hkind, List.findIdx_cons, h, spotFor]
  · simp [hkind, spotFor]

theorem spot?_modify (wanted : Edge → Bool) (change : Node ρ → Node ρ) (b : Branches ρ)
    (s : Segment) : (b.modify wanted change).spot? s = b.spot? s := by
  induction b with
  | nil => rfl
  | cons edge slots route below rest _ ih =>
    by_cases hw : wanted edge = true <;> simp [modify, hw, spot?_cons, ih]

/-- **A new branch is at the spot that it was given**, if the others stand in order. -/
theorem spot?_insert {new : Edge} {b : Branches ρ} (hm : new.segment ∉ b.segments)
    (ho : b.segments.Pairwise Segment.Leads) (node : Node ρ) :
    (b.insert new node).spot? new.segment = some (b.spotFor new) := by
  induction b with
  | nil =>
    rw [insert, spot?_cons, if_pos rfl]
    rfl
  | cons edge slots route below rest _ ih =>
    simp only [segments_cons, List.mem_cons, not_or] at hm
    by_cases h : new.precedes edge = true
    · rw [insert, if_pos h, spot?_cons, if_pos rfl, spotFor_cons_of_precedes h ho]
      rfl
    · rw [insert, if_neg h, spot?_cons, if_neg (Ne.symm hm.1), ih hm.2 (List.pairwise_cons.1 ho).2,
        spotFor_cons_of_not_precedes h]
      rfl

end Branches

namespace Node

/-- A change at a position leaves the way to it. -/
theorem wayTo?_modifyAt {segments : List Segment} {n : Node ρ} {way : List Spot}
    (h : n.wayTo? segments = some way) (change : Node ρ → Node ρ) :
    (n.modifyAt Edge.madeFrom change segments).wayTo? segments = some way := by
  induction segments generalizing n way with
  | nil =>
    cases h
    rfl
  | cons s rest ih =>
    obtain ⟨spot, child, further, hspot, hfind, hfurther, rfl⟩ := wayTo?_cons_eq_some_iff.1 h
    refine wayTo?_cons_eq_some_iff.2 ⟨spot, _, further, ?_, ?_, ih hfurther, rfl⟩
    · rw [modifyAt, Branches.spot?_modify, hspot]
    · rw [modifyAt, Branches.find?_modify, hfind, Option.map_some]

/-- The tree is changed where the descent ended. -/
theorem Descends.changeAt {front : List Segment} {n : Node ρ} {d : Descent ρ}
    (hd : n.Descends front d) (below : Branches ρ) :
    n.changeAt (fun n => { n with below := below }) d.way =
      n.modifyAt Edge.madeFrom (fun _ => { d.node with below := below }) front := by
  rw [changeAt_of_wayTo? hd.way]
  exact modifyAt_congr hd.node rfl

/-- The way to what was inserted where a descent ended: the way that was followed, the spot of the
new branch, and the spots of the new nodes. -/
theorem Descends.wayTo?_insert {front : List Segment} {n : Node ρ} {d : Descent ρ}
    (hd : n.Descends front d) {edge : Edge} (hm : edge.segment ∉ d.node.below.segments)
    (ho : d.node.below.segments.Pairwise Segment.Leads) {rest : List Segment} {slots : Nat}
    {others : List (Edge × Node ρ)} (hothers : sprout slots rest = .ok others) (head : Node ρ)
    (hhead : head.below = .nest others) :
    (n.changeAt (fun n => { n with below := d.node.below.insert edge head }) d.way).wayTo?
      (front ++ edge.segment :: rest) =
        some (d.way ++ d.node.below.spotFor edge :: others.map fun c => c.1.alone) := by
  rw [hd.changeAt]
  let c : Node ρ := { d.node with below := d.node.below.insert edge head }
  have hc : (n.modifyAt Edge.madeFrom (fun _ => c) front).locate? front = some c := by
    rw [locate?, at?_modifyAt, ← locate?, hd.node, Option.map_some]
  have hspot : c.below.spot? edge.segment = some (d.node.below.spotFor edge) :=
    Branches.spot?_insert hm ho head
  have hfind : c.below.find? (Edge.madeFrom edge.segment) = some head := by
    rw [Branches.find?_madeFrom_insert _ _ _ _ hm, if_pos rfl]
  have hbelow := wayTo?_cons_eq_some_iff.2
    ⟨_, head, _, hspot, hfind, wayTo?_nest hothers hhead, rfl⟩
  exact wayTo?_append (wayTo?_modifyAt hd.way _) hc hbelow

/-! ## What extending answers and leaves -/

/-- Where there is no branch, growing adds one made of new nodes. -/
theorem grow_of_not_mem {n : Node ρ} {s : Segment} (hm : s ∉ n.below.segments)
    (rest : List Segment) :
    n.grow (s :: rest) = (sprout n.slots (s :: rest)).bind fun
      | [] => .ok n
      | (edge, top) :: others =>
        (n.below.add (edge, { top with below := .nest others })).map fun (below, _) =>
          { n with below := below } := by
  have hf := Branches.find?_madeFrom_eq_none_iff.2 hm
  rw [grow, hf, sprout]
  cases Edge.ofSegment s with
  | error e => rfl
  | ok edge =>
    simp only [bind, Except.bind, ← map_nest_sprout]
    cases sprout (ρ := ρ) (n.slots + edge.width) rest with
    | error e => rfl
    | ok others =>
      simp only [Except.map, Branches.add, bind, Except.bind, pure, Except.pure]
      cases n.below.refuseConflict edge <;> rfl

/-- Where a descent ended, so it is in the whole tree. -/
theorem Descends.grow {front : List Segment} {n : Node ρ} {d : Descent ρ} (hd : n.Descends front d)
    {s : Segment} (hm : s ∉ d.node.below.segments) (rest : List Segment) :
    n.grow (front ++ s :: rest) = (sprout d.node.slots (s :: rest)).bind fun
      | [] => .ok n
      | (edge, top) :: others =>
        (d.node.below.add (edge, { top with below := .nest others })).map fun (below, _) =>
          n.changeAt (fun n => { n with below := below }) d.way := by
  rw [grow_append hd.node, grow_of_not_mem hm]
  cases hsprout : sprout (ρ := ρ) d.node.slots (s :: rest) with
  | error e => rfl
  | ok sprouts =>
    obtain ⟨edge, others, -, -, rfl⟩ := sprout_cons_cases hsprout
    simp only [Except.bind, hd.changeAt]
    cases d.node.below.add _ <;> rfl

theorem run_attach (way : List Spot) (node : Node ρ) (new : Edge × Node ρ) (ground : Ground ρ) :
    (Extending.attach way node new).run ground = match node.below.add new with
      | .error e => (.error e, ground)
      | .ok (below, spot) => (.ok spot,
          { ground with tree := ground.tree.changeAt (fun n => { n with below := below }) way }) := by
  rw [Extending.attach, Extending.run_bind, Extending.run_ofExcept]
  cases node.below.add new with
  | error e => rfl
  | ok added => simp only [Extending.run_bind, Extending.run_modify, Extending.run_pure]

/-- When nothing is left there is nothing to read. -/
theorem extend_of_left_nil {segments : List Segment} {n : Node ρ}
    (h : (n.descend segments).left = []) (cache : Cache) :
    n.extend segments cache = (.ok (n.descend segments).way, ⟨n, cache⟩) := by
  rw [extend, Extending.extend, Extending.run_bind, Extending.run_get]
  simp only [h]
  rfl

theorem extend_of_unread {segments : List Segment} {n : Node ρ} {e : TreeError}
    (h : sprout (ρ := ρ) (n.descend segments).node.slots (n.descend segments).left = .error e)
    (cache : Cache) : ∃ cache', n.extend segments cache = (.error e, ⟨n, cache'⟩) := by
  rw [extend, Extending.extend, Extending.run_bind, Extending.run_get]
  simp only [Extending.run_bind, Extending.run_reading (answers_sproutIn _ _), h]
  exact ⟨_, rfl⟩

/-- The new nodes are put together, and one branch is added, unless it is refused. -/
theorem extend_of_sprout {segments : List Segment} {n : Node ρ} {edge : Edge} {top : Node ρ}
    {others : List (Edge × Node ρ)} (h : sprout (n.descend segments).node.slots
      (n.descend segments).left = .ok ((edge, top) :: others)) (cache : Cache) :
    ∃ cache', n.extend segments cache =
      match (n.descend segments).node.below.add (edge, { top with below := .nest others }) with
      | .error e => (.error e, ⟨n, cache'⟩)
      | .ok (below, spot) =>
        (.ok ((n.descend segments).way ++ spot :: others.map fun c => c.1.alone),
          ⟨n.changeAt (fun n => { n with below := below }) (n.descend segments).way, cache'⟩) := by
  obtain ⟨last, parents, hreverse, hhang⟩ := hang_reverse (below_of_mem_sprout h)
  rw [extend, Extending.extend, Extending.run_bind, Extending.run_get]
  simp only [Extending.run_bind, Extending.run_reading (answers_sproutIn _ _), h, hreverse,
    Extending.run_ofExcept, hhang, run_attach, List.reverse_reverse]
  cases (n.descend segments).node.below.add (edge, { top with below := .nest others }) with
  | error e => exact ⟨_, rfl⟩
  | ok added => exact ⟨_, rfl⟩

/-- What is there is found, nothing is read, and nothing changes. -/
theorem extend_of_wayTo? {segments : List Segment} {n : Node ρ} {way : List Spot}
    (h : n.wayTo? segments = some way) (cache : Cache) :
    n.extend segments cache = (.ok way, ⟨n, cache⟩) := by
  obtain ⟨hway, hleft⟩ := descend_of_wayTo? h
  rw [extend_of_left_nil hleft, hway]

/-- **Extending is growing.** Where growing refuses, the tree stays as it was; where a tree grows,
it is the one that is left, and the answer is the way to the position of the segments. -/
theorem extend_cases {n : Node ρ} (ho : ∀ position, (n.branchesAt position).Pairwise Segment.Leads)
    (segments : List Segment) (cache : Cache) :
    (∃ e cache', n.grow segments = .error e ∧
      n.extend segments cache = (.error e, ⟨n, cache'⟩)) ∨
    ∃ n' way cache', n.grow segments = .ok n' ∧
      n.extend segments cache = (.ok way, ⟨n', cache'⟩) ∧ n'.wayTo? segments = some way := by
  obtain ⟨front, hsplit, hd⟩ := exists_descends segments n
  cases hleft : (n.descend segments).left with
  | nil =>
    rw [hleft, List.append_nil] at hsplit
    subst hsplit
    have hgrow : n.grow segments = .ok n := grow_of_locate? (by rw [hd.node]; rfl)
    exact Or.inr ⟨n, _, cache, hgrow, extend_of_left_nil hleft cache, hd.way⟩
  | cons s rest =>
    rw [hleft] at hsplit
    have hm : s ∉ (n.descend segments).node.below.segments := hd.stuck s (by simp [hleft])
    have hgrow := hd.grow hm rest
    rw [← hsplit] at hgrow
    cases hsprout : sprout (ρ := ρ) (n.descend segments).node.slots (s :: rest) with
    | error e =>
      obtain ⟨cache', hextend⟩ := extend_of_unread (hleft ▸ hsprout) cache
      exact Or.inl ⟨e, cache', by rw [hgrow, hsprout]; rfl, hextend⟩
    | ok sprouts =>
      obtain ⟨edge, others, rfl, hothers, rfl⟩ := sprout_cons_cases hsprout
      obtain ⟨cache', hextend⟩ := extend_of_sprout (hleft ▸ hsprout) cache
      let head : Node ρ := ⟨(n.descend segments).node.slots + edge.width, none, .nest others⟩
      rw [hsprout, Except.bind] at hgrow
      cases hadd : (n.descend segments).node.below.add (edge, head) with
      | error e =>
        simp only [head, hadd] at hextend hgrow
        exact Or.inl ⟨e, cache', hgrow, hextend⟩
      | ok added =>
        obtain ⟨below, spot⟩ := added
        simp only [head, hadd] at hextend hgrow
        obtain ⟨rfl, rfl⟩ := Branches.add_eq_ok hadd
        -- The new spot is counted before the branch goes in; it is there only as the order is kept.
        have hway := hd.wayTo?_insert hm (hd.branchesAt ▸ ho front) hothers head rfl
        rw [← hsplit] at hway
        exact Or.inr ⟨_, _, cache', hgrow, hextend, hway⟩

end Node

end Routing
