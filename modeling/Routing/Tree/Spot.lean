import Routing.Tree.Branches

/-!
# Spots

Branches can be told by number. A spot is the kind of a branch, and how many branches of that kind
stand before it; spots one after the other are a way from a node to one below it.

* `Branches.at?` — the branch at a spot.
* `Branches.spot?` — the spot of a branch; `Branches.spotFor` — the spot that a new one is given.
* `Node.follow?`, `Node.changeAt` — the node at the end of a way.
* `Branches.at?_of_spot?` — at the spot of a segment stands the branch that was made from it.
-/

namespace Routing

variable [Regex.Engine]

/-- Branches of one kind are counted apart from the others. -/
inductive Kind where
  | literal
  | regex
  | wildcard
  deriving DecidableEq

def Segment.kind : Segment → Kind
  | .literal _ => .literal
  | .regex _ _ => .regex
  | .wildcard _ => .wildcard

structure Spot where
  kind : Kind
  /-- How many branches of the kind stand before. There is no more than one plain wildcard, so it is
  at none. -/
  index : Nat
  deriving DecidableEq

namespace Edge

def kind (edge : Edge) : Kind := edge.segment.kind

/-- The spot as it is counted from the edge on, if it was counted from behind it. -/
def before (edge : Edge) (spot : Spot) : Spot :=
  if edge.kind = spot.kind then ⟨spot.kind, spot.index + 1⟩ else spot

/-- The spot as it is counted from behind the edge, unless it is the edge's own. -/
def behind? (edge : Edge) (spot : Spot) : Option Spot :=
  if edge.kind = spot.kind then
    match spot.index with
    | 0 => none
    | index + 1 => some ⟨spot.kind, index⟩
  else some spot

@[simp] theorem behind?_before (edge : Edge) (spot : Spot) :
    edge.behind? (edge.before spot) = some spot := by
  by_cases h : edge.kind = spot.kind <;> simp [before, behind?, h]

@[simp] theorem behind?_first (edge : Edge) : edge.behind? ⟨edge.kind, 0⟩ = none := by
  simp [behind?]

end Edge

namespace Branches

variable {ρ : Type}

/-- The branches of one kind, in their order. -/
def ofKind (kind : Kind) (b : Branches ρ) : List (Edge × Node ρ) :=
  b.children.filter fun (edge, _) => edge.kind = kind

/-- The branch at a spot. -/
def at? (spot : Spot) (b : Branches ρ) : Option (Edge × Node ρ) :=
  (b.ofKind spot.kind)[spot.index]?

/-- The spot of the branch that was made from the segment. -/
def spot? (s : Segment) (b : Branches ρ) : Option Spot :=
  ((b.ofKind s.kind).findIdx? fun (edge, _) => edge.madeFrom s).map fun index => ⟨s.kind, index⟩

/-- The spot of a branch that is put to its place among the others. -/
def spotFor (new : Edge) (b : Branches ρ) : Spot :=
  ⟨new.kind, (b.ofKind new.kind).findIdx fun (edge, _) => new.precedes edge⟩

/-- Changes the node at a spot. -/
def changeAt (spot : Spot) (change : Node ρ → Node ρ) : Branches ρ → Branches ρ
  | nil => nil
  | cons edge slots route below rest =>
    match edge.behind? spot with
    | none =>
      let node := change ⟨slots, route, below⟩
      cons edge node.slots node.route node.below rest
    | some spot => cons edge slots route below (changeAt spot change rest)

theorem ofKind_cons (kind : Kind) (edge : Edge) (slots : Nat) (route : Option ρ)
    (below rest : Branches ρ) :
    (cons edge slots route below rest).ofKind kind =
      if edge.kind = kind then (edge, ⟨slots, route, below⟩) :: rest.ofKind kind
      else rest.ofKind kind := by
  by_cases h : edge.kind = kind <;> simp [ofKind, children, h]

theorem at?_cons (spot : Spot) (edge : Edge) (slots : Nat) (route : Option ρ)
    (below rest : Branches ρ) :
    (cons edge slots route below rest).at? spot =
      match edge.behind? spot with
      | none => some (edge, ⟨slots, route, below⟩)
      | some spot => rest.at? spot := by
  obtain ⟨kind, index⟩ := spot
  rw [at?, ofKind_cons, Edge.behind?]
  by_cases h : edge.kind = kind
  · cases index <;> simp [h, at?]
  · simp [h, at?]

theorem spot?_cons (s : Segment) (edge : Edge) (slots : Nat) (route : Option ρ)
    (below rest : Branches ρ) :
    (cons edge slots route below rest).spot? s =
      if edge.segment = s then some ⟨edge.kind, 0⟩ else (rest.spot? s).map edge.before := by
  rw [spot?, ofKind_cons]
  by_cases hs : edge.segment = s
  · simp [hs, Edge.kind, Edge.madeFrom, List.findIdx?_cons]
  · by_cases hk : edge.kind = s.kind
    · simp [hs, hk, Edge.madeFrom, List.findIdx?_cons, spot?, Edge.before, Function.comp_def]
    · simp [hs, hk, spot?, Edge.before, Function.comp_def]

/-- **At the spot of a segment stands the first branch that was made from it.** -/
theorem at?_of_spot? {b : Branches ρ} {s : Segment} {spot : Spot} (h : b.spot? s = some spot) :
    ∃ edge child, b.at? spot = some (edge, child) ∧ edge.segment = s ∧
      b.find? (Edge.madeFrom s) = some child := by
  induction b generalizing spot with
  | nil => cases h
  | cons edge slots route below rest _ ih =>
    rw [spot?_cons] at h
    by_cases hs : edge.segment = s
    · rw [if_pos hs] at h
      obtain rfl := Option.some.inj h
      exact ⟨edge, _, by rw [at?_cons, edge.behind?_first], hs, by simp [find?, Edge.madeFrom, hs]⟩
    · rw [if_neg hs] at h
      obtain ⟨spot, hspot, rfl⟩ := Option.map_eq_some_iff.1 h
      obtain ⟨edge', child, hat, hsegment, hfind⟩ := ih hspot
      refine ⟨edge', child, ?_, hsegment, ?_⟩
      · rw [at?_cons, edge.behind?_before]
        exact hat
      · simpa [find?, Edge.madeFrom, hs] using hfind

/-- There is no spot for a segment that no branch was made from. -/
theorem spot?_eq_none_iff {b : Branches ρ} {s : Segment} :
    b.spot? s = none ↔ b.find? (Edge.madeFrom s) = none := by
  induction b with
  | nil => simp [spot?, ofKind, children, find?]
  | cons edge slots route below rest _ ih =>
    rw [spot?_cons]
    by_cases hs : edge.segment = s
    · simp [hs, find?, Edge.madeFrom]
    · simpa [hs, find?, Edge.madeFrom] using ih

/-- A change at the spot of a segment is a change of the branch that was made from it. -/
theorem changeAt_of_spot? {b : Branches ρ} {s : Segment} {spot : Spot} (h : b.spot? s = some spot)
    (change : Node ρ → Node ρ) : b.changeAt spot change = b.modify (Edge.madeFrom s) change := by
  induction b generalizing spot with
  | nil => cases h
  | cons edge slots route below rest _ ih =>
    rw [spot?_cons] at h
    by_cases hs : edge.segment = s
    · rw [if_pos hs] at h
      obtain rfl := Option.some.inj h
      simp [changeAt, modify, Edge.madeFrom, hs]
    · rw [if_neg hs] at h
      obtain ⟨spot, hspot, rfl⟩ := Option.map_eq_some_iff.1 h
      simp [changeAt, modify, Edge.madeFrom, hs, ih hspot]

end Branches

namespace Node

variable {ρ : Type}

/-- The node at the end of a way. -/
def follow? : List Spot → Node ρ → Option (Node ρ)
  | [], n => some n
  | spot :: way, n => (n.below.at? spot).bind fun (_, child) => follow? way child

/-- Changes the node at the end of a way. -/
def changeAt (change : Node ρ → Node ρ) : List Spot → Node ρ → Node ρ
  | [], n => change n
  | spot :: way, n => { n with below := n.below.changeAt spot (changeAt change way) }

end Node

end Routing
