import Routing.Tree.Routes

/-!
# Visiting a subtree

The routes at or below a node are changed where they stand. The nodes that are still to be visited
are kept on a stack; one that is taken from it leaves its branches there, and gets them back
visited.

* `Node.nodes` — the nodes of a tree.
* `Node.visit` — the nodes of a stack, and all below them.
* `Node.visitRoutes` — every route of a node, its own included.
* `Node.visitRoutes_eq` — each of them is changed once and counted once.
-/

namespace Routing

variable [Regex.Engine]

namespace Branches

variable {ρ : Type}

/-- All nodes behind the branches, each before what is below it. -/
def nodes : Branches ρ → List (Node ρ)
  | nil => []
  | cons _ slots route below rest => ⟨slots, route, below⟩ :: (below.nodes ++ rest.nodes)

/-- The nodes that the edges lead to. -/
def ends : Branches ρ → List (Node ρ)
  | nil => []
  | cons _ slots route below rest => ⟨slots, route, below⟩ :: rest.ends

/-- Puts other nodes behind the edges. -/
def withEnds : Branches ρ → List (Node ρ) → Branches ρ
  | cons edge _ _ _ rest, node :: nodes =>
    cons edge node.slots node.route node.below (rest.withEnds nodes)
  | b, _ => b

theorem withEnds_mapRoutes (change : ρ → ρ) (b : Branches ρ) :
    b.withEnds (b.ends.map (Node.mapRoutes change)) = b.mapRoutes change := by
  induction b with
  | nil => rfl
  | cons edge slots route below rest _ ih => simp [ends, withEnds, mapRoutes, Node.mapRoutes, ih]

end Branches

namespace Node

variable {ρ : Type}

/-- The nodes of a tree, the root first. -/
def nodes (n : Node ρ) : List (Node ρ) := n :: n.below.nodes

/-- Changes and counts the routes of the nodes on a stack and of all below them. A step visits the
node on top, and its last branch is on top then. -/
def visit (change : ρ → ρ) : Nat → List (Node ρ) → List (Node ρ) × Nat
  | 0, stack => (stack, 0)
  | _ + 1, [] => ([], 0)
  | steps + 1, node :: stack =>
    let ends := node.below.ends
    let visited := visit change steps (ends.reverse ++ stack)
    let below := node.below.withEnds (visited.1.take ends.length).reverse
    (⟨node.slots, node.route.map change, below⟩ :: visited.1.drop ends.length,
      node.route.toList.length + visited.2)

/-- Every route is changed, and they are counted. It takes a step for each node. -/
def visitRoutes (change : ρ → ρ) (n : Node ρ) : Node ρ × Nat :=
  let visited := visit change n.nodes.length [n]
  (visited.1.headD n, visited.2)

theorem flatMap_nodes_ends (b : Branches ρ) : b.ends.flatMap nodes = b.nodes := by
  induction b with
  | nil => rfl
  | cons edge slots route below rest _ ih => simp [Branches.ends, Branches.nodes, nodes, ih]

theorem length_flatMap_routes_ends (b : Branches ρ) :
    (b.ends.flatMap routes).length = b.routes.length := by
  induction b with
  | nil => rfl
  | cons edge slots route below rest _ ih =>
    rw [Branches.ends, List.flatMap_cons, List.length_append, ih, routes, Branches.routes]
    simp only [List.length_append, List.length_map]

theorem length_flatMap_reverse_append {β : Type} (f : Node ρ → List β) (ends stack : List (Node ρ)) :
    ((ends.reverse ++ stack).flatMap f).length =
      (ends.flatMap f).length + (stack.flatMap f).length := by
  rw [List.flatMap_append, List.length_append, ((List.reverse_perm ends).flatMap_right f).length_eq]

/-- **A node gets its branches back** once they were visited. -/
theorem visit_step {change : ρ → ρ} {steps count : Nat} {node : Node ρ} {stack : List (Node ρ)}
    (h : visit change steps (node.below.ends.reverse ++ stack) =
      ((node.below.ends.reverse ++ stack).map (mapRoutes change), count)) :
    visit change (steps + 1) (node :: stack) =
      ((node :: stack).map (mapRoutes change), node.route.toList.length + count) := by
  have hlength : (node.below.ends.reverse.map (mapRoutes change)).length =
      node.below.ends.length := by simp
  rw [visit, h]
  simp only [List.map_append, List.take_left' hlength, List.drop_left' hlength, ← List.map_reverse,
    List.reverse_reverse, Branches.withEnds_mapRoutes]
  rfl

/-- **All nodes on the stack are visited, and all below them**, if there is a step for each. -/
theorem visit_eq (change : ρ → ρ) {steps : Nat} {stack : List (Node ρ)}
    (h : (stack.flatMap nodes).length ≤ steps) :
    visit change steps stack = (stack.map (mapRoutes change), (stack.flatMap routes).length) := by
  induction steps generalizing stack with
  | zero =>
    cases stack with
    | nil => rfl
    | cons node stack => simp [nodes] at h
  | succ steps ih =>
    cases stack with
    | nil => rfl
    | cons node stack =>
      have hsteps : ((node.below.ends.reverse ++ stack).flatMap nodes).length ≤ steps := by
        rw [List.flatMap_cons, List.length_append, nodes, List.length_cons] at h
        rw [length_flatMap_reverse_append, flatMap_nodes_ends]
        omega
      rw [visit_step (ih hsteps), length_flatMap_reverse_append, length_flatMap_routes_ends,
        List.flatMap_cons, List.length_append, routes, List.length_append, List.length_map,
        Nat.add_assoc]

theorem visitRoutes_eq (change : ρ → ρ) (n : Node ρ) :
    n.visitRoutes change = (n.mapRoutes change, n.routes.length) := by
  have hsteps : ([n].flatMap nodes).length ≤ n.nodes.length := by simp
  simp [visitRoutes, visit_eq change hsteps]

end Node

end Routing
