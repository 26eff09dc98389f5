import Routing.Tree.Traverse

/-!
# Taking a tree apart

A tree is taken apart into its routes, each with the segments that lead to it. The nodes that are
still to be taken are kept on a stack, with the segments on the way to them. The branches of a node
are put there from the last to the first, so that the first of them is taken next.

* `Node.drainAll` — the routes of the nodes on a stack, and of all below them.
* `Node.drain` — the routes of a tree.
* `Node.drain_eq` — they come as the tree is read.
-/

namespace Routing

variable [Regex.Engine]

namespace Branches

variable {ρ : Type}

theorem flatMap_nodes_children (b : Branches ρ) :
    (b.children.flatMap fun c => c.2.nodes) = b.nodes := by
  induction b with
  | nil => rfl
  | cons edge slots route below rest _ ih =>
    rw [children, List.flatMap_cons, ih]
    rfl

/-- The routes behind the branches are those of the children, one segment deeper. -/
theorem flatMap_routes_children (b : Branches ρ) :
    (b.children.flatMap fun c =>
      c.2.routes.map fun (segments, route) => (c.1.segment :: segments, route)) = b.routes := by
  induction b with
  | nil => rfl
  | cons edge slots route below rest _ ih =>
    rw [children, List.flatMap_cons, ih]
    cases route <;> simp [routes, Node.routes]

end Branches

namespace Node

variable {ρ : Type}

/-- Puts the children of a node on the stack, from the last to the first. -/
def push (path : List Segment) (children : List (Edge × Node ρ))
    (stack : List (List Segment × Node ρ)) : List (List Segment × Node ρ) :=
  children.reverse.foldl (fun stack (edge, child) => (path ++ [edge.segment], child) :: stack) stack

/-- The routes of the nodes on a stack and of all below them. A step takes the node on top. -/
def drainAll : Nat → List (List Segment × Node ρ) → List (List Segment × ρ)
  | 0, _ => []
  | _ + 1, [] => []
  | steps + 1, (path, node) :: stack =>
    (node.route.toList.map fun route => (path, route)) ++
      drainAll steps (push path node.below.children stack)

/-- The routes of the tree with their segments. It takes a step for each node. -/
def drain (n : Node ρ) : List (List Segment × ρ) := drainAll n.nodes.length [([], n)]

theorem push_eq (path : List Segment) (children : List (Edge × Node ρ))
    (stack : List (List Segment × Node ρ)) :
    push path children stack =
      (children.map fun (edge, child) => (path ++ [edge.segment], child)) ++ stack := by
  rw [push, List.foldl_reverse]
  induction children with
  | nil => rfl
  | cons c children ih => rw [List.foldr_cons, ih, List.map_cons, List.cons_append]

/-- **A stack is drained from the top**, if there is a step for each node. -/
theorem drainAll_eq {steps : Nat} {stack : List (List Segment × Node ρ)}
    (h : (stack.flatMap fun (_, n) => n.nodes).length ≤ steps) :
    drainAll steps stack = stack.flatMap fun (path, n) =>
      n.routes.map fun (segments, route) => (path ++ segments, route) := by
  induction steps generalizing stack with
  | zero =>
    cases stack with
    | nil => rfl
    | cons entry stack => simp [nodes] at h
  | succ steps ih =>
    cases stack with
    | nil => rfl
    | cons entry stack =>
      obtain ⟨path, node⟩ := entry
      have hsteps :
          ((push path node.below.children stack).flatMap fun (_, n) => n.nodes).length ≤ steps := by
        rw [List.flatMap_cons, List.length_append] at h
        rw [push_eq, List.flatMap_append, List.flatMap_map, List.length_append]
        simp only [Branches.flatMap_nodes_children]
        simp only [nodes, List.length_cons] at h ⊢
        omega
      rw [drainAll, ih hsteps, push_eq, List.flatMap_append, List.flatMap_cons, ← List.append_assoc]
      congr 1
      simp only [routes, ← node.below.flatMap_routes_children, List.flatMap_map, List.map_append,
        List.map_map, List.map_flatMap]
      simp [Function.comp_def]

/-- **Draining a tree reads its routes.** -/
theorem drain_eq (n : Node ρ) : n.drain = n.routes := by
  rw [drain, drainAll_eq (by simp)]
  simp

end Node

end Routing
