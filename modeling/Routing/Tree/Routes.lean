import Routing.Tree.Branches

/-!
# The routes of a tree

A tree read as a list of routes, each with the segments that lead to it. A route comes before
those below it, and branches come in the order in which they are kept, so that growing a tree
along the list gives its branches the same order.

* `Node.routes` — the routes with their segments.
* `Node.mapRoutes` — every route changed, the tree kept.
* `Node.maxSlots` — the most wildcards on the way to any node.
-/

namespace Routing

variable [Regex.Engine]

namespace Branches

variable {ρ σ : Type}

def routes : Branches ρ → List (List Segment × ρ)
  | nil => []
  | cons edge _ route below rest =>
    (route.toList.map fun r => ([edge.segment], r)) ++
      below.routes.map (fun (segments, r) => (edge.segment :: segments, r)) ++ rest.routes

def mapRoutes (change : ρ → σ) : Branches ρ → Branches σ
  | nil => nil
  | cons edge slots route below rest =>
    cons edge slots (route.map change) (mapRoutes change below) (mapRoutes change rest)

def maxSlots : Branches ρ → Nat
  | nil => 0
  | cons _ slots _ below rest => max slots (max below.maxSlots rest.maxSlots)

@[simp] theorem routes_mapRoutes (change : ρ → σ) (b : Branches ρ) :
    (b.mapRoutes change).routes = b.routes.map fun (segments, r) => (segments, change r) := by
  induction b with
  | nil => rfl
  | cons edge slots route below rest ihb ihr =>
    cases route <;> simp [mapRoutes, routes, ihb, ihr, Function.comp_def]

@[simp] theorem maxSlots_mapRoutes (change : ρ → σ) (b : Branches ρ) :
    (b.mapRoutes change).maxSlots = b.maxSlots := by
  induction b with
  | nil => rfl
  | cons edge slots route below rest ihb ihr => simp [mapRoutes, maxSlots, ihb, ihr]

end Branches

namespace Node

variable {ρ σ : Type}

def routes (n : Node ρ) : List (List Segment × ρ) :=
  (n.route.toList.map fun r => ([], r)) ++ n.below.routes

def mapRoutes (change : ρ → σ) (n : Node ρ) : Node σ :=
  ⟨n.slots, n.route.map change, n.below.mapRoutes change⟩

def maxSlots (n : Node ρ) : Nat := max n.slots n.below.maxSlots

@[simp] theorem routes_mapRoutes (change : ρ → σ) (n : Node ρ) :
    (n.mapRoutes change).routes = n.routes.map fun (segments, r) => (segments, change r) := by
  cases h : n.route <;> simp [mapRoutes, routes, h]

end Node

end Routing
