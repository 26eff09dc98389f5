import Routing.Router.Basic
import Routing.Tree.Drain

/-!
# Mounting

All routes of a router can be put below a prefix of another one. They are examined before the
first of them is attached.

* `Router.mount` — the router with the routes of another one below a prefix.
-/

namespace Routing.Router

variable [Regex.Engine]

/-- The routes to attach to the tree of a method. -/
structure Graft where
  method : Method
  routes : List (List Segment × Route)

/-- The routes of a tree, below the prefix and within the global layers. -/
def graftOf (r : Router) (above : List Segment) (root : Root) : Graft :=
  ⟨root.method,
    root.tree.drain.map fun (segments, route) => (above ++ segments, route.within r.chain)⟩

/-- The grafts for all trees, unless one of them is too deep. -/
def grafts (r : Router) (path : Text) (above : List Segment) :
    List Root → Except RouterError (List Graft)
  | [] => .ok []
  | root :: rest => do
    r.checkDepth path (Pattern.wildcards above + root.tree.maxSlots)
    let others ← r.grafts path above rest
    return r.graftOf above root :: others

/-- Examines the routes for one tree as it is now. -/
def examineRoutes (r : Router) (m : Method) : List (List Segment × Route) → Except RouterError Unit
  | [] => .ok ()
  | (segments, _) :: rest =>
    match (r.forest.root m).rehearse segments with
    | .error e => .error (.tree e)
    | .ok found => do
      r.checkDuplicate m segments found
      r.examineRoutes m rest

def examine (r : Router) : List Graft → Except RouterError Unit
  | [] => .ok ()
  | g :: rest => do
    r.examineRoutes g.method g.routes
    r.examine rest

def attachRoutes (r : Router) (m : Method) : List (List Segment × Route) → Edited Unit
  | [] => ⟨.ok (), r⟩
  | (segments, route) :: rest =>
    match r.register m segments route with
    | ⟨.ok (), r⟩ => r.attachRoutes m rest
    | refused => refused

/-- Attaches grafts one after the other; a method without routes gets a tree all the same. -/
def attach (r : Router) : List Graft → Edited Unit
  | [] => ⟨.ok (), r⟩
  | g :: rest =>
    match ({ r with forest := r.forest.plant g.method }).attachRoutes g.method g.routes with
    | ⟨.ok (), r⟩ => r.attach rest
    | refused => refused

/-- Puts the routes of `sub` below a prefix. The global layers go around the layers they have. -/
def mount (r : Router) (path : Text) (sub : Router) : Edited Unit :=
  match Pattern.split path with
  | .error e => ⟨.error (.pattern e), r⟩
  | .ok above =>
    match r.grafts path above sub.forest.roots with
    | .error e => ⟨.error e, r⟩
    | .ok grafts =>
      match r.examine grafts with
      | .error e => ⟨.error e, r⟩
      | .ok () => r.attach grafts

end Routing.Router
