import Routing.Files.Server
import Routing.Router.Error
import Routing.Router.Forest
import Routing.Tree.Extend
import Routing.Tree.Traverse

/-!
# Routers

A router is filled with routes before it serves. Every call answers or refuses, and leaves a
router either way.

* `Router.handle` — registers a route.
* `Router.cover` — adds layers to all routes at or below a pattern.
* `Router.contains` — whether a pattern reaches a route.
-/

namespace Routing

variable [Regex.Engine]

structure Router where
  forest : Forest := {}
  /-- Layers around the routes that are registered from now on. -/
  chain : Chain := {}
  options : Options := {}
  files : Option FileServer := none
  notFound : Option Handler := none
  notAllowed : Option Handler := none

/-- What a call answers, and the router it leaves. -/
structure Edited (α : Type) where
  answer : Except RouterError α
  router : Router

namespace Router

/-- An empty router with these options, whatever they are. -/
def new (options : Options) (chain : Chain := {}) : Router :=
  { options := options, chain := chain }

/-- An empty router, if its options can be used. -/
def new? (options : Options) : Except RouterError Router :=
  match options.validate with
  | .ok options => .ok (new options)
  | .error e => .error (.options e)

def countRoutes (r : Router) : Nat := r.forest.countRoutes

/-- Adds layers inside the global ones; routes that exist keep theirs. -/
def useGlobal (r : Router) (layers : List Layer) : Router :=
  { r with chain := r.chain.append layers }

def onNotFound (r : Router) (h : Handler) : Router := { r with notFound := some h }

def onNotAllowed (r : Router) (h : Handler) : Router := { r with notAllowed := some h }

/-- Serves files below the root for requests that match no route. -/
def serveFiles (r : Router) (root : Text) (strip : Bool) : Edited Unit :=
  if root = [] then ⟨.error .emptyFileRoot, r⟩
  else ⟨.ok (), { r with files := some (.new root strip) }⟩

/-- Refuses more parameters than the options allow. -/
def checkDepth (r : Router) (path : Text) (depth : Nat) : Except RouterError Unit :=
  if r.options.maxParamDepth < depth then
    .error (.paramDepthExceeded path depth r.options.maxParamDepth)
  else .ok ()

/-- Refuses a position that has a route, unless routes may be replaced. -/
def checkDuplicate (r : Router) (m : Method) (segments : List Segment) (at? : Option Tree) :
    Except RouterError Unit :=
  if r.options.duplicateRoutes = .reject ∧ (at?.bind Node.route).isSome then
    .error (.duplicateRoute m (Pattern.render segments))
  else .ok ()

/-- Puts a route to the position of the segments in the tree of a method. The method has a tree
afterwards even if the segments are refused. -/
def register (r : Router) (m : Method) (segments : List Segment) (route : Route) : Edited Unit :=
  let planted := r.forest.plant m
  match (planted.root m).extend segments with
  | (.error e, ⟨tree, _⟩) => ⟨.error (.tree e), { r with forest := planted.set m tree }⟩
  | (.ok way, ⟨tree, _⟩) =>
    match r.checkDuplicate m segments (tree.follow? way) with
    | .error e => ⟨.error e, { r with forest := planted.set m tree }⟩
    | .ok () =>
      let placed := tree.changeAt (fun n => { n with route := some route }) way
      ⟨.ok (), { r with forest := planted.set m placed }⟩

/-- Registers a handler, inside the global layers and then its own. -/
def handle (r : Router) (m : Method) (pattern : Text) (handler : Handler)
    (layers : List Layer := []) : Edited Unit :=
  match Pattern.split pattern with
  | .error e => ⟨.error (.pattern e), r⟩
  | .ok segments =>
    match r.checkDepth pattern (Pattern.wildcards segments) with
    | .error e => ⟨.error e, r⟩
    | .ok () => r.register m segments { handler := handler, chain := r.chain.merge ⟨layers⟩ }

/-- The pattern reaches a route of the method. Literals of the pattern are taken the way a path
is, and nothing is decoded. -/
def contains (r : Router) (m : Method) (pattern : Text) : Except RouterError Bool :=
  match Pattern.split pattern with
  | .error e => .error (.pattern e)
  | .ok segments =>
    .ok (((r.forest.root? m).bind (·.reach? segments)).bind Node.route).isSome

/-- Adds layers to every route at or below the segments. -/
def coverTree (segments : List Segment) (layers : List Layer) (tree : Tree) : Tree :=
  tree.modifyAt Edge.takes (fun n => (n.visitRoutes (·.append layers)).1) segments

/-- All routes that are visited have the layers then, and no others. -/
theorem coverTree_eq (segments : List Segment) (layers : List Layer) (tree : Tree) :
    coverTree segments layers tree =
      tree.modifyAt Edge.takes (·.mapRoutes (·.append layers)) segments := by
  simp only [coverTree, Node.visitRoutes_eq]

/-- How many routes there are at or below the segments. -/
def countBelow (segments : List Segment) (tree : Tree) : Nat :=
  ((tree.reach? segments).map fun n => (n.visitRoutes id).2).getD 0

/-- Adds layers inside those of every route at or below a pattern, in the tree of one method or
in all of them, and tells how many routes there were. -/
def cover (r : Router) (m : Option Method) (pattern : Text) (layers : List Layer) : Edited Nat :=
  match Pattern.split pattern with
  | .error e => ⟨.error (.pattern e), r⟩
  | .ok segments =>
    let chosen (m' : Method) : Bool := m.all (· = m')
    let roots := r.forest.roots
    let counts := (roots.filter (chosen ·.method)).map (countBelow segments ·.tree)
    let covered := roots.map fun root =>
      if chosen root.method then root.graft (coverTree segments layers root.tree) else root
    ⟨.ok (counts.foldr (· + ·) 0), { r with forest := ⟨covered⟩ }⟩

end Router

end Routing
