import Routing.Router.Sealed
import Routing.Text.Quoted

/-!
# Descriptions

Values written on one line for a reader: the name of the type, and its fields in braces.

* `Router.describe`, `Sealed.describe` — a router with all its trees.
* `Chain.describe`, `FileServer.describe`, `Match.describe` — its parts.
-/

namespace Routing

namespace Describe

/-- A type with its fields. -/
def record (name : String) (fields : List (String × String)) : String :=
  let body := ", ".intercalate (fields.map fun (field, value) => field ++ ": " ++ value)
  name ++ " \x7b " ++ body ++ " \x7d"

def list (items : List String) : String := "[" ++ ", ".intercalate items ++ "]"

def text (t : Text) : String := String.ofList (Text.quote t)

def bool (b : Bool) : String := if b then "true" else "false"

def optional (value : Option String) : String :=
  match value with
  | none => "None"
  | some value => "Some(" ++ value ++ ")"

end Describe

open Describe

variable [Regex.Engine]

def Chain.describe (c : Chain) : String :=
  record "MiddlewareChain" [("layers", list (c.layers.map fun _ => "Middleware(..)"))]

def FileServer.describe (s : FileServer) : String :=
  record "FileServer"
    [("root", text s.root), ("strip_prefix", optional (s.opening.map text))]

def Options.describe (o : Options) : String :=
  record "RouterOptions"
    [("handle_options", bool o.handleOptions),
     ("handle_method_not_allowed", bool o.handleMethodNotAllowed),
     ("duplicate_routes",
      match o.duplicateRoutes with
      | .reject => "Reject"
      | .replace => "Replace"),
     ("max_param_depth", toString o.maxParamDepth)]

def Param.describe (p : Param) : String :=
  record "Param" [("key", text p.key), ("value", text p.value)]

def Params.describe (p : Params) : String :=
  record "Params" [("slots", list (p.slots.map Param.describe))]

/-- The handler of a match is not shown. -/
def Match.describe (m : Match) : String :=
  "RouteMatch \x7b params: " ++ m.params.describe ++ ", .. \x7d"

def Route.describe (r : Route) : String :=
  record "Route"
    [("middleware", toString r.chain.length), ("composed", bool r.composed.isSome)]

def Edge.describeKind : Edge → String
  | literal _ => "Static"
  | wildcard _ => "Wildcard"
  | regex _ c =>
    record "Regex" [("raw", text c.raw), ("regex", "Regex(" ++ text (anchored c.raw) ++ ")")]

/-- The three groups in which the branches of a node are shown. -/
structure Shown where
  literals : List String := []
  regexes : List String := []
  wildcard : Option String := none

def Shown.describe (s : Shown) : String :=
  record "Tree"
    [("statics", list s.literals), ("regexps", list s.regexes), ("wildcard", optional s.wildcard)]

/-- One more branch in front of the others of its group. -/
def Shown.add (s : Shown) (edge : Edge) (node : String) : Shown :=
  match edge with
  | .literal _ => { s with literals := node :: s.literals }
  | .regex _ _ => { s with regexes := node :: s.regexes }
  | .wildcard _ => { s with wildcard := some node }

def describeNode (id : Text) (kind : String) (slots : Nat) (below : Shown) (route : Option Route) :
    String :=
  record "Node"
    [("id", text id), ("kind", kind), ("param_slots", toString slots),
     ("children", below.describe), ("route", optional (route.map Route.describe))]

def Branches.shown : Branches Route → Shown
  | nil => {}
  | cons edge slots route below rest =>
    rest.shown.add edge (describeNode edge.id edge.describeKind slots below.shown route)

/-- A root is shown like a node that its label leads to. -/
def Root.describe (root : Root) : String :=
  "(" ++ String.ofList root.method.name ++ ", " ++
    describeNode root.label.id root.label.describeKind root.tree.slots root.tree.below.shown
      root.tree.route ++ ")"

def Forest.describe (f : Forest) : String :=
  let roots := f.roots.map Root.describe
  record "Forest" [("roots", list roots)]

def Router.describe (r : Router) : String :=
  record "Router"
    [("forest", r.forest.describe), ("middleware", r.chain.describe),
     ("options", r.options.describe),
     ("file_server", optional (r.files.map FileServer.describe)),
     ("not_found", bool r.notFound.isSome), ("not_allowed", bool r.notAllowed.isSome)]

def Sealed.describe (s : Sealed) : String :=
  record "RouterReadOnly"
    [("forest", s.forest.describe), ("options", s.options.describe),
     ("file_server", optional (s.files.map FileServer.describe)),
     ("not_found", bool s.notFound.isSome), ("not_allowed", bool s.notAllowed.isSome)]

end Routing
