import Routing.Http.Method
import Routing.Options
import Routing.Pattern.Split
import Routing.Tree.Growth

/-!
# What a router refuses

* `RouterError` — the causes; `RouterError.message` words them.
-/

namespace Routing

inductive RouterError where
  /-- Files cannot be served from a directory without a name. -/
  | emptyFileRoot
  | options (e : OptionsError)
  | pattern (e : Pattern.Error)
  | tree (e : TreeError)
  /-- The method has a route with these segments. -/
  | duplicateRoute (method : Method) (path : Text)
  | paramDepthExceeded (path : Text) (depth limit : Nat)
  | routeNotFound (method : Method) (path : Text)
  deriving DecidableEq

def RouterError.message : RouterError → String
  | .emptyFileRoot => "static file root must not be empty"
  | .options e => e.message
  | .pattern e => e.message
  | .tree e => e.message
  | .duplicateRoute m p =>
    let method := String.ofList m.name
    let path := String.ofList p
    s!"duplicate route for {method} '{path}'"
  | .paramDepthExceeded p depth limit =>
    let path := String.ofList p
    s!"route '{path}' binds {depth} parameters; the limit is {limit}"
  | .routeNotFound m p =>
    let method := String.ofList m.name
    let path := String.ofList p
    s!"no route matched for method {method} and path '{path}'"

end Routing
