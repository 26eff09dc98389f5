import Routing.Text

/-!
# Options of a router

* `Options.validate` — options that can be used allow at least one parameter.
-/

namespace Routing

/-- What happens to a route whose method and pattern are taken. -/
inductive DuplicatePolicy where
  | reject | replace
  deriving DecidableEq, Repr

structure Options where
  /-- Answer unmatched `OPTIONS` requests with what is allowed. -/
  handleOptions : Bool := true
  /-- Answer requests that match a route of another method with what is allowed. -/
  handleMethodNotAllowed : Bool := true
  duplicateRoutes : DuplicatePolicy := .reject
  /-- How many parameters a route may bind. -/
  maxParamDepth : Nat := 16
  deriving DecidableEq, Repr

inductive OptionsError where
  | maxParamDepthInvalid (provided : Nat)
  deriving DecidableEq, Repr

def OptionsError.message : OptionsError → String
  | .maxParamDepthInvalid provided => s!"max_param_depth must be at least 1 (got {provided})"

/-- The options, if they can be used. -/
def Options.validate (o : Options) : Except OptionsError Options :=
  if o.maxParamDepth = 0 then .error (.maxParamDepthInvalid 0) else .ok o

end Routing
