import Routing.Serving.Run

/-!
# Routes

A route is a handler with a chain of layers around it. The chain is composed when the route is
first matched, and kept, unless a layer panics; a change of the layers throws the composed handler
away.

* `Route.ready` — the composed handler, and the route that keeps it.
-/

namespace Routing

structure Route where
  handler : Handler
  chain : Chain
  composed : Option Handler := none

namespace Route

def append (r : Route) (layers : List Layer) : Route :=
  { r with chain := r.chain.append layers, composed := none }

def within (r : Route) (outer : Chain) : Route :=
  { r with chain := r.chain.within outer, composed := none }

/-- The composed handler, or the run that composes it now, and the route afterwards. A composition
that panics is not kept. -/
def ready (r : Route) : Run Handler × Route :=
  match r.composed with
  | some handler => (.of handler, r)
  | none =>
    let run := r.chain.compose r.handler
    (run, { r with composed := run.value })

end Route

end Routing
