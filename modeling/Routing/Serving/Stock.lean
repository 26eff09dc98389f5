import Routing.Serving.Run

/-!
# Ready-made handlers and layers

* `Script.handler` — a handler that answers as it was told to.
* `Layer.tag`, `Layer.header`, `Layer.deny`, `Layer.recover`, `Layer.wrapper` — layers that leave
  events, add a header, answer themselves, or catch a panic.
-/

namespace Routing

/-- What a handler does: it notes that it was called, panics if it is to, and otherwise answers
with the body of the request, its own body, or its name. -/
structure Script where
  name : Text
  body : Option Bytes := none
  status : Nat := 200
  headers : List Header := []
  echo : Bool := false
  panics : Bool := false
  deriving DecidableEq, Repr

def Script.response (s : Script) (req : Request) : Response :=
  { status := s.status
    headers := s.headers
    body := if s.echo then req.body else s.body.getD (Text.Utf8.encode s.name) }

def Script.handler (s : Script) : Handler := fun req => do
  Run.note (.handled s.name req.params)
  if s.panics then Run.panicked else return s.response req

namespace Layer

/-- A layer that leaves no events when it is put around a handler. -/
def quiet (around : Handler → Handler) : Layer := ⟨fun next => .of (around next)⟩

/-- Notes that it was entered and left. -/
def tag (name : Text) : Layer :=
  quiet fun next req => do
    Run.note (.entered name)
    let res ← next req
    Run.note (.left name)
    return res

def traceName : Text := ['x', '-', 't', 'r', 'a', 'c', 'e']

/-- Adds a header to the response. -/
def header (name : Text) : Layer :=
  quiet fun next req => do
    let res ← next req
    return res.appendHeader traceName name

/-- Answers itself. -/
def deny (name : Text) : Layer :=
  quiet fun _ _ => do
    Run.note (.denied name)
    return { status := 403, body := Text.Utf8.encode name }

/-- Answers in the place of a handler that panics. -/
def recover (name : Text) : Layer :=
  quiet fun next req =>
    (next req).recover do
      Run.note (.recovered name)
      return { status := 500, body := Text.Utf8.encode "recovered".toList }

/-- Notes that it was put around a handler, and that it was entered. -/
def wrapper (name : Text) : Layer :=
  ⟨fun next => do
    Run.note (.wrapped name)
    return fun req => do
      Run.note (.entered name)
      next req⟩

end Layer

end Routing
