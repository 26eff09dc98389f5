import Routing.Http.Message

/-!
# Running handlers

A handler answers a request or panics, and leaves events behind. A layer makes a handler out of
another; a chain is a list of layers, the outermost first.

* `Run` — events, and a value unless the run panicked.
* `Chain.compose` — the layers of a chain around a handler.
-/

namespace Routing

/-- What handlers and layers leave behind. -/
inductive Event where
  /-- A handler was called, with these parameters on the request. -/
  | handled (name : Text) (params : Option Params)
  | entered (name : Text)
  | left (name : Text)
  | denied (name : Text)
  | recovered (name : Text)
  /-- A layer was put around a handler. -/
  | wrapped (name : Text)
  deriving DecidableEq, Repr

/-- The event as a line of a log. -/
def Event.line : Event → Text
  | handled name _ => ['h', ':'] ++ name
  | entered name => name ++ ['>']
  | left name => '<' :: name
  | denied name => name ++ ['!']
  | recovered name => name ++ ['?']
  | wrapped name => ['w', 'r', 'a', 'p', ':'] ++ name

/-- The events of a run, and its value unless it panicked. -/
structure Run (α : Type) where
  events : List Event := []
  value : Option α

namespace Run

variable {α β : Type}

def of (a : α) : Run α := ⟨[], some a⟩

def panicked : Run α := ⟨[], none⟩

def note (e : Event) : Run Unit := ⟨[e], some ()⟩

/-- The same run with another value. -/
def map (f : α → β) (r : Run α) : Run β := ⟨r.events, r.value.map f⟩

/-- Goes on with the value of a run; a panic goes through. -/
def andThen (r : Run α) (next : α → Run β) : Run β :=
  match r.value with
  | none => ⟨r.events, none⟩
  | some a => ⟨r.events ++ (next a).events, (next a).value⟩

instance : Monad Run where
  pure := of
  bind := andThen

theorem bind_of_value {r : Run α} {a : α} (h : r.value = some a) (next : α → Run β) :
    r >>= next = ⟨r.events ++ (next a).events, (next a).value⟩ := by
  simp only [bind, andThen, h]

theorem bind_of_panic {r : Run α} (h : r.value = none) (next : α → Run β) :
    r >>= next = ⟨r.events, none⟩ := by
  simp only [bind, andThen, h]

theorem map_bind {γ : Type} (r : Run α) (f : α → β) (next : β → Run γ) :
    r.map f >>= next = r >>= fun a => next (f a) := by
  obtain ⟨events, value⟩ := r
  cases value <;> rfl

/-- Runs `instead` in the place of a panic. -/
def recover (r : Run α) (instead : Run α) : Run α :=
  match r.value with
  | none => ⟨r.events ++ instead.events, instead.value⟩
  | some _ => r

end Run

abbrev Handler := Request → Run Response

/-- Makes a handler out of the one it is put around, unless that panics. -/
structure Layer where
  wrap : Handler → Run Handler

/-- Layers around a handler, the outermost first. -/
structure Chain where
  layers : List Layer := []

namespace Chain

/-- The layers around the handler, the innermost put first. -/
def compose (c : Chain) (handler : Handler) : Run Handler :=
  c.layers.foldr (fun layer inner => inner >>= layer.wrap) (.of handler)

theorem compose_cons (layer : Layer) (layers : List Layer) (handler : Handler) :
    compose ⟨layer :: layers⟩ handler = compose ⟨layers⟩ handler >>= layer.wrap := rfl

/-- More layers inside those that are there. -/
def append (c : Chain) (layers : List Layer) : Chain := ⟨c.layers ++ layers⟩

/-- The layers of `outer` around those that are there. -/
def within (c outer : Chain) : Chain := ⟨outer.layers ++ c.layers⟩

/-- The layers of both chains, those of `inner` inside. -/
def merge (c inner : Chain) : Chain := ⟨c.layers ++ inner.layers⟩

def length (c : Chain) : Nat := c.layers.length

end Chain

end Routing
