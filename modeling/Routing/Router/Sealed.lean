import Routing.Router.Basic

/-!
# Sealed routers

A sealed router serves, and its routes no longer change. All it keeps track of is which chains
have been composed.

* `Sealed.find` — the handler and the parameters for a method and a path.
* `Sealed.resolve` — what a request gets, before any handler runs.
* `Sealed.allowed` — the methods a path can be asked for.
-/

namespace Routing

variable [Regex.Engine]

structure Sealed where
  forest : Forest
  options : Options
  files : Option FileServer
  notFound : Option Handler
  notAllowed : Option Handler

def Router.seal (r : Router) : Sealed := ⟨r.forest, r.options, r.files, r.notFound, r.notAllowed⟩

/-- The run of a call, and the router that remembers composed chains. -/
structure Served (α : Type) where
  run : Run α
  router : Sealed

namespace Served

variable {α β : Type}

/-- What the call answers, unless it panicked. -/
def answer (s : Served α) : Option α := s.run.value

def events (s : Served α) : List Event := s.run.events

def map (f : α → β) (s : Served α) : Served β := ⟨s.run.map f, s.router⟩

@[simp] theorem answer_map (f : α → β) (s : Served α) : (s.map f).answer = s.answer.map f := rfl

@[simp] theorem events_map (f : α → β) (s : Served α) : (s.map f).events = s.events := rfl

@[simp] theorem router_map (f : α → β) (s : Served α) : (s.map f).router = s.router := rfl

theorem events_answer_of_run {s : Served α} {run : Run α} (h : s.run = run) :
    s.events = run.events ∧ s.answer = run.value := by
  subst h
  exact ⟨rfl, rfl⟩

end Served

/-- A route that was found: its composed handler, and what its wildcards captured. -/
structure Match where
  handler : Handler
  params : Params

inductive Resolution where
  | found (m : Match)
  /-- An unmatched `OPTIONS` request, with the methods that are allowed. -/
  | options (allow : Text)
  | staticFile
  | notAllowed (allow : Text)
  | notFound

/-- What separates the methods in a list of them. -/
def allowSeparator : Text := [',', ' ']

namespace Sealed

/-- The end of the walk of a decoded path in the tree of a method, if there is a route. -/
def arrive? (s : Sealed) (m : Method) (path : Text) : Option (Arrival Route × Route) := do
  let tree ← s.forest.root? m
  let arrival ← tree.walk? path
  let route ← arrival.node.route
  return (arrival, route)

/-- The router that keeps this route at the position of the segments. -/
def keep (s : Sealed) (m : Method) (segments : List Segment) (route : Route) : Sealed :=
  let tree := (s.forest.root m).modifyAt Edge.madeFrom (fun n => { n with route := some route })
    segments
  { s with forest := s.forest.set m tree }

/-- Finds the route for a decoded path. Its chain is composed if it has not been yet. -/
def lookup (s : Sealed) (m : Method) (path : Text) : Served (Option Match) :=
  match s.arrive? m path with
  | none => ⟨.of none, s⟩
  | some (arrival, route) =>
    let (run, route) := route.ready
    ⟨run.map fun handler => some ⟨handler, arrival.params⟩, s.keep m arrival.segments route⟩

def find (s : Sealed) (m : Method) (path : Text) : Served (Except RouterError Match) :=
  (s.lookup m (Text.Percent.text path)).map fun
    | some found => .ok found
    | none => .error (.routeNotFound m path)

/-- The methods with a route at a decoded path, beside the one that was asked for. The path `*`
stands for all methods that have a tree. `OPTIONS` is left out. -/
def otherMethods (s : Sealed) (m : Method) (path : Text) : List Method :=
  if path = ['*'] then s.forest.methods.filter (· ≠ Method.options)
  else
    s.forest.methods.filter fun other =>
      other ≠ m && other ≠ Method.options && (s.arrive? other path).isSome

/-- The text that lists the allowed methods for a decoded path, `OPTIONS` last; none when nothing
is allowed. -/
def allowedAt (s : Sealed) (m : Method) (path : Text) : Option Text :=
  let others := s.otherMethods m path
  if (if path = ['*'] then s.forest.roots.isEmpty else others.isEmpty) then none
  else some (Text.join allowSeparator ((others ++ [Method.options]).map Method.name))

def allowed (s : Sealed) (m : Method) (path : Text) : Option Text :=
  s.allowedAt m (Text.Percent.text path)

/-- What an unmatched request for a decoded path gets. -/
def fallback (s : Sealed) (m : Method) (path : Text) : Resolution :=
  if m = .options ∧ s.options.handleOptions then
    match s.allowedAt m path with
    | some allow => .options allow
    | none => .notFound
  else if m = .get ∧ s.files.isSome then .staticFile
  else if s.options.handleMethodNotAllowed then
    match s.allowedAt m path with
    | some allow => .notAllowed allow
    | none => .notFound
  else .notFound

def resolve (s : Sealed) (m : Method) (path : Text) : Served Resolution :=
  let path := Text.Percent.text path
  (s.lookup m path).map fun
    | some found => .found found
    | none => s.fallback m path

end Sealed

end Routing
