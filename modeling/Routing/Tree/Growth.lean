import Routing.Tree.Branches

/-!
# Growing a tree

Segments are given a position in a tree by following the edges made from them as far as there are
any, and adding the rest as one new branch. Wildcards that would stand in each other's way are
refused. This is what extending a tree in place comes to.

* `Node.grow` — the tree with a position for the segments.
* `Node.rehearse` — what growing would answer, without the grown tree.
* `TreeError` — why segments are refused.
-/

namespace Routing

variable [Regex.Engine]

inductive TreeError where
  /-- A node has a plain wildcard of another name. -/
  | duplicateWildcard (existing requested : Text)
  /-- A node has a wildcard with the same expression and another name. -/
  | paramNameConflict (pattern existing requested : Text)
  /-- The expression cannot be read. -/
  | regexInvalid (name pattern : Text)
  deriving DecidableEq, Repr

def TreeError.message : TreeError → String
  | .duplicateWildcard old new =>
    let existing := String.ofList old
    let requested := String.ofList new
    s!"wildcard '\x7b{requested}\x7d' conflicts with existing wildcard '\x7b{existing}\x7d'" ++
      " at the same position"
  | .paramNameConflict raw old new =>
    let pattern := String.ofList raw
    let existing := String.ofList old
    let requested := String.ofList new
    s!"regex wildcard '{requested}' reuses pattern '{pattern}' already bound to '{existing}'"
  | .regexInvalid text _ =>
    let name := String.ofList text
    s!"regex for wildcard '{name}' failed to compile"

/-- The edge for a segment, if its expression can be read. -/
def Edge.ofSegment : Segment → Except TreeError Edge
  | .literal text => .ok (.literal text)
  | .wildcard name => .ok (.wildcard name)
  | .regex name raw =>
    match Constraint.ofRaw? raw with
    | some c => .ok (.regex name c)
    | none => .error (.regexInvalid name raw)

/-- Whether every expression among the segments can be read. -/
def readable : List Segment → Except TreeError Unit
  | [] => .ok ()
  | s :: rest => do
    let _ ← Edge.ofSegment s
    readable rest

/-- Whether the edge stands in the way of `new` at the same node. -/
def Edge.conflict? (new : Edge) : Edge → Option TreeError
  | .regex existing old =>
    match new with
    | .regex requested c =>
      if old.raw = c.raw then some (.paramNameConflict c.raw existing requested) else none
    | _ => none
  | .wildcard existing =>
    match new with
    | .wildcard requested => some (.duplicateWildcard existing requested)
    | _ => none
  | .literal _ => none

namespace Branches

variable {ρ : Type}

/-- Refuses a new edge if one of the branches stands in its way. -/
def refuseConflict (b : Branches ρ) (new : Edge) : Except TreeError Unit :=
  match b.edges.findSome? new.conflict? with
  | some e => .error e
  | none => .ok ()

/-- A branch for the segments, below a node with this many slots; it carries no route. -/
def shoot (slots : Nat) : List Segment → Except TreeError (Branches ρ)
  | [] => .ok nil
  | s :: rest => do
    let edge ← Edge.ofSegment s
    let below ← shoot (slots + edge.width) rest
    return cons edge (slots + edge.width) none below nil

end Branches

namespace Node

variable {ρ : Type}

def grow : List Segment → Node ρ → Except TreeError (Node ρ)
  | [], n => .ok n
  | s :: rest, n =>
    match n.below.find? (Edge.madeFrom s) with
    | some child => do
      let child ← grow rest child
      return { n with below := n.below.modify (Edge.madeFrom s) fun _ => child }
    | none => do
      let edge ← Edge.ofSegment s
      let slots := n.slots + edge.width
      let below ← Branches.shoot slots rest
      n.below.refuseConflict edge
      return { n with below := n.below.insert edge ⟨slots, none, below⟩ }

/-- The node at the position of the segments, or none when growing would make it. The first new
edge is examined before the expressions behind it are read. -/
def rehearse : List Segment → Node ρ → Except TreeError (Option (Node ρ))
  | [], n => .ok (some n)
  | s :: rest, n =>
    match n.below.find? (Edge.madeFrom s) with
    | some child => rehearse rest child
    | none => do
      let edge ← Edge.ofSegment s
      n.below.refuseConflict edge
      readable rest
      return none

end Node

end Routing
