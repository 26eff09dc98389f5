import Routing.Tree.Branches

/-!
# Walking a path

A path is walked from the root of a tree, one edge after the other, and the first branch that
takes the text ahead is the one that is followed: none of its neighbours is tried again. One slash
before each step is skipped. The walk ends where the path does.

* `Edge.advance?` — what an edge takes of the text ahead.
* `Node.walk?` — the node a path leads to, and what its wildcards captured.
-/

namespace Routing

variable [Regex.Engine]

/-- The path without the slash it opens with, if it does. -/
def skipSlash : Text → Text
  | '/' :: rest => rest
  | path => path

/-- What an edge takes of the text ahead. -/
structure Advance where
  /-- The text a wildcard takes. -/
  part : Option Text
  rest : Text
  deriving DecidableEq, Repr

/-- The text up to the next slash, unless it is empty, and what follows. -/
def nextPart? (path : Text) : Option (Text × Text) :=
  match path.takeWhile (· != '/') with
  | [] => none
  | part => some (part, path.dropWhile (· != '/'))

/-- A literal takes itself, whatever follows; a wildcard takes the text up to the next slash. -/
def Edge.advance? : Edge → Text → Option Advance
  | literal id, path => (Text.dropOpening? id path).map (⟨none, ·⟩)
  | regex _ c, path =>
    (nextPart? path).bind fun (part, rest) =>
      if c.accepts part then some ⟨some part, rest⟩ else none
  | wildcard _, path => (nextPart? path).map fun (part, rest) => ⟨some part, rest⟩

/-- Where a walk ended. -/
structure Arrival (ρ : Type) where
  node : Node ρ
  /-- The edges that were followed, as segments. -/
  segments : List Segment
  /-- What was captured on the way, the first wildcard first. -/
  captures : List Capture

variable {ρ : Type}

/-- Walks a path that is not empty and whose slash was skipped. -/
def Branches.walk? : Branches ρ → Text → Option (Arrival ρ)
  | nil, _ => none
  | cons edge slots route below rest, path =>
    match edge.advance? path with
    | none => rest.walk? path
    | some a =>
      let captured := a.part.toList.map fun part => ⟨slots - 1, edge.id, part⟩
      match skipSlash a.rest with
      | [] => some ⟨⟨slots, route, below⟩, [edge.segment], captured⟩
      | ahead =>
        (below.walk? ahead).map fun arrival =>
          ⟨arrival.node, edge.segment :: arrival.segments, captured ++ arrival.captures⟩

def Node.walk? (n : Node ρ) (path : Text) : Option (Arrival ρ) :=
  match skipSlash path with
  | [] => some ⟨n, [], []⟩
  | ahead => n.below.walk? ahead

/-- The parameters of the node at the end of the walk. -/
def Arrival.params (a : Arrival ρ) : Params := .fill a.node.slots a.captures

end Routing
