import Routing.Constraint
import Routing.Params
import Routing.Pattern.Segment

/-!
# Trees of segments

The routes of one method form a tree. An edge is a segment; a node counts the wildcards on the
way to it, may carry a route, and has branches, which are kept in the order in which they are
tried: literals first, in descending order, so that a longer one comes before its beginnings;
then wildcards with an expression, in the order of registration; then the plain wildcard.

* `Branches` — the branches below a node, each with all that is below it.
* `Branches.find?`, `Branches.modify` — the first branch whose edge is as wanted.
* `Branches.edges_insert` — where a new branch is put.
* `Node.at?`, `Node.modifyAt` — the node that a list of segments leads to.
-/

namespace Routing

variable [Regex.Engine]

inductive Edge where
  | literal (id : Text)
  | regex (name : Text) (constraint : Constraint)
  | wildcard (name : Text)
  deriving DecidableEq

namespace Edge

/-- The segment the edge was made from. -/
def segment : Edge → Segment
  | literal id => .literal id
  | regex name c => .regex name c.raw
  | wildcard name => .wildcard name

def id : Edge → Text
  | literal id => id
  | regex name _ => name
  | wildcard name => name

/-- How many slots of parameters the edge needs. -/
def width : Edge → Nat
  | literal _ => 0
  | regex _ _ | wildcard _ => 1

/-- Among the branches of a node, `new` is put before the first edge that it precedes. -/
def precedes (new old : Edge) : Bool :=
  match new, old with
  | literal a, literal b => b < a
  | literal _, _ => true
  | regex _ _, wildcard _ => true
  | _, _ => false

/-- The edge was made from this segment. -/
def madeFrom (s : Segment) (e : Edge) : Bool := e.segment = s

/-- The edge takes this segment: a literal leads along the same literal or along a wildcard that
takes its text, and a wildcard along itself only. -/
def takes (s : Segment) (e : Edge) : Bool :=
  match s, e with
  | .literal text, literal id => id = text
  | .literal text, regex _ c => c.accepts text
  | .literal _, wildcard _ => true
  | s, e => e.segment = s

end Edge

/-- Branches side by side, each with its edge, the node it leads to, and what is below that. -/
inductive Branches (ρ : Type) where
  | nil
  | cons (edge : Edge) (slots : Nat) (route : Option ρ) (below rest : Branches ρ)

/-- A node of a tree: how many wildcards are on the way to it, its route, and its branches. -/
structure Node (ρ : Type) where
  slots : Nat := 0
  route : Option ρ := none
  below : Branches ρ := .nil

namespace Branches

variable {ρ : Type}

/-- The node behind the first edge that is as wanted. -/
def find? (wanted : Edge → Bool) : Branches ρ → Option (Node ρ)
  | nil => none
  | cons edge slots route below rest =>
    if wanted edge then some ⟨slots, route, below⟩ else find? wanted rest

/-- Changes the node behind the first edge that is as wanted. -/
def modify (wanted : Edge → Bool) (change : Node ρ → Node ρ) : Branches ρ → Branches ρ
  | nil => nil
  | cons edge slots route below rest =>
    if wanted edge then
      let node := change ⟨slots, route, below⟩
      cons edge node.slots node.route node.below rest
    else cons edge slots route below (modify wanted change rest)

/-- Puts a new branch to its place among the others. -/
def insert (edge : Edge) (node : Node ρ) : Branches ρ → Branches ρ
  | nil => cons edge node.slots node.route node.below nil
  | cons edge' slots route below rest =>
    if edge.precedes edge' then
      cons edge node.slots node.route node.below (cons edge' slots route below rest)
    else cons edge' slots route below (insert edge node rest)

/-- The edges, in the order in which they are tried. -/
def edges : Branches ρ → List Edge
  | nil => []
  | cons edge _ _ _ rest => edge :: rest.edges

/-- The branches with the nodes they lead to. -/
def children : Branches ρ → List (Edge × Node ρ)
  | nil => []
  | cons edge slots route below rest => (edge, ⟨slots, route, below⟩) :: rest.children

theorem find?_eq_none_iff {wanted : Edge → Bool} {b : Branches ρ} :
    b.find? wanted = none ↔ ∀ e ∈ b.edges, wanted e = false := by
  induction b with
  | nil => simp [find?, edges]
  | cons edge slots route below rest _ ih =>
    by_cases h : wanted edge = true <;> simp [find?, edges, h, ih]

@[simp] theorem edges_modify (wanted : Edge → Bool) (change : Node ρ → Node ρ) (b : Branches ρ) :
    (b.modify wanted change).edges = b.edges := by
  induction b with
  | nil => rfl
  | cons edge slots route below rest _ ih =>
    by_cases h : wanted edge = true <;> simp [modify, edges, h, ih]

@[simp] theorem find?_modify (wanted : Edge → Bool) (change : Node ρ → Node ρ) (b : Branches ρ) :
    (b.modify wanted change).find? wanted = (b.find? wanted).map change := by
  induction b with
  | nil => rfl
  | cons edge slots route below rest _ ih =>
    by_cases h : wanted edge = true <;> simp [modify, find?, h, ih]

/-- What a change makes of the node that it reaches is all that matters. -/
theorem modify_congr {b : Branches ρ} {wanted : Edge → Bool} {c : Node ρ}
    (h : b.find? wanted = some c) {change change' : Node ρ → Node ρ} (hc : change c = change' c) :
    b.modify wanted change = b.modify wanted change' := by
  induction b with
  | nil => rfl
  | cons edge slots route below rest _ ih =>
    by_cases hw : wanted edge = true
    · have hhere : (⟨slots, route, below⟩ : Node ρ) = c := by simpa [find?, hw] using h
      simp [modify, hw, hhere, hc]
    · have hrest : rest.find? wanted = some c := by simpa [find?, hw] using h
      simp [modify, hw, ih hrest]

/-- A new edge stands before the first edge that it precedes. -/
theorem edges_insert (edge : Edge) (node : Node ρ) (b : Branches ρ) :
    (b.insert edge node).edges =
      b.edges.takeWhile (!edge.precedes ·) ++ edge :: b.edges.dropWhile (!edge.precedes ·) := by
  induction b with
  | nil => rfl
  | cons edge' slots route below rest _ ih =>
    by_cases h : edge.precedes edge' = true <;> simp [insert, edges, h, ih]

end Branches

namespace Node

variable {ρ : Type}

/-- The node that the segments lead to, if every one of them finds an edge it chooses. -/
def at? (choose : Segment → Edge → Bool) : List Segment → Node ρ → Option (Node ρ)
  | [], n => some n
  | s :: rest, n => (n.below.find? (choose s)).bind (at? choose rest)

/-- Changes the node that the segments lead to; without one nothing changes. -/
def modifyAt (choose : Segment → Edge → Bool) (change : Node ρ → Node ρ) :
    List Segment → Node ρ → Node ρ
  | [], n => change n
  | s :: rest, n =>
    { n with below := n.below.modify (choose s) (modifyAt choose change rest) }

/-- What a change leaves at the place it was made. -/
@[simp] theorem at?_modifyAt (choose : Segment → Edge → Bool) (change : Node ρ → Node ρ)
    (segments : List Segment) (n : Node ρ) :
    (n.modifyAt choose change segments).at? choose segments =
      (n.at? choose segments).map change := by
  induction segments generalizing n with
  | nil => rfl
  | cons s rest ih => cases h : n.below.find? (choose s) <;> simp [modifyAt, at?, h, ih]

/-- The node at the position of the segments. -/
def locate? (segments : List Segment) (n : Node ρ) : Option (Node ρ) :=
  n.at? Edge.madeFrom segments

/-- The node that the segments reach when literals are taken the way a path is. -/
def reach? (segments : List Segment) (n : Node ρ) : Option (Node ρ) :=
  n.at? Edge.takes segments

end Node

end Routing
