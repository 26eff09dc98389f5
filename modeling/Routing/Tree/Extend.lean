import Routing.Tree.Cache
import Routing.Tree.Spot

/-!
# Extending a tree in place

Segments are given a position in a tree that is changed where it stands. The edges made from them
are followed as far as there are any. New nodes are made for the segments that are left, and put
together apart from the tree, the last two first; what comes of it is added as one branch. The way
to the position is answered: the spots that were followed, the spot of the new branch, and the
spots below it, which were found from the last to the first.

* `Node.descend` — following segments as far as they lead.
* `Node.sproutIn`, `Node.hang` — the new nodes, and the branch they are put together to.
* `Extending` — what changes a tree and what has been read, until something is refused.
* `Node.extend` — the way to the position of the segments, and the tree that is left.
-/

namespace Routing

variable [Regex.Engine]

variable {ρ α : Type}

/-- A branch that is not there is added, unless another one stands in its way. -/
def Branches.add (new : Edge × Node ρ) (b : Branches ρ) : Except TreeError (Branches ρ × Spot) := do
  b.refuseConflict new.1
  return (b.insert new.1 new.2, b.spotFor new.1)

namespace Node

/-- How far segments lead. -/
structure Descent (ρ : Type) where
  way : List Spot
  node : Node ρ
  /-- The segments for which there is no branch. -/
  left : List Segment

theorem isSome_at?_of_spot? {b : Branches ρ} {s : Segment} {spot : Spot}
    (h : b.spot? s = some spot) : (b.at? spot).isSome := by
  obtain ⟨edge, child, hat, -⟩ := Branches.at?_of_spot? h
  simp [hat]

def descend : List Segment → Node ρ → Descent ρ
  | [], n => ⟨[], n, []⟩
  | s :: rest, n =>
    match h : n.below.spot? s with
    | none => ⟨[], n, s :: rest⟩
    | some spot =>
      let (_, child) := (n.below.at? spot).get (isSome_at?_of_spot? h)
      let ⟨way, node, left⟩ := descend rest child
      ⟨spot :: way, node, left⟩

/-- New nodes for segments one below the other, each with its edge and without branches. -/
def sproutIn (slots : Nat) : List Segment → Reading (List (Edge × Node ρ))
  | [] => return []
  | s :: rest => do
    let edge ← Edge.ofSegmentIn s
    let others ← sproutIn (slots + edge.width) rest
    return (edge, ⟨slots + edge.width, none, .nil⟩) :: others

/-- Adds the head to the first of the parents, what comes of it to the second, and so on. The spots
are told in this order, behind those that were told already. -/
def hang : List (Edge × Node ρ) → Edge × Node ρ → List Spot →
    Except TreeError ((Edge × Node ρ) × List Spot)
  | [], head, spots => .ok (head, spots)
  | (edge, parent) :: parents, head, spots => do
    let (below, spot) ← parent.below.add head
    hang parents (edge, { parent with below := below }) (spots ++ [spot])

end Node

/-! ## The tree that is extended -/

/-- A tree, and what has been read. -/
structure Ground (ρ : Type) where
  tree : Node ρ
  cache : Cache := {}

/-- What changes a tree, and reads expressions, until something is refused. -/
abbrev Extending (ρ α : Type) : Type := ExceptT TreeError (StateM (Ground ρ)) α

namespace Extending

def run (x : Extending ρ α) (ground : Ground ρ) : Except TreeError α × Ground ρ :=
  StateT.run (ExceptT.run x) ground

def reading (x : Reading α) : Extending ρ α := ExceptT.mk fun ground =>
  let (answer, cache) := StateT.run (ExceptT.run x) ground.cache
  (answer, { ground with cache := cache })

theorem run_pure (a : α) (ground : Ground ρ) : run (pure a) ground = (.ok a, ground) := rfl

theorem run_bind {β : Type} (x : Extending ρ α) (f : α → Extending ρ β) (ground : Ground ρ) :
    run (x >>= f) ground = match run x ground with
      | (.ok a, ground') => run (f a) ground'
      | (.error e, ground') => (.error e, ground') := by
  have hbind : ExceptT.run (x >>= f) = ExceptT.run x >>= ExceptT.bindCont f := rfl
  rw [run, hbind, StateT.run_bind, run]
  rcases StateT.run (ExceptT.run x) ground with ⟨_ | a, ground'⟩ <;> rfl

theorem run_get (ground : Ground ρ) : run get ground = (.ok ground, ground) := rfl

theorem run_modify (change : Ground ρ → Ground ρ) (ground : Ground ρ) :
    run (modify change) ground = (.ok (), change ground) := rfl

theorem run_ofExcept (y : Except TreeError α) (ground : Ground ρ) :
    run (MonadExcept.ofExcept y) ground = (y, ground) := by
  cases y <;> rfl

theorem run_reading {x : Reading α} {y : Except TreeError α} (h : x.Answers y)
    (ground : Ground ρ) :
    run (reading x) ground =
      (y, { ground with cache := (StateT.run (ExceptT.run x) ground.cache).2 }) := by
  rw [← h ground.cache]
  rfl

/-- Adds a branch to the node at the end of a way. -/
def attach (way : List Spot) (node : Node ρ) (new : Edge × Node ρ) : Extending ρ Spot := do
  let (below, spot) ← MonadExcept.ofExcept (node.below.add new)
  modify fun ground =>
    { ground with tree := ground.tree.changeAt (fun n => { n with below := below }) way }
  return spot

/-- The way to the position of the segments, which is made unless it is there. -/
def extend (segments : List Segment) : Extending ρ (List Spot) := do
  let ⟨way, node, left⟩ := (← get).tree.descend segments
  let sprouts ← reading (Node.sproutIn node.slots left)
  match sprouts.reverse with
  | [] => return way
  | last :: parents =>
    let (head, spots) ← MonadExcept.ofExcept (Node.hang parents last [])
    let spot ← attach way node head
    return way ++ spot :: spots.reverse

end Extending

/-- What extending the tree answers, and what it leaves. -/
def Node.extend (segments : List Segment) (n : Node ρ) (cache : Cache := {}) :
    Except TreeError (List Spot) × Ground ρ :=
  (Extending.extend segments).run ⟨n, cache⟩

end Routing
