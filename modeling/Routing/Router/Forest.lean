import Routing.Http.Method
import Routing.Serving.Route
import Routing.Tree.Growth
import Routing.Tree.Routes
import Routing.Tree.Walk

/-!
# Forests

The routes of a router: one tree for each method, in the order in which the methods came.

* `Forest.root?` — the tree of a method.
* `Forest.plant` — a forest that has a tree for the method.
* `Forest.root?_set`, `Forest.root?_plant` — the trees afterwards.
-/

namespace Routing

variable [Regex.Engine]

abbrev Tree := Node Route

/-- A root without routes. -/
def Tree.bare : Tree := ⟨0, none, .nil⟩

/-- The tree of a method. No edge leads to its root, but it is labelled as if a literal with the
name of the method did. -/
structure Root where
  method : Method
  label : Edge
  tree : Tree

namespace Root

def bare (m : Method) : Root := ⟨m, .literal m.name, .bare⟩

/-- The root with another tree. -/
def graft (root : Root) (tree : Tree) : Root := { root with tree := tree }

@[simp] theorem method_graft (root : Root) (tree : Tree) :
    (root.graft tree).method = root.method := rfl

@[simp] theorem tree_graft (root : Root) (tree : Tree) : (root.graft tree).tree = tree := rfl

end Root

structure Forest where
  roots : List Root := []

namespace Forest

def root? (f : Forest) (m : Method) : Option Tree :=
  (f.roots.find? fun root => root.method = m).map Root.tree

/-- The tree of a method; a method without one has an empty tree. -/
def root (f : Forest) (m : Method) : Tree := (f.root? m).getD .bare

/-- Adds an empty tree for the method unless it has one. -/
def plant (f : Forest) (m : Method) : Forest :=
  if (f.root? m).isSome then f else ⟨f.roots ++ [.bare m]⟩

/-- Puts a tree in the place of the one the method has. -/
def set (f : Forest) (m : Method) (tree : Tree) : Forest :=
  ⟨f.roots.map fun root => if root.method = m then root.graft tree else root⟩

def methods (f : Forest) : List Method := f.roots.map Root.method

/-- The route at the position of the segments in the tree of a method. -/
def route? (f : Forest) (m : Method) (segments : List Segment) : Option Route :=
  ((f.root? m).bind (·.locate? segments)).bind Node.route

def countRoutes (f : Forest) : Nat :=
  (f.roots.map fun root => root.tree.routes.length).foldr (· + ·) 0

theorem root?_set (f : Forest) (m m' : Method) (tree : Tree) :
    (f.set m tree).root? m' = if m' = m then (f.root? m).map fun _ => tree else f.root? m' := by
  obtain ⟨roots⟩ := f
  induction roots with
  | nil => simp [set, root?]
  | cons entry roots ih =>
    simp only [set, root?, List.map_cons, List.find?_cons] at ih ⊢
    by_cases h : entry.method = m
    · by_cases h' : m' = m
      · simp [h, h']
      · simp only [h, ↓reduceIte, Root.method_graft, Ne.symm h', decide_false, h']
        simpa [h'] using ih
    · by_cases h' : entry.method = m'
      · have : m' ≠ m := fun e => h (h'.trans e)
        simp [h', this]
      · simpa [h, h'] using ih

@[simp] theorem methods_set (f : Forest) (m : Method) (tree : Tree) :
    (f.set m tree).methods = f.methods := by
  simp only [methods, set, List.map_map]
  refine List.map_congr_left fun root _ => ?_
  by_cases h : root.method = m <;> simp [h]

theorem isSome_root? {f : Forest} {m : Method} : (f.root? m).isSome ↔ m ∈ f.methods := by
  simp [root?, methods]

theorem root?_plant (f : Forest) (m m' : Method) :
    (f.plant m).root? m' = if m' = m then some (f.root m) else f.root? m' := by
  unfold plant
  split
  · rename_i h
    split
    · rename_i h'
      obtain ⟨tree, ht⟩ := Option.isSome_iff_exists.1 h
      simp [root, h', ht]
    · rfl
  · rename_i h
    have hn : f.root? m = none := by simpa using h
    by_cases h' : m' = m
    · subst h'
      simp only [↓reduceIte, root, hn, Option.getD_none]
      simp only [root?, Option.map_eq_none_iff] at hn
      simp [root?, hn, Root.bare]
    · simp [root?, Root.bare, Ne.symm h', h']

@[simp] theorem root_plant (f : Forest) (m m' : Method) : (f.plant m).root m' = f.root m' := by
  by_cases h : m' = m <;> simp [root, root?_plant, h]

end Forest

end Routing
