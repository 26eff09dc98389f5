import Routing.Proofs.ByteOrder
import Routing.Proofs.Reachable

/-!
# Regular nodes

What every node of every router keeps to, said of its branches as they are stored.

* `Node.Regular` — in which order branches stand, how they are named, what they count, and where
  they end.
* `Node.Sound.regular` — the nodes of a sound tree are regular.
* `Router.Reachable.nodes_regular` — so are those of every router.
-/

namespace Routing

section

variable [Regex.Engine]

namespace Edge

def literal? : Edge → Option Text
  | literal id => some id
  | regex _ _ | wildcard _ => none

def expression? : Edge → Option Text
  | regex _ c => some c.raw
  | literal _ | wildcard _ => none

/-- Literals are tried before expressions, and those before the plain wildcard. -/
def rank : Edge → Nat
  | literal _ => 0
  | regex _ _ => 1
  | wildcard _ => 2

end Edge

namespace Branches

variable {ρ : Type}

def literals (b : Branches ρ) : List Text := b.edges.filterMap Edge.literal?

def expressions (b : Branches ρ) : List Text := b.edges.filterMap Edge.expression?

end Branches

/-- A node whose branches are kept as they are to be. -/
structure Node.Regular {ρ : Type} (n : Node ρ) : Prop where
  /-- Literals, expressions, and at most one plain wildcard, in this order. -/
  ranked : n.below.edges.Pairwise fun e e' => e.rank ≤ e'.rank ∧ e.rank < 2
  distinct : n.below.literals.Nodup
  /-- The bytes of later literals are smaller. -/
  descending : (n.below.literals.map Text.Utf8.encode).Pairwise fun a b => b < a
  literals : ∀ id ∈ n.below.literals, id ≠ [] ∧ '/' ∉ id ∧ '{' ∉ id ∧ '}' ∉ id
  expressions : n.below.expressions.Nodup
  names : ∀ e ∈ n.below.edges, e.literal? = none → e.id ≠ [] ∧ ':' ∉ e.id
  /-- A child counts one slot more if a wildcard leads to it. -/
  slots : ∀ c ∈ n.below.children, c.2.slots = n.slots + c.1.width
  ends : ∀ c ∈ n.below.children, c.2.below = .nil → c.2.route.isSome

/-! ## Edges whose segments may stand one before the other -/

namespace Edge

theorem rank_of_leads {e e' : Edge} (h : e.segment.Leads e'.segment) :
    e.rank ≤ e'.rank ∧ e.rank < 2 := by
  cases e <;> cases e' <;> first | exact h.elim | simp [rank]

theorem literal_of_leads {e e' : Edge} (h : e.segment.Leads e'.segment) {a b : Text}
    (ha : e.literal? = some a) (hb : e'.literal? = some b) : b < a := by
  cases e <;> cases ha
  cases e' <;> cases hb
  exact h

theorem expression_of_leads {e e' : Edge} (h : e.segment.Leads e'.segment) {a b : Text}
    (ha : e.expression? = some a) (hb : e'.expression? = some b) : a ≠ b := by
  cases e <;> cases ha
  cases e' <;> cases hb
  exact h

theorem literal_proper {e : Edge} (h : e.segment.Proper) {id : Text} (hid : e.literal? = some id) :
    id ≠ [] ∧ '/' ∉ id ∧ '{' ∉ id ∧ '}' ∉ id := by
  cases e <;> cases hid
  exact h

theorem name_proper {e : Edge} (h : e.segment.Proper) (hn : e.literal? = none) :
    e.id ≠ [] ∧ ':' ∉ e.id := by
  cases e with
  | literal id => cases hn
  | regex name c => exact ⟨h.1, h.2.1⟩
  | wildcard name => exact h

end Edge

namespace Branches

variable {ρ : Type}

/-- Where no two branches have one segment, every child is found by its own. -/
theorem find?_of_child {b : Branches ρ} (hn : b.segments.Nodup) {c : Edge × Node ρ}
    (h : c ∈ b.children) : b.find? (Edge.madeFrom c.1.segment) = some c.2 := by
  induction b with
  | nil => cases h
  | cons edge slots route below rest _ ih =>
    rcases List.mem_cons.1 h with rfl | h
    · simp [find?_madeFrom_cons]
    · exact find?_madeFrom_of_rest hn (ih (List.nodup_cons.1 hn).2 h)

/-- The node that is found is behind the first branch that is as wanted. -/
theorem find?_eq_children (b : Branches ρ) (wanted : Edge → Bool) :
    b.find? wanted = (b.children.find? (wanted ·.1)).map Prod.snd := by
  induction b with
  | nil => rfl
  | cons edge slots route below rest _ ih =>
    by_cases h : wanted edge = true <;> simp [find?, children, h, ih]

end Branches

namespace Node

variable {ρ : Type}

/-- Below every position of a sound tree there is a sound tree. -/
theorem Sound.locate? {n c : Node ρ} (hn : n.Sound) {position : List Segment}
    (h : n.locate? position = some c) : c.Sound := by
  induction position generalizing n with
  | nil => cases h; exact hn
  | cons s position ih =>
    rw [locate?_cons] at h
    obtain ⟨d, hd, hc⟩ := Option.bind_eq_some_iff.1 h
    exact ih (hn.child hd) hc

/-- **A sound tree has a regular root.** -/
theorem Sound.regular {n : Node ρ} (hn : n.Sound) : n.Regular := by
  have hleads : n.below.edges.Pairwise fun e e' => e.segment.Leads e'.segment := by
    rw [← List.pairwise_map]
    exact hn.ordered []
  have hliterals : n.below.literals.Pairwise fun a b => b < a :=
    List.pairwise_filterMap.2 (hleads.imp fun h _ ha _ hb => Edge.literal_of_leads h ha hb)
  have hproper : ∀ e ∈ n.below.edges, e.segment.Proper := fun e he =>
    hn.proper [] e.segment (List.mem_map_of_mem he)
  refine ⟨hleads.imp Edge.rank_of_leads, ?_, ?_, fun id hid => ?_, ?_, fun e he hl => ?_,
    fun c hc => ?_, fun c hc hb => ?_⟩
  · refine hliterals.imp fun {a b} h => ?_
    rintro rfl
    exact List.lt_irrefl a h
  · exact List.pairwise_map.2 (hliterals.imp Text.Utf8.encode_lt_encode)
  · obtain ⟨e, he, hid⟩ := List.mem_filterMap.1 hid
    exact Edge.literal_proper (hproper e he) hid
  · exact List.pairwise_filterMap.2
      (hleads.imp fun h _ ha _ hb => Edge.expression_of_leads h ha hb)
  · exact Edge.name_proper (hproper e he) hl
  · have hf := Branches.find?_of_child (hn.nodup []) hc
    have hs := hn.counted [c.1.segment] c.2.label (by simp [labelAt?_cons, hf])
    rw [Edge.width_eq]
    exact hs
  · have hf := Branches.find?_of_child (hn.nodup []) hc
    exact hn.bearing_below.ends c.1.segment c.2 hf hb

end Node

theorem Router.Reachable.sound_node {r : Router} (h : r.Reachable) {m : Method} {n : Tree}
    (hn : n ∈ (r.forest.root m).nodes) : n.Sound := by
  obtain ⟨position, hposition⟩ := (h.sound.root m).mem_nodes_iff.1 hn
  exact (h.sound.root m).locate? hposition

/-- **Every node of every router is regular.** Each method has one tree, whose root is labelled
with its name and counts no slots. -/
theorem Router.Reachable.nodes_regular {r : Router} (h : r.Reachable) :
    r.forest.methods.Nodup ∧ ∀ root ∈ r.forest.roots,
      root.label = .literal root.method.name ∧ root.tree.slots = 0 ∧
        ∀ n ∈ root.tree.nodes, n.Regular := by
  have hsound := h.sound
  refine ⟨hsound.methods, fun root hroot => ?_⟩
  obtain ⟨hlabel, hslots, htree⟩ := hsound.roots root hroot
  refine ⟨hlabel, hslots, fun n hn => ?_⟩
  obtain ⟨position, hp⟩ := htree.mem_nodes_iff.1 hn
  exact (htree.locate? hp).regular

end

open Regex.Standard

theorem Router.nodes_regular_sample :
    (sample.forest.roots.map fun root => root.tree.nodes.length) = [4] ∧
      sample.forest.methods.Nodup ∧ ∀ root ∈ sample.forest.roots,
        root.label = .literal root.method.name ∧ root.tree.slots = 0 ∧
          ∀ n ∈ root.tree.nodes, n.Regular :=
  ⟨by decide, reachable_sample.nodes_regular⟩

end Routing
