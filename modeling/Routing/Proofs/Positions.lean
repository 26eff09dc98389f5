import Routing.Outcome
import Routing.Proofs.Siblings
import Routing.Tree.Traverse

/-!
# Trees by position

A position is the list of segments that leads to a node. What a tree holds at its positions says
all there is to say about it: growing it, and putting a route somewhere, are described by what
they do to the label at each position.

* `Node.labelAt?` — the slots, the route and the branches at a position.
* `Node.labelAt?_grow` — a grown tree has the old labels, with one more branch each on the way.
* `Node.labelAt?_put` — putting a route changes the label at its position.
* `Node.labelAt?_mapRoutes` — changing all routes changes nothing else.
-/

namespace Routing

open Segment (Before)

theorem Pattern.wildcards_append (a b : List Segment) :
    Pattern.wildcards (a ++ b) = Pattern.wildcards a + Pattern.wildcards b :=
  List.countP_append

theorem Pattern.wildcards_cons (s : Segment) (rest : List Segment) :
    Pattern.wildcards (s :: rest) = Pattern.wildcards [s] + Pattern.wildcards rest :=
  Pattern.wildcards_append [s] rest

variable [Regex.Engine]

theorem Edge.segment_injective {e e' : Edge} (h : e.segment = e'.segment) : e = e' := by
  cases e <;> cases e' <;> simp only [Edge.segment, reduceCtorEq, Segment.literal.injEq,
    Segment.wildcard.injEq, Segment.regex.injEq] at h
  · rw [h]
  · obtain ⟨hn, hr⟩ := h
    rw [hn, Constraint.ext hr]
  · rw [h]

theorem Edge.precedes_iff (e e' : Edge) : e.precedes e' = true ↔ e.segment.Before e'.segment := by
  cases e <;> cases e' <;> simp [Edge.precedes, Edge.segment, Segment.Before]

theorem Edge.width_eq (e : Edge) : e.width = Pattern.wildcards [e.segment] := by
  cases e <;> rfl

/-- The expression of the segment, if it has one, can be read. -/
def Segment.Readable (s : Segment) : Prop := ∃ e, Edge.ofSegment s = .ok e

theorem Edge.segment_ofSegment {s : Segment} {e : Edge} (h : Edge.ofSegment s = .ok e) :
    e.segment = s := by
  cases s with
  | literal text => cases h; rfl
  | wildcard name => cases h; rfl
  | regex name raw =>
    simp only [Edge.ofSegment] at h
    split at h
    · rename_i c hc
      cases h
      rw [Edge.segment, Constraint.raw_ofRaw? hc]
    · cases h

theorem Edge.ofSegment_segment (e : Edge) : Edge.ofSegment e.segment = .ok e := by
  cases e with
  | literal id => rfl
  | wildcard name => rfl
  | regex name c => simp [Edge.segment, Edge.ofSegment, Constraint.ofRaw?_raw]

/-- A new edge is refused for the sake of the edges whose segments clash with its own. -/
theorem Edge.conflict?_eq_none_iff {new old : Edge} (h : new.segment ≠ old.segment) :
    new.conflict? old = none ↔ ¬ new.segment.Clashes old.segment := by
  cases new <;> cases old <;>
    simp only [Edge.segment, Edge.conflict?, Segment.Clashes, ne_eq, Segment.regex.injEq,
      Segment.wildcard.injEq, reduceCtorEq, not_false_eq_true] at h ⊢
  · split <;> grind
  · simpa using h

namespace Branches

variable {ρ : Type}

/-- The branches by their segments. -/
def segments (b : Branches ρ) : List Segment := b.edges.map Edge.segment

@[simp] theorem segments_nil : (nil : Branches ρ).segments = [] := rfl

@[simp] theorem segments_cons (edge : Edge) (slots : Nat) (route : Option ρ)
    (below rest : Branches ρ) :
    (cons edge slots route below rest).segments = edge.segment :: rest.segments := rfl

@[simp] theorem segments_modify (wanted : Edge → Bool) (change : Node ρ → Node ρ)
    (b : Branches ρ) : (b.modify wanted change).segments = b.segments := by
  simp [segments]

theorem segments_eq_nil_iff {b : Branches ρ} : b.segments = [] ↔ b = nil := by
  cases b <;> simp

theorem segments_insert (edge : Edge) (node : Node ρ) (b : Branches ρ) :
    (b.insert edge node).segments = b.segments.orderedInsert Before edge.segment := by
  induction b with
  | nil => rfl
  | cons edge' slots route below rest _ ih =>
    by_cases h : edge.precedes edge' = true
    · have hb := (edge.precedes_iff edge').1 h
      simp [insert, h, hb]
    · have hb : ¬ edge.segment.Before edge'.segment := fun hb => h ((edge.precedes_iff edge').2 hb)
      simp [insert, h, hb, ih]

theorem find?_madeFrom_eq_none_iff {s : Segment} {b : Branches ρ} :
    b.find? (Edge.madeFrom s) = none ↔ s ∉ b.segments := by
  simp only [find?_eq_none_iff, Edge.madeFrom, decide_eq_false_iff_not, segments, List.mem_map,
    not_exists, not_and]

theorem mem_segments_of_find? {b : Branches ρ} {s : Segment} {c : Node ρ}
    (h : b.find? (Edge.madeFrom s) = some c) : s ∈ b.segments := by
  by_contra hm
  rw [find?_madeFrom_eq_none_iff.2 hm] at h
  cases h

theorem find?_madeFrom_modify (s t : Segment) (change : Node ρ → Node ρ) (b : Branches ρ) :
    (b.modify (Edge.madeFrom s) change).find? (Edge.madeFrom t) =
      if t = s then (b.find? (Edge.madeFrom t)).map change else b.find? (Edge.madeFrom t) := by
  by_cases hts : t = s
  · subst hts
    simp
  · rw [if_neg hts]
    induction b with
    | nil => rfl
    | cons edge slots route below rest _ ih =>
      by_cases hs : edge.segment = s
      · have ht : edge.segment ≠ t := fun h => hts (h.symm.trans hs)
        simp [modify, find?, Edge.madeFrom, hs, Ne.symm hts]
      · by_cases ht : edge.segment = t
        · simp [modify, find?, Edge.madeFrom, ht, hts]
        · simpa [modify, find?, Edge.madeFrom, hs, ht] using ih

theorem find?_madeFrom_insert (edge : Edge) (node : Node ρ) (b : Branches ρ) (t : Segment)
    (h : edge.segment ∉ b.segments) :
    (b.insert edge node).find? (Edge.madeFrom t) =
      if t = edge.segment then some node else b.find? (Edge.madeFrom t) := by
  induction b with
  | nil => simp [insert, find?, Edge.madeFrom, eq_comm]
  | cons edge' slots route below rest _ ih =>
    simp only [segments_cons, List.mem_cons, not_or] at h
    by_cases hp : edge.precedes edge' = true
    · by_cases ht : t = edge.segment
      · simp [insert, hp, find?, Edge.madeFrom, ht]
      · simp [insert, hp, find?, Edge.madeFrom, ht, Ne.symm ht]
    · by_cases ht : edge'.segment = t
      · subst ht
        simp [insert, hp, find?, Edge.madeFrom, Ne.symm h.1]
      · simpa [insert, hp, find?, Edge.madeFrom, ht] using ih h.2

/-- The edge that leads on from a node where a segment leads. -/
theorem exists_edge {s : Segment} {b : Branches ρ} (h : s ∈ b.segments) :
    ∃ e ∈ b.edges, e.segment = s := by
  simpa [segments] using h

theorem refuseConflict_eq_ok_iff {b : Branches ρ} {new : Edge} (h : new.segment ∉ b.segments) :
    b.refuseConflict new = .ok () ↔ ∀ s ∈ b.segments, ¬ new.segment.Clashes s := by
  have hne : ∀ e ∈ b.edges, new.segment ≠ e.segment := fun e he hs =>
    h (by rw [hs]; exact List.mem_map_of_mem he)
  have hiff : b.refuseConflict new = .ok () ↔ b.edges.findSome? new.conflict? = none := by
    unfold refuseConflict
    cases b.edges.findSome? new.conflict? <;> simp
  rw [hiff, List.findSome?_eq_none_iff]
  simp only [segments, List.forall_mem_map]
  exact forall₂_congr fun e he => Edge.conflict?_eq_none_iff (hne e he)

end Branches

/-- What there is to say about a node, apart from what is below its branches. -/
structure Label (ρ : Type) where
  slots : Nat
  route : Option ρ
  branches : List Segment

/-- The label with a branch for the segment, if there is one. -/
def Label.grow {ρ : Type} (l : Label ρ) (s : Option Segment) : Label ρ :=
  { l with branches := seatAll Before l.branches s.toList }

namespace Node

variable {ρ σ : Type}

def label (n : Node ρ) : Label ρ := ⟨n.slots, n.route, n.below.segments⟩

/-- The label of the node at a position. -/
def labelAt? (n : Node ρ) (position : List Segment) : Option (Label ρ) :=
  (n.locate? position).map label

/-- The route at a position. -/
def routeAt (n : Node ρ) (position : List Segment) : Option ρ :=
  (n.labelAt? position).bind Label.route

/-- The branches at a position, none where there is no node. -/
def branchesAt (n : Node ρ) (position : List Segment) : List Segment :=
  ((n.labelAt? position).map Label.branches).getD []

@[simp] theorem locate?_nil (n : Node ρ) : n.locate? [] = some n := rfl

theorem locate?_cons (n : Node ρ) (s : Segment) (position : List Segment) :
    n.locate? (s :: position) = (n.below.find? (Edge.madeFrom s)).bind (locate? position) := rfl

theorem locate?_append (n : Node ρ) (position rest : List Segment) :
    n.locate? (position ++ rest) = (n.locate? position).bind (locate? rest) := by
  induction position generalizing n with
  | nil => rfl
  | cons s position ih =>
    simp only [List.cons_append, locate?_cons, Option.bind_assoc]
    exact congrArg _ (funext ih)

@[simp] theorem labelAt?_nil (n : Node ρ) : n.labelAt? [] = some n.label := rfl

theorem labelAt?_cons (n : Node ρ) (s : Segment) (position : List Segment) :
    n.labelAt? (s :: position) =
      (n.below.find? (Edge.madeFrom s)).bind (labelAt? · position) := by
  simp [labelAt?, locate?_cons, Option.map_bind]

theorem routeAt_eq (n : Node ρ) (position : List Segment) :
    n.routeAt position = (n.locate? position).bind route := by
  simp [routeAt, labelAt?, Option.bind_map, Function.comp_def, label]

/-- A segment that leads on from a position leads to a node. -/
theorem mem_branchesAt_iff {n : Node ρ} {position : List Segment} {s : Segment} :
    s ∈ n.branchesAt position ↔ (n.locate? (position ++ [s])).isSome := by
  unfold branchesAt labelAt?
  rw [locate?_append]
  cases n.locate? position with
  | none => simp
  | some c =>
    have hn := (Branches.find?_madeFrom_eq_none_iff (s := s) (b := c.below)).not
    simp only [Option.map_some, label, Option.getD_some, Option.bind_some, locate?_cons]
    cases hf : c.below.find? (Edge.madeFrom s) with
    | none => simpa [hf] using hn
    | some d => simpa [hf] using hn

/-- A branch that was just made holds the way along the segments and nothing else. -/
theorem labelAt?_shoot {slots : Nat} {segments : List Segment} {b : Branches ρ}
    (h : Branches.shoot slots segments = .ok b) (route : Option ρ) (position : List Segment) :
    (⟨slots, route, b⟩ : Node ρ).labelAt? position =
      if position <+: segments then
        some ⟨slots + Pattern.wildcards position, if position = [] then route else none,
          (next? position segments).toList⟩
      else none := by
  induction segments generalizing slots b route position with
  | nil =>
    cases h
    cases position with
    | nil => simp [label, Pattern.wildcards]
    | cons p position => simp [labelAt?_cons, Branches.find?]
  | cons s rest ih =>
    simp only [Branches.shoot, bind_eq_ok_iff, pure_eq_ok_iff] at h
    obtain ⟨edge, he, below, hb, rfl⟩ := h
    have hs := Edge.segment_ofSegment he
    cases position with
    | nil => simp [label, hs, Pattern.wildcards]
    | cons p position =>
      by_cases hp : p = s
      · subst hp
        have hw : edge.width + Pattern.wildcards position = Pattern.wildcards (p :: position) := by
          rw [edge.width_eq, hs, ← Pattern.wildcards_cons]
        simp [labelAt?_cons, Branches.find?, Edge.madeFrom, hs, ih hb, Nat.add_assoc, hw]
      · simp [labelAt?_cons, Branches.find?, Edge.madeFrom, hs, hp, Ne.symm hp]

/-- Every node counts the wildcards on the way to it. -/
def Counted (n : Node ρ) : Prop :=
  ∀ position l, n.labelAt? position = some l → l.slots = n.slots + Pattern.wildcards position

theorem Counted.child {n c : Node ρ} {s : Segment} (h : n.Counted)
    (hf : n.below.find? (Edge.madeFrom s) = some c) :
    c.Counted ∧ ∀ position, c.slots + Pattern.wildcards position =
      n.slots + Pattern.wildcards (s :: position) := by
  have hs : c.slots = n.slots + Pattern.wildcards [s] :=
    h [s] c.label (by simp [labelAt?_cons, hf])
  have hw (position : List Segment) : c.slots + Pattern.wildcards position =
      n.slots + Pattern.wildcards (s :: position) := by
    rw [hs, Nat.add_assoc, ← Pattern.wildcards_cons]
  refine ⟨fun position l hl => ?_, hw⟩
  rw [hw position]
  exact h (s :: position) l (by simpa [labelAt?_cons, hf] using hl)

/-- A tree that grew did so below a branch that it had, or by a new one. -/
theorem grow_cons_cases {s : Segment} {rest : List Segment} {n n' : Node ρ}
    (h : n.grow (s :: rest) = .ok n') :
    (∃ child child', n.below.find? (Edge.madeFrom s) = some child ∧ child.grow rest = .ok child' ∧
      n' = { n with below := n.below.modify (Edge.madeFrom s) fun _ => child' }) ∨
    ∃ edge below, s ∉ n.below.segments ∧ edge.segment = s ∧
      Branches.shoot (n.slots + edge.width) rest = .ok below ∧
      n' = { n with below := n.below.insert edge ⟨n.slots + edge.width, none, below⟩ } := by
  simp only [grow] at h
  cases hf : n.below.find? (Edge.madeFrom s) with
  | some child =>
    simp only [hf, bind_eq_ok_iff, pure_eq_ok_iff] at h
    obtain ⟨child', hg, rfl⟩ := h
    exact Or.inl ⟨child, child', rfl, hg, rfl⟩
  | none =>
    simp only [hf, bind_eq_ok_iff, pure_eq_ok_iff] at h
    obtain ⟨edge, he, below, hb, -, -, rfl⟩ := h
    exact Or.inr ⟨edge, below, Branches.find?_madeFrom_eq_none_iff.1 hf, Edge.segment_ofSegment he,
      hb, rfl⟩

/-- **A grown tree has the old labels, with one more branch each on the way.** Where there was no
node on the way there is one without a route. -/
theorem labelAt?_grow {segments : List Segment} {n n' : Node ρ} (hn : n.Counted)
    (h : n.grow segments = .ok n') (position : List Segment) :
    n'.labelAt? position =
      match n.labelAt? position with
      | some l => some (l.grow (next? position segments))
      | none =>
        if position <+: segments then
          some ⟨n.slots + Pattern.wildcards position, none, (next? position segments).toList⟩
        else none := by
  induction segments generalizing n n' position with
  | nil =>
    cases h
    cases position with
    | nil => simp [Label.grow]
    | cons p position => cases n.labelAt? (p :: position) <;> simp [Label.grow]
  | cons s rest ih =>
    rcases grow_cons_cases h with ⟨child, child', hf, hg, rfl⟩ | ⟨edge, below, hm, hs, hb, rfl⟩
    · cases position with
      | nil =>
        have hs : s ∈ n.below.segments := Branches.mem_segments_of_find? hf
        simp [label, Label.grow, seat_of_mem Before hs]
      | cons p position =>
        rw [labelAt?_cons, labelAt?_cons, Branches.find?_madeFrom_modify]
        by_cases hp : p = s
        · subst hp
          obtain ⟨hc, hw⟩ := hn.child hf
          simp [hf, ih hc hg, hw]
        · simp only [hp, ↓reduceIte, next?_cons_cons, List.cons_prefix_cons, false_and]
          cases (n.below.find? (Edge.madeFrom p)).bind (labelAt? · position) <;>
            simp [Label.grow]
    · cases position with
      | nil =>
        simp [label, Label.grow, Branches.segments_insert, hs, seat_of_not_mem Before hm]
      | cons p position =>
        rw [labelAt?_cons, labelAt?_cons,
          Branches.find?_madeFrom_insert _ _ _ _ (by rwa [hs]), hs]
        by_cases hp : p = s
        · subst hp
          have hf := Branches.find?_madeFrom_eq_none_iff.2 hm
          have hw : n.slots + edge.width + Pattern.wildcards position =
              n.slots + Pattern.wildcards (p :: position) := by
            rw [edge.width_eq, hs, Nat.add_assoc, ← Pattern.wildcards_cons]
          simp [hf, labelAt?_shoot hb, hw]
        · simp only [hp, ↓reduceIte, next?_cons_cons, List.cons_prefix_cons, false_and]
          cases (n.below.find? (Edge.madeFrom p)).bind (labelAt? · position) <;>
            simp [Label.grow]

/-- Puts a route to a position. -/
def put (segments : List Segment) (r : ρ) (n : Node ρ) : Node ρ :=
  n.modifyAt Edge.madeFrom (fun n => { n with route := some r }) segments

theorem labelAt?_put (segments : List Segment) (r : ρ) (n : Node ρ) (position : List Segment) :
    (n.put segments r).labelAt? position =
      (n.labelAt? position).map fun l =>
        if position = segments then { l with route := some r } else l := by
  induction segments generalizing n position with
  | nil =>
    cases position with
    | nil => rfl
    | cons p position => simp [put, modifyAt, labelAt?_cons]
  | cons s rest ih =>
    have hput : n.put (s :: rest) r =
        { n with below := n.below.modify (Edge.madeFrom s) (put rest r) } := rfl
    cases position with
    | nil => simp [hput, label]
    | cons p position =>
      rw [labelAt?_cons, labelAt?_cons, hput, Branches.find?_madeFrom_modify]
      by_cases hp : p = s
      · subst hp
        cases n.below.find? (Edge.madeFrom p) <;> simp [ih]
      · simp [hp]

@[simp] theorem branchesAt_put (segments : List Segment) (r : ρ) (n : Node ρ)
    (position : List Segment) :
    (n.put segments r).branchesAt position = n.branchesAt position := by
  unfold branchesAt
  rw [labelAt?_put]
  cases n.labelAt? position with
  | none => rfl
  | some l => by_cases h : position = segments <;> simp [h]

end Node

def Label.map {ρ σ : Type} (change : ρ → σ) (l : Label ρ) : Label σ :=
  ⟨l.slots, l.route.map change, l.branches⟩

namespace Branches

variable {ρ σ : Type}

@[simp] theorem segments_mapRoutes (change : ρ → σ) (b : Branches ρ) :
    (b.mapRoutes change).segments = b.segments := by
  induction b with
  | nil => rfl
  | cons edge slots route below rest _ ih => simp [mapRoutes, ih]

theorem find?_mapRoutes (wanted : Edge → Bool) (change : ρ → σ) (b : Branches ρ) :
    (b.mapRoutes change).find? wanted = (b.find? wanted).map (Node.mapRoutes change) := by
  induction b with
  | nil => rfl
  | cons edge slots route below rest _ ih =>
    by_cases h : wanted edge = true
    · simp [mapRoutes, find?, h, Node.mapRoutes]
    · simp [mapRoutes, find?, h, ih]

theorem mapRoutes_modify {wanted : Edge → Bool} {shape : ρ → σ} {change : Node ρ → Node ρ}
    (h : ∀ n, (change n).mapRoutes shape = n.mapRoutes shape) (b : Branches ρ) :
    (b.modify wanted change).mapRoutes shape = b.mapRoutes shape := by
  induction b with
  | nil => rfl
  | cons edge slots route below rest _ ih =>
    by_cases hw : wanted edge = true
    · have hn := h ⟨slots, route, below⟩
      simp only [Node.mapRoutes, Node.mk.injEq] at hn
      simp [modify, hw, mapRoutes, hn]
    · simp [modify, hw, mapRoutes, ih]

end Branches

namespace Node

variable {ρ σ : Type}

theorem labelAt?_mapRoutes (change : ρ → σ) (n : Node ρ) (position : List Segment) :
    (n.mapRoutes change).labelAt? position = (n.labelAt? position).map (Label.map change) := by
  induction position generalizing n with
  | nil => simp [label, mapRoutes, Label.map]
  | cons s position ih =>
    simp only [labelAt?_cons, mapRoutes, Branches.find?_mapRoutes, Option.bind_map,
      Option.map_bind]
    exact congrArg _ (funext ih)

@[simp] theorem branchesAt_mapRoutes (change : ρ → σ) (n : Node ρ) (position : List Segment) :
    (n.mapRoutes change).branchesAt position = n.branchesAt position := by
  unfold branchesAt
  rw [labelAt?_mapRoutes]
  cases n.labelAt? position <;> rfl

/-- A change of routes below some segments, however they were followed, leaves the rest of the
tree as it is. -/
theorem mapRoutes_modifyAt {choose : Segment → Edge → Bool} {shape : ρ → σ}
    {change : Node ρ → Node ρ} (h : ∀ n, (change n).mapRoutes shape = n.mapRoutes shape)
    (segments : List Segment) (n : Node ρ) :
    (n.modifyAt choose change segments).mapRoutes shape = n.mapRoutes shape := by
  induction segments generalizing n with
  | nil => exact h n
  | cons s rest ih => simp [modifyAt, mapRoutes, Branches.mapRoutes_modify ih]

end Node

end Routing
