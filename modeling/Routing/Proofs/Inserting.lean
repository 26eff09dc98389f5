import Routing.Proofs.Regularity

/-!
# One path is inserted

Extending a node along some segments either leaves all below it as it was, or adds the nodes on the
way of the segments that were not there, and nothing else. What was there before keeps its kind, its
name, its slots, its route and its place among its neighbours.

* `Branches.heads` — branches without what is below them.
* `Node.Inserts` — what one more path comes to.
* `Node.grow_inserts` — growing a node inserts the path of its segments.
* `Router.Reachable.inserts_path` — so does extending a node of any router.
-/

namespace Routing

section

variable [Regex.Engine]

variable {ρ : Type}

namespace Branches

/-- The branches without what is below them: the edges, with the slots and the route of the nodes
behind them. -/
def heads (b : Branches ρ) : List (Edge × Nat × Option ρ) :=
  b.children.map fun (edge, c) => (edge, c.slots, c.route)

theorem heads_modify {wanted : Edge → Bool} {change : Node ρ → Node ρ} {b : Branches ρ}
    {c : Node ρ} (hf : b.find? wanted = some c) (hslots : (change c).slots = c.slots)
    (hroute : (change c).route = c.route) : (b.modify wanted change).heads = b.heads := by
  induction b with
  | nil => rfl
  | cons edge slots route below rest _ ih =>
    by_cases h : wanted edge = true
    · obtain rfl : (⟨slots, route, below⟩ : Node ρ) = c := by simpa [find?, h] using hf
      simp [modify, h, heads, children, hslots, hroute]
    · have hrest : rest.find? wanted = some c := by simpa [find?, h] using hf
      simpa [modify, h, heads, children] using ih hrest

theorem heads_insert (edge : Edge) (node : Node ρ) (b : Branches ρ) :
    b.heads.Sublist (b.insert edge node).heads := by
  induction b with
  | nil => simp [heads, children]
  | cons edge' slots route below rest _ ih =>
    by_cases h : edge.precedes edge' = true
    · rw [insert, if_pos h]
      exact List.sublist_cons_self _ _
    · rw [insert, if_neg h]
      exact ih.cons_cons _

end Branches

namespace Node

/-- The node `c'` is what has become of `c`. -/
structure Keeps (c c' : Node ρ) : Prop where
  slots : c'.slots = c.slots
  route : c'.route = c.route
  /-- Its branches still have their edges, slots and routes, and stand in the same order. -/
  heads : c.below.heads.Sublist c'.below.heads

/-- The path of the segments was inserted below `n`, which became `n'` then, and `way` leads to its
end. -/
structure Inserts (n : Node ρ) (segments : List Segment) (way : List Spot) (n' : Node ρ) :
    Prop where
  positions : ∀ position,
    (n'.locate? position).isSome ↔ (n.locate? position).isSome ∨ position <+: segments
  old : ∀ position c, n.locate? position = some c →
    ∃ c', n'.locate? position = some c' ∧ c.Keeps c'
  new : ∀ position c', n.locate? position = none → n'.locate? position = some c' →
    c'.slots = n.slots + Pattern.wildcards position ∧ c'.route = none
  /-- The way is that on which the segments are found. -/
  found : n'.wayTo? segments = some way
  leaf : ∃ c, n'.follow? way = some c ∧ n'.locate? segments = some c ∧
    c.slots = n.slots + Pattern.wildcards segments
  /-- The same segments lead to the same node then, and leave everything as it is. -/
  again : ∀ cache, n'.extend segments cache = (.ok way, ⟨n', cache⟩)

theorem Keeps.refl (c : Node ρ) : c.Keeps c := ⟨rfl, rfl, List.Sublist.refl _⟩

/-- Nothing that is there changes when a node grows. -/
theorem keeps_grow {segments : List Segment} {n n' : Node ρ} (h : n.grow segments = .ok n')
    {position : List Segment} {c : Node ρ} (hc : n.locate? position = some c) :
    ∃ c', n'.locate? position = some c' ∧ c.Keeps c' := by
  induction segments generalizing n n' position c with
  | nil =>
    cases h
    exact ⟨c, hc, .refl c⟩
  | cons s rest ih =>
    rcases grow_cons_cases h with ⟨child, child', hf, hg, rfl⟩ | ⟨edge, below, hm, rfl, hb, rfl⟩
    · cases position with
      | nil =>
        cases hc
        obtain ⟨_, hchild, hkeeps⟩ := ih hg (locate?_nil child)
        cases hchild
        refine ⟨_, rfl, rfl, rfl, ?_⟩
        rw [Branches.heads_modify hf hkeeps.slots hkeeps.route]
      | cons p position =>
        rw [locate?_cons, Option.bind_eq_some_iff] at hc
        obtain ⟨d, hd, hc⟩ := hc
        simp only [locate?_cons, Branches.find?_madeFrom_modify]
        by_cases hp : p = s
        · subst hp
          cases hf.symm.trans hd
          simpa [hf] using ih hg hc
        · exact ⟨c, by simpa [hp, hd] using hc, .refl c⟩
    · cases position with
      | nil =>
        cases hc
        exact ⟨_, rfl, rfl, rfl, Branches.heads_insert edge _ _⟩
      | cons p position =>
        rw [locate?_cons, Option.bind_eq_some_iff] at hc
        obtain ⟨d, hd, hc⟩ := hc
        have hp : p ≠ edge.segment := by
          rintro rfl
          exact hm (Branches.mem_segments_of_find? hd)
        refine ⟨c, ?_, .refl c⟩
        rw [locate?_cons, Branches.find?_madeFrom_insert _ _ _ _ hm, if_neg hp, hd]
        exact hc

/-- **Growing a node inserts the path of the segments**, and the way that is found to its end is
found again. -/
theorem inserts_grow {segments : List Segment} {n n' : Node ρ} {way : List Spot} (hn : n.Counted)
    (h : n.grow segments = .ok n') (hway : n'.wayTo? segments = some way) :
    n.Inserts segments way n' where
  positions position := by
    have hlabel (n : Node ρ) : (n.locate? position).isSome = (n.labelAt? position).isSome := by
      rw [labelAt?, Option.isSome_map]
    rw [hlabel, hlabel, labelAt?_grow hn h]
    cases n.labelAt? position <;> simp
  old position c hc := keeps_grow h hc
  new position c' hnone hc' := by
    have hl : n'.labelAt? position = some c'.label := by rw [labelAt?, hc', Option.map_some]
    have hlnone : n.labelAt? position = none := by rw [labelAt?, hnone, Option.map_none]
    rw [labelAt?_grow hn h, hlnone] at hl
    simp only [Option.ite_none_right_eq_some, Option.some.injEq] at hl
    obtain ⟨-, hl⟩ := hl
    exact ⟨congrArg Label.slots hl.symm, congrArg Label.route hl.symm⟩
  found := hway
  leaf := by
    obtain ⟨l, hl⟩ := Option.isSome_iff_exists.1 (locate?_grow hn h)
    obtain ⟨c, hc, rfl⟩ := Option.map_eq_some_iff.1 hl
    refine ⟨c, (follow?_of_wayTo? hway).trans hc, hc, ?_⟩
    rw [← slots_grow h hn]
    exact counted_grow hn h segments c.label hl
  again cache := extend_of_wayTo? hway cache

/-- What extending a node along some segments answers and leaves: all as it was, or one more
path. -/
structure Extends (n : Node ρ) (segments : List Segment) (answer : Except TreeError (List Spot))
    (n' : Node ρ) : Prop where
  granted : (∃ way, answer = .ok way) ↔ n.Admits segments
  refused : ∀ e, answer = .error e → n' = n
  inserted : ∀ way, answer = .ok way → n.Inserts segments way n'

/-- **Extending a sound node inserts one path or nothing.** -/
theorem Sound.extends {n : Node ρ} (hn : n.Sound) (segments : List Segment) (cache : Cache) :
    n.Extends segments (n.extend segments cache).1 (n.extend segments cache).2.tree := by
  rcases extend_cases hn.ordered segments cache with
    ⟨e, cache', hgrow, hextend⟩ | ⟨n', way, cache', hgrow, hextend, hway⟩
  · rw [hextend]
    refine ⟨?_, fun _ _ => rfl, fun way hok => ?_⟩
    · rw [← hn.grow_isOk_iff, hgrow]
      simp
    · cases hok
  · rw [hextend]
    refine ⟨?_, fun e herror => ?_, fun way' hok => ?_⟩
    · rw [← hn.grow_isOk_iff, hgrow]
      simp
    · cases herror
    · cases hok
      exact inserts_grow hn.counted hgrow hway

end Node

namespace Router

/-- **Extending a node of a router inserts one path or nothing**, whatever has been read. -/
theorem Reachable.inserts_path {r : Router} (h : r.Reachable) {m : Method} {n : Tree}
    (hn : n ∈ (r.forest.root m).nodes) (segments : List Segment) (cache : Cache) :
    n.Extends segments (n.extend segments cache).1 (n.extend segments cache).2.tree := by
  have hsound : n.Sound := h.sound_node hn
  exact hsound.extends segments cache

end Router

end

namespace Router

open Regex.Standard

/-- Below `/{x}` the sample has a `b`, and `/a/{n:[0-9]}` goes behind it. At its root `/{y}` clashes
with `/{x}`. -/
theorem inserts_path_sample :
    let root := sample.forest.root .get
    let free := [.literal ['a'], .regex ['n'] ['[', '0', '-', '9', ']']]
    let way := [⟨.literal, 1⟩, ⟨.regex, 0⟩]
    let clashing := [.wildcard ['y']]
    sample.Reachable ∧ root ∈ root.nodes ∧
      (root.extend clashing).1 = .error (.duplicateWildcard ['x'] ['y']) ∧
      root.Extends clashing (root.extend clashing).1 (root.extend clashing).2.tree ∧
      ∃ n ∈ root.nodes, root.locate? [.wildcard ['x']] = some n ∧
        (n.extend free).1 = .ok way ∧
        n.Extends free (n.extend free).1 (n.extend free).2.tree := by
  intro root free way clashing
  have hroot : root ∈ root.nodes := List.mem_cons_self
  obtain ⟨n, hn⟩ : ∃ n, root.locate? [.wildcard ['x']] = some n := ⟨_, rfl⟩
  have hmem : n ∈ root.nodes := ((reachable_sample.sound.root .get).mem_nodes_iff).2 ⟨_, hn⟩
  refine ⟨reachable_sample, hroot, rfl, reachable_sample.inserts_path hroot clashing {}, n, hmem, hn,
    ?_, reachable_sample.inserts_path hmem free {}⟩
  cases hn
  rfl

end Router

end Routing
