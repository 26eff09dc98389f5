import Routing.Proofs.Regularity
import Routing.Tree.Walk

/-!
# Walks

A walk goes from node to node, every time along the first branch that takes the text ahead, and
it never comes back. What it went past spells the path: one text for each segment, with a slash or
nothing before it.

* `Node.Walks`, `Node.walk?_eq_some_iff` — walks as a relation between a path and an arrival.
* `Constraint.Admits` — an expression admits a text.
* `Instance`, `Spells` — a segment with a text that stands for it, and the paths that instances
  spell.
* `Node.Walks.exists_spells` — a walk spells its path and captures what its wildcards stand for.
* `Node.Walks.locate?`, `Node.Walks.params` — it ends at the position of its segments, with a
  parameter for each wildcard.
-/

namespace Routing

variable [Regex.Engine]

/-! ## Walks as a relation -/

/-- The arrival of a walk that took an edge to a node with this many slots before. -/
def Arrival.behind {ρ : Type} (arrival : Arrival ρ) (edge : Edge) (slots : Nat)
    (part : Option Text) : Arrival ρ :=
  ⟨arrival.node, edge.segment :: arrival.segments,
    (part.toList.map fun part => ⟨slots - 1, edge.id, part⟩) ++ arrival.captures⟩

namespace Branches

variable {ρ : Type}

/-- The first branch that takes the text ahead has this edge and leads to this node. -/
def Follows (b : Branches ρ) (ahead : Text) (edge : Edge) (child : Node ρ) (a : Advance) : Prop :=
  ∃ before after, b.children = before ++ (edge, child) :: after ∧
    edge.advance? ahead = some a ∧ ∀ c ∈ before, c.1.advance? ahead = none

theorem Follows.mem_children {b : Branches ρ} {ahead : Text} {edge : Edge} {child : Node ρ}
    {a : Advance} (h : b.Follows ahead edge child a) : (edge, child) ∈ b.children := by
  obtain ⟨before, after, hsplit, -⟩ := h
  rw [hsplit]
  exact List.mem_append_right before List.mem_cons_self

theorem not_follows_nil {ahead : Text} {edge : Edge} {child : Node ρ} {a : Advance} :
    ¬ (nil : Branches ρ).Follows ahead edge child a := by
  intro h
  exact absurd h.mem_children List.not_mem_nil

theorem follows_cons_of_some {edge : Edge} {slots : Nat} {route : Option ρ}
    {below rest : Branches ρ} {ahead : Text} {a : Advance} (h : edge.advance? ahead = some a)
    {edge' : Edge} {child : Node ρ} {a' : Advance} :
    (cons edge slots route below rest).Follows ahead edge' child a' ↔
      edge' = edge ∧ child = ⟨slots, route, below⟩ ∧ a' = a := by
  constructor
  · rintro ⟨before, after, hsplit, hedge, hbefore⟩
    cases before with
    | nil =>
      simp only [children, List.nil_append, List.cons.injEq, Prod.mk.injEq] at hsplit
      obtain ⟨⟨rfl, rfl⟩, -⟩ := hsplit
      exact ⟨rfl, rfl, Option.some.inj (hedge.symm.trans h)⟩
    | cons first before =>
      simp only [children, List.cons_append, List.cons.injEq] at hsplit
      obtain ⟨rfl, -⟩ := hsplit
      have hnone := hbefore _ List.mem_cons_self
      rw [h] at hnone
      cases hnone
  · rintro ⟨rfl, rfl, rfl⟩
    exact ⟨[], rest.children, rfl, h, by simp⟩

theorem follows_cons_of_none {edge : Edge} {slots : Nat} {route : Option ρ}
    {below rest : Branches ρ} {ahead : Text} (h : edge.advance? ahead = none)
    {edge' : Edge} {child : Node ρ} {a : Advance} :
    (cons edge slots route below rest).Follows ahead edge' child a ↔
      rest.Follows ahead edge' child a := by
  constructor
  · rintro ⟨before, after, hsplit, hedge, hbefore⟩
    cases before with
    | nil =>
      simp only [children, List.nil_append, List.cons.injEq, Prod.mk.injEq] at hsplit
      obtain ⟨⟨rfl, -⟩, -⟩ := hsplit
      rw [h] at hedge
      cases hedge
    | cons first before =>
      simp only [children, List.cons_append, List.cons.injEq] at hsplit
      exact ⟨before, after, hsplit.2, hedge, fun c hc => hbefore c (List.mem_cons_of_mem first hc)⟩
  · rintro ⟨before, after, hsplit, hedge, hbefore⟩
    refine ⟨(edge, ⟨slots, route, below⟩) :: before, after, ?_, hedge, ?_⟩
    · rw [children, hsplit, List.cons_append]
    · exact List.forall_mem_cons.2 ⟨h, hbefore⟩

theorem walk?_cons_of_some {edge : Edge} {slots : Nat} {route : Option ρ} {below rest : Branches ρ}
    {ahead : Text} {a : Advance} (h : edge.advance? ahead = some a) :
    (cons edge slots route below rest).walk? ahead =
      ((⟨slots, route, below⟩ : Node ρ).walk? a.rest).map (·.behind edge slots a.part) := by
  simp only [walk?, h, Node.walk?]
  split <;> simp [Arrival.behind]

/-- A walk goes on below the branch that it follows. -/
theorem walk?_of_follows {b : Branches ρ} {ahead : Text} {edge : Edge} {child : Node ρ}
    {a : Advance} (h : b.Follows ahead edge child a) :
    b.walk? ahead = (child.walk? a.rest).map (·.behind edge child.slots a.part) := by
  induction b with
  | nil => exact absurd h not_follows_nil
  | cons edge' slots route below rest _ ih =>
    cases hedge : edge'.advance? ahead with
    | none =>
      simp only [walk?, hedge]
      exact ih ((follows_cons_of_none hedge).1 h)
    | some a' =>
      obtain ⟨rfl, rfl, rfl⟩ := (follows_cons_of_some hedge).1 h
      exact walk?_cons_of_some hedge

/-- It goes on nowhere else. -/
theorem walk?_eq_some_iff {b : Branches ρ} {ahead : Text} {arrival : Arrival ρ} :
    b.walk? ahead = some arrival ↔ ∃ edge child a last, b.Follows ahead edge child a ∧
      child.walk? a.rest = some last ∧ arrival = last.behind edge child.slots a.part := by
  induction b with
  | nil =>
    constructor
    · intro h
      cases h
    · rintro ⟨edge, child, a, last, hfollows, -⟩
      exact absurd hfollows not_follows_nil
  | cons edge slots route below rest _ ih =>
    cases h : edge.advance? ahead with
    | none => simp only [walk?, h, follows_cons_of_none h, ih]
    | some a =>
      rw [walk?_cons_of_some h, Option.map_eq_some_iff]
      constructor
      · rintro ⟨last, hlast, rfl⟩
        exact ⟨edge, ⟨slots, route, below⟩, a, last,
          (follows_cons_of_some h).2 ⟨rfl, rfl, rfl⟩, hlast, rfl⟩
      · rintro ⟨edge', child, a', last, hfollows, hlast, rfl⟩
        obtain ⟨rfl, rfl, rfl⟩ := (follows_cons_of_some h).1 hfollows
        exact ⟨last, hlast, rfl⟩

/-- Where no branch takes what is ahead there is no walk. -/
theorem walk?_eq_none {b : Branches ρ} {ahead : Text}
    (h : ∀ c ∈ b.children, c.1.advance? ahead = none) : b.walk? ahead = none := by
  rw [Option.eq_none_iff_forall_not_mem]
  intro arrival harrival
  obtain ⟨edge, child, a, last, hfollows, -⟩ := walk?_eq_some_iff.1 harrival
  have hnone := h _ hfollows.mem_children
  obtain ⟨before, after, -, hedge, -⟩ := hfollows
  rw [hedge] at hnone
  cases hnone

end Branches

namespace Node

variable {ρ : Type}

/-- The walks below a node. -/
inductive Walks : Node ρ → Text → Arrival ρ → Prop where
  | stop {n : Node ρ} {path : Text} : skipSlash path = [] → Walks n path ⟨n, [], []⟩
  | go {n child : Node ρ} {path : Text} {edge : Edge} {a : Advance} {last : Arrival ρ} :
      skipSlash path ≠ [] → n.below.Follows (skipSlash path) edge child a →
        Walks child a.rest last → Walks n path (last.behind edge child.slots a.part)

theorem walk?_of_stop {n : Node ρ} {path : Text} (h : skipSlash path = []) :
    n.walk? path = some ⟨n, [], []⟩ := by
  simp only [walk?, h]

theorem walk?_of_go {n : Node ρ} {path : Text} (h : skipSlash path ≠ []) :
    n.walk? path = n.below.walk? (skipSlash path) := by
  unfold walk?
  split
  · rename_i hstop
    exact absurd hstop h
  · rfl

/-- **Walking finds the walk that there is.** -/
theorem walk?_eq_some_iff {n : Node ρ} {path : Text} {arrival : Arrival ρ} :
    n.walk? path = some arrival ↔ n.Walks path arrival := by
  constructor
  · intro h
    -- Every edge that was followed left its segment behind.
    induction hs : arrival.segments generalizing n path arrival with
    | nil =>
      by_cases hstop : skipSlash path = []
      · rw [walk?_of_stop hstop] at h
        cases h
        exact .stop hstop
      · rw [walk?_of_go hstop, Branches.walk?_eq_some_iff] at h
        obtain ⟨edge, child, a, last, -, -, rfl⟩ := h
        cases hs
    | cons s segments ih =>
      by_cases hstop : skipSlash path = []
      · rw [walk?_of_stop hstop] at h
        cases h
        cases hs
      · rw [walk?_of_go hstop, Branches.walk?_eq_some_iff] at h
        obtain ⟨edge, child, a, last, hfollows, hlast, rfl⟩ := h
        exact .go hstop hfollows (ih hlast (List.cons.inj hs).2)
  · intro h
    induction h with
    | stop hstop => exact walk?_of_stop hstop
    | go hgo hfollows _ ih =>
      rw [walk?_of_go hgo, Branches.walk?_eq_some_iff]
      exact ⟨_, _, _, _, hfollows, ih, rfl⟩

end Node

/-! ## What a walk goes past -/

/-- The expression can be read and accepts the text. -/
def Constraint.Admits (raw text : Text) : Prop :=
  ∃ c, ofRaw? raw = some c ∧ c.accepts text = true

theorem Constraint.admits_raw {c : Constraint} {text : Text} :
    Admits c.raw text ↔ c.accepts text = true := by
  simp [Admits, c.ofRaw?_raw]

/-- What follows a part of a path: a slash, or nothing. -/
def Boundary (rest : Text) : Prop := rest = [] ∨ ∃ more, rest = '/' :: more

/-- A segment with a text that stands for it in a path. -/
structure Instance where
  segment : Segment
  text : Text
  deriving DecidableEq, Repr

namespace Instance

/-- A literal stands for itself, and a wildcard for some text without a slash. -/
def Plain (i : Instance) : Prop :=
  match i.segment with
  | .literal id => i.text = id
  | .wildcard _ | .regex _ _ => i.text ≠ [] ∧ '/' ∉ i.text

instance : DecidablePred Plain
  | ⟨.literal id, text⟩ => inferInstanceAs (Decidable (text = id))
  | ⟨.wildcard _, text⟩ | ⟨.regex _ _, text⟩ =>
    inferInstanceAs (Decidable (text ≠ [] ∧ '/' ∉ text))

omit [Regex.Engine] in
theorem Plain.text_ne_nil {i : Instance} (h : i.Plain) (hproper : i.segment.Proper) :
    i.text ≠ [] := by
  obtain ⟨segment, text⟩ := i
  cases segment with
  | literal id =>
    obtain rfl : text = id := h
    exact hproper.1
  | regex name raw => exact h.1
  | wildcard name => exact h.1

omit [Regex.Engine] in
theorem Plain.not_mem_text {i : Instance} (h : i.Plain) (hproper : i.segment.Proper) :
    '/' ∉ i.text := by
  obtain ⟨segment, text⟩ := i
  cases segment with
  | literal id =>
    obtain rfl : text = id := h
    exact hproper.2.1
  | regex name raw => exact h.2
  | wildcard name => exact h.2

/-- The expression of the segment, if it has one, accepts the text. -/
def Accepted (i : Instance) : Prop :=
  match i.segment with
  | .literal _ | .wildcard _ => True
  | .regex _ raw => Constraint.Admits raw i.text

/-- What a wildcard binds to its name. -/
def binding? (i : Instance) : Option Param :=
  match i.segment with
  | .literal _ => none
  | .wildcard name | .regex name _ => some ⟨name, i.text⟩

/-- The instance may stand in a path before `rest`. -/
structure Fits (i : Instance) (rest : Text) : Prop where
  plain : i.Plain
  accepted : i.Accepted
  /-- A wildcard goes on to the next slash or to the end of the path. -/
  whole : i.segment.isWildcard = true → Boundary rest

/-- The bindings of the wildcards, in their order. -/
def bindings (is : List Instance) : Params := ⟨is.filterMap binding?⟩

end Instance

/-- The paths that instances spell: at most one slash before each of them and one at the end. -/
inductive Spells : List Instance → Text → Prop where
  | nil {gap : Text} : gap = [] ∨ gap = ['/'] → Spells [] gap
  | cons {gap rest : Text} {i : Instance} {is : List Instance} : gap = [] ∨ gap = ['/'] →
      i.Fits rest → Spells is rest → Spells (i :: is) (gap ++ i.text ++ rest)

omit [Regex.Engine] in
theorem exists_gap (path : Text) :
    ∃ gap, (gap = [] ∨ gap = ['/']) ∧ path = gap ++ skipSlash path := by
  unfold skipSlash
  split
  · exact ⟨['/'], Or.inr rfl, rfl⟩
  · exact ⟨[], Or.inl rfl, rfl⟩

omit [Regex.Engine] in
/-- The next part of a path goes on to the next slash or to the end. -/
theorem nextPart?_eq_some_iff {path part rest : Text} :
    nextPart? path = some (part, rest) ↔
      path = part ++ rest ∧ part ≠ [] ∧ '/' ∉ part ∧ Boundary rest := by
  constructor
  · intro h
    unfold nextPart? at h
    split at h
    · cases h
    · rename_i hne
      cases h
      refine ⟨List.takeWhile_append_dropWhile.symm, hne, fun hm => ?_, ?_⟩
      · simpa using List.all_eq_true.1 (List.all_takeWhile (p := (· != '/'))) '/' hm
      · cases hd : path.dropWhile (· != '/') with
        | nil => exact Or.inl rfl
        | cons c more =>
          have hc := List.head_dropWhile_not (· != '/') (l := path) (by simp [hd])
          simp only [hd, List.head_cons, bne_eq_false_iff_eq] at hc
          exact Or.inr ⟨more, by rw [hc]⟩
  · rintro ⟨rfl, hne, hslash, hrest⟩
    have hpart : ∀ c ∈ part, (c != '/') = true := by
      intro c hc
      exact bne_iff_ne.2 (ne_of_mem_of_not_mem hc hslash)
    have htake : (part ++ rest).takeWhile (· != '/') = part := by
      rw [List.takeWhile_append_of_pos hpart]
      rcases hrest with rfl | ⟨more, rfl⟩ <;> simp
    have hdrop : (part ++ rest).dropWhile (· != '/') = rest := by
      rw [List.dropWhile_append_of_pos hpart]
      rcases hrest with rfl | ⟨more, rfl⟩ <;> simp
    unfold nextPart?
    rw [htake, hdrop]
    split
    · exact absurd rfl hne
    · rfl

/-- **An edge takes a text that its segment may stand for.** -/
theorem Edge.exists_instance {edge : Edge} {ahead : Text} {a : Advance}
    (h : edge.advance? ahead = some a) :
    ∃ i : Instance, i.segment = edge.segment ∧ ahead = i.text ++ a.rest ∧ i.Fits a.rest ∧
      i.binding? = a.part.map (⟨edge.id, ·⟩) := by
  cases edge with
  | literal id =>
    obtain ⟨rest, hrest, rfl⟩ := Option.map_eq_some_iff.1 h
    refine ⟨⟨.literal id, id⟩, rfl, Text.dropOpening?_eq_some_iff.1 hrest, ?_, rfl⟩
    exact ⟨rfl, trivial, fun hw => by cases hw⟩
  | regex name c =>
    obtain ⟨⟨part, rest⟩, hpart, haccepts⟩ := Option.bind_eq_some_iff.1 h
    obtain ⟨hahead, hne, hslash, hrest⟩ := nextPart?_eq_some_iff.1 hpart
    simp only [Option.ite_none_right_eq_some, Option.some.injEq] at haccepts
    obtain ⟨haccepts, rfl⟩ := haccepts
    refine ⟨⟨.regex name c.raw, part⟩, rfl, hahead, ?_, rfl⟩
    exact ⟨⟨hne, hslash⟩, Constraint.admits_raw.2 haccepts, fun _ => hrest⟩
  | wildcard name =>
    obtain ⟨⟨part, rest⟩, hpart, rfl⟩ := Option.map_eq_some_iff.1 h
    obtain ⟨hahead, hne, hslash, hrest⟩ := nextPart?_eq_some_iff.1 hpart
    refine ⟨⟨.wildcard name, part⟩, rfl, hahead, ?_, rfl⟩
    exact ⟨⟨hne, hslash⟩, trivial, fun _ => hrest⟩

/-- An edge captures a text if and only if it needs a slot for it. -/
theorem Edge.length_part {edge : Edge} {ahead : Text} {a : Advance}
    (h : edge.advance? ahead = some a) : a.part.toList.length = edge.width := by
  cases edge with
  | literal id =>
    obtain ⟨rest, -, rfl⟩ := Option.map_eq_some_iff.1 h
    rfl
  | regex name c =>
    obtain ⟨⟨part, rest⟩, -, haccepts⟩ := Option.bind_eq_some_iff.1 h
    simp only [Option.ite_none_right_eq_some, Option.some.injEq] at haccepts
    obtain ⟨-, rfl⟩ := haccepts
    rfl
  | wildcard name =>
    obtain ⟨⟨part, rest⟩, -, rfl⟩ := Option.map_eq_some_iff.1 h
    rfl

namespace Node

variable {ρ : Type}

/-- **A walk spells its path**, and it captures what its wildcards stand for. -/
theorem Walks.exists_spells {n : Node ρ} {path : Text} {arrival : Arrival ρ}
    (h : n.Walks path arrival) :
    ∃ is, Spells is path ∧ is.map Instance.segment = arrival.segments ∧
      is.filterMap Instance.binding? = arrival.captures.map Capture.param := by
  induction h with
  | @stop n path hstop =>
    obtain ⟨gap, hgap, hpath⟩ := exists_gap path
    rw [hstop, List.append_nil] at hpath
    exact ⟨[], hpath ▸ .nil hgap, rfl, rfl⟩
  | @go n child path edge a last hgo hfollows hlast ih =>
    obtain ⟨is, hspells, hsegments, hbindings⟩ := ih
    obtain ⟨gap, hgap, hpath⟩ := exists_gap path
    obtain ⟨before, after, -, hedge, -⟩ := hfollows
    obtain ⟨i, hsegment, hahead, hfits, hbinding⟩ := edge.exists_instance hedge
    refine ⟨i :: is, ?_, ?_, ?_⟩
    · rw [hpath, hahead, ← List.append_assoc]
      exact .cons hgap hfits hspells
    · simp [hsegment, hsegments, Arrival.behind]
    · cases hpart : a.part <;>
        simp [hbinding, hbindings, hpart, Arrival.behind]

/-! ## Where a walk ends -/

/-- The node behind a branch is the one at its segment. -/
theorem Sound.find?_of_follows {n child : Node ρ} (hn : n.Sound) {ahead : Text} {edge : Edge}
    {a : Advance} (h : n.below.Follows ahead edge child a) :
    n.below.find? (Edge.madeFrom edge.segment) = some child :=
  Branches.find?_of_child (hn.nodup []) h.mem_children

/-- **A walk ends at the position of its segments.** -/
theorem Walks.locate? {n : Node ρ} (hn : n.Sound) {path : Text} {arrival : Arrival ρ}
    (h : n.Walks path arrival) : n.locate? arrival.segments = some arrival.node := by
  induction h with
  | stop hstop => rfl
  | go hgo hfollows hlast ih =>
    have hfind := hn.find?_of_follows hfollows
    rw [Arrival.behind, locate?_cons, hfind, Option.bind_some]
    exact ih (hn.child hfind)

/-- The captures are for the slots from the first to the last one below the node. -/
theorem Walks.slots {n : Node ρ} (hn : n.Sound) {path : Text} {arrival : Arrival ρ}
    (h : n.Walks path arrival) :
    arrival.captures.map Capture.slot = List.range' n.slots arrival.captures.length ∧
      arrival.node.slots = n.slots + arrival.captures.length := by
  induction h with
  | stop hstop => exact ⟨rfl, rfl⟩
  | @go n child path edge a last hgo hfollows hlast ih =>
    obtain ⟨hslots, hend⟩ := ih (hn.child (hn.find?_of_follows hfollows))
    have hchild : child.slots = n.slots + edge.width :=
      hn.regular.slots (edge, child) hfollows.mem_children
    obtain ⟨before, after, -, hedge, -⟩ := hfollows
    have hwidth := edge.length_part hedge
    simp only [Arrival.behind]
    cases hpart : a.part with
    | none =>
      rw [hpart] at hwidth
      have hsame : child.slots = n.slots := by rw [hchild, ← hwidth]; rfl
      rw [hsame] at hslots hend
      exact ⟨hslots, hend⟩
    | some part =>
      rw [hpart] at hwidth
      have hnext : child.slots = n.slots + 1 := by rw [hchild, ← hwidth]; rfl
      rw [hnext] at hslots hend
      constructor
      · simp [hnext, hslots, List.range'_succ]
      · simp only [Option.toList_some, List.map_cons, List.map_nil, List.cons_append,
          List.nil_append, List.length_cons, hend]
        omega

/-- **From a root every wildcard gets its parameter.** -/
theorem Walks.params {n : Node ρ} (hn : n.Sound) (hroot : n.slots = 0) {path : Text}
    {arrival : Arrival ρ} (h : n.Walks path arrival) :
    arrival.params = ⟨arrival.captures.map Capture.param⟩ := by
  obtain ⟨hslots, hend⟩ := h.slots hn
  rw [hroot] at hslots
  rw [hroot, Nat.zero_add] at hend
  rw [Arrival.params, hend]
  exact Params.fill_eq hslots

end Node

end Routing
