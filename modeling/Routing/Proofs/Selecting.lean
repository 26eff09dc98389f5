import Routing.Proofs.Aiming
import Routing.Proofs.Walking

/-!
# The branch that is selected

A walk selects the first branch that takes the text ahead. Among the literals of a node that begin
the text this is the longest one, in whatever order they came: literals stand in descending order,
and of two beginnings of one text the longer is the greater.

* `Branches.select?` — the branch that is selected, and what it takes.
* `Branches.walk?_eq_select?` — a walk goes on behind it.
* `Branches.chosen?_eq_some_iff` — which literal is selected, told by the literals alone.
* `Router.Reachable.selects_longest` — selecting at the nodes of a router.
-/

namespace Routing

section

variable [Regex.Engine]

/-- A branch, the node behind it, and what its edge takes. -/
structure Selection (ρ : Type) where
  edge : Edge
  child : Node ρ
  advance : Advance

namespace Branches

variable {ρ : Type}

/-- The first branch that takes the text ahead. -/
def select? : Branches ρ → Text → Option (Selection ρ)
  | nil, _ => none
  | cons edge slots route below rest, ahead =>
    match edge.advance? ahead with
    | some a => some ⟨edge, ⟨slots, route, below⟩, a⟩
    | none => rest.select? ahead

/-- The literal that is selected, and the text behind it. -/
def chosen? (b : Branches ρ) (ahead : Text) : Option (Text × Text) :=
  (b.select? ahead).bind fun s => s.edge.literal?.map (·, s.advance.rest)

theorem select?_eq_some_iff {b : Branches ρ} {ahead : Text} {s : Selection ρ} :
    b.select? ahead = some s ↔ b.Follows ahead s.edge s.child s.advance := by
  induction b with
  | nil => simp [select?, not_follows_nil]
  | cons edge slots route below rest _ ih =>
    cases h : edge.advance? ahead with
    | none => simp only [select?, h, ih, follows_cons_of_none h]
    | some a =>
      obtain ⟨edge', child, a'⟩ := s
      simp only [select?, h, follows_cons_of_some h, Option.some.injEq, Selection.mk.injEq]
      constructor
      · rintro ⟨rfl, rfl, rfl⟩
        exact ⟨rfl, rfl, rfl⟩
      · rintro ⟨rfl, rfl, rfl⟩
        exact ⟨rfl, rfl, rfl⟩

/-- **A walk goes on behind the branch that is selected.** -/
theorem walk?_eq_select? (b : Branches ρ) (ahead : Text) :
    b.walk? ahead = (b.select? ahead).bind fun s =>
      (s.child.walk? s.advance.rest).map (·.behind s.edge s.child.slots s.advance.part) := by
  induction b with
  | nil => rfl
  | cons edge slots route below rest _ ih =>
    cases h : edge.advance? ahead with
    | none => simp only [walk?, select?, h, ih]
    | some a => simp only [walk?_cons_of_some h, select?, h, Option.bind_some]

/-! ## Literals that begin a text -/

/-- A literal takes the text that it begins. -/
theorem advance?_literal_eq_some_iff {id ahead : Text} {a : Advance} :
    (Edge.literal id).advance? ahead = some a ↔ a.part = none ∧ ahead = id ++ a.rest := by
  obtain ⟨part, rest⟩ := a
  simp only [Edge.advance?, Option.map_eq_some_iff, Text.dropOpening?_eq_some_iff,
    Advance.mk.injEq]
  constructor
  · rintro ⟨rest, hahead, rfl, rfl⟩
    exact ⟨rfl, hahead⟩
  · rintro ⟨rfl, hahead⟩
    exact ⟨rest, hahead, rfl, rfl⟩

theorem advance?_literal_of_prefix {id ahead : Text} (h : id <+: ahead) :
    ∃ a, (Edge.literal id).advance? ahead = some a := by
  obtain ⟨rest, rfl⟩ := h
  exact ⟨⟨none, rest⟩, advance?_literal_eq_some_iff.2 ⟨rfl, rfl⟩⟩

theorem mem_literals_iff {b : Branches ρ} {id : Text} :
    id ∈ b.literals ↔ .literal id ∈ b.segments := by
  simp only [literals, segments, List.mem_filterMap, List.mem_map]
  refine exists_congr fun e => and_congr_right fun _ => ?_
  cases e <;> simp [Edge.literal?, Edge.segment]

omit [Regex.Engine] in
/-- Of two literals that begin one text, the one that stands first goes on from the other. -/
theorem prefix_of_leads {id id' ahead : Text}
    (h : Segment.Leads (.literal id) (.literal id')) (hid : id <+: ahead) (hid' : id' <+: ahead) :
    id' <+: id := by
  have hlt : id' < id := h
  rcases List.prefix_or_prefix_of_prefix hid hid' with hlonger | hshorter
  · exact absurd hlt (List.not_lt.2 (List.IsPrefix.le hlonger))
  · exact hshorter

variable {b : Branches ρ} {ahead : Text}

/-- **What is selected is the longest.** No literal before it begins the text, and those behind it
that do are beginnings of it. -/
theorem prefix_of_select? (hb : b.segments.Pairwise Segment.Leads) {s : Selection ρ}
    (hs : b.select? ahead = some s) {id id' : Text} (hedge : s.edge = .literal id)
    (hid' : id' ∈ b.literals) (hbegins : id' <+: ahead) : id' <+: id := by
  obtain ⟨before, after, hsplit, hadvance, hbefore⟩ := select?_eq_some_iff.1 hs
  rw [hedge, advance?_literal_eq_some_iff] at hadvance
  have hid : id <+: ahead := ⟨_, hadvance.2.symm⟩
  rw [segments_eq_children, hsplit, hedge, List.map_append, List.map_cons] at hb
  rw [mem_literals_iff, segments_eq_children, hsplit, hedge, List.map_append, List.map_cons,
    List.mem_append, List.mem_cons] at hid'
  rcases hid' with hearlier | hsame | hlater
  · obtain ⟨⟨edge, child⟩, hmem, heq⟩ := List.mem_map.1 hearlier
    obtain rfl : edge = .literal id' := Edge.segment_injective heq
    obtain ⟨a, ha⟩ := advance?_literal_of_prefix hbegins
    have hnone := hbefore _ hmem
    rw [ha] at hnone
    cases hnone
  · obtain rfl : id' = id := Segment.literal.inj hsame
    exact List.prefix_refl id'
  · have hleads := (List.pairwise_cons.1 (List.pairwise_append.1 hb).2.1).1 _ hlater
    exact prefix_of_leads hleads hid hbegins

/-- **A literal that begins the text is not passed over for a wildcard.** -/
theorem exists_select? (hb : b.segments.Pairwise Segment.Leads) {id : Text}
    (hid : id ∈ b.literals) (hbegins : id <+: ahead) :
    ∃ s longest, b.select? ahead = some s ∧ s.edge = .literal longest := by
  induction b with
  | nil => cases hid
  | cons edge slots route below others _ ih =>
    obtain ⟨hleads, hothers⟩ := List.pairwise_cons.1 hb
    cases hadvance : edge.advance? ahead with
    | none =>
      -- The literal takes the text, so it is one of the others.
      have hlater : id ∈ others.literals := by
        rw [mem_literals_iff] at hid ⊢
        rcases List.mem_cons.1 hid with hsame | hlater
        · obtain rfl : Edge.literal id = edge := Edge.segment_injective hsame
          obtain ⟨a, ha⟩ := advance?_literal_of_prefix hbegins
          rw [ha] at hadvance
          cases hadvance
        · exact hlater
      obtain ⟨s, longest, hs, hedge⟩ := ih hothers hlater
      exact ⟨s, longest, by simpa only [select?, hadvance] using hs, hedge⟩
    | some a =>
      refine ⟨⟨edge, ⟨slots, route, below⟩, a⟩, ?_⟩
      cases edge with
      | literal longest => exact ⟨longest, by simp only [select?, hadvance], rfl⟩
      | regex name c =>
        rcases List.mem_cons.1 (mem_literals_iff.1 hid) with hsame | hlater
        · cases hsame
        · exact (hleads _ hlater).elim
      | wildcard name =>
        rcases List.mem_cons.1 (mem_literals_iff.1 hid) with hsame | hlater
        · cases hsame
        · exact (hleads _ hlater).elim

theorem mem_literals_of_select? {s : Selection ρ} (hs : b.select? ahead = some s) {id : Text}
    (hedge : s.edge = .literal id) : id ∈ b.literals := by
  have hmem := (select?_eq_some_iff.1 hs).mem_children
  rw [mem_literals_iff]
  rw [hedge] at hmem
  exact segment_mem_segments hmem

theorem chosen?_of_select? {s : Selection ρ} (hs : b.select? ahead = some s) {id : Text}
    (hedge : s.edge = .literal id) : b.chosen? ahead = some (id, s.advance.rest) := by
  simp only [chosen?, hs, hedge, Edge.literal?, Option.bind_some, Option.map_some]

theorem exists_select?_of_chosen? {id rest : Text} (h : b.chosen? ahead = some (id, rest)) :
    ∃ s, b.select? ahead = some s ∧ s.edge = .literal id ∧ s.advance.rest = rest := by
  obtain ⟨s, hs, hchosen⟩ := Option.bind_eq_some_iff.1 h
  obtain ⟨id', hid', hpair⟩ := Option.map_eq_some_iff.1 hchosen
  obtain ⟨rfl, rfl⟩ := Prod.mk.inj hpair
  refine ⟨s, hs, ?_, rfl⟩
  cases hedge : s.edge with
  | literal id =>
    rw [hedge] at hid'
    exact congrArg Edge.literal (Option.some.inj hid')
  | regex name c =>
    rw [hedge] at hid'
    cases hid'
  | wildcard name =>
    rw [hedge] at hid'
    cases hid'

/-- **The literals alone tell which of them is selected**: the longest that begins the text. -/
theorem chosen?_eq_some_iff (hb : b.segments.Pairwise Segment.Leads) {id rest : Text} :
    b.chosen? ahead = some (id, rest) ↔ id ∈ b.literals ∧ ahead = id ++ rest ∧
      ∀ id' ∈ b.literals, id' <+: ahead → id' <+: id := by
  constructor
  · intro h
    obtain ⟨s, hs, hedge, rfl⟩ := exists_select?_of_chosen? h
    obtain ⟨-, -, -, hadvance, -⟩ := select?_eq_some_iff.1 hs
    rw [hedge, advance?_literal_eq_some_iff] at hadvance
    exact ⟨mem_literals_of_select? hs hedge, hadvance.2,
      fun id' hid' hbegins => prefix_of_select? hb hs hedge hid' hbegins⟩
  · rintro ⟨hid, rfl, hlongest⟩
    have hbegins : id <+: id ++ rest := List.prefix_append id rest
    obtain ⟨s, longest, hs, hedge⟩ := exists_select? hb hid hbegins
    obtain ⟨-, -, -, hadvance, -⟩ := select?_eq_some_iff.1 hs
    rw [hedge, advance?_literal_eq_some_iff] at hadvance
    -- Each of the two begins the other.
    have hback : longest <+: id :=
      hlongest longest (mem_literals_of_select? hs hedge) ⟨_, hadvance.2.symm⟩
    have hforth : id <+: longest := prefix_of_select? hb hs hedge hid hbegins
    obtain rfl : longest = id := hback.eq_of_length_le hforth.length_le
    rw [chosen?_of_select? hs hedge, List.append_cancel_left hadvance.2]

end Branches

/-! ## The nodes of a router -/

/-- How a node selects among its literals. -/
structure Node.SelectsLongest {ρ : Type} (n : Node ρ) (ahead : Text) : Prop where
  /-- One is selected if and only if one begins the text. -/
  selects : (∃ s id, n.below.select? ahead = some s ∧ s.edge = .literal id) ↔
    ∃ id ∈ n.below.literals, id <+: ahead
  /-- It is the longest of them, by characters and by bytes; it captures nothing, and what it leaves
  is the text behind it. -/
  longest : ∀ s id, n.below.select? ahead = some s → s.edge = .literal id →
    id ∈ n.below.literals ∧ s.advance = ⟨none, ahead.drop id.length⟩ ∧
      ahead = id ++ s.advance.rest ∧ n.locate? [.literal id] = some s.child ∧
        ∀ id' ∈ n.below.literals, id' <+: ahead →
          id'.length ≤ id.length ∧ Text.size id' ≤ Text.size id
  /-- Any other node with these literals, in whatever order they came, selects the same one. -/
  alike : ∀ (r : Router) (m : Method) (n' : Tree), r.Reachable → n' ∈ (r.forest.root m).nodes →
    (∀ id, id ∈ n'.below.literals ↔ id ∈ n.below.literals) →
      n'.below.chosen? ahead = n.below.chosen? ahead

/-- **Every node selects the longest of its literals that begin the text ahead.** -/
theorem Router.Reachable.selects_longest {r : Router} (h : r.Reachable) {m : Method} {n : Tree}
    (hn : n ∈ (r.forest.root m).nodes) (ahead : Text) : n.SelectsLongest ahead where
  selects := by
    constructor
    · rintro ⟨s, id, hs, hedge⟩
      obtain ⟨-, -, -, hadvance, -⟩ := Branches.select?_eq_some_iff.1 hs
      rw [hedge, Branches.advance?_literal_eq_some_iff] at hadvance
      exact ⟨id, Branches.mem_literals_of_select? hs hedge, _, hadvance.2.symm⟩
    · rintro ⟨id, hid, hbegins⟩
      exact Branches.exists_select? ((h.sound_node hn).ordered []) hid hbegins
  longest := by
    intro s id hs hedge
    have hsound := h.sound_node hn
    have hmem := (Branches.select?_eq_some_iff.1 hs).mem_children
    have hfind := Branches.find?_of_child (hsound.nodup []) hmem
    obtain ⟨-, -, -, hadvance, -⟩ := Branches.select?_eq_some_iff.1 hs
    rw [hedge, Branches.advance?_literal_eq_some_iff] at hadvance
    obtain ⟨hpart, hahead⟩ := hadvance
    refine ⟨Branches.mem_literals_of_select? hs hedge, ?_, hahead, ?_, fun id' hid' hbegins => ?_⟩
    · have hrest : ahead.drop id.length = s.advance.rest := by
        rw [hahead, List.drop_left]
      rw [hrest, ← hpart]
    · rw [hedge] at hfind
      simp only [Node.locate?_cons]
      exact Option.bind_eq_some_iff.2 ⟨s.child, hfind, rfl⟩
    · obtain ⟨more, rfl⟩ := Branches.prefix_of_select? (hsound.ordered []) hs hedge hid' hbegins
      simp
  alike := by
    intro r' m' n' h' hn' hsame
    apply Option.ext
    rintro ⟨id, rest⟩
    rw [Branches.chosen?_eq_some_iff ((h'.sound_node hn').ordered []),
      Branches.chosen?_eq_some_iff ((h.sound_node hn).ordered [])]
    simp only [hsame]

end

open Regex.Standard

/-- A router with the routes `/user` and `/users`, which came in this order or in the other one. -/
def Router.overlapping (shortFirst : Bool) : Router :=
  let paths : List Text := [['u', 's', 'e', 'r'], ['u', 's', 'e', 'r', 's']]
  (if shortFirst then paths else paths.reverse).foldl
    (fun r path => (r.handle .get path silent).router) (Router.new {})

theorem Router.reachable_overlapping (shortFirst : Bool) : (overlapping shortFirst).Reachable := by
  cases shortFirst with
  | true => exact .handle _ _ _ _ (.handle _ _ _ _ (.new _ _))
  | false => exact .handle _ _ _ _ (.handle _ _ _ _ (.new _ _))

/-- Ahead of `users/1` both literals begin the text, and `users` is selected in either order. -/
theorem Router.selects_longest_overlapping :
    let root := (overlapping true).forest.root .get
    let other := (overlapping false).forest.root .get
    let ahead := ['u', 's', 'e', 'r', 's', '/', '1']
    (overlapping true).Reachable ∧ root ∈ root.nodes ∧ root.SelectsLongest ahead ∧
      root.below.chosen? ahead = some (['u', 's', 'e', 'r', 's'], ['/', '1']) ∧
      other.below.chosen? ahead = root.below.chosen? ahead := by
  intro root other ahead
  have hroot : root ∈ root.nodes := List.mem_cons_self
  have hother : other ∈ other.nodes := List.mem_cons_self
  have hselects := (reachable_overlapping true).selects_longest hroot ahead
  refine ⟨reachable_overlapping true, hroot, hselects, rfl, ?_⟩
  exact hselects.alike _ .get other (reachable_overlapping false) hother fun _ => Iff.rfl

end Routing
