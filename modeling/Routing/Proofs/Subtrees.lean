import Mathlib.Data.List.Forall2
import Routing.Proofs.Histories
import Routing.Proofs.Keeping
import Routing.Proofs.Tokens

/-!
# Covering a subtree

Layers are added to the routes of one subtree in each tree that is chosen: the one at the position
that a pattern reaches. That is the position of the pattern itself if a route is there or below, and
otherwise one that its literals reach along wildcards, if they reach any.

* `Node.Sound.aim?_eq_self`, `Node.along_of_aim` — the position that segments reach.
* `Node.Sound.length_filter_routes` — the routes at or below a position, counted.
* `Router.Reachable.covered` — what a pattern that is covered changes, and what it leaves.
-/

namespace Routing

section

variable [Regex.Engine]

/-- The branch for `t` may be taken for `s`: it is that of `s` itself, or one for a wildcard that
takes the text of a literal. -/
def Segment.Along (s t : Segment) : Prop :=
  s = t ∨ ∃ text, s = .literal text ∧ t.isWildcard = true ∧ t.Takes text

theorem Edge.along_of_takes {s : Segment} {edge : Edge} (h : Edge.takes s edge = true) :
    s.Along edge.segment := by
  cases s with
  | literal text =>
    cases edge with
    | literal id =>
      have heq : id = text := by simpa [takes] using h
      exact Or.inl (congrArg Segment.literal heq.symm)
    | regex name c => exact Or.inr ⟨text, rfl, rfl, Constraint.admits_raw.2 h⟩
    | wildcard name => exact Or.inr ⟨text, rfl, rfl, trivial⟩
  | wildcard name => exact Or.inl (by simpa [takes, eq_comm] using h)
  | regex name raw => exact Or.inl (by simpa [takes, eq_comm] using h)

namespace Node

variable {ρ : Type}

/-! ## Positions -/

/-- **Segments reach a position along branches that may be taken for them.** -/
theorem along_of_aim {n : Node ρ} {segments position : List Segment}
    (h : n.aim? segments = some position) : List.Forall₂ Segment.Along segments position := by
  induction segments generalizing n position with
  | nil =>
    cases h
    exact .nil
  | cons s rest ih =>
    obtain ⟨c, hfind, hrest⟩ := Option.bind_eq_some_iff.1 h
    obtain ⟨further, haim, rfl⟩ := Option.map_eq_some_iff.1 hrest
    have htakes : Edge.takes s c.1 = true := by simpa using List.find?_some hfind
    exact .cons (Edge.along_of_takes htakes) (ih haim)

/-- There is a node at the position that segments reach. -/
theorem Sound.exists_of_aim {n : Node ρ} (hn : n.Sound) {segments position : List Segment}
    (h : n.aim? segments = some position) : ∃ c, n.locate? position = some c := by
  induction segments generalizing n position with
  | nil =>
    cases h
    exact ⟨n, rfl⟩
  | cons s rest ih =>
    obtain ⟨c, hfind, hrest⟩ := Option.bind_eq_some_iff.1 h
    obtain ⟨further, haim, rfl⟩ := Option.map_eq_some_iff.1 hrest
    have hc := Branches.find?_of_child (hn.nodup []) (List.mem_of_find?_eq_some hfind)
    obtain ⟨last, hlast⟩ := ih (hn.child hc) haim
    exact ⟨last, by rw [locate?_cons, hc, Option.bind_some, hlast]⟩

/-- **Segments that lead to a node reach it.** -/
theorem Sound.aim?_eq_self {n c : Node ρ} (hn : n.Sound) {segments : List Segment}
    (h : n.locate? segments = some c) : n.aim? segments = some segments := by
  induction segments generalizing n with
  | nil => rfl
  | cons s rest ih =>
    rw [locate?_cons] at h
    obtain ⟨d, hd, hc⟩ := Option.bind_eq_some_iff.1 h
    have hs : s ∈ n.below.segments := Branches.mem_segments_of_find? hd
    rw [← Branches.find?_takes (hn.ordered []) hs, Branches.find?_eq_children] at hd
    obtain ⟨child, hchild, rfl⟩ := Option.map_eq_some_iff.1 hd
    have hsegment := Branches.segment_of_find?_takes (hn.ordered []) hs hchild
    have hbelow := Branches.find?_of_child (hn.nodup []) (List.mem_of_find?_eq_some hchild)
    rw [aim?_cons, hchild, Option.bind_some, ih (hn.child hbelow) hc, Option.map_some, hsegment]

/-! ## Counting routes -/

/-- **The routes of a node are those of the tree at or below its position.** -/
theorem Sound.length_filter_routes {n c : Node ρ} (hn : n.Sound) {position : List Segment}
    (h : n.locate? position = some c) :
    (n.routes.filter fun entry => decide (position <+: entry.1)).length = c.routes.length := by
  have hc : c.Sound := hn.locate? h
  have hroute (key : List Segment) : n.routeAt (position ++ key) = c.routeAt key := by
    rw [routeAt_eq, locate?_append, h, Option.bind_some, ← routeAt_eq]
  have hperm : (c.routes.map fun entry => (position ++ entry.1, entry.2)).Perm
      (n.routes.filter fun entry => decide (position <+: entry.1)) := by
    rw [List.perm_ext_iff_of_nodup]
    · rintro ⟨key, route⟩
      simp only [List.mem_map, List.mem_filter, decide_eq_true_eq, Prod.exists, Prod.mk.injEq,
        hn.mem_routes_iff, hc.mem_routes_iff]
      constructor
      · rintro ⟨key, route, hkey, rfl, rfl⟩
        exact ⟨(hroute key).trans hkey, List.prefix_append position key⟩
      · rintro ⟨hkey, further, rfl⟩
        exact ⟨further, route, (hroute further).symm.trans hkey, rfl, rfl⟩
    · refine (List.Nodup.of_map _ hc.nodup_routes).map ?_
      rintro ⟨key, route⟩ ⟨key', route'⟩ heq
      obtain ⟨hkey, hroute⟩ := Prod.mk.inj heq
      exact Prod.ext (List.append_cancel_left hkey) hroute
    · exact (List.Nodup.of_map _ hn.nodup_routes).filter _
  rw [← hperm.length_eq, List.length_map]

end Node

/-- The route with layers at the inner end of those that it has. -/
def Route.extend (layers : List Layer) (r : Route) : Route :=
  { r with chain := ⟨r.chain.layers ++ layers⟩ }

/-- The route without layers. -/
def Route.bare (r : Route) : Route := { r with chain := {}, composed := none }

omit [Regex.Engine] in
theorem Route.append_of_uncomposed {r : Route} (h : r.composed = none) (layers : List Layer) :
    r.append layers = r.extend layers := by
  simp only [append, extend, h, Chain.append]

namespace Router

/-- What is counted below segments are the routes below the position that they reach. -/
theorem countBelow_eq {tree : Tree} (h : tree.Sound) (segments : List Segment) :
    countBelow segments tree = (tree.routes.filter fun entry =>
      (tree.aim? segments).any fun position => decide (position <+: entry.1)).length := by
  simp only [countBelow, Node.visitRoutes_eq]
  rw [h.reach?_eq_aim]
  cases haim : tree.aim? segments with
  | none => simp
  | some position =>
    obtain ⟨c, hc⟩ := h.exists_of_aim haim
    rw [Option.bind_some, hc, Option.map_some, Option.getD_some, ← h.length_filter_routes hc]
    simp

omit [Regex.Engine] in
/-- What is kept of lists is counted list by list. -/
theorem length_filter_flatMap {α β : Type} {l : List α} {lists : α → List β} {keep : β → Bool}
    {chosen : α → Bool} {count : α → Nat}
    (h : ∀ a ∈ l, ((lists a).filter keep).length = if chosen a then count a else 0) :
    ((l.flatMap lists).filter keep).length =
      ((l.filter chosen).map count).foldr (· + ·) 0 := by
  induction l with
  | nil => rfl
  | cons a l ih =>
    obtain ⟨ha, hl⟩ := List.forall_mem_cons.1 h
    rw [List.flatMap_cons, List.filter_append, List.length_append, ha, ih hl]
    cases hchosen : chosen a <;> simp [hchosen]

theorem length_filter_entries {r : Router} (hr : r.forest.Sound) (m : Option Method)
    (segments : List Segment) :
    (r.forest.entries.filter fun e => r.covers m segments e.method e.segments).length =
      ((r.forest.roots.filter fun root => m.all (· = root.method)).map
        fun root => countBelow segments root.tree).foldr (· + ·) 0 := by
  apply length_filter_flatMap
  intro root hroot
  rw [List.filter_map, List.length_map]
  split
  · rename_i hm
    rw [countBelow_eq (hr.roots root hroot).tree]
    simp only [Function.comp_def, covers, hm, Bool.true_and, Forest.root_of_mem hr.methods hroot]
  · rename_i hm
    simp [Function.comp_def, covers, hm]

/-! ## Covered routes -/

/-- What a call that covers a pattern does, `segments` being those of the pattern. -/
structure Covered (r : Router) (m : Option Method) (segments : List Segment) (layers : List Layer)
    (after : Edited Nat) : Prop where
  /-- Routes that are covered have the layers behind their own; the others are as they were. -/
  table : ∀ m' key, after.router.table m' key =
    if r.covers m segments m' key then (r.table m' key).map (Route.extend layers) else r.table m' key
  /-- Nothing is covered in a tree that is not chosen. -/
  others : ∀ m', (∃ chosen, m = some chosen ∧ chosen ≠ m') → ∀ key,
    r.covers m segments m' key = false
  /-- A pattern at or below which there is a route covers what begins with its segments. -/
  addressed : ∀ m', (∀ chosen, m = some chosen → chosen = m') →
    (segments = [] ∨ ∃ key, segments <+: key ∧ (r.table m' key).isSome) → ∀ key,
      (r.covers m segments m' key = true ↔ segments <+: key)
  /-- Any other covers nothing, or what is at or below another node that its literals reach. -/
  aside : ∀ m', ¬ (segments = [] ∨ ∃ key, segments <+: key ∧ (r.table m' key).isSome) →
    (∀ key, r.covers m segments m' key = false) ∨
      ∃ position, position ≠ segments ∧ List.Forall₂ Segment.Along segments position ∧
        ((r.forest.root m').locate? position).isSome ∧
          ∀ key, (r.covers m segments m' key = true ↔ position <+: key)
  /-- All else is as it was: nodes, their order and their slots, and handlers. -/
  kept : after.router.forest.mapRoutes Route.bare = r.forest.mapRoutes Route.bare ∧
    { after.router with forest := r.forest } = r
  /-- The answer is the number of routes that are covered. -/
  counted : ∃ keys : List (Method × List Segment), keys.Nodup ∧ after.answer = .ok keys.length ∧
    ∀ m' key, (m', key) ∈ keys ↔ r.covers m segments m' key = true ∧ (r.table m' key).isSome

theorem covers_of_chosen {r : Router} {m : Option Method} {m' : Method}
    (hm : ∀ chosen, m = some chosen → chosen = m') (segments key : List Segment) :
    r.covers m segments m' key =
      ((r.forest.root m').aim? segments).any fun position => decide (position <+: key) := by
  have hall : m.all (· = m') = true := by
    cases m with
    | none => rfl
    | some chosen => simpa using hm chosen rfl
  rw [covers, hall, Bool.true_and]

theorem covers_of_not_chosen {r : Router} {m : Option Method} {m' : Method}
    (hm : ∃ chosen, m = some chosen ∧ chosen ≠ m') (segments key : List Segment) :
    r.covers m segments m' key = false := by
  obtain ⟨chosen, rfl, hne⟩ := hm
  simp [covers, hne]

/-- **A pattern at or below which there is a route covers what begins with its segments.** -/
theorem covers_of_addressed {r : Router} (hr : r.forest.Sound) {m : Option Method} {m' : Method}
    (hm : ∀ chosen, m = some chosen → chosen = m') {segments : List Segment}
    (h : segments = [] ∨ ∃ key, segments <+: key ∧ (r.table m' key).isSome)
    (key : List Segment) : r.covers m segments m' key = true ↔ segments <+: key := by
  have haim : (r.forest.root m').aim? segments = some segments := by
    rcases h with rfl | ⟨key, ⟨rest, rfl⟩, hroute⟩
    · rfl
    · obtain ⟨route, hroute⟩ := Option.isSome_iff_exists.1 hroute
      rw [table, Forest.route?_eq, Node.routeAt_eq, Node.locate?_append] at hroute
      obtain ⟨last, hlast, -⟩ := Option.bind_eq_some_iff.1 hroute
      obtain ⟨c, hc, -⟩ := Option.bind_eq_some_iff.1 hlast
      exact (hr.root m').aim?_eq_self hc
  rw [covers_of_chosen hm, haim]
  simp

/-- **Any other covers nothing, or what is at or below another node.** -/
theorem covers_aside {r : Router} (hr : r.forest.Sound) (m : Option Method) {m' : Method}
    {segments : List Segment}
    (h : ¬ (segments = [] ∨ ∃ key, segments <+: key ∧ (r.table m' key).isSome)) :
    (∀ key, r.covers m segments m' key = false) ∨
      ∃ position, position ≠ segments ∧ List.Forall₂ Segment.Along segments position ∧
        ((r.forest.root m').locate? position).isSome ∧
          ∀ key, (r.covers m segments m' key = true ↔ position <+: key) := by
  by_cases hm : ∀ chosen, m = some chosen → chosen = m'
  · have hroot := hr.root m'
    cases haim : (r.forest.root m').aim? segments with
    | none =>
      refine Or.inl fun key => ?_
      rw [covers_of_chosen hm, haim]
      rfl
    | some position =>
      obtain ⟨c, hc⟩ := hroot.exists_of_aim haim
      refine Or.inr ⟨position, ?_, Node.along_of_aim haim, by rw [hc]; rfl, fun key => ?_⟩
      · -- Below the node that the segments lead to there would be a route.
        rintro rfl
        apply h
        rcases List.eq_nil_or_concat position with rfl | ⟨above, s, rfl⟩
        · exact Or.inl rfl
        · rw [List.concat_eq_append] at hc ⊢
          have hbranch : s ∈ (r.forest.root m').branchesAt above :=
            Node.mem_branchesAt_iff.2 (by rw [hc]; rfl)
          obtain ⟨⟨key, route⟩, hentry, hprefix⟩ := hroot.exists_route hbranch
          refine Or.inr ⟨key, hprefix, ?_⟩
          rw [table, Forest.route?_eq, hroot.mem_routes_iff.1 hentry]
          rfl
      · rw [covers_of_chosen hm, haim]
        simp
  · push Not at hm
    exact Or.inl fun key => covers_of_not_chosen hm segments key

theorem mapRoutes_cover {r : Router} (m : Option Method) {pattern : Text}
    {segments : List Segment} (hs : Pattern.split pattern = .ok segments) (layers : List Layer) :
    (r.cover m pattern layers).router.forest.mapRoutes Route.bare =
      r.forest.mapRoutes Route.bare := by
  have htree (tree : Tree) : (coverTree segments layers tree).mapRoutes Route.bare =
      tree.mapRoutes Route.bare := mapRoutes_coverTree (fun _ => rfl) segments tree
  simp only [cover, hs, Forest.mapRoutes, List.map_map]
  refine congrArg Forest.mk (List.map_congr_left fun root _ => ?_)
  rw [Function.comp_apply]
  split
  · rw [Root.tree_graft, htree]
    rfl
  · rfl

theorem exists_keys_cover {r : Router} (hr : r.forest.Sound) (m : Option Method) {pattern : Text}
    {segments : List Segment} (hs : Pattern.split pattern = .ok segments) (layers : List Layer) :
    ∃ keys : List (Method × List Segment), keys.Nodup ∧
      (r.cover m pattern layers).answer = .ok keys.length ∧
        ∀ m' key, (m', key) ∈ keys ↔
          r.covers m segments m' key = true ∧ (r.table m' key).isSome := by
  let covered := r.forest.entries.filter fun e => r.covers m segments e.method e.segments
  refine ⟨covered.map fun e => (e.method, e.segments), ?_, ?_, fun m' key => ?_⟩
  · have hdistinct := hr.distinct_entries.sublist (List.filter_sublist (p := fun e =>
      r.covers m segments e.method e.segments))
    refine List.pairwise_map.2 (hdistinct.imp fun hne hk => hne ?_)
    exact ⟨congrArg Prod.fst hk, congrArg Prod.snd hk⟩
  · rw [List.length_map, length_filter_entries hr]
    simp only [cover, hs]
  · rw [List.mem_map, Option.isSome_iff_exists]
    constructor
    · rintro ⟨e, he, hk⟩
      obtain ⟨rfl, rfl⟩ := Prod.mk.inj hk
      obtain ⟨he, hcovers⟩ := List.mem_filter.1 he
      exact ⟨hcovers, e.route, hr.mem_entries_iff.1 he⟩
    · rintro ⟨hcovers, route, hroute⟩
      exact ⟨⟨m', key, route⟩, List.mem_filter.2 ⟨hr.mem_entries_iff.2 hroute, hcovers⟩, rfl⟩

/-- **Covering a pattern touches the subtree that it reaches and nothing else.** A pattern that does
not split changes nothing. -/
theorem Reachable.covered {r : Router} (h : r.Reachable) (m : Option Method) (pattern : Text)
    (layers : List Layer) :
    (∀ e, Pattern.split pattern = .error e →
      r.cover m pattern layers = ⟨.error (.pattern e), r⟩) ∧
    ∀ segments, Pattern.split pattern = .ok segments →
      r.Covered m segments layers (r.cover m pattern layers) := by
  refine ⟨fun e he => ?_, fun segments hs => ?_⟩
  · simp only [Router.cover, he]
  · refine
      { table := fun m' key => ?_
        others := fun m' hm key => covers_of_not_chosen hm segments key
        addressed := fun m' hm haddressed key => covers_of_addressed h.sound hm haddressed key
        aside := fun m' haside => covers_aside h.sound m haside
        kept := ⟨mapRoutes_cover m hs layers, ?_⟩
        counted := exists_keys_cover h.sound m hs layers }
    · rw [table_cover h.sound hs]
      cases hroute : r.table m' key with
      | none => rfl
      | some route =>
        have huncomposed := h.uncomposed m' key route hroute
        rw [Option.map_some, Option.map_some, Route.append_of_uncomposed huncomposed]
    · simp only [Router.cover, hs]

end Router

end

namespace Router

open Regex.Standard

/-- In the sample no route is at or below `/c`, but its text reaches the node of `/{x}`. -/
theorem covered_sample :
    Pattern.split ['/', 'c'] = .ok [.literal ['c']] ∧
      sample.Covered none [.literal ['c']] [.tag ['l']]
        (sample.cover none ['/', 'c'] [.tag ['l']]) ∧
      (sample.cover none ['/', 'c'] [.tag ['l']]).answer = .ok 1 ∧
      sample.covers none [.literal ['c']] .get [.wildcard ['x'], .literal ['b']] = true := by
  have hs : Pattern.split ['/', 'c'] = .ok [.literal ['c']] := rfl
  exact ⟨hs, (reachable_sample.covered none ['/', 'c'] [.tag ['l']]).2 _ hs, rfl, rfl⟩

end Router

end Routing
