import Routing.Proofs.Covering
import Routing.Proofs.Rendering

/-!
# Duplicates

The segments of a route come from patterns, whichever prefixes it was mounted below. So the path
that an error names for a duplicate is split into the segments that it was rendered from, and these
lead to the node that has the route.

* `Router.Reachable.fromPattern` — where the segments of routes come from.
* `Router.duplicate_of_handle`, `Router.duplicate_of_mount` — what a duplicate is one of.
* `Router.Reachable.rereads` — segments, and the paths of duplicates, are read back.
-/

namespace Routing

/-- The segment was split off a pattern. -/
def Segment.FromPattern (s : Segment) : Prop :=
  ∃ pattern segments, Pattern.split pattern = .ok segments ∧ s ∈ segments

theorem Segment.FromPattern.split_display {s : Segment} (h : s.FromPattern) :
    Pattern.split s.display = .ok [s] := by
  obtain ⟨pattern, segments, hsplit, hs⟩ := h
  exact Pattern.split_display hsplit hs

section

variable [Regex.Engine]

namespace Router

/-! ## Where segments come from -/

theorem Reachable.fromPattern_of_table {r : Router} (h : r.Reachable) {m : Method}
    {key : List Segment} (hkey : (r.table m key).isSome) {s : Segment} (hs : s ∈ key) :
    s.FromPattern := by
  obtain ⟨route, hroute⟩ := Option.isSome_iff_exists.1 hkey
  have hall : ∀ s ∈ key, s.FromPattern := by
    refine h.forall_routes (P := fun key _ => ∀ s ∈ key, s.FromPattern) ?_ ?_ ?_ hroute
    · intro pattern segments handler chain hsplit s hs
      exact ⟨pattern, segments, hsplit, hs⟩
    · intro segments route layers hsegments
      exact hsegments
    · intro path above segments route outer hsplit hsegments s hs
      rcases List.mem_append.1 hs with hs | hs
      · exact ⟨path, above, hsplit, hs⟩
      · exact hsegments s hs
  exact hall s hs

/-- **All segments in the trees of a router come from patterns.** Every branch is on the way to a
route. -/
theorem Reachable.fromPattern {r : Router} (h : r.Reachable) {m : Method}
    {position : List Segment} {s : Segment} (hs : s ∈ (r.forest.root m).branchesAt position) :
    s.FromPattern := by
  have hroot := h.sound.root m
  obtain ⟨⟨key, route⟩, hentry, habove⟩ := hroot.exists_route hs
  have hroute : r.table m key = some route := by
    rw [table, Forest.route?_eq]
    exact hroot.mem_routes_iff.1 hentry
  have hkey : (r.table m key).isSome := by
    rw [hroute]
    rfl
  exact h.fromPattern_of_table hkey (habove.subset (by simp))

/-! ## What a duplicate is one of -/

theorem duplicate_of_checkDuplicate {r : Router} {m m' : Method} {segments : List Segment}
    {at? : Option Tree} {path : Text}
    (h : r.checkDuplicate m segments at? = .error (.duplicateRoute m' path)) :
    m' = m ∧ path = Pattern.render segments ∧ (at?.bind Node.route).isSome := by
  unfold checkDuplicate at h
  split at h
  · rename_i hdup
    cases h
    exact ⟨rfl, rfl, hdup.2⟩
  · cases h

/-- A registration that is a duplicate has the segments of a route. -/
theorem duplicate_of_handle {r : Router} (hr : r.forest.Sound) {m m' : Method} {pattern : Text}
    {handler : Handler} {layers : List Layer} {path : Text}
    (h : (r.handle m pattern handler layers).answer = .error (.duplicateRoute m' path)) :
    m' = m ∧ ∃ segments, Pattern.split pattern = .ok segments ∧
      path = Pattern.render segments ∧ (r.table m segments).isSome := by
  have haccepts : ∃ segments, r.Accepts m pattern segments := by
    by_contra hnone
    have hnot : ∀ segments, r.Accepts m pattern segments →
        ¬ r.Fits ⟨m, segments, r.routeOf handler layers⟩ :=
      fun segments ha => absurd ⟨segments, ha⟩ hnone
    obtain ⟨e, he, -, hother⟩ := handle_of_not_fits hr hnot
    rw [h] at he
    exact hother (not_exists.1 hnone) m' path (Except.error.inj he).symm
  obtain ⟨segments, haccepts⟩ := haccepts
  by_cases hfresh : r.options.duplicateRoutes = .reject → r.table m segments = none
  · have hok := (handle_of_accepts hr haccepts handler layers hfresh).1
    rw [h] at hok
    cases hok
  · obtain ⟨hreject, hsome⟩ := Classical.not_imp.1 hfresh
    rw [← Ne, ← Option.isSome_iff_ne_none] at hsome
    rw [handle_of_duplicate hr haccepts handler layers hreject hsome] at h
    cases h
    exact ⟨rfl, segments, haccepts.split, rfl, hsome⟩

theorem duplicate_of_examineRoutes {r : Router} (hr : r.forest.Sound) {m m' : Method}
    {routes : List (List Segment × Route)} {path : Text}
    (h : r.examineRoutes m routes = .error (.duplicateRoute m' path)) :
    m' = m ∧ ∃ entry ∈ routes, path = Pattern.render entry.1 ∧ (r.table m entry.1).isSome := by
  induction routes with
  | nil => cases h
  | cons entry routes ih =>
    obtain ⟨segments, route⟩ := entry
    simp only [examineRoutes] at h
    cases hre : (r.forest.root m).rehearse segments with
    | error e => simp [hre] at h
    | ok found =>
      obtain ⟨-, rfl⟩ := (hr.root m).rehearse_eq_ok_iff.1 hre
      simp only [hre] at h
      rcases bind_eq_error_iff.1 h with hc | ⟨_, -, hroutes⟩
      · obtain ⟨hm, hpath, hsome⟩ := duplicate_of_checkDuplicate hc
        rw [← Node.routeAt_eq, ← Forest.route?_eq] at hsome
        exact ⟨hm, _, List.mem_cons_self, hpath, hsome⟩
      · obtain ⟨hm, entry, hentry, hrest⟩ := ih hroutes
        exact ⟨hm, entry, List.mem_cons_of_mem _ hentry, hrest⟩

theorem duplicate_of_examine {r : Router} (hr : r.forest.Sound) {gs : List Graft} {m : Method}
    {path : Text} (h : r.examine gs = .error (.duplicateRoute m path)) :
    ∃ e ∈ gs.flatMap Graft.entries, m = e.method ∧ path = Pattern.render e.segments ∧
      (r.table e.method e.segments).isSome := by
  induction gs with
  | nil => cases h
  | cons g gs ih =>
    rw [List.flatMap_cons]
    rcases bind_eq_error_iff.1 h with hg | ⟨_, -, hgs⟩
    · obtain ⟨rfl, entry, hentry, hrest⟩ := duplicate_of_examineRoutes hr hg
      exact ⟨⟨g.method, entry.1, entry.2⟩, List.mem_append_left _ (List.mem_map_of_mem hentry), rfl,
        hrest⟩
    · obtain ⟨e, he, hrest⟩ := ih hgs
      exact ⟨e, List.mem_append_right _ he, hrest⟩

theorem grafts_ne_duplicate {r : Router} {pattern : Text} {above : List Segment}
    {roots : List Root} {m : Method} {path : Text} :
    r.grafts pattern above roots ≠ .error (.duplicateRoute m path) := by
  induction roots with
  | nil => simp [grafts]
  | cons root roots ih =>
    intro h
    rcases bind_eq_error_iff.1 h with hdepth | ⟨_, -, hroots⟩
    · unfold checkDepth at hdepth
      split at hdepth <;> cases hdepth
    · rcases bind_eq_error_iff.1 hroots with hroots | ⟨_, -, hdone⟩
      · exact ih hroots
      · cases hdone

/-- A router that is refused for a duplicate has a route for which there is one below the prefix. -/
theorem duplicate_of_mount {r sub : Router} (hr : r.forest.Sound) (hsub : sub.forest.Sound)
    {pattern : Text} {m : Method} {path : Text}
    (h : (r.mount pattern sub).answer = .error (.duplicateRoute m path)) :
    ∃ above segments, Pattern.split pattern = .ok above ∧
      path = Pattern.render (above ++ segments) ∧ (sub.table m segments).isSome ∧
        (r.table m (above ++ segments)).isSome := by
  cases hp : Pattern.split pattern with
  | error e => simp [mount, hp] at h
  | ok above =>
    simp only [mount, hp] at h
    cases hg : r.grafts pattern above sub.forest.roots with
    | error e =>
      simp only [hg, Except.error.injEq] at h
      exact absurd (h ▸ hg) grafts_ne_duplicate
    | ok gs =>
      obtain ⟨-, rfl⟩ := grafts_eq_ok_iff.1 hg
      simp only [hg] at h
      cases he : r.examine (sub.forest.roots.map (r.graftOf above)) with
      | error e =>
        simp only [he, Except.error.injEq] at h
        subst h
        obtain ⟨e, hmem, rfl, rfl, hsome⟩ := duplicate_of_examine hr he
        rw [entries_grafts] at hmem
        obtain ⟨old, hold, rfl⟩ := List.mem_map.1 hmem
        have hroute : sub.table old.method old.segments = some old.route :=
          hsub.mem_entries_iff.1 hold
        exact ⟨above, old.segments, rfl, rfl, by rw [Entry.below, hroute]; rfl, hsome⟩
      | ok _ =>
        -- All routes were examined, so all of them are attached.
        have hfits := (examine_eq_ok_iff hr).1 he
        rw [entries_grafts, List.forall_mem_map] at hfits
        obtain ⟨f, hattach, -⟩ := attach_grafts hr hsub hp hfits
        simp only [he, hattach] at h
        cases h

/-! ## Reading back -/

/-- The path addresses the node of these segments in the tree of a method, and the node has a
route. -/
structure Addresses (r : Router) (m : Method) (path : Text) (segments : List Segment) : Prop where
  split : Pattern.split path = .ok segments
  node : ∃ tree c, r.forest.root? m = some tree ∧ tree.locate? segments = some c ∧
    tree.reach? segments = some c ∧ c.route.isSome

/-- What patterns are split into is read back from what it is rendered as. -/
structure Rereads (r : Router) : Prop where
  rendered : ∀ pattern segments, Pattern.split pattern = .ok segments →
    Pattern.split (Pattern.render segments) = .ok segments
  /-- The edge that is made for a segment gives the segment back. -/
  made : ∀ pattern segments, Pattern.split pattern = .ok segments →
    ∀ s ∈ segments, ∀ edge, Edge.ofSegment s = .ok edge → edge.segment = s
  /-- So do the edges that lead to its position, once a tree has grown. -/
  grown : ∀ m pattern segments tree, Pattern.split pattern = .ok segments →
    (r.forest.root m).grow segments = .ok tree →
      ∀ position s, position ++ [s] <+: segments → s ∈ tree.branchesAt position
  branches : ∀ m position, ∀ s ∈ (r.forest.root m).branchesAt position,
    Pattern.split s.display = .ok [s]
  /-- The path of a duplicate addresses the node that has the route. -/
  handle : ∀ m pattern handler layers m' path,
    (r.handle m pattern handler layers).answer = .error (.duplicateRoute m' path) →
      m' = m ∧ ∃ segments, Pattern.split pattern = .ok segments ∧ r.Addresses m path segments
  mount : ∀ pattern sub m path, sub.Reachable →
    (r.mount pattern sub).answer = .error (.duplicateRoute m path) →
      ∃ above segments, Pattern.split pattern = .ok above ∧ (sub.table m segments).isSome ∧
        r.Addresses m path (above ++ segments)

theorem Reachable.addresses {r : Router} (h : r.Reachable) {m : Method} {key : List Segment}
    (hkey : (r.table m key).isSome) : r.Addresses m (Pattern.render key) key where
  split := Pattern.split_render fun _ hs => (h.fromPattern_of_table hkey hs).split_display
  node := exists_node h.sound hkey

/-- **Segments, and the paths of duplicates, are read back.** -/
theorem Reachable.rereads {r : Router} (h : r.Reachable) : r.Rereads where
  rendered pattern segments hsplit :=
    Pattern.split_render fun _ hs => Pattern.split_display hsplit hs
  made pattern segments hsplit s hs edge hedge := Edge.segment_ofSegment hedge
  grown m pattern segments tree hsplit hgrow position s hs := by
    rw [Node.branchesAt_grow (h.sound.root m).counted hgrow, mem_seatAll]
    exact Or.inr (Option.mem_toList.2 (next?_eq_some_iff.2 hs))
  branches m position s hs := (h.fromPattern hs).split_display
  handle m pattern handler layers m' path hanswer := by
    obtain ⟨hm, segments, hsplit, rfl, hsome⟩ := duplicate_of_handle h.sound hanswer
    exact ⟨hm, segments, hsplit, h.addresses hsome⟩
  mount pattern sub m path hsub hanswer := by
    obtain ⟨above, segments, hsplit, rfl, hbelow, hsome⟩ :=
      duplicate_of_mount h.sound hsub.sound hanswer
    exact ⟨above, segments, hsplit, hbelow, h.addresses hsome⟩

end Router

end

namespace Router

open Regex.Standard

/-- A router with the route `a{n/{x}:y\{}`, whose wildcard stands right behind a literal, has a
slash and braces in its name, and hides a brace in its expression. -/
def braced : Router :=
  let pattern := ['a', '{', 'n', '/', '{', 'x', '}', ':', 'y', '\\', '{', '}']
  ((Router.new {}).handle .get pattern silent).router

theorem reachable_braced : braced.Reachable := .handle _ _ _ _ (.new _ _)

theorem rereads_braced :
    let body := ['{', 'n', '/', '{', 'x', '}', ':', 'y', '\\', '{', '}']
    let path := '/' :: 'a' :: '/' :: body
    let segments := [.literal ['a'], .regex ['n', '/', '{', 'x', '}'] ['y', '\\', '{']]
    braced.Reachable ∧
      (braced.handle .get ('a' :: body) silent).answer = .error (.duplicateRoute .get path) ∧
      braced.Addresses .get path segments := by
  intro body path segments
  have hanswer :
      (braced.handle .get ('a' :: body) silent).answer = .error (.duplicateRoute .get path) := rfl
  obtain ⟨-, segments', hsplit, haddresses⟩ :=
    reachable_braced.rereads.handle _ _ _ _ _ _ hanswer
  obtain rfl : segments = segments' := Except.ok.inj hsplit
  exact ⟨reachable_braced, hanswer, haddresses⟩

end Router

end Routing
