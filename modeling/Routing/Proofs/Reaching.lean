import Routing.Proofs.Aiming
import Routing.Proofs.Finding

/-!
# Reaching routes

A walk never comes back, so a route is missed wherever a branch that is tried earlier takes the
text that was meant for one of its segments. Nothing else keeps a path from its route.

* `Segment.Takes` — which texts a branch takes, whatever follows them.
* `Segment.FirstToTake`, `Instance.Granted` — the branch that takes a text first, and what that
  says of the others.
* `Instance.path` — a text for each segment, put together as a path.
* `Node.Walks.granted`, `Node.Sound.exists_walks` — along such a path the walk takes these segments
  if and only if each of them gets its text.
* `Router.Reachable.find_iff_granted` — which paths of a route find it.
-/

namespace Routing

section

variable [Regex.Engine]

/-! ## The branch that takes a text first -/

namespace Segment

/-- A branch for the segment takes a path that goes on with this text, up to a slash or the end. -/
def Takes : Segment → Text → Prop
  | literal id, text => id <+: text
  | regex _ raw, text => Constraint.Admits raw text
  | wildcard _, _ => True

/-- Of these branches that for `s` is the first that takes the text. -/
def FirstToTake (branches : List Segment) (s : Segment) (text : Text) : Prop :=
  ∃ before after, branches = before ++ s :: after ∧ s.Takes text ∧ ∀ t ∈ before, ¬ t.Takes text

omit [Regex.Engine] in
theorem leads_of_mem_before {before after : List Segment} {s t : Segment}
    (h : (before ++ s :: after).Pairwise Leads) (ht : t ∈ before) : t.Leads s :=
  (List.pairwise_append.1 h).2.2 t ht s List.mem_cons_self

end Segment

namespace Instance

/-- Among these branches the segment gets its text. -/
structure Granted (i : Instance) (branches : List Segment) : Prop where
  /-- No literal takes the beginning of what a wildcard stands for. -/
  literals : i.segment.isWildcard = true → ∀ id, .literal id ∈ branches → ¬ id <+: i.text
  /-- An expression admits the text, and those before it do not. -/
  expressions : ∀ name raw, i.segment = .regex name raw → Constraint.Admits raw i.text ∧
    ∃ before after, branches = before ++ i.segment :: after ∧
      ∀ name' raw', .regex name' raw' ∈ before → ¬ Constraint.Admits raw' i.text
  /-- No expression admits the text of a plain wildcard. -/
  wildcards : ∀ name, i.segment = .wildcard name →
    ∀ name' raw', .regex name' raw' ∈ branches → ¬ Constraint.Admits raw' i.text

/-- A literal gets its text whatever the branches are. -/
theorem granted_of_literal {i : Instance} (h : i.segment.isWildcard = false)
    (branches : List Segment) : i.Granted branches := by
  refine ⟨fun hw => ?_, fun name raw hs => ?_, fun name hs => ?_⟩
  · rw [h] at hw
    cases hw
  · rw [hs] at h
    cases h
  · rw [hs] at h
    cases h

omit [Regex.Engine] in
theorem bindings_of_literals {is : List Instance}
    (h : ∀ i ∈ is, i.segment.isWildcard = false) : bindings is = ⟨[]⟩ := by
  rw [bindings, List.filterMap_eq_nil_iff.2]
  intro i hi
  have hliteral := h i hi
  obtain ⟨segment, text⟩ := i
  cases segment with
  | literal id => rfl
  | regex name raw => cases hliteral
  | wildcard name => cases hliteral

/-- What a branch that takes the text first says of the others: no literal stands behind a wildcard,
and no expression behind the plain one. -/
theorem granted_of_firstToTake {branches : List Segment}
    (hb : branches.Pairwise Segment.Leads) {i : Instance}
    (h : Segment.FirstToTake branches i.segment i.text) : i.Granted branches := by
  obtain ⟨segment, text⟩ := i
  obtain ⟨before, after, rfl, htakes, hbefore⟩ := h
  have hafter : ∀ t ∈ after, segment.Leads t :=
    (List.pairwise_cons.1 (List.pairwise_append.1 hb).2.1).1
  refine ⟨fun hw id hid => ?_, fun name raw hs => ?_, fun name hs name' raw' ht => ?_⟩
  · rcases List.mem_append.1 hid with hearlier | hhere
    · exact hbefore _ hearlier
    · rcases List.mem_cons.1 hhere with heq | hlater
      · rw [← heq] at hw
        cases hw
      · have hleads : segment.Leads (.literal id) := hafter _ hlater
        cases segment with
        | literal _ => cases hw
        | regex _ _ => exact hleads.elim
        | wildcard _ => exact hleads.elim
  · obtain rfl : segment = .regex name raw := hs
    exact ⟨htakes, before, after, rfl, fun name' raw' ht => hbefore _ ht⟩
  · obtain rfl : segment = .wildcard name := hs
    rcases List.mem_append.1 ht with hearlier | hhere
    · exact hbefore _ hearlier
    · rcases List.mem_cons.1 hhere with heq | hlater
      · cases heq
      · exact (hafter _ hlater).elim

/-- A segment that gets its text has the first branch that takes it. Before a literal there are
only literals that do not begin it. -/
theorem Granted.firstToTake {branches : List Segment} (hb : branches.Pairwise Segment.Leads)
    {i : Instance} (hi : i.segment ∈ branches) (hplain : i.Plain) (h : i.Granted branches) :
    Segment.FirstToTake branches i.segment i.text := by
  obtain ⟨segment, text⟩ := i
  cases segment with
  | literal id =>
    obtain rfl : text = id := hplain
    obtain ⟨before, after, rfl⟩ := List.append_of_mem hi
    refine ⟨before, after, rfl, List.prefix_refl text, fun t ht htakes => ?_⟩
    have hleads : t.Leads (.literal text) := Segment.leads_of_mem_before hb ht
    cases t with
    | literal id =>
      exact List.not_lt.2 (List.IsPrefix.le htakes) hleads
    | regex _ _ => exact hleads.elim
    | wildcard _ => exact hleads.elim
  | regex name raw =>
    obtain ⟨hadmits, before, after, rfl, hbefore⟩ := h.expressions name raw rfl
    refine ⟨before, after, rfl, hadmits, fun t ht htakes => ?_⟩
    have hleads : t.Leads (.regex name raw) := Segment.leads_of_mem_before hb ht
    cases t with
    | literal id => exact h.literals rfl id (List.mem_append_left _ ht) htakes
    | regex name' raw' => exact hbefore name' raw' ht htakes
    | wildcard _ => exact hleads.elim
  | wildcard name =>
    obtain ⟨before, after, rfl⟩ := List.append_of_mem hi
    refine ⟨before, after, rfl, trivial, fun t ht htakes => ?_⟩
    have hleads : t.Leads (.wildcard name) := Segment.leads_of_mem_before hb ht
    cases t with
    | literal id => exact h.literals rfl id (List.mem_append_left _ ht) htakes
    | regex name' raw' =>
      exact h.wildcards name rfl name' raw' (List.mem_append_left _ ht) htakes
    | wildcard _ => exact hleads.elim

end Instance

/-! ## What an edge takes of a part of a path -/

omit [Regex.Engine] in
/-- A text without a slash begins a path only within the first part. -/
theorem prefix_append_of_boundary {id text rest : Text} (hid : '/' ∉ id) (hrest : Boundary rest) :
    id <+: text ++ rest ↔ id <+: text := by
  constructor
  · intro h
    rcases hrest with rfl | ⟨more, rfl⟩
    · rwa [List.append_nil] at h
    · rcases List.prefix_or_prefix_of_prefix h (List.prefix_append text _) with h' | ⟨behind, rfl⟩
      · exact h'
      · cases behind with
        | nil => simp
        | cons c behind =>
          have hbehind : c :: behind <+: '/' :: more := (List.prefix_append_right_inj text).1 h
          obtain ⟨rfl, -⟩ := List.cons_prefix_cons.1 hbehind
          exact absurd (by simp) hid
  · intro h
    exact h.trans (List.prefix_append text rest)

omit [Regex.Engine] in
theorem nextPart?_append {text rest : Text} (hne : text ≠ []) (hslash : '/' ∉ text)
    (hrest : Boundary rest) : nextPart? (text ++ rest) = some (text, rest) :=
  nextPart?_eq_some_iff.2 ⟨rfl, hne, hslash, hrest⟩

namespace Edge

/-- **An edge goes on from a part of a path if its segment takes the part.** -/
theorem advance?_isSome_iff {edge : Edge} (hproper : edge.segment.Proper) {text rest : Text}
    (hne : text ≠ []) (hslash : '/' ∉ text) (hrest : Boundary rest) :
    (edge.advance? (text ++ rest)).isSome ↔ edge.segment.Takes text := by
  cases edge with
  | literal id =>
    have hprefix : id <+: text ++ rest ↔ id <+: text :=
      prefix_append_of_boundary hproper.2.1 hrest
    rw [segment, Segment.Takes, ← hprefix, advance?, Option.isSome_map,
      Option.isSome_iff_exists]
    constructor
    · rintro ⟨a, ha⟩
      exact ⟨a, (Text.dropOpening?_eq_some_iff.1 ha).symm⟩
    · rintro ⟨a, ha⟩
      exact ⟨a, Text.dropOpening?_eq_some_iff.2 ha.symm⟩
  | regex name c =>
    rw [advance?, nextPart?_append hne hslash hrest, segment, Segment.Takes, Constraint.admits_raw]
    simp
  | wildcard name =>
    rw [advance?, nextPart?_append hne hslash hrest, segment, Segment.Takes]
    simp

/-- The edge of a segment takes the text that stands for it, and all of that. -/
theorem advance?_instance {edge : Edge} {i : Instance} (hs : edge.segment = i.segment)
    (hplain : i.Plain) (hproper : i.segment.Proper) {rest : Text} (hrest : Boundary rest)
    {a : Advance} (h : edge.advance? (i.text ++ rest) = some a) :
    a = ⟨i.binding?.map Param.value, rest⟩ := by
  have hne : i.text ≠ [] := hplain.text_ne_nil hproper
  have hslash : '/' ∉ i.text := hplain.not_mem_text hproper
  obtain ⟨s, text⟩ := i
  subst hs
  cases edge with
  | literal id =>
    obtain rfl : text = id := hplain
    obtain ⟨rest', hrest', rfl⟩ := Option.map_eq_some_iff.1 h
    have happend := Text.dropOpening?_eq_some_iff.1 hrest'
    rw [List.append_cancel_left happend]
    rfl
  | regex name c =>
    rw [advance?, nextPart?_append hne hslash hrest] at h
    simp only [Option.bind_some, Option.ite_none_right_eq_some, Option.some.injEq] at h
    exact h.2.symm
  | wildcard name =>
    rw [advance?, nextPart?_append hne hslash hrest] at h
    exact (Option.some.inj h).symm

/-- An edge captures what the segment binds. -/
theorem map_binding (edge : Edge) {i : Instance} (hs : edge.segment = i.segment) :
    i.binding?.map (fun b => ⟨edge.id, b.value⟩) = i.binding? := by
  obtain ⟨s, text⟩ := i
  subst hs
  cases edge <;> rfl

end Edge

/-- The branch that is followed is the one of the segment that is first to take the text. -/
theorem Branches.exists_follows_iff {ρ : Type} {b : Branches ρ}
    (hproper : ∀ s ∈ b.segments, s.Proper) {s : Segment} {text rest : Text} (hne : text ≠ [])
    (hslash : '/' ∉ text) (hrest : Boundary rest) :
    (∃ edge child a, b.Follows (text ++ rest) edge child a ∧ edge.segment = s) ↔
      Segment.FirstToTake b.segments s text := by
  have hsegments := b.segments_eq_children
  have htakes : ∀ c ∈ b.children,
      ((c.1.advance? (text ++ rest)).isSome ↔ c.1.segment.Takes text) := by
    intro c hc
    have hc' : c.1.segment ∈ b.segments := hsegments ▸ List.mem_map_of_mem hc
    exact c.1.advance?_isSome_iff (hproper _ hc') hne hslash hrest
  constructor
  · rintro ⟨edge, child, a, ⟨before, after, hsplit, hedge, hbefore⟩, rfl⟩
    rw [hsplit] at htakes
    refine ⟨before.map fun c => c.1.segment, after.map fun c => c.1.segment, ?_, ?_, ?_⟩
    · rw [hsegments, hsplit, List.map_append, List.map_cons]
    · have hsome : (edge.advance? (text ++ rest)).isSome := by rw [hedge]; rfl
      exact (htakes (edge, child) (by simp)).1 hsome
    · rw [List.forall_mem_map]
      intro c hc hc'
      have hsome := (htakes c (List.mem_append_left _ hc)).2 hc'
      rw [hbefore c hc] at hsome
      cases hsome
  · rintro ⟨before, after, hsplit, hs, hbefore⟩
    rw [hsegments] at hsplit
    obtain ⟨earlier, others, hchildren, rfl, hothers⟩ := List.map_eq_append_iff.1 hsplit
    obtain ⟨⟨edge, child⟩, later, rfl, rfl, rfl⟩ := List.map_eq_cons_iff.1 hothers
    rw [hchildren] at htakes
    have hsome := (htakes (edge, child) (by simp)).2 hs
    obtain ⟨a, ha⟩ := Option.isSome_iff_exists.1 hsome
    refine ⟨edge, child, a, ⟨earlier, later, hchildren, ha, fun c hc => ?_⟩, rfl⟩
    have hnot := hbefore c.1.segment (List.mem_map_of_mem hc)
    rw [← htakes c (List.mem_append_left _ hc), Option.not_isSome_iff_eq_none] at hnot
    exact hnot

/-! ## Paths with a text for each segment -/

namespace Instance

/-- The texts, each with a slash before it. -/
def joined (is : List Instance) : Text := is.flatMap fun i => '/' :: i.text

/-- The texts put together as a path. -/
def path : List Instance → Text
  | [] => ['/']
  | is => joined is

omit [Regex.Engine] in
theorem joined_cons (i : Instance) (is : List Instance) :
    joined (i :: is) = '/' :: (i.text ++ joined is) := rfl

omit [Regex.Engine] in
theorem boundary_joined (is : List Instance) : Boundary (joined is) := by
  cases is with
  | nil => exact Or.inl rfl
  | cons i is => exact Or.inr ⟨_, joined_cons i is⟩

end Instance

namespace Node

open Instance (joined)

variable {ρ : Type}

/-- Walks begin behind the slash, if there is one. -/
theorem Walks.congr {n : Node ρ} {path path' : Text} (hpath : skipSlash path = skipSlash path')
    {arrival : Arrival ρ} (h : n.Walks path arrival) : n.Walks path' arrival := by
  cases h with
  | stop hstop => exact .stop (hpath ▸ hstop)
  | go hgo hfollows hlast => exact .go (hpath ▸ hgo) (hpath ▸ hfollows) hlast

theorem walks_path_iff {n : Node ρ} {is : List Instance} {arrival : Arrival ρ} :
    n.Walks (Instance.path is) arrival ↔ n.Walks (joined is) arrival := by
  cases is with
  | nil =>
    have hstop : skipSlash (Instance.path []) = skipSlash (joined []) := rfl
    exact ⟨fun h => h.congr hstop, fun h => h.congr hstop.symm⟩
  | cons i is => exact Iff.rfl

/-- An edge that is followed for a segment takes its text, which was granted. -/
theorem Sound.granted_of_follows {n child : Node ρ} (hn : n.Sound) {i : Instance}
    (hplain : i.Plain) {rest : Text} (hrest : Boundary rest) {edge : Edge} {a : Advance}
    (h : n.below.Follows (i.text ++ rest) edge child a) (hs : edge.segment = i.segment) :
    i.Granted n.below.segments ∧ a.rest = rest := by
  have hmem : i.segment ∈ n.below.segments := by
    rw [n.below.segments_eq_children, ← hs]
    exact List.mem_map_of_mem h.mem_children
  have hproper : i.segment.Proper := hn.proper [] i.segment hmem
  have hfirst := (Branches.exists_follows_iff (hn.proper []) (hplain.text_ne_nil hproper)
    (hplain.not_mem_text hproper) hrest).1 ⟨edge, child, a, h, hs⟩
  obtain ⟨before, after, -, hedge, -⟩ := h
  have ha := edge.advance?_instance hs hplain hproper hrest hedge
  exact ⟨Instance.granted_of_firstToTake (hn.ordered []) hfirst, by rw [ha]⟩

/-- The edge of a segment is followed when its text is granted. -/
theorem Sound.exists_follows {n child : Node ρ} (hn : n.Sound) {i : Instance} (hplain : i.Plain)
    {rest : Text} (hrest : Boundary rest)
    (hfind : n.below.find? (Edge.madeFrom i.segment) = some child)
    (h : i.Granted n.below.segments) :
    ∃ edge, edge.segment = i.segment ∧
      n.below.Follows (i.text ++ rest) edge child ⟨i.binding?.map Param.value, rest⟩ := by
  have hmem : i.segment ∈ n.below.segments := Branches.mem_segments_of_find? hfind
  have hproper : i.segment.Proper := hn.proper [] i.segment hmem
  have hfirst := h.firstToTake (hn.ordered []) hmem hplain
  obtain ⟨edge, child', a, hfollows, hs⟩ :=
    (Branches.exists_follows_iff (hn.proper []) (hplain.text_ne_nil hproper)
      (hplain.not_mem_text hproper) hrest).2 hfirst
  obtain rfl : child' = child := by
    have hfind' := hn.find?_of_follows hfollows
    rw [hs, hfind] at hfind'
    exact (Option.some.inj hfind').symm
  obtain ⟨before, after, -, hedge, -⟩ := id hfollows
  rw [edge.advance?_instance hs hplain hproper hrest hedge] at hfollows
  exact ⟨edge, hs, hfollows⟩

/-- **A walk that takes the segments gave each of them its text.** -/
theorem Walks.granted {n : Node ρ} (hn : n.Sound) {is : List Instance} (his : ∀ i ∈ is, i.Plain)
    {arrival : Arrival ρ} (h : n.Walks (joined is) arrival)
    (hs : arrival.segments = is.map Instance.segment) :
    ∀ above i after, is = above ++ i :: after →
      i.Granted (n.branchesAt (above.map Instance.segment)) := by
  induction is generalizing n arrival with
  | nil =>
    intro above i after hsplit
    simp at hsplit
  | cons first is ih =>
    obtain ⟨hfirst, his⟩ := List.forall_mem_cons.1 his
    cases h with
    | stop hstop => cases hs
    | @go _ child _ edge a last hgo hfollows hlast =>
      obtain ⟨hedge, hsegments⟩ := List.cons.inj hs
      obtain ⟨hgranted, hrest⟩ :=
        hn.granted_of_follows hfirst (Instance.boundary_joined is) hfollows hedge
      have hfind := hn.find?_of_follows hfollows
      rw [hedge] at hfind
      intro above i after hsplit
      cases above with
      | nil =>
        obtain ⟨rfl, -⟩ := List.cons.inj hsplit
        exact hgranted
      | cons j above =>
        obtain ⟨rfl, hbehind⟩ := List.cons.inj hsplit
        rw [List.map_cons, branchesAt_of_find? hfind]
        exact ih (hn.child hfind) his (hrest ▸ hlast) hsegments above i after hbehind

/-- **When every segment is given its text, the walk takes the segments**, and it captures the
bindings of the wildcards. -/
theorem Sound.exists_walks {n last : Node ρ} (hn : n.Sound) {is : List Instance}
    (his : ∀ i ∈ is, i.Plain) (hlocate : n.locate? (is.map Instance.segment) = some last)
    (h : ∀ above i after, is = above ++ i :: after →
      i.Granted (n.branchesAt (above.map Instance.segment))) :
    ∃ captures, n.Walks (joined is) ⟨last, is.map Instance.segment, captures⟩ ∧
      captures.map Capture.param = is.filterMap Instance.binding? := by
  induction is generalizing n with
  | nil =>
    cases hlocate
    exact ⟨[], .stop rfl, rfl⟩
  | cons first is ih =>
    obtain ⟨hfirst, his⟩ := List.forall_mem_cons.1 his
    rw [List.map_cons, locate?_cons] at hlocate
    obtain ⟨child, hfind, hlocate⟩ := Option.bind_eq_some_iff.1 hlocate
    have hbelow : ∀ above i after, is = above ++ i :: after →
        i.Granted (child.branchesAt (above.map Instance.segment)) := by
      intro above i after hsplit
      have hgranted := h (first :: above) i after (by rw [hsplit, List.cons_append])
      rwa [List.map_cons, branchesAt_of_find? hfind] at hgranted
    obtain ⟨captures, hwalks, hcaptures⟩ := ih (hn.child hfind) his hlocate hbelow
    obtain ⟨edge, hedge, hfollows⟩ :=
      hn.exists_follows hfirst (Instance.boundary_joined is) hfind (h [] first is rfl)
    have hproper : first.segment.Proper :=
      hn.proper [] first.segment (Branches.mem_segments_of_find? hfind)
    have hgo : first.text ++ joined is ≠ [] := by
      intro hnil
      exact hfirst.text_ne_nil hproper (List.append_eq_nil_iff.1 hnil).1
    have hstep : n.Walks (joined (first :: is)) _ := .go hgo hfollows hwalks
    rw [Arrival.behind, hedge] at hstep
    refine ⟨_, hstep, ?_⟩
    have hbinding := edge.map_binding hedge
    cases hfirst : first.binding? with
    | none => simp [hfirst, hcaptures]
    | some b =>
      simp only [hfirst, Option.map_some, Option.some.injEq] at hbinding
      simp [hfirst, hcaptures, hbinding]

end Node

namespace Router

/-- A route is found for the texts of its segments when each of them is granted. -/
theorem Reachable.find_of_granted {r : Router} (h : r.Reachable) {m : Method}
    {is : List Instance} {route : Route}
    (hroute : r.table m (is.map Instance.segment) = some route) (his : ∀ i ∈ is, i.Plain)
    {path : Text} (hpath : Text.Percent.text path = Instance.path is)
    (hgranted : ∀ above i after, is = above ++ i :: after →
      i.Granted ((r.forest.root m).branchesAt (above.map Instance.segment))) :
    r.seal.foundAt? m path = some (is.map Instance.segment) ∧
      (r.seal.find m path).answer = route.found (Instance.bindings is) := by
  have hsound := h.sound.root m
  obtain ⟨last, hlocate, hlast⟩ : ∃ last,
      (r.forest.root m).locate? (is.map Instance.segment) = some last ∧
        last.route = some route := by
    rw [table, Forest.route?_eq, Node.routeAt_eq] at hroute
    exact Option.bind_eq_some_iff.1 hroute
  obtain ⟨captures, hwalks, hcaptures⟩ := hsound.exists_walks his hlocate hgranted
  rw [← Node.walks_path_iff, ← hpath] at hwalks
  have harrive : r.seal.arrive? m (Text.Percent.text path) =
      some (⟨last, is.map Instance.segment, captures⟩, route) :=
    Sealed.arrive?_eq_some_iff.2 ⟨hwalks, hlast⟩
  constructor
  · rw [Sealed.foundAt?, harrive, Option.map_some]
  · rw [h.find_of_arrive? harrive, hwalks.params hsound (h.sound.slots_root m), hcaptures,
      Instance.bindings]

/-- A route that is found for the texts of its segments was granted each of them. -/
theorem Reachable.granted_of_foundAt? {r : Router} (h : r.Reachable) {m : Method}
    {is : List Instance} (his : ∀ i ∈ is, i.Plain) {path : Text}
    (hpath : Text.Percent.text path = Instance.path is)
    (hat : r.seal.foundAt? m path = some (is.map Instance.segment)) :
    ∀ above i after, is = above ++ i :: after →
      i.Granted ((r.forest.root m).branchesAt (above.map Instance.segment)) := by
  obtain ⟨⟨arrival, route⟩, harrive, hsegments⟩ := Option.map_eq_some_iff.1 hat
  obtain ⟨hwalks, -⟩ := Sealed.arrive?_eq_some_iff.1 harrive
  rw [hpath] at hwalks
  exact (Node.walks_path_iff.1 hwalks).granted (h.sound.root m) his hsegments

/-- **Which paths of a route find it.** A path that has a text for each segment of a route finds the
route if and only if every wildcard gets its text: no literal beside it begins the text, and of the
expressions beside it none that is tried earlier admits the text. Nothing keeps a path from a route
without wildcards. -/
theorem Reachable.find_iff_granted {r : Router} (h : r.Reachable) {m : Method}
    {is : List Instance} {route : Route}
    (hroute : r.table m (is.map Instance.segment) = some route) (his : ∀ i ∈ is, i.Plain)
    {path : Text} (hpath : Text.Percent.text path = Instance.path is) :
    (r.seal.foundAt? m path = some (is.map Instance.segment) ∧
        (r.seal.find m path).answer = route.found (Instance.bindings is) ↔
      ∀ above i after, is = above ++ i :: after →
        i.Granted ((r.forest.root m).branchesAt (above.map Instance.segment))) ∧
    ((∀ i ∈ is, i.segment.isWildcard = false) →
      r.seal.foundAt? m path = some (is.map Instance.segment) ∧
        (r.seal.find m path).answer = route.found ⟨[]⟩) := by
  refine ⟨⟨?_, ?_⟩, ?_⟩
  · intro hfind
    exact h.granted_of_foundAt? his hpath hfind.1
  · intro hgranted
    exact h.find_of_granted hroute his hpath hgranted
  · intro hliterals
    rw [← Instance.bindings_of_literals hliterals]
    apply h.find_of_granted hroute his hpath
    intro above i after hsplit
    have hi : i ∈ is := by simp [hsplit]
    exact Instance.granted_of_literal (hliterals i hi) _

end Router

end

namespace Router

open Regex.Standard

/-- Beside `/{n:[0-9]}/b` the route `/{x}/b` is found for `/c/b`. -/
theorem find_iff_granted_numbered :
    let is : List Instance := [⟨.wildcard ['x'], ['c']⟩, ⟨.literal ['b'], ['b']⟩]
    let path := ['/', 'c', '/', '%', '6', '2']
    let segments := is.map Instance.segment
    ∃ route, numbered.table .get segments = some route ∧ (∀ i ∈ is, i.Plain) ∧
      Text.Percent.text path = Instance.path is ∧
      (numbered.seal.foundAt? .get path = some segments ∧
          (numbered.seal.find .get path).answer = route.found (Instance.bindings is) ↔
        ∀ above i after, is = above ++ i :: after →
          i.Granted ((numbered.forest.root .get).branchesAt (above.map Instance.segment))) ∧
      ((∀ i ∈ is, i.segment.isWildcard = false) →
        numbered.seal.foundAt? .get path = some segments ∧
          (numbered.seal.find .get path).answer = route.found ⟨[]⟩) ∧
      numbered.seal.foundAt? .get path = some segments := by
  intro is path segments
  have his : ∀ i ∈ is, i.Plain := by decide
  have hpath : Text.Percent.text path = Instance.path is := rfl
  obtain ⟨route, hroute⟩ : ∃ route, numbered.table .get (is.map Instance.segment) = some route :=
    ⟨_, rfl⟩
  have hiff := reachable_numbered.find_iff_granted hroute his hpath
  exact ⟨route, hroute, his, hpath, hiff.1, hiff.2, rfl⟩

end Router

end Routing
