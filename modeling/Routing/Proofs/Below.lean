import Routing.Proofs.Reaching
import Routing.Serving.Stock

/-!
# Below a prefix

Where a router without routes of its own has mounted another one, a path goes along the prefix
without a choice, and from there on as it would have gone in the other router.

* `Node.Walks.transfer` — trees with the same branches have the same walks.
* `Node.Sound.walk?_alone` — a walk along branches that stand alone.
* `Forest.Placed.branchesAt_below`, `Forest.Placed.branchesAt_above` — the branches of a tree whose
  routes are all below a prefix.
* `Router.Reachable.find_below` — what is found below the prefix.
-/

namespace Routing

open Instance (joined)
open Segment (Before)

section

variable [Regex.Engine]

/-! ## Trees with the same branches -/

/-- What is followed is told by the segments of the branches. -/
theorem Branches.exists_follows_of_segments {ρ σ : Type} {b : Branches ρ} {b' : Branches σ}
    (h : b.segments = b'.segments) {ahead : Text} {edge : Edge} {child : Node ρ} {a : Advance}
    (hfollows : b.Follows ahead edge child a) : ∃ child', b'.Follows ahead edge child' a := by
  have hedges : b'.children.map Prod.fst = b.children.map Prod.fst := by
    apply List.map_injective_iff.2 fun _ _ => Edge.segment_injective
    rw [List.map_map, List.map_map]
    exact b'.segments_eq_children.symm.trans (h.symm.trans b.segments_eq_children)
  obtain ⟨before, after, hsplit, hedge, hbefore⟩ := hfollows
  rw [hsplit, List.map_append, List.map_cons] at hedges
  obtain ⟨before', others, hsplit', hfirst, hothers⟩ := List.map_eq_append_iff.1 hedges
  obtain ⟨⟨edge', child'⟩, after', rfl, hedge', -⟩ := List.map_eq_cons_iff.1 hothers
  obtain rfl : edge' = edge := hedge'
  refine ⟨child', before', after', hsplit', hedge, fun c hc => ?_⟩
  have hmem : c.1 ∈ before.map Prod.fst := hfirst ▸ List.mem_map_of_mem hc
  obtain ⟨d, hd, hsame⟩ := List.mem_map.1 hmem
  rw [← hsame]
  exact hbefore d hd

namespace Node

variable {ρ σ : Type}

/-- **Trees with the same branches have the same walks.** -/
theorem Walks.transfer {n : Node ρ} {n' : Node σ} (hn : n.Sound) (hn' : n'.Sound)
    (hb : ∀ position, n.branchesAt position = n'.branchesAt position) {path : Text}
    {arrival : Arrival ρ} (h : n.Walks path arrival) :
    ∃ arrival', n'.Walks path arrival' ∧ arrival'.segments = arrival.segments ∧
      arrival'.captures.map Capture.param = arrival.captures.map Capture.param := by
  induction h generalizing n' with
  | stop hstop => exact ⟨⟨n', [], []⟩, .stop hstop, rfl, rfl⟩
  | @go n child path edge a last hgo hfollows _ ih =>
    obtain ⟨child', hfollows'⟩ := Branches.exists_follows_of_segments (hb []) hfollows
    have hchild := hn.find?_of_follows hfollows
    have hchild' := hn'.find?_of_follows hfollows'
    have hbelow : ∀ position, child.branchesAt position = child'.branchesAt position := by
      intro position
      rw [← branchesAt_of_find? hchild, ← branchesAt_of_find? hchild', hb]
    obtain ⟨last', hlast', hsegments, hcaptures⟩ := ih (hn.child hchild) (hn'.child hchild') hbelow
    refine ⟨_, .go hgo hfollows' hlast', ?_, ?_⟩
    · simp [Arrival.behind, hsegments]
    · cases a.part <;> simp [Arrival.behind, hcaptures]

end Node

/-! ## Branches that stand alone -/

/-- A branch that stands alone gets every text that it accepts. -/
theorem Instance.Accepted.granted {i : Instance} (h : i.Accepted) : i.Granted [i.segment] := by
  obtain ⟨segment, text⟩ := i
  refine ⟨fun hw id hid => ?_, fun name raw hs => ?_, fun name hs name' raw' hmem => ?_⟩
  · obtain rfl : Segment.literal id = segment := List.mem_singleton.1 hid
    cases hw
  · obtain rfl : segment = .regex name raw := hs
    exact ⟨h, [], [], rfl, by simp⟩
  · obtain rfl : segment = .wildcard name := hs
    have hsame := List.mem_singleton.1 hmem
    cases hsame

omit [Regex.Engine] in
theorem Boundary.joined_append {rest : Text} (h : Boundary rest) (is : List Instance) :
    Boundary (joined is ++ rest) := by
  cases is with
  | nil => exact h
  | cons i is => exact Or.inr ⟨i.text ++ joined is ++ rest, rfl⟩

/-- A branch that stands alone is followed by every instance that it accepts. -/
theorem Node.Sound.walk?_single {ρ : Type} {n : Node ρ} (hn : n.Sound) {i : Instance}
    (hplain : i.Plain) (haccepted : i.Accepted) (halone : n.below.segments = [i.segment])
    {rest : Text} (hrest : Boundary rest) :
    ∃ child captures, n.below.find? (Edge.madeFrom i.segment) = some child ∧
      captures.map Capture.param = i.binding?.toList ∧
      n.walk? ('/' :: (i.text ++ rest)) = (child.walk? rest).map fun last =>
        ⟨last.node, i.segment :: last.segments, captures ++ last.captures⟩ := by
  have hproper : i.segment.Proper := hn.proper [] _ (by simp [branchesAt_nil, halone])
  obtain ⟨child, hchild⟩ : ∃ child, n.below.find? (Edge.madeFrom i.segment) = some child := by
    rw [← Option.ne_none_iff_exists', ne_eq, Branches.find?_madeFrom_eq_none_iff, halone]
    simp
  obtain ⟨edge, hedge, hfollows⟩ :=
    hn.exists_follows hplain hrest hchild (halone ▸ haccepted.granted)
  have hgo : i.text ++ rest ≠ [] := by
    intro hnil
    exact hplain.text_ne_nil hproper (List.append_eq_nil_iff.1 hnil).1
  have hwalk : n.walk? ('/' :: (i.text ++ rest)) = n.below.walk? (i.text ++ rest) :=
    walk?_of_go hgo
  have hbinding := edge.map_binding hedge
  refine ⟨child, i.binding?.toList.map fun b => ⟨child.slots - 1, edge.id, b.value⟩, hchild, ?_, ?_⟩
  · cases hi : i.binding? with
    | none => rfl
    | some b =>
      simp only [hi, Option.map_some, Option.some.injEq] at hbinding
      simp [hbinding]
  · rw [hwalk, Branches.walk?_of_follows hfollows]
    congr 1
    funext last
    cases i.binding? <;> simp [Arrival.behind, hedge]

/-- **A walk has no choice along branches that stand alone.** -/
theorem Node.Sound.walk?_alone {ρ : Type} {n : Node ρ} (hn : n.Sound) {is : List Instance}
    (his : ∀ i ∈ is, i.Plain ∧ i.Accepted)
    (halone : ∀ above i after, is = above ++ i :: after →
      n.branchesAt (above.map Instance.segment) = [i.segment])
    {rest : Text} (hrest : Boundary rest) :
    ∃ c captures, n.locate? (is.map Instance.segment) = some c ∧
      captures.map Capture.param = is.filterMap Instance.binding? ∧
      n.walk? (joined is ++ rest) = (c.walk? rest).map fun last =>
        ⟨last.node, is.map Instance.segment ++ last.segments, captures ++ last.captures⟩ := by
  induction is generalizing n with
  | nil => exact ⟨n, [], rfl, rfl, by simp [joined]⟩
  | cons i is ih =>
    obtain ⟨⟨hplain, haccepted⟩, his⟩ := List.forall_mem_cons.1 his
    obtain ⟨child, binding, hchild, hbinding, hstep⟩ :=
      hn.walk?_single hplain haccepted (halone [] i is rfl) (hrest.joined_append is)
    have hbelow : ∀ above j after, is = above ++ j :: after →
        child.branchesAt (above.map Instance.segment) = [j.segment] := by
      intro above j after hsplit
      rw [← branchesAt_of_find? hchild]
      exact halone (i :: above) j after (by rw [hsplit, List.cons_append])
    obtain ⟨c, captures, hlocate, hcaptures, hwalk⟩ := ih (hn.child hchild) his hbelow
    refine ⟨c, binding ++ captures, ?_, ?_, ?_⟩
    · rw [List.map_cons, locate?_cons, hchild, Option.bind_some, hlocate]
    · rw [List.map_append, hbinding, hcaptures]
      cases hi : i.binding? <;> simp [hi]
    · rw [Instance.joined_cons, List.cons_append, List.append_assoc, hstep, hwalk, Option.map_map]
      congr 1
      funext last
      simp

/-! ## The trees of a router that mounted another one -/

/-- Branches are on the way to routes. -/
theorem Node.Sound.branchesAt_eq_nil {ρ : Type} {n : Node ρ} (hn : n.Sound)
    (h : ∀ key, n.routeAt key = none) (position : List Segment) : n.branchesAt position = [] := by
  rw [List.eq_nil_iff_forall_not_mem]
  intro s hs
  obtain ⟨⟨key, route⟩, hentry, -⟩ := hn.exists_route hs
  have hroute := hn.mem_routes_iff.1 hentry
  rw [h key] at hroute
  cases hroute

theorem Node.branchesAt_append_of_locate? {ρ : Type} {n c : Node ρ} {above : List Segment}
    (h : n.locate? above = some c) (position : List Segment) :
    n.branchesAt (above ++ position) = c.branchesAt position := by
  unfold branchesAt labelAt?
  rw [locate?_append, h, Option.bind_some]

namespace Forest

variable {f f' sub : Forest} {above : List Segment} {outer : Chain}

/-- Behind the prefix there are the branches of the tree that was mounted. -/
theorem Placed.branchesAt_below (h : f.Placed (sub.entries.map (Entry.below above outer)) f')
    (hsub : sub.Sound) (hempty : ∀ m position, (f.root m).branchesAt position = []) (m : Method)
    (position : List Segment) :
    (f'.root m).branchesAt (above ++ position) = (sub.root m).branchesAt position := by
  rw [h.branchesAt, hempty, Entry.filterMap_next?_below, hsub.seatAll_entries]

/-- On the way along the prefix every branch stands alone, in the tree of a method that has
routes. -/
theorem Placed.branchesAt_above (h : f.Placed (sub.entries.map (Entry.below above outer)) f')
    (hempty : ∀ m position, (f.root m).branchesAt position = []) {e : Entry}
    (he : e ∈ sub.entries) {before after : List Segment} {s : Segment}
    (habove : above = before ++ s :: after) : (f'.root e.method).branchesAt before = [s] := by
  have hnext (segments : List Segment) : Routing.next? before (above ++ segments) = some s := by
    rw [Routing.next?_eq_some_iff, habove]
    exact ⟨after ++ segments, by simp⟩
  have hmem : s ∈ (sub.entries.map (Entry.below above outer)).filterMap
      (·.next? e.method before) := by
    rw [List.mem_filterMap]
    exact ⟨_, List.mem_map_of_mem he, Entry.next?_eq_some_iff.2 ⟨rfl, hnext e.segments⟩⟩
  have hall : ∀ t ∈ (sub.entries.map (Entry.below above outer)).filterMap
      (·.next? e.method before), t = s := by
    intro t ht
    obtain ⟨e', he', ht⟩ := List.mem_filterMap.1 ht
    obtain ⟨old, -, rfl⟩ := List.mem_map.1 he'
    have hthere := (Entry.next?_eq_some_iff.1 ht).2
    exact Option.some.inj (hthere.symm.trans (hnext old.segments))
  have hone (t : Segment) : t ∈ (sub.entries.map (Entry.below above outer)).filterMap
      (·.next? e.method before) ↔ t ∈ [s] := by
    rw [List.mem_singleton]
    exact ⟨hall t, fun ht => ht ▸ hmem⟩
  rw [h.branchesAt, hempty, seatAll_congr_of_constant Before hone hall []]
  rfl

/-- **The walks below the prefix are those of the tree that was mounted.** -/
theorem Placed.walks_below {is : List Instance}
    (h : f.Placed (sub.entries.map (Entry.below (is.map Instance.segment) outer)) f')
    (hsub : sub.Sound) (hempty : ∀ m position, (f.root m).branchesAt position = []) {e : Entry}
    (he : e ∈ sub.entries) (his : ∀ i ∈ is, i.Plain ∧ i.Accepted) {rest : Text}
    (hrest : Boundary rest) :
    (∀ last, (sub.root e.method).Walks rest last →
      ∃ arrival, (f'.root e.method).Walks (joined is ++ rest) arrival ∧
        arrival.segments = is.map Instance.segment ++ last.segments ∧
        arrival.captures.map Capture.param =
          is.filterMap Instance.binding? ++ last.captures.map Capture.param) ∧
    ∀ arrival, (f'.root e.method).Walks (joined is ++ rest) arrival →
      ∃ last, (sub.root e.method).Walks rest last ∧
        arrival.segments = is.map Instance.segment ++ last.segments := by
  have hroot : (f'.root e.method).Sound := h.sound.root e.method
  have halone : ∀ above i after, is = above ++ i :: after →
      (f'.root e.method).branchesAt (above.map Instance.segment) = [i.segment] := by
    intro above i after hsplit
    exact h.branchesAt_above hempty he (by rw [hsplit, List.map_append, List.map_cons])
  obtain ⟨c, captures, hlocate, hcaptures, hwalk⟩ := hroot.walk?_alone his halone hrest
  have hc : c.Sound := hroot.locate? hlocate
  have hbranches : ∀ position,
      c.branchesAt position = (sub.root e.method).branchesAt position := by
    intro position
    rw [← h.branchesAt_below hsub hempty e.method position,
      Node.branchesAt_append_of_locate? hlocate]
  constructor
  · intro last hlast
    obtain ⟨last', hlast', hsegments, hparams⟩ :=
      hlast.transfer (hsub.root e.method) hc fun position => (hbranches position).symm
    refine ⟨⟨last'.node, is.map Instance.segment ++ last'.segments, captures ++ last'.captures⟩,
      Node.walk?_eq_some_iff.1 ?_, ?_, ?_⟩
    · rw [hwalk, Node.walk?_eq_some_iff.2 hlast', Option.map_some]
    · rw [hsegments]
    · rw [List.map_append, hcaptures, hparams]
  · intro arrival harrival
    have hsome := Node.walk?_eq_some_iff.2 harrival
    rw [hwalk] at hsome
    obtain ⟨last, hlast, rfl⟩ := Option.map_eq_some_iff.1 hsome
    obtain ⟨last', hlast', hsegments, -⟩ :=
      (Node.walk?_eq_some_iff.1 hlast).transfer hc (hsub.root e.method) hbranches
    exact ⟨last', hlast', by rw [hsegments]⟩

end Forest

namespace Router

/-- What was mounted could be. -/
theorem placed_of_mount {r sub : Router} (hr : r.forest.Sound) (hsub : sub.forest.Sound)
    {path : Text} {above : List Segment} (hs : Pattern.split path = .ok above)
    (h : (r.mount path sub).answer = .ok ()) :
    r.forest.Placed (sub.forest.entries.map (Entry.below above r.chain))
      (r.mount path sub).router.forest := by
  by_cases hm : r.Mountable above sub
  · obtain ⟨f, hmount, hplaced, -⟩ := mount_of_mountable hr hsub hs hm
    rw [hmount]
    exact hplaced
  · obtain ⟨e, hmount⟩ := mount_of_not_mountable hr hs hm
    rw [hmount] at h
    cases h

/-- The route at the position of the segments is at the end of the walk. -/
theorem Reachable.route_of_walks {r : Router} (h : r.Reachable) {m : Method} {path : Text}
    {arrival : Arrival Route} (hwalks : (r.forest.root m).Walks path arrival) {route : Route}
    (hroute : r.table m arrival.segments = some route) : arrival.node.route = some route := by
  have hlocate := hwalks.locate? (h.sound.root m)
  rwa [table, Forest.route?_eq, Node.routeAt_eq, hlocate, Option.bind_some] at hroute

section

variable {r sub : Router} (h : r.Reachable) (hsub : sub.Reachable)
  (hempty : ∀ m key, r.table m key = none) {pattern : Text} {is : List Instance}
  (hs : Pattern.split pattern = .ok (is.map Instance.segment))
  (hok : (r.mount pattern sub).answer = .ok ())

include h hempty in
theorem branchesAt_eq_nil_of_empty (m : Method) (position : List Segment) :
    (r.forest.root m).branchesAt position = [] := by
  apply (h.sound.root m).branchesAt_eq_nil
  intro key
  rw [← Forest.route?_eq]
  exact hempty m key

include h hsub hs hok in
theorem table_below {m : Method} {segments : List Segment} {route : Route}
    (hroute : sub.table m segments = some route) :
    (r.mount pattern sub).router.table m (is.map Instance.segment ++ segments) =
      some (route.within r.chain) := by
  obtain ⟨above, hs', hbelow, -⟩ := mounted_table h.sound hsub.sound hok
  obtain rfl : above = is.map Instance.segment := Except.ok.inj (hs'.symm.trans hs)
  exact hbelow m segments route hroute

include h hsub hempty hs hok in
/-- Every route is one of the router that was mounted. -/
theorem exists_table_of_below {m : Method} {key : List Segment} {route : Route}
    (hroute : (r.mount pattern sub).router.table m key = some route) :
    ∃ segments old, key = is.map Instance.segment ++ segments ∧
      sub.table m segments = some old := by
  obtain ⟨above, hs', -, helsewhere, -⟩ := mounted_table h.sound hsub.sound hok
  obtain rfl : above = is.map Instance.segment := Except.ok.inj (hs'.symm.trans hs)
  by_contra hnone
  have hnot : (r.mount pattern sub).router.table m key = r.table m key := by
    apply helsewhere
    intro segments hsegments
    by_contra hsome
    obtain ⟨old, hold⟩ := Option.ne_none_iff_exists'.1 hsome
    exact hnone ⟨segments, old, hsegments, hold⟩
  rw [hnot, hempty] at hroute
  cases hroute

variable (his : ∀ i ∈ is, i.Plain ∧ i.Accepted) {m : Method} {rest : Text} (hrest : Boundary rest)

include h hsub hempty hs hok his hrest in
/-- What is arrived at alone is arrived at below the prefix. -/
theorem exists_arrive_below {last : Arrival Route} {route : Route}
    (harrive : sub.seal.arrive? m rest = some (last, route)) :
    ∃ arrival, (r.mount pattern sub).router.seal.arrive? m (joined is ++ rest) =
        some (arrival, route.within r.chain) ∧
      arrival.segments = is.map Instance.segment ++ last.segments ∧
      arrival.params = ⟨(Instance.bindings is).slots ++ last.params.slots⟩ := by
  have hmounted : (r.mount pattern sub).router.Reachable := .mount pattern h hsub
  obtain ⟨hlast, hroute⟩ := Sealed.arrive?_eq_some_iff.1 harrive
  have htable := hsub.table_of_walks hlast hroute
  have hentry : ⟨m, last.segments, route⟩ ∈ sub.forest.entries :=
    hsub.sound.mem_entries_iff.2 htable
  have hplaced := placed_of_mount h.sound hsub.sound hs hok
  obtain ⟨arrival, hwalks, hsegments, hcaptures⟩ :=
    (hplaced.walks_below hsub.sound (branchesAt_eq_nil_of_empty h hempty) hentry his hrest).1
      last hlast
  refine ⟨arrival, Sealed.arrive?_eq_some_iff.2 ⟨hwalks, ?_⟩, hsegments, ?_⟩
  · apply hmounted.route_of_walks hwalks
    rw [hsegments]
    exact table_below h hsub hs hok htable
  · rw [hwalks.params (hmounted.sound.root m) (hmounted.sound.slots_root m), hcaptures,
      hlast.params (hsub.sound.root m) (hsub.sound.slots_root m), Instance.bindings]

include h hsub hempty hs hok his hrest in
/-- What is arrived at below the prefix is arrived at alone. -/
theorem exists_arrive_of_below {arrival : Arrival Route} {route : Route}
    (harrive : (r.mount pattern sub).router.seal.arrive? m (joined is ++ rest) =
      some (arrival, route)) :
    ∃ last old, sub.seal.arrive? m rest = some (last, old) := by
  have hmounted : (r.mount pattern sub).router.Reachable := .mount pattern h hsub
  obtain ⟨hwalks, hroute⟩ := Sealed.arrive?_eq_some_iff.1 harrive
  obtain ⟨segments, old, hsegments, hold⟩ :=
    exists_table_of_below h hsub hempty hs hok (hmounted.table_of_walks hwalks hroute)
  have hentry : ⟨m, segments, old⟩ ∈ sub.forest.entries := hsub.sound.mem_entries_iff.2 hold
  have hplaced := placed_of_mount h.sound hsub.sound hs hok
  obtain ⟨last, hlast, hlast'⟩ :=
    (hplaced.walks_below hsub.sound (branchesAt_eq_nil_of_empty h hempty) hentry his hrest).2
      arrival hwalks
  obtain rfl : last.segments = segments := List.append_cancel_left (hlast'.symm.trans hsegments)
  exact ⟨last, old, Sealed.arrive?_eq_some_iff.2 ⟨hlast, hsub.route_of_walks hlast hold⟩⟩

end

/-- **A mounted router behaves below its prefix as it did alone.** In a router without routes of its
own, a path that goes on behind an instance of the prefix is found if and only if what follows is
found by the router that was mounted. Then both come to the same route, the mounted one inside the
global layers, and the parameters of the prefix come before the others. -/
theorem Reachable.find_below {r sub : Router} (h : r.Reachable) (hsub : sub.Reachable)
    (hempty : ∀ m key, r.table m key = none) {pattern : Text} {is : List Instance}
    (hs : Pattern.split pattern = .ok (is.map Instance.segment))
    (his : ∀ i ∈ is, i.Plain ∧ i.Accepted) (hok : (r.mount pattern sub).answer = .ok ())
    (m : Method) {path below rest : Text} (hrest : Boundary rest)
    (hpath : Text.Percent.text path = joined is ++ rest)
    (hbelow : Text.Percent.text below = rest) :
    let mounted := (r.mount pattern sub).router
    (mounted.seal.Finds m path ↔ sub.seal.Finds m below) ∧
    (sub.seal.Finds m below →
      ∃ segments route params, sub.table m segments = some route ∧
        sub.seal.foundAt? m below = some segments ∧
        (sub.seal.find m below).answer = route.found params ∧
        mounted.seal.foundAt? m path = some (is.map Instance.segment ++ segments) ∧
        (mounted.seal.find m path).answer =
          (route.within r.chain).found ⟨(Instance.bindings is).slots ++ params.slots⟩) := by
  intro mounted
  have hmounted : mounted.Reachable := .mount pattern h hsub
  rw [Sealed.finds_iff, Sealed.finds_iff, hpath, hbelow]
  constructor
  · constructor
    · rintro ⟨arrival, route, harrive⟩
      exact exists_arrive_of_below h hsub hempty hs hok his hrest harrive
    · rintro ⟨last, route, hlast⟩
      obtain ⟨arrival, harrive, -⟩ := exists_arrive_below h hsub hempty hs hok his hrest hlast
      exact ⟨arrival, _, harrive⟩
  · rintro ⟨last, route, hlast⟩
    obtain ⟨hwalks, hroute⟩ := Sealed.arrive?_eq_some_iff.1 hlast
    obtain ⟨arrival, harrive, hsegments, hparams⟩ :=
      exists_arrive_below h hsub hempty hs hok his hrest hlast
    rw [← hbelow] at hlast
    rw [← hpath] at harrive
    refine ⟨last.segments, route, last.params, hsub.table_of_walks hwalks hroute, ?_,
      hsub.find_of_arrive? hlast, ?_, ?_⟩
    · rw [Sealed.foundAt?, hlast, Option.map_some]
    · rw [Sealed.foundAt?, harrive, Option.map_some, hsegments]
    · rw [hmounted.find_of_arrive? harrive, hparams]

end Router

end

namespace Router

open Regex.Standard

/-- The sample below `/u/{k:[0-9]}`, asked for its route `/{x}/b`. -/
theorem find_below_sample :
    let r := Router.new {} ⟨[.tag ['g']]⟩
    let pattern := ['/', 'u', '/', '{', 'k', ':', '[', '0', '-', '9', ']', '}']
    let is : List Instance :=
      [⟨.literal ['u'], ['u']⟩, ⟨.regex ['k'] ['[', '0', '-', '9', ']'], ['7']⟩]
    let path := ['/', 'u', '/', '%', '3', '7', '/', 'c', '/', 'b']
    let below := ['/', 'c', '/', 'b']
    r.Reachable ∧ (∀ m key, r.table m key = none) ∧
      Pattern.split pattern = .ok (is.map Instance.segment) ∧
      (∀ i ∈ is, i.Plain ∧ i.Accepted) ∧ (r.mount pattern sample).answer = .ok () ∧
      Boundary below ∧ Text.Percent.text path = joined is ++ below ∧
      ∃ found found', (sample.seal.find .get below).answer = some (.ok found) ∧
        found.params = ⟨[⟨['x'], ['c']⟩]⟩ ∧
        ((r.mount pattern sample).router.seal.find .get path).answer = some (.ok found') ∧
        found'.params = ⟨[⟨['k'], ['7']⟩, ⟨['x'], ['c']⟩]⟩ := by
  intro r pattern is path below
  have hr : r.Reachable := .new _ _
  have hempty : ∀ m key, r.table m key = none := fun _ _ => rfl
  have hs : Pattern.split pattern = .ok (is.map Instance.segment) := rfl
  have hpath : Text.Percent.text path = joined is ++ below := rfl
  have hplain : Text.Percent.text below = below := rfl
  have his : ∀ i ∈ is, i.Plain ∧ i.Accepted := by
    intro i hi
    rcases List.mem_pair.1 hi with rfl | rfl
    · exact ⟨rfl, trivial⟩
    · exact ⟨by decide, _, rfl, rfl⟩
  have hok : (r.mount pattern sample).answer = .ok () := by decide +kernel
  have hbelow : Boundary below := Or.inr ⟨_, rfl⟩
  obtain ⟨found, hfound, hparams⟩ : ∃ found,
      (sample.seal.find .get below).answer = some (.ok found) ∧
        found.params = ⟨[⟨['x'], ['c']⟩]⟩ := ⟨_, rfl, rfl⟩
  obtain ⟨-, hfind⟩ :=
    hr.find_below reachable_sample hempty hs his hok .get hbelow hpath hplain
  obtain ⟨segments, route, params, -, -, hanswer, -, hmounted⟩ :=
    hfind (Sealed.finds_of_find hfound)
  obtain ⟨hhandler, rfl⟩ := Route.found_eq_ok_iff.1 (hanswer.symm.trans hfound)
  -- The global layer is put around what the sample composed.
  have hcomposed : (route.within r.chain).composition.value = some _ :=
    congrArg Run.value (Run.bind_of_value hhandler (Layer.tag ['g']).wrap)
  refine ⟨hr, hempty, hs, his, hok, hbelow, hpath, found, ⟨_, _⟩, hfound, hparams,
    hmounted.trans (Route.found_eq_ok_iff.2 ⟨hcomposed, rfl⟩), ?_⟩
  rw [hparams]
  rfl

end Router

end Routing
