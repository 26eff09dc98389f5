import Routing.Proofs.Tracing

/-!
# Where walks part

A registration adds no more than one branch to the nodes that were there, at the first node that it
makes. A walk that is not taken by this branch goes on as it did, so a path finds what it found, or
the new route, or nothing.

* `Node.Passes` — a walk comes past a position.
* `Node.FirstNew`, `Node.Parts` — the first node that a registration makes, and walks that part
  there.
* `Node.Sound.trace?_or_parts` — walks part at the first new node or nowhere.
* `Router.Reachable.find_after_handle` — what a registration changes for a path.
-/

namespace Routing

open Segment (Before)

section

variable [Regex.Engine]

/-! ## One more branch -/

namespace Branches

variable {ρ σ : Type}

/-- The branch that is followed is the first whose edge takes what is ahead. -/
theorem exists_follows_iff_find? {b : Branches ρ} {ahead : Text} {edge : Edge} {a : Advance} :
    (∃ child, b.Follows ahead edge child a) ↔
      b.edges.find? (fun e => (e.advance? ahead).isSome) = some edge ∧
        edge.advance? ahead = some a := by
  induction b with
  | nil => simp [edges, not_follows_nil]
  | cons first slots route below rest _ ih =>
    cases hfirst : first.advance? ahead with
    | none => simp only [follows_cons_of_none hfirst, ih, edges, List.find?_cons, hfirst,
        Option.isSome_none]
    | some b =>
      simp only [follows_cons_of_some hfirst, edges, List.find?_cons, hfirst, Option.isSome_some,
        Option.some.injEq]
      constructor
      · rintro ⟨child, rfl, -, rfl⟩
        exact ⟨rfl, hfirst⟩
      · rintro ⟨rfl, hedge⟩
        rw [hfirst, Option.some.injEq] at hedge
        exact ⟨_, rfl, rfl, hedge.symm⟩

/-- With one more branch, either that is the one to be followed, or the one that was. -/
theorem follows_or_of_segments {b : Branches ρ} {b' : Branches σ} {before after : List Segment}
    {s : Segment} (h : b.segments = before ++ after) (h' : b'.segments = before ++ s :: after)
    (ahead : Text) :
    (∃ edge a, edge.segment = s ∧ ∃ child, b'.Follows ahead edge child a) ∨
      ∀ edge a, (∃ child, b'.Follows ahead edge child a) ↔ ∃ child, b.Follows ahead edge child a := by
  obtain ⟨earlier, others, hedges', rfl, hothers⟩ := List.map_eq_append_iff.1 h'
  obtain ⟨new, later, rfl, rfl, rfl⟩ := List.map_eq_cons_iff.1 hothers
  have hedges : b.edges = earlier ++ later := by
    apply List.map_injective_iff.2 fun _ _ => Edge.segment_injective
    rw [List.map_append]
    exact h
  simp only [exists_follows_iff_find?, hedges, hedges', List.find?_append]
  cases earlier.find? fun e => (e.advance? ahead).isSome with
  | some first => exact Or.inr fun edge a => Iff.rfl
  | none =>
    cases hnew : new.advance? ahead with
    | some a => exact Or.inl ⟨new, a, rfl, by simp [hnew], hnew⟩
    | none => exact Or.inr fun edge a => by simp [hnew]

/-- **Where a branch was seated, either it is followed and was not there, or the branch that was
followed still is.** -/
theorem follows_or_of_seat {b : Branches ρ} {b' : Branches σ} {s : Segment}
    (h : b'.segments = seat Before b.segments s) (ahead : Text) :
    (s ∉ b.segments ∧ ∃ edge a, edge.segment = s ∧ ∃ child, b'.Follows ahead edge child a) ∨
      ∀ edge a, (∃ child, b'.Follows ahead edge child a) ↔ ∃ child, b.Follows ahead edge child a := by
  by_cases hs : s ∈ b.segments
  · rw [seat_of_mem Before hs] at h
    right
    intro edge a
    constructor
    · rintro ⟨child, hfollows⟩
      exact exists_follows_of_segments h hfollows
    · rintro ⟨child, hfollows⟩
      exact exists_follows_of_segments h.symm hfollows
  · rw [seat_of_not_mem Before hs, List.orderedInsert_eq_take_drop] at h
    have hsplit := (List.takeWhile_append_dropWhile (p := fun t => decide ¬ s.Before t)
      (l := b.segments)).symm
    rcases follows_or_of_segments hsplit h ahead with hnew | hsame
    · exact Or.inl ⟨hs, hnew⟩
    · exact Or.inr hsame

end Branches

namespace Node

variable {ρ : Type}

/-- The walk of a path comes past the position of these segments, with `rest` ahead. -/
inductive Passes : Node ρ → Text → List Segment → Text → Prop where
  | here {n : Node ρ} {path : Text} : Passes n path [] path
  | go {n child : Node ρ} {path rest : Text} {edge : Edge} {a : Advance}
      {segments : List Segment} : skipSlash path ≠ [] →
        n.below.Follows (skipSlash path) edge child a → Passes child a.rest segments rest →
          Passes n path (edge.segment :: segments) rest

/-- The walk of a path ends at the position of these segments. -/
def EndsAt (n : Node ρ) (path : Text) (segments : List Segment) : Prop :=
  ∃ arrival, n.Walks path arrival ∧ arrival.segments = segments

/-- Of the nodes on the way to these segments that behind `s` is the first that the tree does not
have. -/
structure FirstNew (n : Node ρ) (segments above : List Segment) (s : Segment) : Prop where
  onWay : above ++ [s] <+: segments
  old : (n.locate? above).isSome
  new : n.locate? (above ++ [s]) = none

/-- The walks of a path in two trees come past one position with the same text ahead, and from there
the one in the second tree goes along `s`. -/
def Parts (n n' : Node ρ) (path : Text) (above : List Segment) (s : Segment) : Prop :=
  ∃ ahead rest, n.Passes path above ahead ∧ n'.Passes path above ahead ∧
    n'.Passes path (above ++ [s]) rest

/-- A walk that comes past a position ends at or below it. -/
theorem Passes.prefix_segments {n : Node ρ} {path rest : Text} {segments : List Segment}
    (h : n.Passes path segments rest) {arrival : Arrival ρ} (hwalks : n.Walks path arrival) :
    segments <+: arrival.segments := by
  induction h generalizing arrival with
  | here => exact List.nil_prefix
  | go hgo hfollows _ ih =>
    cases hwalks with
    | stop hstop => exact absurd hstop hgo
    | go _ hfollows' hlast =>
      obtain ⟨rfl, rfl, rfl⟩ := hfollows.unique hfollows'
      exact (List.prefix_cons_inj _).2 (ih hlast)

theorem FirstNew.cons {n child : Node ρ} {s : Segment}
    (hfind : n.below.find? (Edge.madeFrom s) = some child) {rest above : List Segment} {t : Segment}
    (h : child.FirstNew rest above t) : n.FirstNew (s :: rest) (s :: above) t where
  onWay := by simpa using h.onWay
  old := by simpa [locate?_cons, hfind] using h.old
  new := by simpa [locate?_cons, hfind] using h.new

/-- **Walks part at the first new node or nowhere.** -/
theorem Sound.trace?_or_parts {n n' : Node ρ} (hn : n.Sound) (hn' : n'.Sound)
    {segments : List Segment}
    (hb : ∀ position, n'.branchesAt position =
      seatAll Before (n.branchesAt position) (next? position segments).toList) (path : Text) :
    n'.trace? path = n.trace? path ∨
      ∃ above s, n.FirstNew segments above s ∧ n.Parts n' path above s := by
  induction segments generalizing n n' path with
  | nil =>
    left
    apply hn.trace?_congr hn'
    intro position
    rw [hb, next?_nil]
    rfl
  | cons s rest ih =>
    by_cases hgo : skipSlash path = []
    · left
      rw [trace?_of_stop hgo, trace?_of_stop hgo]
    have hbelow : n'.below.segments = seat Before n.below.segments s := hb []
    rcases Branches.follows_or_of_seat hbelow (skipSlash path) with
      ⟨hnew, edge, a, rfl, child, hfollows⟩ | hsame
    · right
      have hfind := Branches.find?_madeFrom_eq_none_iff.2 hnew
      refine ⟨[], edge.segment, ⟨by simp, rfl, by simp [locate?_cons, hfind]⟩, ?_⟩
      exact ⟨path, a.rest, .here, .here, .go hgo hfollows .here⟩
    · by_cases hnone : ∃ edge a child, n.below.Follows (skipSlash path) edge child a
      · obtain ⟨edge, a, child, hfollows⟩ := hnone
        obtain ⟨child', hfollows'⟩ := (hsame edge a).2 ⟨child, hfollows⟩
        have hfind := hn.find?_of_follows hfollows
        have hfind' := hn'.find?_of_follows hfollows'
        have hchild : ∀ position, child'.branchesAt position =
            seatAll Before (child.branchesAt position)
              (next? (edge.segment :: position) (s :: rest)).toList := by
          intro position
          rw [← branchesAt_of_find? hfind, ← branchesAt_of_find? hfind', hb]
        simp only [next?_cons_cons] at hchild
        rw [trace?_of_follows hgo hfollows, trace?_of_follows hgo hfollows']
        by_cases hs : edge.segment = s
        · -- Along the segments: the walks may part further down.
          simp only [hs, ↓reduceIte] at hchild hfind
          rcases ih (hn.child hfind) (hn'.child hfind') hchild a.rest with
            htrace | ⟨above, t, hfirst, ahead, behind, hpass, hpass', hnew⟩
          · exact Or.inl (by rw [htrace])
          · refine Or.inr ⟨s :: above, t, hfirst.cons hfind, ahead, behind, ?_⟩
            subst hs
            exact ⟨.go hgo hfollows hpass, .go hgo hfollows' hpass', .go hgo hfollows' hnew⟩
        · -- Elsewhere nothing is new.
          simp only [hs, ↓reduceIte] at hchild
          left
          rw [(hn.child hfind).trace?_congr (hn'.child hfind') hchild]
      · left
        have hnone' : ∀ edge child a, ¬ n.below.Follows (skipSlash path) edge child a := by
          intro edge child a hfollows
          exact hnone ⟨edge, a, child, hfollows⟩
        rw [trace?_of_not_follows hgo hnone', trace?_of_not_follows hgo]
        intro edge child' a hfollows'
        obtain ⟨child, hfollows⟩ := (hsame edge a).1 ⟨child', hfollows'⟩
        exact hnone' edge child a hfollows

end Node

namespace Router

/-- Both routers find the same for a path: one route with the same parameters, or none. -/
structure FindsAlike (r r' : Router) (m : Method) (path : Text) : Prop where
  finding : r'.seal.finding? m (Text.Percent.text path) =
    r.seal.finding? m (Text.Percent.text path)
  answer : (r'.seal.find m path).answer = (r.seal.find m path).answer

/-- The router finds this route for a path. -/
def FindsRoute (r : Router) (m : Method) (path : Text) (segments : List Segment) (route : Route) :
    Prop :=
  ∃ params, r.seal.finding? m (Text.Percent.text path) = some ⟨segments, route, params⟩ ∧
    (r.seal.find m path).answer = route.found params

def FindsNothing (r : Router) (m : Method) (path : Text) : Prop :=
  r.seal.finding? m (Text.Percent.text path) = none ∧
    (r.seal.find m path).answer = some (.error (.routeNotFound m path))

/-- What a route that is registered at these segments changes for the path of a request. -/
structure Extends (r r' : Router) (m : Method) (segments : List Segment) (route : Route)
    (m' : Method) (path : Text) : Prop where
  /-- No old route is found that was not found before. -/
  finds : r.FindsAlike r' m' path ∨
    m' = m ∧ (r'.FindsRoute m path segments route ∨ r'.FindsNothing m path)
  /-- Where something changes the walks part at the first node that was made, or, when none was, the
  walk ends at the position of the segments. -/
  parts : ¬ r.FindsAlike r' m' path →
    (∃ above s, (r.forest.root m).FirstNew segments above s ∧
      (r.forest.root m).Parts (r'.forest.root m) (Text.Percent.text path) above s) ∨
    ((r.forest.root m).locate? segments).isSome ∧
      (r.forest.root m).EndsAt (Text.Percent.text path) segments ∧
      (r'.forest.root m).EndsAt (Text.Percent.text path) segments

theorem findsAlike_of_finding {r r' : Router} {m : Method} {path : Text}
    (h : r'.seal.finding? m (Text.Percent.text path) =
      r.seal.finding? m (Text.Percent.text path)) : r.FindsAlike r' m path :=
  ⟨h, by rw [Sealed.answer_find, Sealed.answer_find, h]⟩

theorem findsNothing_of_finding {r : Router} {m : Method} {path : Text}
    (h : r.seal.finding? m (Text.Percent.text path) = none) : r.FindsNothing m path :=
  ⟨h, by rw [Sealed.answer_find, h]⟩

theorem Reachable.findsRoute_of_finding {r : Router} (h : r.Reachable) {m : Method} {path : Text}
    {f : Finding} (hf : r.seal.finding? m (Text.Percent.text path) = some f)
    (hroute : r.table m f.segments = some f.route) :
    r.FindsRoute m path f.segments f.route := by
  refine ⟨f.params, hf, ?_⟩
  rw [Sealed.answer_find, hf, Route.found, ← h.run_ready hroute]

/-- What a registration leaves is the forest with one more entry. -/
theorem placed_of_handle {r : Router} (hr : r.forest.Sound) {m : Method} {pattern : Text}
    {handler : Handler} {layers : List Layer}
    (h : (r.handle m pattern handler layers).answer = .ok ()) :
    ∃ segments, Pattern.split pattern = .ok segments ∧
      r.forest.Placed [⟨m, segments, r.routeOf handler layers⟩]
        (r.handle m pattern handler layers).router.forest := by
  obtain ⟨segments, haccepts, hfresh⟩ := accepts_of_ok hr h
  obtain ⟨f, hregister, hplaced, -⟩ := register_of_fits hr
    (Pattern.split_proper haccepts.split) (haccepts.fits hr (r.routeOf handler layers) hfresh)
  refine ⟨segments, haccepts.split, ?_⟩
  rw [handle_of_split haccepts.split haccepts.depth, hregister]
  exact hplaced

section

variable {r r' : Router} (h : r.Reachable) (h' : r'.Reachable) {m : Method}
  {segments : List Segment} {route : Route}
  (hplaced : r.forest.Placed [⟨m, segments, route⟩] r'.forest)

include h h' hplaced in
/-- A method for which nothing was registered finds what it found. -/
theorem findsAlike_of_ne {m' : Method} (hm : m' ≠ m) (path : Text) : r.FindsAlike r' m' path := by
  have htrace : (r'.forest.root m').trace? (Text.Percent.text path) =
      (r.forest.root m').trace? (Text.Percent.text path) := by
    apply (h.sound.root m').trace?_congr (h'.sound.root m')
    intro position
    rw [hplaced.branchesAt]
    simp [Entry.next?, Ne.symm hm]
  have htable : ∀ key, r'.forest.route? m' key = r.forest.route? m' key := by
    intro key
    rw [hplaced.table]
    simp [Table.putAll, Table.put, hm]
  apply findsAlike_of_finding
  rw [Sealed.finding?_eq h'.sound, Sealed.finding?_eq h.sound]
  simp only [Router.seal, htrace, htable]

include h h' hplaced in
/-- **Walks in the tree of the method part at the first new node**, or else only the route at the
position of the segments is another one. -/
theorem extends_self (path : Text) : r.Extends r' m segments route m path := by
  have hsound := h.sound.root m
  have hsound' := h'.sound.root m
  have hbranches : ∀ position, (r'.forest.root m).branchesAt position =
      seatAll Before ((r.forest.root m).branchesAt position) (next? position segments).toList := by
    intro position
    rw [hplaced.branchesAt]
    cases hnext : next? position segments <;> simp [Entry.next?, hnext]
  have htable : ∀ key, r'.forest.route? m key =
      if key = segments then some route else r.forest.route? m key := by
    intro key
    rw [hplaced.table]
    simp [Table.putAll, Table.put]
  have hfinding := Sealed.finding?_eq (s := r.seal) h.sound m (Text.Percent.text path)
  have hfinding' := Sealed.finding?_eq (s := r'.seal) h'.sound m (Text.Percent.text path)
  rcases hsound.trace?_or_parts hsound' hbranches (Text.Percent.text path) with
    htrace | ⟨above, s, hfirst, hparts⟩
  · by_cases hend : ∃ t, (r.forest.root m).trace? (Text.Percent.text path) = some t ∧
        t.segments = segments
    · -- The walk ends where the route was put.
      obtain ⟨t, ht, rfl⟩ := hend
      have hroute : r'.table m t.segments = some route := (htable t.segments).trans (if_pos rfl)
      have hnew : r'.seal.finding? m (Text.Percent.text path) =
          some ⟨t.segments, route, ⟨t.params⟩⟩ := by
        rw [hfinding', Router.seal, htrace, ht, Option.bind_some, htable, if_pos rfl]
        rfl
      refine ⟨Or.inr ⟨rfl, Or.inl (h'.findsRoute_of_finding hnew hroute)⟩, fun _ => Or.inr ?_⟩
      obtain ⟨arrival, hwalks, rfl⟩ := Node.trace?_eq_some_iff.1 ht
      obtain ⟨arrival', hwalks', hsame⟩ := Node.trace?_eq_some_iff.1 (htrace.trans ht)
      refine ⟨?_, ⟨arrival, hwalks, rfl⟩, arrival', hwalks', congrArg Trace.segments hsame⟩
      rw [Arrival.trace, hwalks.locate? hsound]
      rfl
    · have halike : r.FindsAlike r' m path := by
        apply findsAlike_of_finding
        rw [hfinding', hfinding, Router.seal, Router.seal, htrace]
        refine Option.bind_congr fun t ht => ?_
        have hne : t.segments ≠ segments := fun hs => hend ⟨t, ht, hs⟩
        rw [htable, if_neg hne]
      exact ⟨Or.inl halike, fun hnot => absurd halike hnot⟩
  · refine ⟨Or.inr ⟨rfl, ?_⟩, fun _ => Or.inl ⟨above, s, hfirst, hparts⟩⟩
    obtain ⟨ahead, rest, -, -, hnew⟩ := hparts
    cases hf : r'.seal.finding? m (Text.Percent.text path) with
    | none => exact Or.inr (findsNothing_of_finding hf)
    | some f =>
      left
      obtain ⟨⟨arrival, hwalks, hsegments⟩, hroute⟩ := Sealed.walks_of_finding? h'.sound hf
      have hbelow : above ++ [s] <+: f.segments := hsegments ▸ hnew.prefix_segments hwalks
      have hold : r.forest.route? m f.segments = none := by
        obtain ⟨below, hbelow⟩ := hbelow
        rw [← hbelow, Forest.route?_eq, Node.routeAt_eq, Node.locate?_append, hfirst.new]
        rfl
      have hfound : (if f.segments = segments then some route else none) = some f.route := by
        rw [← hroute, ← hold]
        exact (htable f.segments).symm
      obtain ⟨hs, hr⟩ : f.segments = segments ∧ route = f.route := by
        simpa using hfound
      rw [← hs, hr]
      exact h'.findsRoute_of_finding hf hroute

end

/-- **A registration takes no path to another old route.** For every method and path the router
finds what it found, or for the method of the registration the new route, or nothing. What is found
changes only where the walk comes to the first node that the registration made, or to the node of
the pattern when that was there. -/
theorem Reachable.find_after_handle {r : Router} (h : r.Reachable) {m : Method} {pattern : Text}
    {handler : Handler} {layers : List Layer}
    (hok : (r.handle m pattern handler layers).answer = .ok ()) :
    ∃ segments, Pattern.split pattern = .ok segments ∧ ∀ m' path,
      r.Extends (r.handle m pattern handler layers).router m segments (r.routeOf handler layers)
        m' path := by
  have h' : (r.handle m pattern handler layers).router.Reachable :=
    .handle m pattern handler layers h
  obtain ⟨segments, hs, hplaced⟩ := placed_of_handle h.sound hok
  refine ⟨segments, hs, fun m' path => ?_⟩
  by_cases hm : m' = m
  · subst hm
    exact extends_self h h' hplaced path
  · have halike := findsAlike_of_ne h h' hplaced hm path
    exact ⟨Or.inl halike, fun hnot => absurd halike hnot⟩

end Router

end

namespace Router

open Regex.Standard

/-- The route `/c` takes the path `/cd/b` from the route `/{x}/b`, and leads it nowhere. -/
theorem find_after_handle_sample :
    let r' := (sample.handle .get ['/', 'c'] silent).router
    let path := ['/', 'c', 'd', '/', 'b']
    (sample.handle .get ['/', 'c'] silent).answer = .ok () ∧
      (∃ segments, Pattern.split ['/', 'c'] = .ok segments ∧ ∀ m' path,
        sample.Extends r' .get segments (sample.routeOf silent []) m' path) ∧
      ¬ sample.FindsAlike r' .get path ∧ r'.FindsNothing .get path := by
  intro r' path
  have hok : (sample.handle .get ['/', 'c'] silent).answer = .ok () := rfl
  have hnothing : r'.FindsNothing .get path := ⟨rfl, rfl⟩
  refine ⟨hok, reachable_sample.find_after_handle hok, fun halike => ?_, hnothing⟩
  have hfinds : sample.seal.finding? .get path = none := halike.finding.symm.trans hnothing.1
  cases hfinds

end Router

end Routing
