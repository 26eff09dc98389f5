import Routing.Proofs.Extending
import Routing.Proofs.Forests
import Routing.Router.Basic

/-!
# Registering routes

Whether a router takes a route depends on its trees only through what stands on the way to the
route, and what one route adds can only be in the way of another one if the two disagree. So a
list of routes is taken one after the other if and only if every single one could be taken first
and no two disagree.

* `Router.Fits` — an entry that a router takes.
* `Router.register_of_fits`, `Router.register_of_not_fits` — what registering leaves.
* `Forest.Placed` — a forest with entries placed in it.
* `Router.registerAll_of_fits`, `Router.fits_of_registerAll` — when a list of entries is taken.
-/

namespace Routing

open Segment (Before)

variable [Regex.Engine]

/-! ## Forests with entries placed in them -/

/-- The forest `f'` has what `f` has, and the entries. -/
structure Forest.Placed (f : Forest) (es : List Entry) (f' : Forest) : Prop where
  sound : f'.Sound
  branchesAt : ∀ m position, (f'.root m).branchesAt position =
    seatAll Before ((f.root m).branchesAt position) (es.filterMap (·.next? m position))
  table : f'.route? = Table.putAll f.route? es

namespace Forest

theorem Placed.trans {f f' f'' : Forest} {es es' : List Entry} (h : f.Placed es f')
    (h' : f'.Placed es' f'') : f.Placed (es ++ es') f'' where
  sound := h'.sound
  branchesAt m position := by
    rw [h'.branchesAt, h.branchesAt, List.filterMap_append, seatAll_append]
  table := by rw [h'.table, h.table, Table.putAll_append]

theorem Sound.placed_plant {f : Forest} (hf : f.Sound) (m : Method) : f.Placed [] (f.plant m) where
  sound := hf.plant m
  branchesAt m' position := by simp
  table := by
    funext m' segments
    simp [route?_eq, Table.putAll]

theorem Sound.set_root_plant {f : Forest} (hf : f.Sound) (m : Method) :
    (f.plant m).set m (f.root m) = f.plant m := by
  rw [← root_plant f m m]
  exact (hf.plant m).set_root m

/-- A forest with one route placed in the tree of its method. -/
theorem Sound.placed_entry {f : Forest} (hf : f.Sound) {e : Entry} {tree : Tree}
    (hs : ∀ s ∈ e.segments, s.Proper) (ha : (f.root e.method).Admits e.segments)
    (hg : (f.root e.method).grow e.segments = .ok tree) :
    f.Placed [e] ((f.plant e.method).set e.method (tree.put e.segments e.route)) := by
  have hroot := hf.root e.method
  have hnew (m : Method) : ((f.plant e.method).set e.method (tree.put e.segments e.route)).root m =
      if m = e.method then tree.put e.segments e.route else f.root m := by
    rw [root_set (mem_methods_plant f e.method), root_plant]
  have hslots : (tree.put e.segments e.route).slots = 0 := by
    have : (tree.put e.segments e.route).slots = tree.slots := by cases e.segments <;> rfl
    rw [this, Node.slots_grow hg hroot.counted, hf.slots_root]
  refine ⟨(hf.plant e.method).set e.method (hroot.place hs ha hg e.route) hslots,
    fun m position => ?_, ?_⟩
  · by_cases hm : m = e.method
    · subst hm
      rw [hnew, if_pos rfl, Node.branchesAt_put, Node.branchesAt_grow hroot.counted hg]
      cases hn : Routing.next? position e.segments <;> simp [Entry.next?, hn]
    · simp [hnew, hm, Entry.next?, Ne.symm hm]
  · funext m segments
    rw [route?_eq, hnew]
    by_cases hm : m = e.method
    · subst hm
      simp [Table.putAll, Table.put, Node.routeAt_place hroot.counted hg, route?_eq]
    · simp [Table.putAll, Table.put, hm, route?_eq]

end Forest

namespace Router

/-- The router takes the entry. -/
structure Fits (r : Router) (e : Entry) : Prop where
  admits : (r.forest.root e.method).Admits e.segments
  fresh : r.options.duplicateRoutes = .reject → r.forest.route? e.method e.segments = none

theorem checkDuplicate_eq_ok_iff {r : Router} {m : Method} {segments : List Segment}
    {at? : Option Tree} :
    r.checkDuplicate m segments at? = .ok () ↔
      (r.options.duplicateRoutes = .reject → at?.bind Node.route = none) := by
  unfold checkDuplicate
  by_cases hd : r.options.duplicateRoutes = .reject
  · cases at?.bind Node.route <;> simp [hd]
  · simp [hd]

/-- In a sound forest a tree is grown, or stays as it was, and the route is put to the position of its
segments. -/
theorem register_eq {r : Router} (hr : r.forest.Sound) (m : Method) (segments : List Segment)
    (route : Route) :
    r.register m segments route = match (r.forest.root m).grow segments with
      | .error e => ⟨.error (.tree e), { r with forest := r.forest.plant m }⟩
      | .ok tree => match r.checkDuplicate m segments (tree.locate? segments) with
        | .error e => ⟨.error e, { r with forest := (r.forest.plant m).set m tree }⟩
        | .ok () =>
          ⟨.ok (), { r with forest := (r.forest.plant m).set m (tree.put segments route) }⟩ := by
  have hroot := hr.root m
  rw [register]
  simp only [Forest.root_plant]
  rcases Node.extend_cases hroot.ordered segments {} with
    ⟨e, cache, hgrow, hextend⟩ | ⟨tree, way, cache, hgrow, hextend, hway⟩
  · simp only [hextend, hgrow, hr.set_root_plant]
  · simp only [hextend, hgrow, Node.follow?_of_wayTo? hway, Node.changeAt_of_wayTo? hway]
    rfl

/-- **What fits is placed.** -/
theorem register_of_fits {r : Router} (hr : r.forest.Sound) {e : Entry}
    (hs : ∀ s ∈ e.segments, s.Proper) (h : r.Fits e) :
    ∃ f, r.register e.method e.segments e.route = ⟨.ok (), { r with forest := f }⟩ ∧
      r.forest.Placed [e] f ∧ f.methods = seat emptyRelation r.forest.methods e.method := by
  have hroot := hr.root e.method
  obtain ⟨tree, hg⟩ := hroot.grow_isOk_iff.2 h.admits
  have hdup : r.checkDuplicate e.method e.segments (tree.locate? e.segments) = .ok () := by
    rw [checkDuplicate_eq_ok_iff, ← Node.routeAt_eq, Node.routeAt_grow hroot.counted hg,
      ← Forest.route?_eq]
    exact h.fresh
  refine ⟨_, ?_, hr.placed_entry hs h.admits hg, ?_⟩
  · simp only [register_eq hr, hg, hdup]
  · rw [Forest.methods_set, Forest.methods_plant]

/-- **What does not fit leaves no more than an empty tree for its method.** It is refused as a
duplicate if its segments could be placed. -/
theorem register_of_not_fits {r : Router} (hr : r.forest.Sound) {e : Entry} (h : ¬ r.Fits e) :
    ∃ error, r.register e.method e.segments e.route =
        ⟨.error error, { r with forest := r.forest.plant e.method }⟩ ∧
      ((r.forest.root e.method).Admits e.segments →
        error = .duplicateRoute e.method (Pattern.render e.segments)) ∧
      (¬ (r.forest.root e.method).Admits e.segments → ∃ refusal, error = .tree refusal) := by
  have hroot := hr.root e.method
  by_cases ha : (r.forest.root e.method).Admits e.segments
  · obtain ⟨tree, hg⟩ := hroot.grow_isOk_iff.2 ha
    have hfresh : ¬ (r.options.duplicateRoutes = .reject →
        r.forest.route? e.method e.segments = none) := fun hf => h ⟨ha, hf⟩
    have hd : r.options.duplicateRoutes = .reject := by
      by_contra hd
      exact hfresh fun h' => absurd h' hd
    have hsome : ((r.forest.root e.method).locate? e.segments).bind Node.route ≠ none := by
      rw [← Node.routeAt_eq, ← Forest.route?_eq]
      exact fun hn => hfresh fun _ => hn
    obtain ⟨route, hroute⟩ := Option.ne_none_iff_exists'.1 hsome
    have hloc : ((r.forest.root e.method).locate? e.segments).isSome := by
      obtain ⟨c, hc, -⟩ := Option.bind_eq_some_iff.1 hroute
      simp [hc]
    -- The tree has a node there already, so growing it changed nothing.
    rw [Node.grow_of_locate? hloc] at hg
    cases hg
    refine ⟨.duplicateRoute e.method (Pattern.render e.segments), ?_, fun _ => rfl,
      fun hn => absurd ha hn⟩
    simp only [register_eq hr, Node.grow_of_locate? hloc, checkDuplicate, hd, hroute,
      Option.isSome_some, and_self, ↓reduceIte, hr.set_root_plant]
  · cases hg : (r.forest.root e.method).grow e.segments with
    | ok tree => exact absurd (hroot.grow_isOk_iff.1 ⟨tree, hg⟩) ha
    | error refusal =>
      refine ⟨.tree refusal, ?_, fun h' => absurd h' ha, fun _ => ⟨refusal, rfl⟩⟩
      simp only [register_eq hr, hg]

/-- What was placed is in the way of the entries that disagree with it, and of no others. -/
theorem fits_placed_iff {r : Router} {es : List Entry} {f : Forest} (h : r.forest.Placed es f)
    {e : Entry} :
    ({ r with forest := f } : Router).Fits e ↔ r.Fits e ∧ ∀ e' ∈ es, e'.Agrees r.options e := by
  constructor
  · intro hfits
    refine ⟨⟨⟨hfits.admits.readable, fun position s hs t ht => ?_⟩, fun hd => ?_⟩,
      fun e' he' hm => ⟨?_, fun hd hsame => ?_⟩⟩
    · refine hfits.admits.free position s hs t ?_
      rw [h.branchesAt]
      simp [ht]
    · have := hfits.fresh hd
      rw [h.table, Table.putAll_eq_none_iff] at this
      exact this.1
    · rintro ⟨position, s, t, hs, ht, hc⟩
      refine hfits.admits.free position t ht s ?_ hc.symm
      rw [h.branchesAt, mem_seatAll]
      exact Or.inr (List.mem_filterMap.2 ⟨e', he', Entry.next?_eq_some_iff.2 ⟨hm, hs⟩⟩)
    · have := hfits.fresh hd
      rw [h.table, Table.putAll_eq_none_iff] at this
      exact this.2 e' he' ⟨hm.symm, hsame.symm⟩
  · rintro ⟨hfits, hagrees⟩
    refine ⟨⟨hfits.admits.readable, fun position s hs t ht => ?_⟩, fun hd => ?_⟩
    · rw [h.branchesAt, mem_seatAll] at ht
      rcases ht with ht | ht
      · exact hfits.admits.free position s hs t ht
      · obtain ⟨e', he', hnext⟩ := List.mem_filterMap.1 ht
        obtain ⟨hm, ht⟩ := Entry.next?_eq_some_iff.1 hnext
        exact fun hc => (hagrees e' he' hm).1 ⟨position, t, s, ht, hs, hc.symm⟩
    · rw [h.table, Table.putAll_eq_none_iff]
      exact ⟨hfits.fresh hd, fun e' he' hk => (hagrees e' he' hk.1.symm).2 hd hk.2.symm⟩

/-- Registers entries one after the other, up to the first that is refused. -/
def registerAll (r : Router) : List Entry → Edited Unit
  | [] => ⟨.ok (), r⟩
  | e :: rest =>
    match r.register e.method e.segments e.route with
    | ⟨.ok (), r⟩ => r.registerAll rest
    | refused => refused

/-- **Entries that fit and agree are all placed**, and their methods stand behind those there
were. -/
theorem registerAll_of_fits {r : Router} (hr : r.forest.Sound) {es : List Entry}
    (hs : ∀ e ∈ es, ∀ s ∈ e.segments, s.Proper) (hf : ∀ e ∈ es, r.Fits e)
    (ha : es.Pairwise (Entry.Agrees r.options)) :
    ∃ f, r.registerAll es = ⟨.ok (), { r with forest := f }⟩ ∧ r.forest.Placed es f ∧
      f.methods = seatAll emptyRelation r.forest.methods (es.map Entry.method) := by
  induction es generalizing r with
  | nil => exact ⟨r.forest, rfl, ⟨hr, by simp, rfl⟩, rfl⟩
  | cons e es ih =>
    obtain ⟨hagrees, ha⟩ := List.pairwise_cons.1 ha
    obtain ⟨f, hregister, hplaced, hmethods⟩ :=
      register_of_fits hr (hs e (by simp)) (hf e (by simp))
    have hnext : ∀ e' ∈ es, ({ r with forest := f } : Router).Fits e' := fun e' he' =>
      (fits_placed_iff hplaced).2 ⟨hf e' (by simp [he']), by simpa using hagrees e' he'⟩
    obtain ⟨f', hall, hplaced', hmethods'⟩ :=
      ih (r := { r with forest := f }) hplaced.sound (fun e' he' => hs e' (by simp [he'])) hnext ha
    refine ⟨f', ?_, hplaced.trans hplaced', ?_⟩
    · simp only [registerAll, hregister, hall]
    · rw [hmethods', hmethods, List.map_cons, seatAll_cons]

/-- **Only entries that fit and agree are all taken.** -/
theorem fits_of_registerAll {r : Router} (hr : r.forest.Sound) {es : List Entry}
    (hs : ∀ e ∈ es, ∀ s ∈ e.segments, s.Proper) (h : (r.registerAll es).answer = .ok ()) :
    (∀ e ∈ es, r.Fits e) ∧ es.Pairwise (Entry.Agrees r.options) := by
  induction es generalizing r with
  | nil => simp
  | cons e es ih =>
    by_cases hfits : r.Fits e
    · obtain ⟨f, hregister, hplaced, -⟩ := register_of_fits hr (hs e (by simp)) hfits
      simp only [registerAll, hregister] at h
      obtain ⟨hf, ha⟩ :=
        ih (r := { r with forest := f }) hplaced.sound (fun e' he' => hs e' (by simp [he'])) h
      have hboth := fun e' he' => (fits_placed_iff hplaced).1 (hf e' he')
      refine ⟨List.forall_mem_cons.2 ⟨hfits, fun e' he' => (hboth e' he').1⟩,
        List.pairwise_cons.2 ⟨fun e' he' => (hboth e' he').2 e (by simp), ha⟩⟩
    · obtain ⟨error, hregister, -⟩ := register_of_not_fits hr hfits
      simp [registerAll, hregister] at h

end Router

end Routing
