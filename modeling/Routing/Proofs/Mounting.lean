import Routing.Proofs.Registration
import Routing.Proofs.Splitting
import Routing.Router.Mount

/-!
# Mounting

The routes of a mounted router agree with each other, since one forest has them all, and they
still do below a prefix. So once every one of them was found to fit, all of them can be attached.

* `Entry.below` — an entry as it is mounted.
* `Router.Mountable` — every route is within the limit and fits.
* `Router.mount_of_mountable`, `Router.mount_of_not_mountable` — what mounting leaves.
-/

namespace Routing

open Segment (Before)

/-- The entry below a prefix, within outer layers. -/
def Entry.below (above : List Segment) (outer : Chain) (e : Entry) : Entry :=
  ⟨e.method, above ++ e.segments, e.route.within outer⟩

theorem Entry.agrees_below_iff {above : List Segment} {outer : Chain} {options : Options}
    {e e' : Entry} :
    (e.below above outer).Agrees options (e'.below above outer) ↔ e.Agrees options e' := by
  simp [Entry.Agrees, Entry.below, clashAlong_append]

theorem Entry.Distinct.below {es : List Entry} (h : Entry.Distinct es) (above : List Segment)
    (outer : Chain) : Entry.Distinct (es.map (Entry.below above outer)) := by
  rw [Entry.Distinct, List.pairwise_map]
  refine h.imp fun hne hk => hne ⟨hk.1, ?_⟩
  exact List.append_cancel_left hk.2

/-- Behind the prefix entries go on as they did. -/
theorem Entry.filterMap_next?_below (above : List Segment) (outer : Chain) (es : List Entry)
    (m : Method) (position : List Segment) :
    (es.map (Entry.below above outer)).filterMap (·.next? m (above ++ position)) =
      es.filterMap (·.next? m position) := by
  rw [List.filterMap_map]
  exact List.filterMap_congr fun e _ => by simp [Entry.next?, Entry.below]

variable [Regex.Engine]

namespace Router

/-- The entries of a graft. -/
def Graft.entries (g : Graft) : List Entry :=
  g.routes.map fun (segments, route) => ⟨g.method, segments, route⟩

theorem attachRoutes_eq (r : Router) (m : Method) (routes : List (List Segment × Route)) :
    r.attachRoutes m routes =
      r.registerAll (routes.map fun (segments, route) => ⟨m, segments, route⟩) := by
  induction routes generalizing r with
  | nil => rfl
  | cons entry routes ih =>
    obtain ⟨segments, route⟩ := entry
    simp only [attachRoutes, List.map_cons, registerAll]
    split <;> simp_all

theorem entries_grafts (r : Router) (above : List Segment) (roots : List Root) :
    (roots.map (r.graftOf above)).flatMap Graft.entries =
      (Forest.entries ⟨roots⟩).map (Entry.below above r.chain) := by
  simp [Forest.entries, Graft.entries, graftOf, Node.drain_eq, Entry.below, List.flatMap_map,
    List.map_flatMap, Function.comp_def]

/-! ## Examining -/

theorem examineRoutes_eq_ok_iff {r : Router} (hr : r.forest.Sound) {m : Method}
    {routes : List (List Segment × Route)} :
    r.examineRoutes m routes = .ok () ↔
      ∀ entry ∈ routes, r.Fits ⟨m, entry.1, entry.2⟩ := by
  induction routes with
  | nil => simp [examineRoutes]
  | cons entry routes ih =>
    obtain ⟨segments, route⟩ := entry
    rw [List.forall_mem_cons, ← ih]
    simp only [examineRoutes]
    cases hre : (r.forest.root m).rehearse segments with
    | error e =>
      have hn : ¬ r.Fits ⟨m, segments, route⟩ := fun h => by
        have := (hr.root m).rehearse_eq_ok_iff.2 ⟨h.admits, rfl⟩
        rw [hre] at this
        cases this
      simp [hn]
    | ok found =>
      obtain ⟨hadmits, rfl⟩ := (hr.root m).rehearse_eq_ok_iff.1 hre
      have hfits : r.Fits ⟨m, segments, route⟩ ↔
          r.checkDuplicate m segments ((r.forest.root m).locate? segments) = .ok () := by
        rw [checkDuplicate_eq_ok_iff, ← Node.routeAt_eq, ← Forest.route?_eq]
        exact ⟨Fits.fresh, fun h => ⟨hadmits, h⟩⟩
      rw [hfits]
      exact bind_unit_eq_ok_iff

theorem examine_eq_ok_iff {r : Router} (hr : r.forest.Sound) {gs : List Graft} :
    r.examine gs = .ok () ↔ ∀ e ∈ gs.flatMap Graft.entries, r.Fits e := by
  induction gs with
  | nil => simp [examine]
  | cons g gs ih =>
    have hg : r.examineRoutes g.method g.routes = .ok () ↔ ∀ e ∈ g.entries, r.Fits e := by
      rw [examineRoutes_eq_ok_iff hr, Graft.entries, List.forall_mem_map]
    rw [List.flatMap_cons, List.forall_mem_append, ← ih, ← hg]
    exact bind_unit_eq_ok_iff

theorem checkDepth_eq_ok_iff {r : Router} {path : Text} {depth : Nat} :
    r.checkDepth path depth = .ok () ↔ depth ≤ r.options.maxParamDepth := by
  unfold checkDepth
  split <;> simp <;> omega

theorem grafts_eq_ok_iff {r : Router} {path : Text} {above : List Segment} {roots : List Root}
    {gs : List Graft} :
    r.grafts path above roots = .ok gs ↔
      (∀ root ∈ roots,
        Pattern.wildcards above + root.tree.maxSlots ≤ r.options.maxParamDepth) ∧
      gs = roots.map (r.graftOf above) := by
  induction roots generalizing gs with
  | nil => simp [grafts, eq_comm]
  | cons root roots ih =>
    have hd : r.checkDepth path (Pattern.wildcards above + root.tree.maxSlots) = .ok () ↔
        Pattern.wildcards above + root.tree.maxSlots ≤ r.options.maxParamDepth :=
      checkDepth_eq_ok_iff
    rw [List.forall_mem_cons, ← hd, grafts, bind_unit_eq_ok_iff, bind_eq_ok_iff]
    simp only [pure_eq_ok_iff, ih]
    constructor
    · rintro ⟨hroot, _, ⟨hroots, rfl⟩, rfl⟩
      exact ⟨⟨hroot, hroots⟩, rfl⟩
    · rintro ⟨⟨hroot, hroots⟩, rfl⟩
      exact ⟨hroot, _, ⟨hroots, rfl⟩, rfl⟩

/-! ## Attaching -/

/-- **What fits and agrees is attached.** -/
theorem attach_of_fits {r : Router} (hr : r.forest.Sound) {gs : List Graft}
    (hs : ∀ e ∈ gs.flatMap Graft.entries, ∀ s ∈ e.segments, s.Proper)
    (hf : ∀ e ∈ gs.flatMap Graft.entries, r.Fits e)
    (ha : (gs.flatMap Graft.entries).Pairwise (Entry.Agrees r.options)) :
    ∃ f, r.attach gs = ⟨.ok (), { r with forest := f }⟩ ∧
      r.forest.Placed (gs.flatMap Graft.entries) f ∧
      f.methods = seatAll emptyRelation r.forest.methods (gs.map Graft.method) := by
  induction gs generalizing r with
  | nil => exact ⟨r.forest, rfl, ⟨hr, by simp, rfl⟩, rfl⟩
  | cons g gs ih =>
    rw [List.flatMap_cons] at hs hf ha ⊢
    obtain ⟨hhead, htail, hacross⟩ := List.pairwise_append.1 ha
    have hplant := hr.placed_plant g.method
    have hfits : ∀ e ∈ g.entries,
        ({ r with forest := r.forest.plant g.method } : Router).Fits e := fun e he =>
      (fits_placed_iff hplant).2 ⟨hf e (by simp [he]), by simp⟩
    obtain ⟨f, hregister, hplaced, hmethods⟩ :=
      registerAll_of_fits (r := { r with forest := r.forest.plant g.method }) hplant.sound
        (fun e he => hs e (by simp [he])) hfits hhead
    have hboth : r.forest.Placed g.entries f := hplant.trans hplaced
    have hnext : ∀ e ∈ gs.flatMap Graft.entries, ({ r with forest := f } : Router).Fits e :=
      fun e he => (fits_placed_iff hboth).2
        ⟨hf e (List.mem_append_right _ he), fun e' he' => hacross e' he' e he⟩
    obtain ⟨f', hattach, hplaced', hmethods'⟩ :=
      ih (r := { r with forest := f }) hboth.sound
        (fun e he => hs e (List.mem_append_right _ he)) hnext htail
    refine ⟨f', ?_, hboth.trans hplaced', ?_⟩
    · simp only [attach, attachRoutes_eq]
      rw [show (g.routes.map fun (segments, route) => (⟨g.method, segments, route⟩ : Entry)) =
        g.entries from rfl, hregister]
      exact hattach
    · have hsame : f.methods = seat emptyRelation r.forest.methods g.method := by
        rw [hmethods, Forest.methods_plant]
        refine seatAll_of_subset _ fun m hm => ?_
        obtain ⟨e, he, rfl⟩ := List.mem_map.1 hm
        obtain ⟨_, -, rfl⟩ := List.mem_map.1 he
        simp
      rw [hmethods', hsame, List.map_cons, seatAll_cons]

/-- Every route of `sub` is within the limit of parameters and fits below the prefix. -/
structure Mountable (r : Router) (above : List Segment) (sub : Router) : Prop where
  depth : ∀ root ∈ sub.forest.roots,
    Pattern.wildcards above + root.tree.maxSlots ≤ r.options.maxParamDepth
  fits : ∀ e ∈ sub.forest.entries, r.Fits (e.below above r.chain)

/-- **What was found to fit is attached.** The routes are those of one router, so they agree. -/
theorem attach_grafts {r sub : Router} (hr : r.forest.Sound) (hsub : sub.forest.Sound)
    {path : Text} {above : List Segment} (hp : Pattern.split path = .ok above)
    (hfits : ∀ e ∈ sub.forest.entries, r.Fits (e.below above r.chain)) :
    ∃ f, r.attach (sub.forest.roots.map (r.graftOf above)) = ⟨.ok (), { r with forest := f }⟩ ∧
      r.forest.Placed (sub.forest.entries.map (Entry.below above r.chain)) f ∧
      f.methods = seatAll emptyRelation r.forest.methods sub.forest.methods := by
  have hentries := entries_grafts r above sub.forest.roots
  have hfits' : ∀ e ∈ (sub.forest.roots.map (r.graftOf above)).flatMap Graft.entries,
      r.Fits e := by
    rw [hentries, List.forall_mem_map]
    exact hfits
  have hproper : ∀ e ∈ (sub.forest.roots.map (r.graftOf above)).flatMap Graft.entries,
      ∀ s ∈ e.segments, s.Proper := by
    rw [hentries, List.forall_mem_map]
    intro e he s hs
    rcases List.mem_append.1 hs with hs | hs
    · exact Pattern.split_proper hp s hs
    · exact hsub.proper_entry he s hs
  have hagree : ((sub.forest.roots.map (r.graftOf above)).flatMap Graft.entries).Pairwise
      (Entry.Agrees r.options) := by
    rw [hentries, List.pairwise_map]
    exact (hsub.pairwise_entries r.options).imp Entry.agrees_below_iff.2
  obtain ⟨f, hattach, hplaced, hmethods⟩ := attach_of_fits hr hproper hfits' hagree
  rw [hentries] at hplaced
  refine ⟨f, hattach, hplaced, ?_⟩
  rw [hmethods, List.map_map]
  rfl

/-- **What can be mounted is mounted.** -/
theorem mount_of_mountable {r sub : Router} (hr : r.forest.Sound) (hsub : sub.forest.Sound)
    {path : Text} {above : List Segment} (hp : Pattern.split path = .ok above)
    (h : r.Mountable above sub) :
    ∃ f, r.mount path sub = ⟨.ok (), { r with forest := f }⟩ ∧
      r.forest.Placed (sub.forest.entries.map (Entry.below above r.chain)) f ∧
      f.methods = seatAll emptyRelation r.forest.methods sub.forest.methods := by
  have hgrafts : r.grafts path above sub.forest.roots =
      .ok (sub.forest.roots.map (r.graftOf above)) :=
    grafts_eq_ok_iff.2 ⟨h.depth, rfl⟩
  have hexamine : r.examine (sub.forest.roots.map (r.graftOf above)) = .ok () := by
    rw [examine_eq_ok_iff hr, entries_grafts, List.forall_mem_map]
    exact h.fits
  obtain ⟨f, hattach, hplaced, hmethods⟩ := attach_grafts hr hsub hp h.fits
  refine ⟨f, ?_, hplaced, hmethods⟩
  simp only [mount, hp, hgrafts, hexamine, hattach]

/-- **What cannot be mounted leaves the router as it was.** -/
theorem mount_of_not_mountable {r sub : Router} (hr : r.forest.Sound) {path : Text}
    {above : List Segment} (hp : Pattern.split path = .ok above) (h : ¬ r.Mountable above sub) :
    ∃ error, r.mount path sub = ⟨.error error, r⟩ := by
  simp only [mount, hp]
  cases hg : r.grafts path above sub.forest.roots with
  | error e => exact ⟨e, rfl⟩
  | ok gs =>
    obtain ⟨hdepth, rfl⟩ := grafts_eq_ok_iff.1 hg
    cases he : r.examine (sub.forest.roots.map (r.graftOf above)) with
    | error e => exact ⟨e, by simp [he]⟩
    | ok _ =>
      refine absurd ⟨hdepth, ?_⟩ h
      have := (examine_eq_ok_iff hr).1 he
      rwa [entries_grafts, List.forall_mem_map] at this

end Router

end Routing
