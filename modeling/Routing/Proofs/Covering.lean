import Routing.Proofs.Tables

/-!
# Routes that are not composed yet

Whatever a call does to the routes of a router, it leaves none of them composed: a new route is
not, and a change of its layers throws away what was composed.

* `Node.routeAt_modifyAt_mapRoutes` — changing routes somewhere leaves every route changed or as it
  was.
* `Router.root?_cover` — the trees after layers were added to some routes.
* `Router.Reachable.forall_routes` — what is true of all routes of a router.
* `Router.Reachable.uncomposed` — no route of a router is composed before it serves.
* `Router.Reachable.run_ready` — what is run for a route are the layers that it has.
-/

namespace Routing

variable [Regex.Engine]

/-! ## Routes that were changed somewhere -/

namespace Branches

variable {ρ : Type}

/-- The branches keep their segments, so a changed node is found where the old one was. -/
theorem find?_madeFrom_modify_cases {b : Branches ρ} {wanted : Edge → Bool}
    {change : Node ρ → Node ρ} {s : Segment} {c : Node ρ}
    (h : (b.modify wanted change).find? (Edge.madeFrom s) = some c) :
    ∃ old, b.find? (Edge.madeFrom s) = some old ∧ (c = old ∨ c = change old) := by
  induction b with
  | nil => cases h
  | cons edge slots route below rest _ ih =>
    by_cases hw : wanted edge = true
    · rw [modify, if_pos hw, find?_madeFrom_cons] at h
      rw [find?_madeFrom_cons]
      by_cases hs : edge.segment = s
      · rw [if_pos hs] at h ⊢
        exact ⟨_, rfl, Or.inr (Option.some.inj h).symm⟩
      · rw [if_neg hs] at h ⊢
        exact ⟨c, h, Or.inl rfl⟩
    · rw [modify, if_neg hw, find?_madeFrom_cons] at h
      rw [find?_madeFrom_cons]
      by_cases hs : edge.segment = s
      · rw [if_pos hs] at h ⊢
        exact ⟨c, h, Or.inl rfl⟩
      · rw [if_neg hs] at h ⊢
        exact ih h

end Branches

namespace Node

variable {ρ : Type}

/-- **Where routes below some segments are changed, every route is changed or as it was.** -/
theorem routeAt_modifyAt_mapRoutes {choose : Segment → Edge → Bool} {change : ρ → ρ}
    {segments position : List Segment} {n : Node ρ} {route : ρ}
    (h : (n.modifyAt choose (mapRoutes change) segments).routeAt position = some route) :
    ∃ old, n.routeAt position = some old ∧ (route = old ∨ route = change old) := by
  induction segments generalizing n position with
  | nil =>
    rw [modifyAt, routeAt, labelAt?_mapRoutes, Option.bind_map] at h
    obtain ⟨l, hl, hroute⟩ := Option.bind_eq_some_iff.1 h
    obtain ⟨old, hold, rfl⟩ := Option.map_eq_some_iff.1 hroute
    exact ⟨old, by rw [routeAt, hl, Option.bind_some, hold], Or.inr rfl⟩
  | cons s segments ih =>
    cases position with
    | nil => exact ⟨route, h, Or.inl rfl⟩
    | cons p position =>
      rw [routeAt_cons] at h ⊢
      obtain ⟨c, hc, hroute⟩ := Option.bind_eq_some_iff.1 h
      obtain ⟨old, hold, hchange⟩ := Branches.find?_madeFrom_modify_cases hc
      rw [hold, Option.bind_some]
      rcases hchange with rfl | rfl
      · exact ⟨route, hroute, Or.inl rfl⟩
      · exact ih hroute

end Node

namespace Table

omit [Regex.Engine]

theorem put_cases {t : Table} {e : Entry} {m : Method} {segments : List Segment} {route : Route}
    (h : t.put e m segments = some route) :
    t m segments = some route ∨ e = ⟨m, segments, route⟩ := by
  unfold put at h
  split at h
  · rename_i hkey
    obtain ⟨rfl, rfl⟩ := hkey
    cases h
    exact Or.inr rfl
  · exact Or.inl h

/-- A table that was overwritten has a route of the entries or the one it had. -/
theorem putAll_cases {t : Table} {es : List Entry} {m : Method} {segments : List Segment}
    {route : Route} (h : t.putAll es m segments = some route) :
    t m segments = some route ∨ ⟨m, segments, route⟩ ∈ es := by
  induction es generalizing t with
  | nil => exact Or.inl h
  | cons e es ih =>
    rw [putAll_cons] at h
    rcases ih h with hput | hmem
    · rcases put_cases hput with hold | rfl
      · exact Or.inl hold
      · exact Or.inr List.mem_cons_self
    · exact Or.inr (List.mem_cons_of_mem e hmem)

end Table

namespace Router

/-! ## The trees after layers were added -/

theorem root?_cover {r : Router} {pattern : Text} {segments : List Segment}
    (hs : Pattern.split pattern = .ok segments) (m : Option Method) (layers : List Layer)
    (m' : Method) :
    (r.cover m pattern layers).router.forest.root? m' =
      (r.forest.root? m').map fun tree =>
        if m.all (· = m') then coverTree segments layers tree else tree := by
  simp only [cover, hs, Forest.root?, List.find?_map, Option.map_map]
  have hmethod : (fun root : Root => decide (root.method = m')) ∘ (fun root =>
      if m.all (· = root.method) then root.graft (coverTree segments layers root.tree) else root) =
        fun root => decide (root.method = m') := by
    funext root
    simp only [Function.comp_apply]
    split <;> rfl
  rw [hmethod]
  cases hfind : r.forest.roots.find? (fun root => decide (root.method = m')) with
  | none => rfl
  | some root =>
    have hm : root.method = m' := by simpa using List.find?_some hfind
    simp only [Option.map_some, Function.comp_apply, hm]
    split <;> rfl

/-- A covered router has the routes it had, with or without more layers. -/
theorem table_cover_cases {r : Router} {m : Option Method} {pattern : Text} {layers : List Layer}
    {m' : Method} {segments : List Segment} {route : Route}
    (h : (r.cover m pattern layers).router.table m' segments = some route) :
    ∃ old, r.table m' segments = some old ∧ (route = old ∨ route = old.append layers) := by
  cases hs : Pattern.split pattern with
  | error e =>
    simp only [cover, hs] at h
    exact ⟨route, h, Or.inl rfl⟩
  | ok above =>
    rw [table, Forest.route?, root?_cover hs] at h
    cases hroot : r.forest.root? m' with
    | none =>
      rw [hroot] at h
      cases h
    | some tree =>
      rw [hroot, Option.map_some, Option.bind_some, ← Node.routeAt_eq] at h
      rw [table, Forest.route?, hroot, Option.bind_some, ← Node.routeAt_eq]
      split at h
      · rw [coverTree_eq] at h
        exact Node.routeAt_modifyAt_mapRoutes h
      · exact ⟨route, h, Or.inl rfl⟩

/-! ## What each call leaves -/

/-- What was registered had passed all checks. -/
theorem accepts_of_ok {r : Router} (hr : r.forest.Sound) {m : Method} {pattern : Text}
    {handler : Handler} {layers : List Layer}
    (h : (r.handle m pattern handler layers).answer = .ok ()) :
    ∃ segments, r.Accepts m pattern segments ∧
      (r.options.duplicateRoutes = .reject → r.table m segments = none) := by
  by_contra hnone
  have hfits : ∀ segments, r.Accepts m pattern segments →
      ¬ r.Fits ⟨m, segments, r.routeOf handler layers⟩ := by
    intro segments haccepts hfits
    exact hnone ⟨segments, haccepts, hfits.fresh⟩
  obtain ⟨e, he, -⟩ := handle_of_not_fits hr hfits
  rw [h] at he
  cases he

/-- A route after a registration is the new one, or was there before. -/
theorem table_handle_cases {r : Router} (hr : r.forest.Sound) {m : Method} {pattern : Text}
    {handler : Handler} {layers : List Layer} {m' : Method} {segments : List Segment}
    {route : Route}
    (h : (r.handle m pattern handler layers).router.table m' segments = some route) :
    r.table m' segments = some route ∨
      Pattern.split pattern = .ok segments ∧ route = r.routeOf handler layers := by
  cases ha : (r.handle m pattern handler layers).answer with
  | error e =>
    rw [table_of_error hr ha] at h
    exact Or.inl h
  | ok _ =>
    obtain ⟨new, haccepts, hfresh⟩ := accepts_of_ok hr ha
    rw [(handle_of_accepts hr haccepts handler layers hfresh).2] at h
    rcases Table.put_cases h with hold | hnew
    · exact Or.inl hold
    · obtain ⟨-, rfl, rfl⟩ := Entry.mk.inj hnew
      exact Or.inr ⟨haccepts.split, rfl⟩

/-- A route after a mount is one of the other router below the prefix, or was there before. -/
theorem table_mount_cases {r sub : Router} (hr : r.forest.Sound) (hsub : sub.forest.Sound)
    {path : Text} {m : Method} {key : List Segment} {route : Route}
    (h : (r.mount path sub).router.table m key = some route) :
    r.table m key = some route ∨ ∃ above segments old, Pattern.split path = .ok above ∧
      key = above ++ segments ∧ sub.table m segments = some old ∧ route = old.within r.chain := by
  cases hp : Pattern.split path with
  | error e =>
    simp only [mount, hp] at h
    exact Or.inl h
  | ok above =>
    by_cases hm : r.Mountable above sub
    · obtain ⟨f, hmount, hplaced, -⟩ := mount_of_mountable hr hsub hp hm
      rw [hmount, table, hplaced.table] at h
      rcases Table.putAll_cases h with hold | hmem
      · exact Or.inl hold
      · obtain ⟨old, hold, hbelow⟩ := List.mem_map.1 hmem
        obtain ⟨rfl, rfl, rfl⟩ := Entry.mk.inj hbelow
        exact Or.inr ⟨above, old.segments, old.route, rfl, rfl, hsub.mem_entries_iff.1 hold, rfl⟩
    · obtain ⟨e, hmount⟩ := mount_of_not_mountable hr hp hm
      rw [hmount] at h
      exact Or.inl h

theorem table_of_no_roots {r : Router} (h : r.forest.roots = []) (m : Method)
    (segments : List Segment) : r.table m segments = none := by
  simp [table, Forest.route?, Forest.root?, h]

/-- **All routes are made by registering, adding layers and mounting.** What is true of a route that
was just registered, and stays true of it under more layers and below a prefix, is true of all. -/
theorem Reachable.forall_routes {P : List Segment → Route → Prop}
    (hregister : ∀ pattern segments handler chain, Pattern.split pattern = .ok segments →
      P segments { handler := handler, chain := chain })
    (happend : ∀ segments route layers, P segments route → P segments (route.append layers))
    (hmount : ∀ path above segments route outer, Pattern.split path = .ok above →
      P segments route → P (above ++ segments) (route.within outer))
    {r : Router} (h : r.Reachable) {m : Method} {segments : List Segment} {route : Route}
    (hroute : r.table m segments = some route) : P segments route := by
  induction h generalizing m segments route with
  | new options chain =>
    rw [table_of_no_roots rfl] at hroute
    cases hroute
  | @new? options r hr =>
    unfold Router.new? at hr
    split at hr
    · cases hr
      rw [table_of_no_roots rfl] at hroute
      cases hroute
    · cases hr
  | useGlobal layers _ ih => exact ih hroute
  | @handle r m' pattern handler layers hr ih =>
    rcases table_handle_cases hr.sound hroute with hold | ⟨hsplit, rfl⟩
    · exact ih hold
    · exact hregister pattern segments handler _ hsplit
  | cover m' pattern layers _ ih =>
    obtain ⟨old, hold, rfl | rfl⟩ := table_cover_cases hroute
    · exact ih hold
    · exact happend segments old layers (ih hold)
  | @mount r sub path hr hsub ih ihsub =>
    rcases table_mount_cases hr.sound hsub.sound hroute with
      hold | ⟨above, behind, old, hsplit, rfl, hold, rfl⟩
    · exact ih hold
    · exact hmount path above behind old r.chain hsplit (ihsub hold)
  | @serveFiles r root strip _ ih =>
    unfold Router.serveFiles at hroute
    split at hroute <;> exact ih hroute
  | onNotFound h _ ih => exact ih hroute
  | onNotAllowed h _ ih => exact ih hroute

/-- No route of the router is composed. -/
def Uncomposed (r : Router) : Prop :=
  ∀ m segments route, r.table m segments = some route → route.composed = none

theorem Reachable.uncomposed {r : Router} (h : r.Reachable) : r.Uncomposed := by
  intro m segments route hroute
  exact h.forall_routes (P := fun _ route => route.composed = none) (fun _ _ _ _ _ => rfl)
    (fun _ _ _ _ => rfl) (fun _ _ _ _ _ _ _ => rfl) hroute

end Router

/-- Putting the layers of a route around its handler. -/
def Route.composition (r : Route) : Run Handler := r.chain.compose r.handler

/-- **A route of a router that was not served from is composed of the layers that it has.** -/
theorem Router.Reachable.run_ready {r : Router} (h : r.Reachable) {m : Method}
    {segments : List Segment} {route : Route} (hroute : r.table m segments = some route) :
    route.ready.1 = route.composition := by
  have hnone : route.composed = none := h.uncomposed m segments route hroute
  simp only [Route.ready, hnone, Route.composition]

end Routing
