import Routing.Proofs.Histories
import Routing.Proofs.Refusing

/-!
# The order of methods

The methods of a router stand in the order in which their first routes came, and each of them has a
route, unless an expression could not be read in the first registration of a method.

* `Router.Enrolls` — the methods in the order of their first routes, call by call.
* `Router.Enrolls.methods`, `Router.Enrolls.mem_iff` — they are the methods of the router, and those
  that have a route.
-/

namespace Routing

namespace Method

/-- The methods with one more behind them, unless it is there. -/
def enlist (ms : List Method) (m : Method) : List Method := if m ∈ ms then ms else ms ++ [m]

theorem seat_eq_enlist (ms : List Method) (m : Method) : seat emptyRelation ms m = enlist ms m := by
  by_cases h : m ∈ ms
  · rw [seat_of_mem _ h, enlist, if_pos h]
  · rw [seat_last _ h fun _ _ hr => hr.elim, enlist, if_neg h]

theorem seatAll_eq_foldl_enlist (ms ms' : List Method) :
    seatAll emptyRelation ms ms' = ms'.foldl enlist ms := by
  induction ms' generalizing ms with
  | nil => rfl
  | cons m rest ih => rw [seatAll_cons, seat_eq_enlist, ih, List.foldl_cons]

theorem mem_enlist {ms : List Method} {m m' : Method} : m' ∈ enlist ms m ↔ m' ∈ ms ∨ m' = m := by
  rw [← seat_eq_enlist, mem_seat]

theorem mem_foldl_enlist {ms ms' : List Method} {m : Method} :
    m ∈ ms'.foldl enlist ms ↔ m ∈ ms ∨ m ∈ ms' := by
  rw [← seatAll_eq_foldl_enlist, mem_seatAll]

end Method

variable [Regex.Engine]

namespace Router

/-- The routers that are built by calls, each with the methods in the order in which their first
routes came. Calls may have been refused, but not the first registration of a method for an
expression that could not be read. -/
inductive Enrolls : Router → List Method → Prop where
  | new (options : Options) (chain : Chain) : Enrolls (.new options chain) []
  | new? {options : Options} {r : Router} : Router.new? options = .ok r → Enrolls r []
  | useGlobal {r : Router} {ms : List Method} (layers : List Layer) :
      Enrolls r ms → Enrolls (r.useGlobal layers) ms
  | handle {r : Router} {ms : List Method} {m : Method} {pattern : Text} {handler : Handler}
      {layers : List Layer} : Enrolls r ms → (r.handle m pattern handler layers).answer = .ok () →
        Enrolls (r.handle m pattern handler layers).router (Method.enlist ms m)
  | refuseHandle {r : Router} {ms : List Method} {m : Method} {pattern : Text}
      {handler : Handler} {layers : List Layer} {e : RouterError} :
      Enrolls r ms → (r.handle m pattern handler layers).answer = .error e →
        ¬ r.FirstUnreadable m e → Enrolls (r.handle m pattern handler layers).router ms
  | cover {r : Router} {ms : List Method} (m : Option Method) (pattern : Text)
      (layers : List Layer) : Enrolls r ms → Enrolls (r.cover m pattern layers).router ms
  | mount {r sub : Router} {ms ms' : List Method} {path : Text} :
      Enrolls r ms → Enrolls sub ms' → (r.mount path sub).answer = .ok () →
        Enrolls (r.mount path sub).router (ms'.foldl Method.enlist ms)
  | refuseMount {r sub : Router} {ms : List Method} {path : Text} {e : RouterError} :
      Enrolls r ms → sub.Reachable → (r.mount path sub).answer = .error e →
        Enrolls (r.mount path sub).router ms
  | serveFiles {r : Router} {ms : List Method} (root : Text) (strip : Bool) :
      Enrolls r ms → Enrolls (r.serveFiles root strip).router ms
  | onNotFound {r : Router} {ms : List Method} (h : Handler) :
      Enrolls r ms → Enrolls (r.onNotFound h) ms
  | onNotAllowed {r : Router} {ms : List Method} (h : Handler) :
      Enrolls r ms → Enrolls (r.onNotAllowed h) ms

theorem Enrolls.reachable {r : Router} {ms : List Method} (h : r.Enrolls ms) : r.Reachable := by
  induction h with
  | new options chain => exact .new options chain
  | new? hr => exact .new? hr
  | useGlobal layers _ ih => exact .useGlobal layers ih
  | handle _ _ ih => exact .handle _ _ _ _ ih
  | refuseHandle _ _ _ ih => exact .handle _ _ _ _ ih
  | cover m pattern layers _ ih => exact .cover m pattern layers ih
  | mount _ _ _ ih ihb => exact .mount _ ih ihb
  | refuseMount _ hsub _ ih => exact .mount _ ih hsub
  | serveFiles root strip _ ih => exact .serveFiles root strip ih
  | onNotFound h _ ih => exact .onNotFound h ih
  | onNotAllowed h _ ih => exact .onNotAllowed h ih

/-! ## What each call does to the methods -/

theorem forest_new? {options : Options} {r : Router} (h : Router.new? options = .ok r) :
    r.forest = {} := by
  unfold Router.new? at h
  split at h
  · cases h
    rfl
  · cases h

theorem forest_serveFiles (r : Router) (root : Text) (strip : Bool) :
    (r.serveFiles root strip).router.forest = r.forest := by
  unfold serveFiles
  split <;> rfl

theorem methods_handle {r : Router} (hr : r.forest.Sound) {m : Method} {pattern : Text}
    {handler : Handler} {layers : List Layer}
    (h : (r.handle m pattern handler layers).answer = .ok ()) :
    (r.handle m pattern handler layers).router.forest.methods =
      Method.enlist r.forest.methods m := by
  obtain ⟨segments, haccepts, hfresh⟩ := accepts_of_ok hr h
  obtain ⟨f, hregister, -, hmethods⟩ := register_of_fits hr (Pattern.split_proper haccepts.split)
    (haccepts.fits hr (r.routeOf handler layers) hfresh)
  rw [handle_of_split haccepts.split haccepts.depth, hregister]
  exact hmethods.trans (Method.seat_eq_enlist _ _)

theorem methods_cover (r : Router) (m : Option Method) (pattern : Text) (layers : List Layer) :
    (r.cover m pattern layers).router.forest.methods = r.forest.methods := by
  unfold cover
  cases Pattern.split pattern with
  | error e => rfl
  | ok segments =>
    simp only [Forest.methods, List.map_map]
    refine List.map_congr_left fun root _ => ?_
    by_cases hm : m.all (· = root.method) = true <;> simp [hm]

theorem methods_mount {r sub : Router} (hr : r.forest.Sound) (hsub : sub.forest.Sound)
    {path : Text} (h : (r.mount path sub).answer = .ok ()) :
    (r.mount path sub).router.forest.methods =
      sub.forest.methods.foldl Method.enlist r.forest.methods := by
  cases hp : Pattern.split path with
  | error e => simp [mount, hp] at h
  | ok above =>
    by_cases hm : r.Mountable above sub
    · obtain ⟨f, hmount, -, hmethods⟩ := mount_of_mountable hr hsub hp hm
      rw [hmount]
      exact hmethods.trans (Method.seatAll_eq_foldl_enlist _ _)
    · obtain ⟨e, hmount⟩ := mount_of_not_mountable hr hp hm
      rw [hmount] at h
      cases h

theorem mount_refused {r sub : Router} (hr : r.forest.Sound) (hsub : sub.forest.Sound)
    {path : Text} {e : RouterError} (h : (r.mount path sub).answer = .error e) :
    (r.mount path sub).router = r := by
  cases hp : Pattern.split path with
  | error fault => simp only [mount, hp]
  | ok above =>
    by_cases hm : r.Mountable above sub
    · obtain ⟨f, hmount, -⟩ := mount_of_mountable hr hsub hp hm
      rw [hmount] at h
      cases h
    · obtain ⟨error, hmount⟩ := mount_of_not_mountable hr hp hm
      rw [hmount]

theorem handle_refused_eq {r : Router} (hr : r.forest.Sound) {m : Method} {pattern : Text}
    {handler : Handler} {layers : List Layer} {e : RouterError}
    (h : (r.handle m pattern handler layers).answer = .error e) (hfirst : ¬ r.FirstUnreadable m e) :
    (r.handle m pattern handler layers).router = r := by
  rcases handle_refused_cases hr h with ⟨hrouter, -⟩ | ⟨-, hfirst'⟩
  · exact hrouter
  · exact absurd hfirst' hfirst

/-- **The methods of a router stand in the order of their first routes.** -/
theorem Enrolls.methods {r : Router} {ms : List Method} (h : r.Enrolls ms) :
    r.forest.methods = ms := by
  induction h with
  | new options chain => rfl
  | new? hr => rw [forest_new? hr]; rfl
  | useGlobal layers _ ih => exact ih
  | handle hr hok ih => rw [methods_handle hr.reachable.sound hok, ih]
  | refuseHandle hr he hfirst ih => rw [handle_refused_eq hr.reachable.sound he hfirst, ih]
  | cover m pattern layers _ ih => rw [methods_cover, ih]
  | mount hr hsub hok ih ihb =>
    rw [methods_mount hr.reachable.sound hsub.reachable.sound hok, ih, ihb]
  | refuseMount hr hsub he ih => rw [mount_refused hr.reachable.sound hsub.sound he, ih]
  | serveFiles root strip _ ih => rw [forest_serveFiles, ih]
  | onNotFound h _ ih => exact ih
  | onNotAllowed h _ ih => exact ih

/-! ## Methods with a route -/

/-- The method has a route. -/
def Routes (r : Router) (m : Method) : Prop := ∃ segments, (r.table m segments).isSome

theorem Routes.mem_methods {r : Router} {m : Method} (h : r.Routes m) : m ∈ r.forest.methods := by
  obtain ⟨segments, hsome⟩ := h
  by_contra hm
  rw [table, Forest.route?_eq, Forest.root_eq_bare hm] at hsome
  cases segments <;> cases hsome

theorem routes_handle {r : Router} (hr : r.forest.Sound) {m : Method} {pattern : Text}
    {handler : Handler} {layers : List Layer}
    (h : (r.handle m pattern handler layers).answer = .ok ()) {m' : Method}
    (hm' : r.Routes m' ∨ m' = m) : (r.handle m pattern handler layers).router.Routes m' := by
  obtain ⟨segments, haccepts, -⟩ := accepts_of_ok hr h
  have htable := table_handle hr haccepts.split h
  rcases hm' with ⟨key, hkey⟩ | rfl
  · refine ⟨key, ?_⟩
    rw [htable, Table.put]
    split
    · rfl
    · exact hkey
  · exact ⟨segments, by rw [htable, Table.put, if_pos ⟨rfl, rfl⟩]; rfl⟩

theorem routes_cover {r : Router} (hr : r.forest.Sound) (m : Option Method) (pattern : Text)
    (layers : List Layer) {m' : Method} (h : r.Routes m') :
    (r.cover m pattern layers).router.Routes m' := by
  obtain ⟨key, hkey⟩ := h
  cases hs : Pattern.split pattern with
  | error e => exact ⟨key, by simpa [cover, hs] using hkey⟩
  | ok segments =>
    refine ⟨key, ?_⟩
    rw [table_cover hr hs]
    split
    · rwa [Option.isSome_map]
    · exact hkey

theorem routes_mount {r sub : Router} (hr : r.forest.Sound) (hsub : sub.forest.Sound)
    {path : Text} (h : (r.mount path sub).answer = .ok ()) {m : Method}
    (hm : r.Routes m ∨ sub.Routes m) : (r.mount path sub).router.Routes m := by
  obtain ⟨above, -, hbelow, helsewhere, -⟩ := mounted_table hr hsub h
  have hmounted {segments : List Segment} (hsome : (sub.table m segments).isSome) :
      (r.mount path sub).router.Routes m := by
    obtain ⟨route, hroute⟩ := Option.isSome_iff_exists.1 hsome
    exact ⟨above ++ segments, by rw [hbelow m segments route hroute]; rfl⟩
  rcases hm with ⟨key, hkey⟩ | ⟨segments, hsome⟩
  · by_cases hnone : ∀ segments, key = above ++ segments → sub.table m segments = none
    · exact ⟨key, by rwa [helsewhere m key hnone]⟩
    · simp only [not_forall] at hnone
      obtain ⟨segments, -, hsome⟩ := hnone
      exact hmounted (Option.isSome_iff_ne_none.2 hsome)
  · exact hmounted hsome

/-- **The methods of a router are those that have a route.** -/
theorem Enrolls.mem_iff {r : Router} {ms : List Method} (h : r.Enrolls ms) (m : Method) :
    m ∈ ms ↔ r.Routes m := by
  refine ⟨fun hm => ?_, fun hroutes => h.methods ▸ hroutes.mem_methods⟩
  induction h with
  | new options chain => cases hm
  | new? hr => cases hm
  | useGlobal layers _ ih => exact ih hm
  | handle hr hok ih =>
    have hm' := Method.mem_enlist.1 hm
    exact routes_handle hr.reachable.sound hok (hm'.imp_left ih)
  | refuseHandle hr he hfirst ih =>
    rw [handle_refused_eq hr.reachable.sound he hfirst]
    exact ih hm
  | cover m' pattern layers hr ih => exact routes_cover hr.reachable.sound m' pattern layers (ih hm)
  | mount hr hsub hok ih ihb =>
    have hm' := Method.mem_foldl_enlist.1 hm
    exact routes_mount hr.reachable.sound hsub.reachable.sound hok (hm'.imp ih ihb)
  | refuseMount hr hsub he ih =>
    rw [mount_refused hr.reachable.sound hsub.sound he]
    exact ih hm
  | serveFiles root strip _ ih =>
    obtain ⟨segments, hsome⟩ := ih hm
    exact ⟨segments, by rwa [table, forest_serveFiles]⟩
  | onNotFound h _ ih => exact ih hm
  | onNotAllowed h _ ih => exact ih hm

end Router

end Routing
