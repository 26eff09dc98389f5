import Mathlib.Tactic.FinCases
import Routing.Proofs.Allowing
import Routing.Proofs.Sessions

/-!
# What requests get

A request gets what it is resolved to. The route that it finds runs once, with what its wildcards
captured. A request that finds none cannot tell what the routes do: at most one handler runs then,
on the request as it came, and a list of methods is never lost on its way into the header.

* `isHeaderValue_methodList` — every list of methods can be written into a header.
* `Sealed.mapRoutes`, `Sealed.dispatch_mapRoutes` — what the routes do makes no difference to a
  request that finds none.
* `Sealed.runsInstead_answer` — what runs without a route.
* `Router.Reachable.answered` — what requests get.
-/

namespace Routing

/-! ## Methods in headers -/

theorem Text.forall_mem_join {p : Char → Prop} {sep : Text} (hsep : ∀ c ∈ sep, p c)
    {ts : List Text} (h : ∀ t ∈ ts, ∀ c ∈ t, p c) : ∀ c ∈ join sep ts, p c := by
  induction ts with
  | nil =>
    intro c hc
    cases hc
  | cons t ts ih =>
    obtain ⟨ht, hts⟩ := List.forall_mem_cons.1 h
    cases ts with
    | nil => exact ht
    | cons t' ts =>
      have hjoin : join sep (t :: t' :: ts) = t ++ (sep ++ join sep (t' :: ts)) := by
        simp only [join, List.append_assoc]
      intro c hc
      rw [hjoin, List.mem_append, List.mem_append] at hc
      rcases hc with hc | hc | hc
      · exact ht c hc
      · exact hsep c hc
      · exact ih hts c hc

/-- A character of a token is visible. -/
theorem toNat_of_isTokenChar {c : Char} (h : isTokenChar c = true) :
    32 ≤ c.toNat ∧ c.toNat < 127 := by
  rw [isTokenChar, Bool.or_eq_true] at h
  rcases h with h | h
  · have hletter : (decide (65 ≤ c.val ∧ c.val ≤ 90) ||
        (decide (97 ≤ c.val) && decide (c.val ≤ 122)) ||
        (decide (48 ≤ c.val) && decide (c.val ≤ 57))) = true := h
    simp only [Bool.or_eq_true, Bool.and_eq_true, decide_eq_true_eq, UInt32.le_iff_toNat_le]
      at hletter
    change ((65 ≤ c.toNat ∧ c.toNat ≤ 90) ∨ (97 ≤ c.toNat ∧ c.toNat ≤ 122)) ∨
      (48 ≤ c.toNat ∧ c.toNat ≤ 57) at hletter
    omega
  · rw [List.contains_iff_mem] at h
    fin_cases h <;> decide

/-- **Every list of methods can be written into a header.** -/
theorem isHeaderValue_methodList (ms : List Method) :
    Response.isHeaderValue (methodList ms) = true := by
  rw [Response.isHeaderValue, List.all_eq_true]
  apply Text.forall_mem_join
  · rw [← List.all_eq_true]
    decide
  · intro t ht c hc
    obtain ⟨m, -, rfl⟩ := List.mem_map.1 ht
    have htoken := m.token
    rw [isToken, Bool.and_eq_true, List.all_eq_true] at htoken
    obtain ⟨hlow, hhigh⟩ := toNat_of_isTokenChar (htoken.2 c hc)
    simp only [hlow, hhigh, decide_true, Bool.and_self, Bool.or_true]

namespace Response

/-- The response with this header, unless it has one of the name. -/
def completed (name value : Text) (res : Response) : Response :=
  if res.hasHeader name then res else res.appendHeader name value

theorem hasHeader_completed (name value : Text) (res : Response) :
    (res.completed name value).hasHeader name = true := by
  unfold completed
  split
  · assumption
  · simp [hasHeader, appendHeader]

/-- A list that can be written is put behind the headers that are there. -/
theorem setAllow_of_isHeaderValue {res : Response} {allow : Text} (h : isHeaderValue allow = true)
    (hnone : res.hasHeader allowName = false) :
    res.setAllow allow = res.appendHeader allowName allow := by
  have hkept : res.headers.filter (·.name ≠ allowName) = res.headers := by
    rw [List.filter_eq_self]
    intro header hheader
    have hany := List.any_eq_false.1 hnone header hheader
    simpa using hany
  rw [setAllow, if_pos h, setHeader, hkept, appendHeader]

end Response

/-! ## Requests that find no route -/

theorem Run.bind_of {α β : Type} (run : Run α) (f : α → β) :
    (run >>= fun a => .of (f a)) = run.map f := by
  obtain ⟨events, value⟩ := run
  cases value with
  | none => rfl
  | some a => simp [bind, andThen, of, map]

section

variable [Regex.Engine]

namespace Sealed

variable {s : Sealed} {m : Method} {path : Text}

theorem resolve_of_none (h : s.finding? m (Text.Percent.text path) = none) :
    s.resolve m path = ⟨.of (s.fallback m (Text.Percent.text path)), s⟩ := by
  simp only [resolve, lookup_of_none h]
  rfl

theorem resolve_of_some {f : Finding} (h : s.finding? m (Text.Percent.text path) = some f) :
    s.resolve m path = ⟨f.route.ready.1.map fun handler => .found ⟨handler, f.params⟩,
      s.keep m f.segments f.route.ready.2⟩ := by
  simp only [resolve, lookup_of_some h, Served.map, Run.map, Option.map_map]
  rfl

theorem fallback_ne_found (s : Sealed) (m : Method) (path : Text) (found : Match) :
    s.fallback m path ≠ .found found := by
  unfold fallback
  split
  · split <;> exact nofun
  · split
    · exact nofun
    · split
      · split <;> exact nofun
      · exact nofun

theorem finding?_eq_none_of_resolve {resolution : Resolution}
    (h : (s.resolve m path).answer = some resolution)
    (hfound : ∀ found, resolution ≠ .found found) :
    s.finding? m (Text.Percent.text path) = none := by
  cases hf : s.finding? m (Text.Percent.text path) with
  | none => rfl
  | some f =>
    rw [resolve_of_some hf] at h
    obtain ⟨handler, -, rfl⟩ := Option.map_eq_some_iff.1 h
    exact absurd rfl (hfound ⟨handler, f.params⟩)

/-- What is answered without a route is the fallback. -/
theorem fallback_of_resolve {resolution : Resolution}
    (h : (s.resolve m path).answer = some resolution)
    (hfound : ∀ found, resolution ≠ .found found) :
    s.fallback m (Text.Percent.text path) = resolution := by
  rw [resolve_of_none (finding?_eq_none_of_resolve h hfound)] at h
  exact Option.some.inj h

/-- The list of methods that a request is told can be written into a header. -/
theorem isHeaderValue_of_resolve {resolution : Resolution} {allow : Text}
    (h : (s.resolve m path).answer = some resolution) (hallow : resolution.allow? = some allow) :
    Response.isHeaderValue allow = true := by
  have hfound : ∀ found, resolution ≠ .found found := by
    rintro found rfl
    cases hallow
  rw [← fallback_of_resolve h hfound] at hallow
  have hallowed := allowedAt_of_fallback hallow
  rw [allowedAt_eq, Option.map_eq_some_iff] at hallowed
  obtain ⟨ms, -, rfl⟩ := hallowed
  exact isHeaderValue_methodList ms

/-- Without a route nothing is composed, and the resolution is answered. -/
theorem dispatch_of_resolve (disk : Directory) {req : Request} {resolution : Resolution}
    (h : (s.resolve req.method req.uri.path).answer = some resolution)
    (hfound : ∀ found, resolution ≠ .found found) :
    s.dispatch disk req = ⟨s.answer disk req resolution, s⟩ := by
  have hresolve := resolve_of_none (finding?_eq_none_of_resolve h hfound)
  rw [fallback_of_resolve h hfound] at hresolve
  simp only [dispatch, hresolve]
  rfl

/-! ### What the routes do -/

/-- The router with this change made to all routes. -/
def mapRoutes (change : Route → Route) (s : Sealed) : Sealed :=
  { s with forest := s.forest.mapRoutes change }

variable {change : Route → Route}

theorem finding?_mapRoutes (hs : s.forest.Sound) (m : Method) (path : Text) :
    (s.mapRoutes change).finding? m path =
      (s.finding? m path).map fun f => { f with route := change f.route } := by
  have hroot : (s.mapRoutes change).forest.root m = (s.forest.root m).mapRoutes change :=
    Forest.root_mapRoutes s.forest m
  have hsound : (s.mapRoutes change).forest.Sound := Forest.sound_mapRoutes.2 hs
  have hbranches (position : List Segment) :
      ((s.mapRoutes change).forest.root m).branchesAt position =
        (s.forest.root m).branchesAt position := by
    rw [hroot, Node.branchesAt_mapRoutes]
  have hroutes (segments : List Segment) : (s.mapRoutes change).forest.route? m segments =
      (s.forest.route? m segments).map change := by
    rw [Forest.route?_eq, hroot, Node.routeAt_mapRoutes, ← Forest.route?_eq]
  exact finding?_congr hs hsound hbranches hroutes path

theorem fallback_mapRoutes (hs : s.forest.Sound) (m : Method) (path : Text) :
    (s.mapRoutes change).fallback m path = s.fallback m path := by
  have hallowed : (s.mapRoutes change).allowedAt m path = s.allowedAt m path := by
    apply allowedAt_congr (Forest.methods_mapRoutes s.forest)
    intro other
    rw [← isSome_finding?, ← isSome_finding?, finding?_mapRoutes hs, Option.isSome_map]
  have hoptions : (s.mapRoutes change).options = s.options := rfl
  have hfiles : (s.mapRoutes change).files = s.files := rfl
  exact fallback_congr hoptions hfiles hallowed

/-- **A request that finds no route cannot tell what the routes do.** -/
theorem dispatch_mapRoutes (hs : s.forest.Sound) (change : Route → Route) (disk : Directory)
    {req : Request} {resolution : Resolution}
    (h : (s.resolve req.method req.uri.path).answer = some resolution)
    (hfound : ∀ found, resolution ≠ .found found) :
    ((s.mapRoutes change).dispatch disk req).run = (s.dispatch disk req).run := by
  have hchanged :
      (s.mapRoutes change).finding? req.method (Text.Percent.text req.uri.path) = none := by
    rw [finding?_mapRoutes hs, finding?_eq_none_of_resolve h hfound, Option.map_none]
  have hsame : ((s.mapRoutes change).resolve req.method req.uri.path).answer = some resolution := by
    rw [resolve_of_none hchanged, fallback_mapRoutes hs, fallback_of_resolve h hfound]
    rfl
  have hanswer :
      (s.mapRoutes change).answer disk req resolution = s.answer disk req resolution := by
    cases resolution <;> rfl
  rw [dispatch_of_resolve disk h hfound, dispatch_of_resolve disk hsame hfound, hanswer]

/-! ### What runs instead -/

/-- The run of a handler, or a response that is there without one. -/
def runOr (handler? : Option Handler) (instead : Response) (req : Request) : Run Response :=
  handler?.elim (.of instead) (· req)

theorem answerNotFound_eq (s : Sealed) (req : Request) :
    s.answerNotFound req = runOr s.notFound .notFound req := by
  unfold answerNotFound runOr
  cases s.notFound <;> rfl

/-- The list of methods is written unless the handler wrote one. -/
theorem answerNotAllowed_eq {allow : Text} (h : Response.isHeaderValue allow = true)
    (req : Request) :
    s.answerNotAllowed req allow =
      (runOr s.notAllowed .notAllowed req).map (Response.completed Response.allowName allow) := by
  have hown : s.answerNotAllowed req allow =
      runOr s.notAllowed .notAllowed req >>= fun res =>
        .of (if res.hasHeader Response.allowName then res else res.setAllow allow) := by
    unfold answerNotAllowed runOr
    cases s.notAllowed <;> rfl
  have hwritten : (fun res : Response =>
      if res.hasHeader Response.allowName then res else res.setAllow allow) =
        Response.completed Response.allowName allow := by
    funext res
    unfold Response.completed
    split
    · rfl
    · rename_i hnone
      exact Response.setAllow_of_isHeaderValue h (Bool.eq_false_of_not_eq_true hnone)
  rw [hown, Run.bind_of, hwritten]

/-- A run that leaves no events and does not panic, or the run of one of the two handlers on the
request. -/
def RunsInstead (s : Sealed) (req : Request) (run : Run Response) : Prop :=
  (run.events = [] ∧ run.value.isSome) ∨
    ∃ handler, (s.notAllowed = some handler ∨ s.notFound = some handler) ∧
      run.events = (handler req).events ∧ run.value.isSome = (handler req).value.isSome

theorem runsInstead_of (s : Sealed) (req : Request) (res : Response) :
    s.RunsInstead req (.of res) := Or.inl ⟨rfl, rfl⟩

theorem runsInstead_answerNotFound (s : Sealed) (req : Request) :
    s.RunsInstead req (s.answerNotFound req) := by
  unfold answerNotFound
  cases h : s.notFound with
  | none => exact s.runsInstead_of req _
  | some handler => exact Or.inr ⟨handler, Or.inr h, rfl, rfl⟩

theorem runsInstead_answerFile (s : Sealed) (disk : Directory) (req : Request) :
    s.RunsInstead req (s.answerFile disk req) := by
  unfold answerFile
  split
  · exact s.runsInstead_answerNotFound req
  · split
    · exact s.runsInstead_of req _
    · exact s.runsInstead_answerNotFound req
    · exact s.runsInstead_of req _

theorem runsInstead_answerNotAllowed (s : Sealed) (req : Request) {allow : Text}
    (hallow : Response.isHeaderValue allow = true) :
    s.RunsInstead req (s.answerNotAllowed req allow) := by
  rw [answerNotAllowed_eq hallow]
  unfold runOr
  cases h : s.notAllowed with
  | none => exact Or.inl ⟨rfl, rfl⟩
  | some handler => exact Or.inr ⟨handler, Or.inl h, rfl, Option.isSome_map⟩

/-- **Without a route at most one handler runs**, on the request as it came. -/
theorem runsInstead_answer (s : Sealed) (disk : Directory) (req : Request) {resolution : Resolution}
    (hfound : ∀ found, resolution ≠ .found found)
    (hallow : ∀ allow, resolution.allow? = some allow → Response.isHeaderValue allow = true) :
    s.RunsInstead req (s.answer disk req resolution) := by
  cases resolution with
  | found found => exact absurd rfl (hfound found)
  | options allow => exact s.runsInstead_of req _
  | staticFile => exact s.runsInstead_answerFile disk req
  | notAllowed allow => exact s.runsInstead_answerNotAllowed req (hallow allow rfl)
  | notFound => exact s.runsInstead_answerNotFound req

/-! ### What is answered then -/

variable (disk : Directory) {req : Request} {allow : Text}

theorem dispatch_options (h : (s.resolve req.method req.uri.path).answer = some (.options allow)) :
    (s.dispatch disk req).run =
      .of { status := 200, headers := [⟨Response.allowName, allow⟩], body := [] } := by
  have hallow := isHeaderValue_of_resolve h rfl
  have hwritten : ({} : Response).setAllow allow =
      ({} : Response).appendHeader Response.allowName allow :=
    Response.setAllow_of_isHeaderValue hallow rfl
  rw [dispatch_of_resolve disk h nofun, answer, hwritten]
  rfl

theorem dispatch_notAllowed
    (h : (s.resolve req.method req.uri.path).answer = some (.notAllowed allow)) :
    (s.dispatch disk req).run =
      (runOr s.notAllowed .notAllowed req).map (Response.completed Response.allowName allow) := by
  have hallow := isHeaderValue_of_resolve h rfl
  rw [dispatch_of_resolve disk h nofun, answer, answerNotAllowed_eq hallow]

theorem dispatch_notFound (h : (s.resolve req.method req.uri.path).answer = some .notFound) :
    (s.dispatch disk req).run = runOr s.notFound .notFound req := by
  rw [dispatch_of_resolve disk h nofun, answer, answerNotFound_eq]

end Sealed

/-! ## What requests get -/

namespace Router

/-- What a sealed router does for a request, by what the request is resolved to. -/
structure Answered (r : Router) (s : Sealed) (disk : Directory) (req : Request) : Prop where
  /-- A route that is found runs once, and the parameters are all that is new to the request. -/
  found : ∀ m, (s.resolve req.method req.uri.path).answer = some (.found m) →
    ∃ segments route composing, s.foundAt? req.method req.uri.path = some segments ∧
      r.table req.method segments = some route ∧ route.composition.value = some m.handler ∧
      (composing = [] ∨ composing = route.composition.events) ∧
      (s.dispatch disk req).events =
        composing ++ (m.handler { req with params := some m.params }).events ∧
      (s.dispatch disk req).answer = (m.handler { req with params := some m.params }).value
  /-- Where a layer of the route panics that is found, nothing else runs. -/
  panicked : (s.resolve req.method req.uri.path).answer = none →
    ∃ segments route, s.foundAt? req.method req.uri.path = some segments ∧
      r.table req.method segments = some route ∧ route.composition.value = none ∧
      (s.dispatch disk req).events = route.composition.events ∧ (s.dispatch disk req).answer = none
  /-- Otherwise it makes no difference what the routes do. -/
  unmatched : ∀ resolution, (s.resolve req.method req.uri.path).answer = some resolution →
    (∀ m, resolution ≠ .found m) → ∀ change : Route → Route,
      ((s.mapRoutes change).dispatch disk req).events = (s.dispatch disk req).events ∧
      ((s.mapRoutes change).dispatch disk req).answer = (s.dispatch disk req).answer
  /-- At most one of the two other handlers runs then, on the request as it came. -/
  instead : ∀ resolution, (s.resolve req.method req.uri.path).answer = some resolution →
    (∀ m, resolution ≠ .found m) →
    ((s.dispatch disk req).events = [] ∧ (s.dispatch disk req).answer.isSome) ∨
      ∃ handler, (r.notAllowed = some handler ∨ r.notFound = some handler) ∧
        (s.dispatch disk req).events = (handler req).events ∧
        (s.dispatch disk req).answer.isSome = (handler req).value.isSome
  options : ∀ allow, (s.resolve req.method req.uri.path).answer = some (.options allow) →
    (s.dispatch disk req).events = [] ∧
      (s.dispatch disk req).answer =
        some { status := 200, headers := [⟨Response.allowName, allow⟩], body := [] }
  /-- The list of methods is that of the handler, or else the one that the request is told. -/
  notAllowed : ∀ allow, (s.resolve req.method req.uri.path).answer = some (.notAllowed allow) →
    let own := r.notAllowed.elim (.of .notAllowed) (· req)
    (s.dispatch disk req).events = own.events ∧
      (s.dispatch disk req).answer = own.value.map (Response.completed Response.allowName allow) ∧
      ∀ res, (s.dispatch disk req).answer = some res → res.hasHeader Response.allowName = true
  notFound : (s.resolve req.method req.uri.path).answer = some .notFound →
    let own := r.notFound.elim (.of .notFound) (· req)
    (s.dispatch disk req).events = own.events ∧ (s.dispatch disk req).answer = own.value

/-- A route that is found runs once. -/
theorem Keeps.resolve_found {r : Router} {s : Sealed} (h : r.Keeps s) (hr : r.Uncomposed)
    (disk : Directory) {req : Request} {m : Match}
    (hres : (s.resolve req.method req.uri.path).answer = some (.found m)) :
    ∃ segments route composing, s.foundAt? req.method req.uri.path = some segments ∧
      r.table req.method segments = some route ∧ route.composition.value = some m.handler ∧
      (composing = [] ∨ composing = route.composition.events) ∧
      (s.dispatch disk req).events =
        composing ++ (m.handler { req with params := some m.params }).events ∧
      (s.dispatch disk req).answer = (m.handler { req with params := some m.params }).value := by
  have hfind : (s.find req.method req.uri.path).answer = some (.ok m) := by
    rw [Sealed.answer_resolve, Option.map_eq_some_iff] at hres
    obtain ⟨answer, hanswer, hfound⟩ := hres
    cases answer with
    | error e => exact absurd hfound (s.fallback_ne_found _ _ m)
    | ok found => rw [hanswer, Resolution.found.inj hfound]
  obtain ⟨segments, hat⟩ := (Sealed.finds_of_find hfind).exists_foundAt?
  obtain ⟨route, params, htable, hanswer, composing, hcomposing, hrun⟩ :=
    h.dispatch_found hr disk hat
  obtain ⟨hhandler, rfl⟩ := Route.found_eq_ok_iff.1 (hanswer.symm.trans hfind)
  rw [hhandler, Run.bind_of_value rfl] at hrun
  exact ⟨segments, route, composing, hat, htable, hhandler, hcomposing.symm.imp_left And.left,
    Served.events_answer_of_run hrun⟩

/-- A layer that panics ends the request. -/
theorem Keeps.resolve_panicked {r : Router} {s : Sealed} (h : r.Keeps s) (hr : r.Uncomposed)
    (disk : Directory) {req : Request}
    (hres : (s.resolve req.method req.uri.path).answer = none) :
    ∃ segments route, s.foundAt? req.method req.uri.path = some segments ∧
      r.table req.method segments = some route ∧ route.composition.value = none ∧
      (s.dispatch disk req).events = route.composition.events ∧
      (s.dispatch disk req).answer = none := by
  have hfind : (s.find req.method req.uri.path).answer = none := by
    rwa [Sealed.answer_resolve, Option.map_eq_none_iff] at hres
  have hfinds : s.Finds req.method req.uri.path := by
    intro e he
    rw [hfind] at he
    cases he
  obtain ⟨segments, hat⟩ := hfinds.exists_foundAt?
  obtain ⟨route, params, htable, hanswer, composing, hcomposing, hrun⟩ :=
    h.dispatch_found hr disk hat
  have hnone : route.composition.value = none := by
    rwa [hfind, Route.found, eq_comm, Option.map_eq_none_iff] at hanswer
  have hevents : composing = route.composition.events := by
    rcases hcomposing with hevents | ⟨-, hsome⟩
    · exact hevents
    · rw [hnone] at hsome
      cases hsome
  rw [hnone, Run.bind_of_panic rfl, hevents] at hrun
  exact ⟨segments, route, hat, htable, hnone, Served.events_answer_of_run hrun⟩

section

variable {r : Router} {keys : List Key} {s : Sealed} (h : r.Recalls keys s) (hr : r.Reachable)

include h

theorem Recalls.notAllowed : s.notAllowed = r.notAllowed := congrArg Sealed.notAllowed h.forget

theorem Recalls.notFound : s.notFound = r.notFound := congrArg Sealed.notFound h.forget

include hr

/-- The routes are those that were sealed, some of them composed. -/
theorem Recalls.keeps : r.Keeps s := by
  refine ⟨h.sound hr, fun m segments route hroute => ?_⟩
  rw [h.routes] at hroute
  obtain ⟨old, hold, rfl⟩ := Option.map_eq_some_iff.1 hroute
  refine ⟨old, hold, ?_⟩
  unfold Route.recalled
  split
  · exact Or.inr rfl
  · exact Or.inl rfl

end

/-- **A request gets what it is resolved to**, whatever the router was asked before. -/
theorem Reachable.answered {r : Router} (hr : r.Reachable) (calls : List Call) (disk : Directory)
    (req : Request) : r.Answered (r.session calls).router disk req := by
  have hrecalls := hr.recalls_session calls
  generalize (r.session calls).router = s at hrecalls
  have hkeeps := hrecalls.keeps hr
  exact {
    found := by
      intro m hres
      exact hkeeps.resolve_found hr.uncomposed disk hres
    panicked := by
      intro hres
      exact hkeeps.resolve_panicked hr.uncomposed disk hres
    unmatched := by
      intro resolution hres hfound change
      have hrun := Sealed.dispatch_mapRoutes (hrecalls.sound hr) change disk hres hfound
      exact Served.events_answer_of_run hrun
    instead := by
      intro resolution hres hfound
      rw [Sealed.dispatch_of_resolve disk hres hfound, ← hrecalls.notAllowed, ← hrecalls.notFound]
      apply s.runsInstead_answer disk req hfound
      intro allow
      exact Sealed.isHeaderValue_of_resolve hres
    options := by
      intro allow hres
      exact Served.events_answer_of_run (Sealed.dispatch_options disk hres)
    notAllowed := by
      intro allow hres
      have hrun := Sealed.dispatch_notAllowed disk hres
      rw [Sealed.runOr, hrecalls.notAllowed] at hrun
      obtain ⟨hevents, hanswer⟩ := Served.events_answer_of_run hrun
      refine ⟨hevents, hanswer, fun res hans => ?_⟩
      obtain ⟨own, -, rfl⟩ := Option.map_eq_some_iff.1 (hanswer.symm.trans hans)
      exact Response.hasHeader_completed Response.allowName allow own
    notFound := by
      intro hres
      have hrun := Sealed.dispatch_notFound disk hres
      rw [Sealed.runOr, hrecalls.notFound] at hrun
      exact Served.events_answer_of_run hrun
  }

end Router

end

namespace Router

open Regex.Standard

/-- The sample with a route for a method of its own, and with a handler for what is not allowed that
does not tell what is. -/
def custom : Router :=
  let method : Method := ⟨['X', '~'], by decide⟩
  let extended := (sample.handle method ['/', 'a'] silent).router
  extended.onNotAllowed (Script.handler { name := ['n'], status := 405 })

theorem reachable_custom : custom.Reachable := .onNotAllowed _ (.handle _ _ _ _ reachable_sample)

theorem answered_custom :
    let path := ['/', 'a']
    let req : Request := { method := .post, uri := ⟨path, path⟩ }
    let s := (custom.session [.find .get path, .dispatch {} req]).router
    let allow := ['G', 'E', 'T', ',', ' ', 'X', '~', ',', ' ', 'O', 'P', 'T', 'I', 'O', 'N', 'S']
    custom.Reachable ∧ (s.resolve .post path).answer = some (.notAllowed allow) ∧
      (s.dispatch {} req).events = [.handled ['n'] none] ∧
      (s.dispatch {} req).answer = some
        { status := 405, headers := [⟨Response.allowName, allow⟩], body := [110] } := by
  intro path req s allow
  have hanswered : custom.Answered s {} req := reachable_custom.answered _ {} req
  have hsealed : (custom.seal.resolve .post path).answer = some (.notAllowed allow) := rfl
  have hres : (s.resolve .post path).answer = some (.notAllowed allow) := by
    rw [(reachable_custom.recalls_session _).answer_resolve reachable_custom, hsealed]
  have hown : custom.notAllowed.elim (.of .notAllowed) (· req) =
      ⟨[.handled ['n'] none], some { status := 405, body := [110] }⟩ := rfl
  obtain ⟨hevents, hanswer, -⟩ := hanswered.notAllowed allow hres
  rw [hown] at hevents hanswer
  exact ⟨reachable_custom, hres, hevents, hanswer⟩

end Router

end Routing
