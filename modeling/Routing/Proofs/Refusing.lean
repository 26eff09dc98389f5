import Routing.Proofs.Finding

/-!
# Refused registrations

A registration that is refused has put nothing into a tree. All it may have done is to give its
method a first, empty tree, if an expression could not be read; whoever asks for routes does not
notice, but the list of methods has become longer.

* `Router.SameAnswers` — routers that answer alike, up to the methods they list.
* `Router.sameAnswers_plant` — an empty tree changes no answer.
* `Router.Reachable.handle_refused` — what a refused registration leaves.
-/

namespace Routing

section

variable [Regex.Engine]

/-! ## What an empty tree refuses -/

theorem Edge.regexInvalid_of_ofSegment {s : Segment} {refusal : TreeError}
    (h : Edge.ofSegment s = .error refusal) : ∃ name raw, refusal = .regexInvalid name raw := by
  cases s with
  | literal text => cases h
  | wildcard name => cases h
  | regex name raw =>
    cases hc : Constraint.ofRaw? raw with
    | some c => simp [ofSegment, hc] at h
    | none =>
      simp only [ofSegment, hc, Except.error.injEq] at h
      exact ⟨name, raw, h.symm⟩

/-- Nothing clashes in an empty tree, so all it refuses is what cannot be read. -/
theorem Tree.regexInvalid_of_grow_bare {segments : List Segment} {refusal : TreeError}
    (h : Tree.bare.grow segments = .error refusal) :
    ∃ name raw, refusal = .regexInvalid name raw := by
  cases segments with
  | nil => cases h
  | cons s rest =>
    have hm : s ∉ Tree.bare.below.segments := List.not_mem_nil
    cases hs : Edge.ofSegment s with
    | error e =>
      have hfind := Branches.find?_madeFrom_eq_none_iff.2 hm
      simp only [Node.grow, hfind, hs, bind, Except.bind, Except.error.injEq] at h
      exact h ▸ Edge.regexInvalid_of_ofSegment hs
    | ok edge =>
      rcases (Node.grow_error_iff_of_not_mem hm hs).1 h with hrest | ⟨-, hclash⟩
      · obtain ⟨front, u, back, -, -, hu⟩ := readable_eq_error_iff.1 hrest
        exact Edge.regexInvalid_of_ofSegment hu
      · cases hclash

/-! ## What an empty tree answers -/

namespace Forest

theorem plant_of_mem {f : Forest} {m : Method} (h : m ∈ f.methods) : f.plant m = f := by
  rw [plant, if_pos (isSome_root?.2 h)]

theorem plant_of_not_mem {f : Forest} {m : Method} (h : m ∉ f.methods) :
    f.plant m = ⟨f.roots ++ [.bare m]⟩ := by
  rw [plant, if_neg (mt isSome_root?.1 h)]

theorem countRoutes_plant (f : Forest) (m : Method) : (f.plant m).countRoutes = f.countRoutes := by
  by_cases h : m ∈ f.methods
  · rw [plant_of_mem h]
  · have hbare : (Root.bare m).tree.routes.length = 0 := rfl
    rw [plant_of_not_mem h]
    simp [countRoutes, hbare]

/-- A method without a tree reaches no route, like an empty tree. -/
theorem reach_eq (f : Forest) (m : Method) (segments : List Segment) :
    ((f.root? m).bind (·.reach? segments)).bind Node.route =
      ((f.root m).reach? segments).bind Node.route := by
  unfold root
  cases f.root? m with
  | some tree => rfl
  | none => cases segments <;> rfl

end Forest

namespace Sealed

/-- Where a path leads is told by the trees, and an empty tree is as good as none. -/
theorem arrive?_congr {s s' : Sealed} (h : ∀ m, s'.forest.root m = s.forest.root m) (m : Method)
    (path : Text) : s'.arrive? m path = s.arrive? m path := by
  apply Option.ext
  rintro ⟨arrival, route⟩
  rw [arrive?_eq_some_iff, arrive?_eq_some_iff, h]

theorem answer_lookup_congr {s s' : Sealed} {m : Method} {path : Text}
    (h : s'.arrive? m path = s.arrive? m path) :
    (s'.lookup m path).answer = (s.lookup m path).answer := by
  unfold lookup
  rw [h]
  cases s.arrive? m path <;> rfl

theorem answer_find_congr {s s' : Sealed} {m : Method} {path : Text}
    (h : s'.arrive? m (Text.Percent.text path) = s.arrive? m (Text.Percent.text path)) :
    (s'.find m path).answer = (s.find m path).answer := by
  simp only [find, Served.answer_map, answer_lookup_congr h]

end Sealed

namespace Router

/-- The second router answers like the first, unless it is asked which methods there are. -/
structure SameAnswers (r r' : Router) : Prop where
  count : r'.countRoutes = r.countRoutes
  contains : ∀ m pattern, r'.contains m pattern = r.contains m pattern
  find : ∀ m path, (r'.seal.find m path).answer = (r.seal.find m path).answer
  resolve : ∀ m path, Text.Percent.text path ≠ ['*'] →
    (r'.seal.resolve m path).answer = (r.seal.resolve m path).answer
  allowed : ∀ m path, Text.Percent.text path ≠ ['*'] →
    r'.seal.allowed m path = r.seal.allowed m path

theorem SameAnswers.refl (r : Router) : r.SameAnswers r :=
  ⟨rfl, fun _ _ => rfl, fun _ _ => rfl, fun _ _ _ => rfl, fun _ _ _ => rfl⟩

theorem arrive?_plant (r : Router) (m m' : Method) (path : Text) :
    ({ r with forest := r.forest.plant m } : Router).seal.arrive? m' path =
      r.seal.arrive? m' path :=
  Sealed.arrive?_congr (fun m' => r.forest.root_plant m m') m' path

/-- No path leads to a route of a method that has no tree. -/
theorem otherMethods_plant (r : Router) (m m' : Method) {path : Text} (h : path ≠ ['*']) :
    ({ r with forest := r.forest.plant m } : Router).seal.otherMethods m' path =
      r.seal.otherMethods m' path := by
  by_cases hm : m ∈ r.forest.methods
  · rw [Forest.plant_of_mem hm]
  · have hroot : r.seal.forest.root? m = none :=
      Option.not_isSome_iff_eq_none.1 (mt Forest.isSome_root?.1 hm)
    have hnone : r.seal.arrive? m path = none := by simp [Sealed.arrive?, hroot]
    have hmethods : ({ r with forest := r.forest.plant m } : Router).seal.forest.methods =
        r.seal.forest.methods ++ [m] := by
      change (r.forest.plant m).methods = r.forest.methods ++ [m]
      rw [Forest.plant_of_not_mem hm]
      simp [Forest.methods, Root.bare]
    simp only [Sealed.otherMethods, if_neg h, arrive?_plant, hmethods, List.filter_append]
    simp [hnone]

theorem allowedAt_plant (r : Router) (m m' : Method) {path : Text} (h : path ≠ ['*']) :
    ({ r with forest := r.forest.plant m } : Router).seal.allowedAt m' path =
      r.seal.allowedAt m' path := by
  simp only [Sealed.allowedAt, otherMethods_plant r m m' h, if_neg h]

/-- **An empty tree changes no answer.** -/
theorem sameAnswers_plant (r : Router) (m : Method) :
    r.SameAnswers { r with forest := r.forest.plant m } where
  count := r.forest.countRoutes_plant m
  contains m' pattern := by
    simp only [contains, Forest.reach_eq, Forest.root_plant]
  find m' path := Sealed.answer_find_congr (r.arrive?_plant m m' (Text.Percent.text path))
  resolve m' path h := by
    have hlookup := Sealed.answer_lookup_congr (r.arrive?_plant m m' (Text.Percent.text path))
    simp only [Sealed.resolve, Served.answer_map, hlookup, Sealed.fallback,
      allowedAt_plant r m m' h]
    rfl
  allowed m' path h := r.allowedAt_plant m m' h

/-! ## What a refused registration leaves -/

/-- The registration was the first of its method, and refused for an expression that cannot be
read. -/
def FirstUnreadable (r : Router) (m : Method) (e : RouterError) : Prop :=
  m ∉ r.forest.methods ∧ ∃ name raw, e = .tree (.regexInvalid name raw)

theorem firstUnreadable_of_register {r : Router} (hr : r.forest.Sound) {m : Method}
    (hm : m ∉ r.forest.methods) {segments : List Segment} {route : Route} {e : RouterError}
    (h : (r.register m segments route).answer = .error e) : r.FirstUnreadable m e := by
  have hroot : r.forest.root m = .bare := Forest.root_eq_bare hm
  refine ⟨hm, ?_⟩
  cases hg : Tree.bare.grow segments with
  | error refusal =>
    simp only [register_eq hr, hroot, hg, Except.error.injEq] at h
    obtain ⟨name, raw, rfl⟩ := Tree.regexInvalid_of_grow_bare hg
    exact ⟨name, raw, h.symm⟩
  | ok tree =>
    -- Nothing was there before, so nothing is a duplicate.
    have hroute : tree.routeAt segments = none := by
      rw [Node.routeAt_grow Node.sound_bare.counted hg]
      cases segments <;> rfl
    have hdup : r.checkDuplicate m segments (tree.locate? segments) = .ok () := by
      rw [checkDuplicate_eq_ok_iff, ← Node.routeAt_eq]
      exact fun _ => hroute
    simp only [register_eq hr, hroot, hg, hdup] at h
    cases h

theorem handle_refused_cases {r : Router} (hr : r.forest.Sound) {m : Method} {pattern : Text}
    {handler : Handler} {layers : List Layer} {e : RouterError}
    (h : (r.handle m pattern handler layers).answer = .error e) :
    ((r.handle m pattern handler layers).router = r ∧ ¬ r.FirstUnreadable m e) ∨
      ((r.handle m pattern handler layers).router = { r with forest := r.forest.plant m } ∧
        r.FirstUnreadable m e) := by
  cases hs : Pattern.split pattern with
  | error fault =>
    rw [handle_of_malformed hs] at h ⊢
    cases h
    exact Or.inl ⟨rfl, by simp [FirstUnreadable]⟩
  | ok segments =>
    by_cases hd : Pattern.wildcards segments ≤ r.options.maxParamDepth
    · rw [handle_of_split hs hd] at h ⊢
      have hfits : ¬ r.Fits ⟨m, segments, r.routeOf handler layers⟩ := by
        intro hf
        obtain ⟨f, hregister, -⟩ := register_of_fits hr (Pattern.split_proper hs) hf
        rw [hregister] at h
        cases h
      obtain ⟨error, hregister, -⟩ := register_of_not_fits hr hfits
      by_cases hm : m ∈ r.forest.methods
      · left
        rw [hregister, Forest.plant_of_mem hm]
        exact ⟨rfl, fun hfirst => hfirst.1 hm⟩
      · right
        have hfirst : r.FirstUnreadable m e := firstUnreadable_of_register hr hm h
        rw [hregister]
        exact ⟨rfl, hfirst⟩
    · rw [handle_of_deep hs hd] at h ⊢
      cases h
      exact Or.inl ⟨rfl, by simp [FirstUnreadable]⟩

/-- **A refused registration leaves the router as it was**, unless it was the first of its method
and an expression could not be read. Then the method has an empty tree, behind all others, and
everything but the list of methods is answered as before. -/
theorem Reachable.handle_refused {r : Router} (h : r.Reachable) {m : Method} {pattern : Text}
    {handler : Handler} {layers : List Layer} {e : RouterError}
    (he : (r.handle m pattern handler layers).answer = .error e) :
    ((r.handle m pattern handler layers).router = r ↔ ¬ r.FirstUnreadable m e) ∧
      (r.FirstUnreadable m e → (r.handle m pattern handler layers).router =
        { r with forest := ⟨r.forest.roots ++ [.bare m]⟩ }) ∧
      r.SameAnswers (r.handle m pattern handler layers).router := by
  rcases handle_refused_cases h.sound he with ⟨hrouter, hfirst⟩ | ⟨hrouter, hfirst⟩
  · rw [hrouter]
    exact ⟨⟨fun _ => hfirst, fun _ => rfl⟩, fun hfirst' => absurd hfirst' hfirst,
      SameAnswers.refl r⟩
  · rw [hrouter]
    refine ⟨⟨fun hsame => ?_, fun hnot => absurd hfirst hnot⟩, fun _ => ?_, sameAnswers_plant r m⟩
    · have hmem : m ∈ (r.forest.plant m).methods := Forest.mem_methods_plant r.forest m
      have hforest : r.forest.plant m = r.forest := congrArg Router.forest hsame
      rw [hforest] at hmem
      exact absurd hmem hfirst.1
    · rw [Forest.plant_of_not_mem hfirst.1]

end Router

end

namespace Router

open Regex.Standard

/-- The route `/a` is a duplicate for `GET`; for `POST` the expression `[` is refused first. -/
theorem handle_refused_sample :
    let pattern := ['/', '{', 'x', ':', '[', '}']
    (sample.handle .get ['/', 'a'] silent).answer = .error (.duplicateRoute .get ['/', 'a']) ∧
      (sample.handle .get ['/', 'a'] silent).router = sample ∧
      (sample.handle .post pattern silent).answer = .error (.tree (.regexInvalid ['x'] ['['])) ∧
      (sample.handle .post pattern silent).router =
        { sample with forest := ⟨sample.forest.roots ++ [.bare .post]⟩ } ∧
      sample.SameAnswers (sample.handle .post pattern silent).router := by
  intro pattern
  have hduplicate : (sample.handle .get ['/', 'a'] silent).answer =
    .error (.duplicateRoute .get ['/', 'a']) := rfl
  have hunreadable : (sample.handle .post pattern silent).answer =
    .error (.tree (.regexInvalid ['x'] ['['])) := rfl
  have hfirst : sample.FirstUnreadable .post (.tree (.regexInvalid ['x'] ['['])) :=
    ⟨by decide, ['x'], ['['], rfl⟩
  have hget := reachable_sample.handle_refused hduplicate
  have hpost := reachable_sample.handle_refused hunreadable
  refine ⟨hduplicate, hget.1.2 ?_, hunreadable, hpost.2.1 hfirst, hpost.2.2⟩
  rintro ⟨-, name, raw, hne⟩
  cases hne

/-- A refused registration need not leave the router as it was: `GET` is among the methods, and the
path `*` is allowed, after nothing but `/{x:[}` was refused. -/
theorem exists_refused_ne :
    let r := Router.new {}
    let refused := r.handle .get ['/', '{', 'x', ':', '[', '}'] silent
    r.Reachable ∧ refused.answer = .error (.tree (.regexInvalid ['x'] ['['])) ∧
      r.seal.forest.methods = [] ∧ refused.router.seal.forest.methods = [.get] ∧
      r.seal.allowed .get ['*'] = none ∧
      refused.router.seal.allowed .get ['*'] =
        some ['G', 'E', 'T', ',', ' ', 'O', 'P', 'T', 'I', 'O', 'N', 'S'] :=
  ⟨.new {} {}, rfl, rfl, rfl, rfl, rfl⟩

end Router

end Routing
