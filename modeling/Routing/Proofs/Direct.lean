import Routing.Proofs.Tables

/-!
# Mounting is registering

A router whose routes were registered one after the other is mounted as if they had been
registered below the prefix in the first place. It gives its routes tree by tree and not in the
order of registration, which makes no difference: whether routes are taken is told by each of
them and by each two of them, and branches and methods come in an order that only depends on what
they are by themselves.

* `Router.handleAll` — registrations one after the other, up to the first that is refused.
* `Registration.below` — a registration as it is made below a prefix.
* `Router.Reachable.mount_eq_handleAll` — mounting answers and leaves what these do.
-/

namespace Routing

open Segment (Before)

section

variable [Regex.Engine]

/-- What a router is asked to register. -/
structure Registration where
  method : Method
  pattern : Text
  handler : Handler
  layers : List Layer

/-- The registration behind a path and a slash, with more layers before its own. -/
def Registration.below (path : Text) (chain : Chain) (q : Registration) : Registration :=
  ⟨q.method, path ++ '/' :: q.pattern, q.handler, chain.layers ++ q.layers⟩

namespace Router

/-- Makes registrations one after the other, up to the first that is refused. -/
def handleAll (r : Router) : List Registration → Edited Unit
  | [] => ⟨.ok (), r⟩
  | q :: rest =>
    match r.handle q.method q.pattern q.handler q.layers with
    | ⟨.ok (), r⟩ => r.handleAll rest
    | refused => refused

/-! ## Registrations and their entries -/

/-- The registration comes to registering the entry. -/
structure Makes (r : Router) (q : Registration) (e : Entry) : Prop where
  split : Pattern.split q.pattern = .ok e.segments
  depth : Pattern.wildcards e.segments ≤ r.options.maxParamDepth
  method : e.method = q.method
  route : e.route = r.routeOf q.handler q.layers

theorem Makes.handle_eq {r : Router} {q : Registration} {e : Entry} (h : r.Makes q e) :
    r.handle q.method q.pattern q.handler q.layers = r.register e.method e.segments e.route := by
  rw [handle_of_split h.split h.depth, h.method, h.route]

/-- Registering changes the forest and nothing else. -/
theorem exists_router_register (r : Router) (m : Method) (segments : List Segment)
    (route : Route) : ∃ f, (r.register m segments route).router = { r with forest := f } := by
  simp only [register]
  split
  · exact ⟨_, rfl⟩
  · split <;> exact ⟨_, rfl⟩

theorem Makes.of_forest {r : Router} {q : Registration} {e : Entry} (h : r.Makes q e)
    (f : Forest) : ({ r with forest := f } : Router).Makes q e :=
  ⟨h.split, h.depth, h.method, h.route⟩

theorem handleAll_eq_registerAll {r : Router} {qs : List Registration} {es : List Entry}
    (h : List.Forall₂ r.Makes qs es) : r.handleAll qs = r.registerAll es := by
  induction qs generalizing r es with
  | nil => cases h; rfl
  | cons q qs ih =>
    cases h with
    | @cons _ e _ es hq hqs =>
      obtain ⟨f, hf⟩ := r.exists_router_register e.method e.segments e.route
      simp only [handleAll, registerAll, hq.handle_eq]
      cases hregister : r.register e.method e.segments e.route with
      | mk answer router =>
        rw [hregister] at hf
        obtain rfl : router = { r with forest := f } := hf
        cases answer with
        | error e => rfl
        | ok _ => exact ih (hqs.imp fun _ _ h => h.of_forest f)

/-- Registrations that are all made come to registering entries. -/
theorem exists_makes_of_handleAll {r : Router} {qs : List Registration}
    (h : (r.handleAll qs).answer = .ok ()) : ∃ es, List.Forall₂ r.Makes qs es := by
  induction qs generalizing r with
  | nil => exact ⟨[], .nil⟩
  | cons q qs ih =>
    cases hs : Pattern.split q.pattern with
    | error e => simp [handleAll, handle, hs] at h
    | ok segments =>
      by_cases hd : Pattern.wildcards segments ≤ r.options.maxParamDepth
      · have hq : r.Makes q ⟨q.method, segments, r.routeOf q.handler q.layers⟩ := ⟨hs, hd, rfl, rfl⟩
        obtain ⟨f, hf⟩ := r.exists_router_register q.method segments (r.routeOf q.handler q.layers)
        simp only [handleAll, hq.handle_eq] at h
        cases hregister : r.register q.method segments (r.routeOf q.handler q.layers) with
        | mk answer router =>
          rw [hregister] at hf h
          obtain rfl : router = { r with forest := f } := hf
          cases answer with
          | error e => cases h
          | ok _ =>
            obtain ⟨es, hes⟩ := ih h
            exact ⟨_ :: es, .cons hq (hes.imp fun _ _ h => h.of_forest r.forest)⟩
      · simp [handleAll, handle, hs, checkDepth, Nat.not_le.1 hd] at h

/-- Registrations come to entries whose segments are proper. -/
theorem proper_of_makes {r : Router} {qs : List Registration} {es : List Entry}
    (h : List.Forall₂ r.Makes qs es) : ∀ e ∈ es, ∀ s ∈ e.segments, s.Proper := by
  induction h with
  | nil => simp
  | cons hq _ ih => exact List.forall_mem_cons.2 ⟨Pattern.split_proper hq.split, ih⟩

theorem makes_below {r r' : Router} {q : Registration} {e : Entry} (h : r.Makes q e)
    {path : Text} {above : List Segment} (hp : Pattern.split path = .ok above)
    (hd : Pattern.wildcards above + Pattern.wildcards e.segments ≤ r'.options.maxParamDepth) :
    r'.Makes (q.below path r.chain) (e.below above r'.chain) := by
  refine ⟨?_, ?_, h.method, ?_⟩
  · simp only [Registration.below]
    rw [Pattern.split_append hp, h.split]
    rfl
  · simpa only [Entry.below, Pattern.wildcards_append] using hd
  · simp only [Entry.below, h.route]
    rfl

theorem depth_of_makes_below {r r' : Router} {q : Registration} {e e' : Entry} (h : r.Makes q e)
    {path : Text} {above : List Segment} (hp : Pattern.split path = .ok above)
    (h' : r'.Makes (q.below path r.chain) e') :
    Pattern.wildcards above + Pattern.wildcards e.segments ≤ r'.options.maxParamDepth := by
  have hsplit := h'.split
  simp only [Registration.below] at hsplit
  rw [Pattern.split_append hp, h.split] at hsplit
  have hsegments : above ++ e.segments = e'.segments := Except.ok.inj hsplit
  rw [← Pattern.wildcards_append, hsegments]
  exact h'.depth

/-- Below a prefix registrations come to entries below it, if there is room for their
parameters. -/
theorem handleAll_below {r r' : Router} {qs : List Registration} {es : List Entry}
    (h : List.Forall₂ r.Makes qs es) {path : Text} {above : List Segment}
    (hp : Pattern.split path = .ok above)
    (hd : ∀ e ∈ es, Pattern.wildcards above + Pattern.wildcards e.segments ≤
      r'.options.maxParamDepth) :
    r'.handleAll (qs.map (Registration.below path r.chain)) =
      r'.registerAll (es.map (Entry.below above r'.chain)) := by
  refine handleAll_eq_registerAll ?_
  induction h with
  | nil => exact .nil
  | cons hq _ ih =>
    exact .cons (makes_below hq hp (hd _ (by simp))) (ih fun e he => hd e (by simp [he]))

theorem depth_of_handleAll_below {r r' : Router} {qs : List Registration} {es : List Entry}
    (h : List.Forall₂ r.Makes qs es) {path : Text} {above : List Segment}
    (hp : Pattern.split path = .ok above)
    (hok : (r'.handleAll (qs.map (Registration.below path r.chain))).answer = .ok ()) :
    ∀ e ∈ es, Pattern.wildcards above + Pattern.wildcards e.segments ≤
      r'.options.maxParamDepth := by
  obtain ⟨es', hes'⟩ := exists_makes_of_handleAll hok
  clear hok
  induction h generalizing es' with
  | nil => simp
  | cons hq _ ih =>
    cases hes' with
    | cons hq' hes' => exact List.forall_mem_cons.2 ⟨depth_of_makes_below hq hp hq', ih _ hes'⟩

end Router

/-! ## A forest that was made of entries -/

omit [Regex.Engine] in
theorem Entry.Agrees.of_reject {options : Options} {e e' : Entry} (h : e.Agrees options e')
    (hreject : options.duplicateRoutes = .reject) (options' : Options) : e.Agrees options' e' :=
  fun hm => ⟨(h hm).1, fun _ => (h hm).2 hreject⟩

/-- The forest has these entries and no others, and its branches and methods came with them. -/
structure Forest.MadeOf (f : Forest) (es : List Entry) : Prop where
  sound : f.Sound
  mem : ∀ e, e ∈ f.entries ↔ e ∈ es
  branchesAt : ∀ m position,
    (f.root m).branchesAt position = seatAll Before [] (es.filterMap (·.next? m position))
  methods : f.methods = seatAll emptyRelation [] (es.map Entry.method)

/-- Entries with different keys that are placed in an empty forest make it. -/
theorem Forest.Placed.madeOf {f : Forest} {es : List Entry} (h : Forest.Placed {} es f)
    (hn : Entry.Distinct es)
    (hm : f.methods = seatAll emptyRelation [] (es.map Entry.method)) : f.MadeOf es where
  sound := h.sound
  mem e := by
    rw [h.sound.mem_entries_iff, h.table]
    constructor
    · intro hroute
      by_cases hk : ∃ e' ∈ es, e.method = e'.method ∧ e.segments = e'.segments
      · obtain ⟨e', he', hmethod, hsegments⟩ := hk
        rw [hmethod, hsegments, Table.putAll_of_mem he' hn] at hroute
        obtain ⟨m, segments, route⟩ := e
        obtain ⟨m', segments', route'⟩ := e'
        simp only [Option.some.injEq] at hmethod hsegments hroute
        rwa [hmethod, hsegments, ← hroute]
      · rw [Table.putAll_of_ne fun e' he' hek => hk ⟨e', he', hek⟩] at hroute
        cases hroute
    · exact fun he => Table.putAll_of_mem he hn
  branchesAt m position := by
    rw [h.branchesAt]
    have hbare : ((({} : Forest).root m).branchesAt position) = [] := by
      cases position <;> rfl
    rw [hbare]
  methods := hm

/-! ## Mounting and registering -/

/-- Below a prefix they come in the same order too. -/
theorem Forest.MadeOf.seatAll_below {f : Forest} {es : List Entry} (h : f.MadeOf es)
    (above : List Segment) (chain : Chain) (m : Method) (position : List Segment)
    (l : List Segment) :
    seatAll Before l ((f.entries.map (Entry.below above chain)).filterMap
        (·.next? m position)) =
      seatAll Before l ((es.map (Entry.below above chain)).filterMap (·.next? m position)) := by
  by_cases hp : above <+: position
  · -- Below the prefix both lists make the branches of the mounted tree.
    obtain ⟨rest, rfl⟩ := hp
    rw [Entry.filterMap_next?_below, Entry.filterMap_next?_below,
      ← seatAll_seatAll_nil Before l (f.entries.filterMap _), h.sound.seatAll_entries,
      h.branchesAt, seatAll_seatAll_nil]
  · -- Elsewhere every entry goes the way of the prefix.
    cases hnext : Routing.next? position above with
    | none =>
      have hnone (es' : List Entry) : (es'.map (Entry.below above chain)).filterMap
          (·.next? m position) = [] := by
        rw [List.filterMap_map, List.filterMap_eq_nil_iff]
        intro e _
        simp [Entry.next?, Entry.below, next?_append_of_not_above hp, hnext]
      rw [hnone, hnone]
    | some s =>
      refine seatAll_congr_of_constant Before (a := s) (fun t => ?_) (fun t ht => ?_) l
      · simp only [List.mem_filterMap, List.mem_map, h.mem]
      · obtain ⟨e, he, ht⟩ := List.mem_filterMap.1 ht
        obtain ⟨e, -, rfl⟩ := List.mem_map.1 he
        obtain ⟨-, ht⟩ := Entry.next?_eq_some_iff.1 ht
        simp only [Entry.below, next?_append_of_not_above hp, hnext, Option.some.injEq] at ht
        exact ht.symm

/-- **Placing the entries of a forest is placing those it was made of.** -/
theorem Forest.MadeOf.eq_of_placed {f sub f' f'' : Forest} {es : List Entry} (h : sub.MadeOf es)
    (hn : Entry.Distinct es) {above : List Segment} {chain : Chain}
    (h' : f.Placed (sub.entries.map (Entry.below above chain)) f')
    (h'' : f.Placed (es.map (Entry.below above chain)) f'')
    (hm : f'.methods = seatAll emptyRelation f.methods sub.methods)
    (hm' : f''.methods = seatAll emptyRelation f.methods
      ((es.map (Entry.below above chain)).map Entry.method)) : f' = f'' := by
  have hroutes : f'.route? = f''.route? := by
    rw [h'.table, h''.table]
    refine Table.putAll_congr (fun e => ?_) (h.sound.distinct_entries.below above chain)
      (hn.below above chain)
    simp only [List.mem_map, h.mem]
  have hmethods : f'.methods = f''.methods := by
    rw [hm, hm', h.methods, seatAll_seatAll_nil, List.map_map]
    rfl
  refine Forest.ext_roots h'.sound h''.sound hmethods fun m => ?_
  refine (h'.sound.root m).ext_routes (h''.sound.root m) ?_ (fun position => ?_) fun position => ?_
  · rw [h'.sound.slots_root, h''.sound.slots_root]
  · rw [h'.branchesAt, h''.branchesAt, h.seatAll_below]
  · rw [← Forest.route?_eq, ← Forest.route?_eq, hroutes]

namespace Router

/-- No tree of the forest is deeper than the deepest entry. -/
theorem depth_iff {f : Forest} {es : List Entry} (h : f.MadeOf es) (k limit : Nat) :
    (∀ root ∈ f.roots, k + root.tree.maxSlots ≤ limit) ↔
      ∀ e ∈ es, k + Pattern.wildcards e.segments ≤ limit := by
  have hroutes {root : Root} (hroot : root ∈ f.roots) {segments : List Segment} {route : Route} :
      (segments, route) ∈ root.tree.routes ↔ (⟨root.method, segments, route⟩ : Entry) ∈ es := by
    rw [← h.mem, h.sound.mem_entries_iff, Forest.route?_eq,
      ← Forest.root_of_mem h.sound.methods hroot, (h.sound.root _).mem_routes_iff]
  have hslots {root : Root} (hroot : root ∈ f.roots) {limit : Nat}
      (hne : root.tree.routes ≠ []) : root.tree.maxSlots ≤ limit ↔
        ∀ entry ∈ root.tree.routes, Pattern.wildcards entry.1 ≤ limit := by
    have hsound := h.sound.roots root hroot
    rw [hsound.tree.maxSlots_le_iff hne, hsound.slots]
    simp only [Nat.zero_add]
  constructor
  · rintro hdepth ⟨m, segments, route⟩ he
    have hm : m ∈ f.methods := by
      rw [h.methods, mem_seatAll]
      exact Or.inr (List.mem_map.2 ⟨_, he, rfl⟩)
    obtain ⟨root, hroot, rfl⟩ := List.mem_map.1 hm
    have hmem := (hroutes hroot).2 he
    have hle := (hslots hroot (List.ne_nil_of_mem hmem)).1 (Nat.le_refl _) _ hmem
    have hlimit := hdepth root hroot
    simp only at hle ⊢
    omega
  · intro hes root hroot
    have hm : root.method ∈ f.methods := List.mem_map_of_mem hroot
    rw [h.methods, mem_seatAll] at hm
    obtain ⟨e, he, hmethod⟩ := List.mem_map.1 (hm.resolve_left List.not_mem_nil)
    have hmem : (e.segments, e.route) ∈ root.tree.routes :=
      (hroutes hroot).2 (by rw [← hmethod]; exact he)
    have hk := hes e he
    have hle : root.tree.maxSlots ≤ limit - k := by
      refine (hslots hroot (List.ne_nil_of_mem hmem)).2 fun entry hentry => ?_
      have := hes _ ((hroutes hroot).1 hentry)
      simp only at this
      omega
    omega

theorem mountable_iff {r sub : Router} {es : List Entry} (h : sub.forest.MadeOf es)
    {above : List Segment} :
    r.Mountable above sub ↔
      (∀ e ∈ es, Pattern.wildcards above + Pattern.wildcards e.segments ≤
        r.options.maxParamDepth) ∧
      ∀ e ∈ es, r.Fits (e.below above r.chain) := by
  rw [← depth_iff h]
  constructor
  · rintro ⟨hdepth, hfits⟩
    exact ⟨hdepth, fun e he => hfits e ((h.mem e).2 he)⟩
  · rintro ⟨hdepth, hfits⟩
    exact ⟨hdepth, fun e he => hfits e ((h.mem e).1 he)⟩

/-- Without duplicates a new router has what was registered. -/
theorem madeOf_of_handleAll {options : Options} (hreject : options.duplicateRoutes = .reject)
    {chain : Chain} {qs : List Registration} {sub : Router}
    (hsub : (Router.new options chain).handleAll qs = ⟨.ok (), sub⟩) :
    ∃ es, List.Forall₂ (Router.new options chain).Makes qs es ∧
      (∀ e ∈ es, ∀ s ∈ e.segments, s.Proper) ∧ es.Pairwise (Entry.Agrees options) ∧
        Entry.Distinct es ∧ sub.forest.MadeOf es := by
  obtain ⟨es, hes⟩ : ∃ es, List.Forall₂ (Router.new options chain).Makes qs es :=
    exists_makes_of_handleAll (by rw [hsub])
  have hempty : (Router.new options chain).forest.Sound := Forest.sound_empty
  have hproper := proper_of_makes hes
  rw [handleAll_eq_registerAll hes] at hsub
  obtain ⟨hfits, hagree⟩ := fits_of_registerAll hempty hproper (by rw [hsub])
  obtain ⟨f, hall, hplaced, hmethods⟩ := registerAll_of_fits hempty hproper hfits hagree
  have hforest : sub.forest = f :=
    congrArg (fun edited => edited.router.forest) (hsub.symm.trans hall)
  have hdistinct : Entry.Distinct es := hagree.imp fun ha hk => (ha hk.1).2 hreject hk.2
  exact ⟨es, hes, hproper, hagree, hdistinct, hforest ▸ hplaced.madeOf hdistinct hmethods⟩

/-- **Mounting is registering below the prefix.** -/
theorem Reachable.mount_eq_handleAll {r sub : Router} (h : r.Reachable) {path : Text}
    {above : List Segment} (hp : Pattern.split path = .ok above) {options : Options}
    (hreject : options.duplicateRoutes = .reject) {chain : Chain} {qs : List Registration}
    (hsub : (Router.new options chain).handleAll qs = ⟨.ok (), sub⟩) :
    ((r.mount path sub).answer = .ok () ↔
      (r.handleAll (qs.map (Registration.below path chain))).answer = .ok ()) ∧
    ((r.mount path sub).answer = .ok () →
      (r.mount path sub).router =
        (r.handleAll (qs.map (Registration.below path chain))).router) := by
  have hr := h.sound
  obtain ⟨es, hes, hproper, hagree, hdistinct, hmade⟩ := madeOf_of_handleAll hreject hsub
  -- Below the prefix they are proper and agree as well.
  have hproper' : ∀ e ∈ es.map (Entry.below above r.chain), ∀ s ∈ e.segments, s.Proper := by
    rw [List.forall_mem_map]
    intro e he s hs
    rcases List.mem_append.1 hs with hs | hs
    · exact Pattern.split_proper hp s hs
    · exact hproper e he s hs
  have hagree' : (es.map (Entry.below above r.chain)).Pairwise (Entry.Agrees r.options) := by
    rw [List.pairwise_map]
    exact hagree.imp fun ha => Entry.agrees_below_iff.2 (ha.of_reject hreject r.options)
  by_cases hm : r.Mountable above sub
  · obtain ⟨hdepth, hfits'⟩ := (mountable_iff hmade).1 hm
    obtain ⟨f', hmount, hplaced', hmethods'⟩ := mount_of_mountable hr hmade.sound hp hm
    obtain ⟨f'', hall', hplaced'', hmethods''⟩ :=
      registerAll_of_fits hr hproper' (List.forall_mem_map.2 hfits') hagree'
    have heq : f' = f'' := hmade.eq_of_placed hdistinct hplaced' hplaced'' hmethods' hmethods''
    have hhandle : r.handleAll (qs.map (Registration.below path chain)) =
        ⟨.ok (), { r with forest := f'' }⟩ := (handleAll_below hes hp hdepth).trans hall'
    rw [hmount, hhandle, heq]
    exact ⟨Iff.rfl, fun _ => rfl⟩
  · obtain ⟨e, hmount⟩ := mount_of_not_mountable hr hp hm
    have hnot : (r.handleAll (qs.map (Registration.below path chain))).answer ≠ .ok () := by
      intro hok
      have hdepth := depth_of_handleAll_below hes hp hok
      have hregister : (r.registerAll (es.map (Entry.below above r.chain))).answer = .ok () := by
        rw [← handleAll_below hes hp hdepth]
        exact hok
      have hfits' := List.forall_mem_map.1 (fits_of_registerAll hr hproper' hregister).1
      exact hm ((mountable_iff hmade).2 ⟨hdepth, hfits'⟩)
    rw [hmount]
    refine ⟨⟨fun hok => ?_, fun hok => absurd hok hnot⟩, fun hok => ?_⟩ <;> cases hok

end Router

end

namespace Router

open Regex.Standard

/-- Below the wildcard that the sample has, in another order than they are mounted in. -/
theorem mount_eq_handleAll_sample :
    let qs : List Registration := [⟨.get, ['b', '/', 'c'], silent, []⟩, ⟨.post, ['a'], silent, []⟩,
      ⟨.get, ['d'], silent, []⟩]
    let sub := ((Router.new {} ⟨[⟨fun h => ⟨[], h⟩⟩]⟩).handleAll qs).router
    let path : Text := ['{', 'x', '}']
    let below := qs.map (Registration.below path ⟨[⟨fun h => ⟨[], h⟩⟩]⟩)
    (sample.handleAll below).answer = .ok () ∧ (sample.mount path sub).answer = .ok () ∧
      (sample.mount path sub).router = (sample.handleAll below).router := by
  intro qs sub path below
  have hsub : (Router.new {} ⟨[⟨fun h => ⟨[], h⟩⟩]⟩).handleAll qs = ⟨.ok (), sub⟩ := rfl
  have hpath : Pattern.split path = .ok [.wildcard ['x']] := rfl
  have hmount := reachable_sample.mount_eq_handleAll hpath rfl hsub
  have hok : (sample.handleAll below).answer = .ok () := rfl
  exact ⟨hok, hmount.1.2 hok, hmount.2 (hmount.1.2 hok)⟩

end Router

end Routing
