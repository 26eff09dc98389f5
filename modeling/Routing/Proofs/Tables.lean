import Routing.Proofs.Reachable

/-!
# Routers as tables

Calls do to the trees of a router what is to be done to a table of its routes by method and
segments.

* `Node.Sound.admits_iff` — what a tree admits is told by its routes.
* `Node.Sound.reach?_eq` — a pattern reaches the node that was made from it.
* `Router.Accepts` — the checks that a registration has to pass.
* `Router.Tabular`, `Router.Reachable.tabular` — registering, mounting, counting and looking up by
  the table.
-/

namespace Routing

section

variable [Regex.Engine]

/-! ## Trees and their routes -/

namespace Node

variable {ρ : Type}

/-- **A tree admits what its routes admit.** Branches are on the way to routes, so what clashes
with one clashes with the other. -/
theorem Sound.admits_iff {n : Node ρ} (hn : n.Sound) {segments : List Segment} :
    n.Admits segments ↔ (∀ s ∈ segments, s.Readable) ∧
      ∀ key, (n.routeAt key).isSome → ¬ ClashAlong key segments := by
  constructor
  · rintro ⟨hreadable, hfree⟩
    refine ⟨hreadable, fun key hkey => ?_⟩
    rintro ⟨position, s, t, hs, ht, hc⟩
    obtain ⟨route, hroute⟩ := Option.isSome_iff_exists.1 hkey
    have hmem : s ∈ n.branchesAt position := hn.mem_branchesAt (hn.mem_routes_iff.2 hroute) hs
    exact hfree position t ht s hmem hc.symm
  · rintro ⟨hreadable, hfree⟩
    refine ⟨hreadable, fun position s hs t ht hc => ?_⟩
    obtain ⟨⟨key, route⟩, hentry, habove⟩ := hn.exists_route ht
    have hroute : (n.routeAt key).isSome := by rw [hn.mem_routes_iff.1 hentry]; rfl
    exact hfree key hroute ⟨position, t, s, next?_eq_some_iff.2 habove, hs, hc.symm⟩

end Node

theorem Edge.takes_segment (e : Edge) : Edge.takes e.segment e = true := by
  cases e <;> simp [takes, segment]

theorem Edge.takes_of_leads {e : Edge} {s : Segment} (h : e.segment.Leads s) :
    Edge.takes s e = false := by
  have hne : e.segment ≠ s := (Segment.leads_iff.1 h).1
  cases s with
  | literal text =>
    cases e with
    | literal id => simpa [takes, segment] using hne
    | regex name c => exact h.elim
    | wildcard name => exact h.elim
  | wildcard name => simp [takes, hne]
  | regex name raw => simp [takes, hne]

/-- No branch before the one made from a segment takes it: literals stand before whatever takes
their texts. -/
theorem Branches.find?_takes {ρ : Type} {b : Branches ρ} (hb : b.segments.Pairwise Segment.Leads)
    {s : Segment} (hs : s ∈ b.segments) :
    b.find? (Edge.takes s) = b.find? (Edge.madeFrom s) := by
  induction b with
  | nil => cases hs
  | cons edge slots route below rest _ ih =>
    obtain ⟨hfirst, hrest⟩ := List.pairwise_cons.1 hb
    by_cases he : edge.segment = s
    · have htakes : Edge.takes s edge = true := he ▸ edge.takes_segment
      simp [find?, htakes, Edge.madeFrom, he]
    · have hmem : s ∈ rest.segments := (List.mem_cons.1 hs).resolve_left (Ne.symm he)
      have htakes : Edge.takes s edge = false := Edge.takes_of_leads (hfirst s hmem)
      simp [find?, htakes, Edge.madeFrom, he, ih hrest hmem]

/-- **A node is reached along the segments that lead to it.** -/
theorem Node.Sound.reach?_eq {ρ : Type} {n c : Node ρ} (hn : n.Sound) {segments : List Segment}
    (h : n.locate? segments = some c) : n.reach? segments = some c := by
  induction segments generalizing n with
  | nil => exact h
  | cons s rest ih =>
    rw [locate?_cons] at h
    obtain ⟨d, hd, hc⟩ := Option.bind_eq_some_iff.1 h
    have hs : s ∈ n.below.segments := Branches.mem_segments_of_find? hd
    have hfind : n.below.find? (Edge.takes s) = some d := by
      rw [Branches.find?_takes (hn.ordered []) hs, hd]
    have hrest : d.reach? rest = some c := ih (hn.child hd) hc
    simp only [reach?, at?, hfind, Option.bind_some] at hrest ⊢
    exact hrest

namespace Router

/-- The routes by method and segments. -/
def table (r : Router) : Table := r.forest.route?

/-- The pattern is well formed and within the limit of parameters, its expressions can be read,
and it clashes with no route of the method. -/
structure Accepts (r : Router) (m : Method) (pattern : Text) (segments : List Segment) :
    Prop where
  split : Pattern.split pattern = .ok segments
  depth : Pattern.wildcards segments ≤ r.options.maxParamDepth
  readable : ∀ s ∈ segments, s.Readable
  free : ∀ key, (r.table m key).isSome → ¬ ClashAlong key segments

/-- The route that a registration makes. -/
def routeOf (r : Router) (handler : Handler) (layers : List Layer) : Route :=
  { handler := handler, chain := r.chain.merge ⟨layers⟩ }

/-- Calls answer and change routes as the table says. -/
structure Tabular (r : Router) : Prop where
  put : ∀ m pattern handler layers segments, r.Accepts m pattern segments →
    (r.options.duplicateRoutes = .reject → r.table m segments = none) →
      (r.handle m pattern handler layers).answer = .ok () ∧
        (r.handle m pattern handler layers).router.table =
          r.table.put ⟨m, segments, r.routeOf handler layers⟩
  duplicate : ∀ m pattern handler layers segments, r.Accepts m pattern segments →
    r.options.duplicateRoutes = .reject → (r.table m segments).isSome →
      (r.handle m pattern handler layers).answer =
        .error (.duplicateRoute m (Pattern.render segments))
  /-- What fails another check is not refused as a duplicate. -/
  refused : ∀ m pattern handler layers, (∀ segments, ¬ r.Accepts m pattern segments) →
    ∃ e, (r.handle m pattern handler layers).answer = .error e ∧
      ∀ m' path, e ≠ .duplicateRoute m' path
  unchanged : ∀ m pattern handler layers e,
    (r.handle m pattern handler layers).answer = .error e →
      (r.handle m pattern handler layers).router.table = r.table
  /-- A router that was mounted has its routes below the prefix, and nothing else is new. -/
  mounted : ∀ path sub, sub.Reachable → (r.mount path sub).answer = .ok () →
    ∃ above, Pattern.split path = .ok above ∧
      (∀ m segments route, sub.table m segments = some route →
        (r.mount path sub).router.table m (above ++ segments) = some (route.within r.chain)) ∧
      (∀ m key, (∀ segments, key = above ++ segments → sub.table m segments = none) →
        (r.mount path sub).router.table m key = r.table m key) ∧
      (r.options.duplicateRoutes = .reject → ∀ m segments, (sub.table m segments).isSome →
        r.table m (above ++ segments) = none)
  counted : ∃ keys : List (Method × List Segment), keys.Nodup ∧
    (∀ m segments, (m, segments) ∈ keys ↔ (r.table m segments).isSome) ∧
      r.countRoutes = keys.length
  contained : ∀ m pattern segments, Pattern.split pattern = .ok segments →
    (r.table m segments).isSome → r.contains m pattern = .ok true

/-! ## Registering -/

theorem fits_iff {r : Router} (hr : r.forest.Sound) {e : Entry} :
    r.Fits e ↔ (∀ s ∈ e.segments, s.Readable) ∧
      (∀ key, (r.table e.method key).isSome → ¬ ClashAlong key e.segments) ∧
      (r.options.duplicateRoutes = .reject → r.table e.method e.segments = none) := by
  have hadmits : (r.forest.root e.method).Admits e.segments ↔ (∀ s ∈ e.segments, s.Readable) ∧
      ∀ key, (r.table e.method key).isSome → ¬ ClashAlong key e.segments := by
    simp only [table, Forest.route?_eq]
    exact (hr.root e.method).admits_iff
  constructor
  · rintro ⟨ha, hfresh⟩
    obtain ⟨hreadable, hfree⟩ := hadmits.1 ha
    exact ⟨hreadable, hfree, hfresh⟩
  · rintro ⟨hreadable, hfree, hfresh⟩
    exact ⟨hadmits.2 ⟨hreadable, hfree⟩, hfresh⟩

theorem handle_of_split {r : Router} {pattern : Text} {segments : List Segment}
    (hs : Pattern.split pattern = .ok segments)
    (hd : Pattern.wildcards segments ≤ r.options.maxParamDepth) (m : Method) (handler : Handler)
    (layers : List Layer) :
    r.handle m pattern handler layers = r.register m segments (r.routeOf handler layers) := by
  have hdepth : r.checkDepth pattern (Pattern.wildcards segments) = .ok () :=
    checkDepth_eq_ok_iff.2 hd
  simp only [handle, hs, hdepth]
  rfl

theorem handle_of_malformed {r : Router} {pattern : Text} {e : Pattern.Error}
    (hs : Pattern.split pattern = .error e) (m : Method) (handler : Handler)
    (layers : List Layer) : r.handle m pattern handler layers = ⟨.error (.pattern e), r⟩ := by
  simp only [handle, hs]

theorem handle_of_deep {r : Router} {pattern : Text} {segments : List Segment}
    (hs : Pattern.split pattern = .ok segments)
    (hd : ¬ Pattern.wildcards segments ≤ r.options.maxParamDepth) (m : Method)
    (handler : Handler) (layers : List Layer) :
    r.handle m pattern handler layers =
      ⟨.error (.paramDepthExceeded pattern (Pattern.wildcards segments)
        r.options.maxParamDepth), r⟩ := by
  simp only [handle, hs, checkDepth, Nat.not_le.1 hd, ↓reduceIte]

theorem Accepts.fits {r : Router} (hr : r.forest.Sound) {m : Method} {pattern : Text}
    {segments : List Segment} (h : r.Accepts m pattern segments) (route : Route)
    (hfresh : r.options.duplicateRoutes = .reject → r.table m segments = none) :
    r.Fits ⟨m, segments, route⟩ :=
  (fits_iff hr).2 ⟨h.readable, h.free, hfresh⟩

theorem handle_of_accepts {r : Router} (hr : r.forest.Sound) {m : Method} {pattern : Text}
    {segments : List Segment} (h : r.Accepts m pattern segments) (handler : Handler)
    (layers : List Layer)
    (hfresh : r.options.duplicateRoutes = .reject → r.table m segments = none) :
    (r.handle m pattern handler layers).answer = .ok () ∧
      (r.handle m pattern handler layers).router.table =
        r.table.put ⟨m, segments, r.routeOf handler layers⟩ := by
  obtain ⟨f, hregister, hplaced, -⟩ := register_of_fits hr
    (Pattern.split_proper h.split) (h.fits hr (r.routeOf handler layers) hfresh)
  rw [handle_of_split h.split h.depth, hregister]
  exact ⟨rfl, hplaced.table⟩

theorem handle_of_duplicate {r : Router} (hr : r.forest.Sound) {m : Method} {pattern : Text}
    {segments : List Segment} (h : r.Accepts m pattern segments) (handler : Handler)
    (layers : List Layer) (hreject : r.options.duplicateRoutes = .reject)
    (hsome : (r.table m segments).isSome) :
    (r.handle m pattern handler layers).answer =
      .error (.duplicateRoute m (Pattern.render segments)) := by
  have hfits : ¬ r.Fits ⟨m, segments, r.routeOf handler layers⟩ := fun hf => by
    have hnone : r.table m segments = none := hf.fresh hreject
    rw [hnone] at hsome
    cases hsome
  have hadmits : (r.forest.root m).Admits segments := by
    refine (hr.root m).admits_iff.2 ⟨h.readable, fun key hkey => h.free key ?_⟩
    rw [table, Forest.route?_eq]
    exact hkey
  obtain ⟨error, hregister, hdup, -⟩ := register_of_not_fits hr hfits
  rw [handle_of_split h.split h.depth, hregister, hdup hadmits]

/-- What is refused leaves the table as it was, and is a duplicate only if nothing else was
wrong. -/
theorem handle_of_not_fits {r : Router} (hr : r.forest.Sound) {m : Method} {pattern : Text}
    {handler : Handler} {layers : List Layer}
    (h : ∀ segments, r.Accepts m pattern segments →
      ¬ r.Fits ⟨m, segments, r.routeOf handler layers⟩) :
    ∃ e, (r.handle m pattern handler layers).answer = .error e ∧
      (r.handle m pattern handler layers).router.table = r.table ∧
      ((∀ segments, ¬ r.Accepts m pattern segments) → ∀ m' path, e ≠ .duplicateRoute m' path) := by
  cases hs : Pattern.split pattern with
  | error e =>
    rw [handle_of_malformed hs]
    exact ⟨.pattern e, rfl, rfl, by simp⟩
  | ok segments =>
    by_cases hd : Pattern.wildcards segments ≤ r.options.maxParamDepth
    · have hfits : ¬ r.Fits ⟨m, segments, r.routeOf handler layers⟩ := fun hf => by
        obtain ⟨hreadable, hfree, -⟩ := (fits_iff hr).1 hf
        exact h segments ⟨hs, hd, hreadable, hfree⟩ hf
      obtain ⟨error, hregister, -, htree⟩ := register_of_not_fits hr hfits
      rw [handle_of_split hs hd, hregister]
      refine ⟨error, rfl, (hr.placed_plant m).table, fun hnone => ?_⟩
      have hadmits : ¬ (r.forest.root m).Admits segments := fun ha => by
        obtain ⟨hreadable, hfree⟩ := (hr.root m).admits_iff.1 ha
        refine hnone segments ⟨hs, hd, hreadable, fun key hkey => hfree key ?_⟩
        rwa [table, Forest.route?_eq] at hkey
      obtain ⟨refusal, rfl⟩ := htree hadmits
      simp
    · rw [handle_of_deep hs hd]
      exact ⟨_, rfl, rfl, by simp⟩

theorem table_of_error {r : Router} (hr : r.forest.Sound) {m : Method} {pattern : Text}
    {handler : Handler} {layers : List Layer} {e : RouterError}
    (h : (r.handle m pattern handler layers).answer = .error e) :
    (r.handle m pattern handler layers).router.table = r.table := by
  have hnot : ∀ segments, r.Accepts m pattern segments →
      ¬ r.Fits ⟨m, segments, r.routeOf handler layers⟩ := fun segments ha hf => by
    have hok := (handle_of_accepts hr ha handler layers hf.fresh).1
    rw [h] at hok
    cases hok
  obtain ⟨-, -, htable, -⟩ := handle_of_not_fits hr hnot
  exact htable

/-! ## Mounting, counting and looking up -/

theorem mounted_table {r sub : Router} (hr : r.forest.Sound) (hsub : sub.forest.Sound)
    {path : Text} (h : (r.mount path sub).answer = .ok ()) :
    ∃ above, Pattern.split path = .ok above ∧
      (∀ m segments route, sub.table m segments = some route →
        (r.mount path sub).router.table m (above ++ segments) = some (route.within r.chain)) ∧
      (∀ m key, (∀ segments, key = above ++ segments → sub.table m segments = none) →
        (r.mount path sub).router.table m key = r.table m key) ∧
      (r.options.duplicateRoutes = .reject → ∀ m segments, (sub.table m segments).isSome →
        r.table m (above ++ segments) = none) := by
  cases hp : Pattern.split path with
  | error e => simp [mount, hp] at h
  | ok above =>
    by_cases hm : r.Mountable above sub
    · obtain ⟨f, hmount, hplaced, -⟩ := mount_of_mountable hr hsub hp hm
      have htable : (r.mount path sub).router.table =
          r.table.putAll (sub.forest.entries.map (Entry.below above r.chain)) := by
        rw [hmount]
        exact hplaced.table
      have hdistinct : Entry.Distinct (sub.forest.entries.map (Entry.below above r.chain)) :=
        hsub.distinct_entries.below above r.chain
      refine ⟨above, rfl, fun m segments route hroute => ?_, fun m key hkey => ?_,
        fun hreject m segments hsome => ?_⟩
      · have he : ⟨m, segments, route⟩ ∈ sub.forest.entries := hsub.mem_entries_iff.2 hroute
        rw [htable]
        exact Table.putAll_of_mem (List.mem_map_of_mem he) hdistinct
      · rw [htable, Table.putAll_of_ne]
        rintro e he ⟨rfl, rfl⟩
        obtain ⟨old, hold, rfl⟩ := List.mem_map.1 he
        have hnone : sub.table old.method old.segments = none := hkey old.segments rfl
        have hsome := hsub.mem_entries_iff.1 hold
        rw [table, hsome] at hnone
        cases hnone
      · obtain ⟨route, hroute⟩ := Option.isSome_iff_exists.1 hsome
        have he : ⟨m, segments, route⟩ ∈ sub.forest.entries := hsub.mem_entries_iff.2 hroute
        exact (hm.fits _ he).fresh hreject
    · obtain ⟨e, hmount⟩ := mount_of_not_mountable hr hp hm
      rw [hmount] at h
      cases h

/-- The entries have the keys of the table, each once. -/
theorem exists_keys {r : Router} (hr : r.forest.Sound) :
    ∃ keys : List (Method × List Segment), keys.Nodup ∧
      (∀ m segments, (m, segments) ∈ keys ↔ (r.table m segments).isSome) ∧
        r.countRoutes = keys.length := by
  refine ⟨r.forest.entries.map fun e => (e.method, e.segments), ?_, fun m segments => ?_, ?_⟩
  · refine List.pairwise_map.2 (hr.distinct_entries.imp fun hne hk => hne ?_)
    exact ⟨congrArg Prod.fst hk, congrArg Prod.snd hk⟩
  · rw [List.mem_map, Option.isSome_iff_exists]
    constructor
    · rintro ⟨e, he, hk⟩
      obtain ⟨rfl, rfl⟩ := Prod.mk.inj hk
      exact ⟨e.route, hr.mem_entries_iff.1 he⟩
    · rintro ⟨route, hroute⟩
      exact ⟨⟨m, segments, route⟩, hr.mem_entries_iff.2 hroute, rfl⟩
  · rw [List.length_map, Forest.entries, List.length_flatMap, List.sum_eq_foldr]
    simp [countRoutes, Forest.countRoutes]

/-- Where the table has a route there is a node that carries it, and its segments reach it. -/
theorem exists_node {r : Router} (hr : r.forest.Sound) {m : Method} {segments : List Segment}
    (h : (r.table m segments).isSome) :
    ∃ tree c, r.forest.root? m = some tree ∧ tree.locate? segments = some c ∧
      tree.reach? segments = some c ∧ c.route.isSome := by
  obtain ⟨route, hroute⟩ := Option.isSome_iff_exists.1 h
  obtain ⟨c, hc, hcroute⟩ := Option.bind_eq_some_iff.1 hroute
  obtain ⟨tree, htree, hlocate⟩ := Option.bind_eq_some_iff.1 hc
  have hroot : r.forest.root m = tree := by simp [Forest.root, htree]
  have hreach : tree.reach? segments = some c := (hroot ▸ hr.root m).reach?_eq hlocate
  exact ⟨tree, c, htree, hlocate, hreach, by rw [hcroute]; rfl⟩

theorem contains_of_isSome {r : Router} (hr : r.forest.Sound) {m : Method} {pattern : Text}
    {segments : List Segment} (hs : Pattern.split pattern = .ok segments)
    (h : (r.table m segments).isSome) : r.contains m pattern = .ok true := by
  obtain ⟨tree, c, htree, -, hreach, hroute⟩ := exists_node hr h
  simp [contains, hs, htree, hreach, hroute]

/-- **Every router does as its table says.** -/
theorem Reachable.tabular {r : Router} (h : r.Reachable) : r.Tabular where
  put _ _ handler layers _ ha hfresh := handle_of_accepts h.sound ha handler layers hfresh
  duplicate _ _ handler layers _ ha hreject hsome :=
    handle_of_duplicate h.sound ha handler layers hreject hsome
  refused _ _ _ _ hnone := by
    obtain ⟨e, he, -, hdup⟩ := handle_of_not_fits h.sound fun segments ha =>
      absurd ha (hnone segments)
    exact ⟨e, he, hdup hnone⟩
  unchanged _ _ _ _ _ he := table_of_error h.sound he
  mounted _ _ hsub hok := mounted_table h.sound hsub.sound hok
  counted := exists_keys h.sound
  contained _ _ _ hs hsome := contains_of_isSome h.sound hs hsome

end Router

end

namespace Router

open Regex.Standard

/-- A new pattern is accepted, one that is there is a duplicate, and below another prefix the
sample can be mounted into itself. -/
theorem tabular_sample :
    (Router.new {}).Accepts .get ['/', 'a'] [.literal ['a']] ∧
      ((Router.new {}).handle .get ['/', 'a'] silent).router.table =
        (Router.new {}).table.put ⟨.get, [.literal ['a']], (Router.new {}).routeOf silent []⟩ ∧
      (sample.handle .get ['/', 'a'] silent).answer = .error (.duplicateRoute .get ['/', 'a']) ∧
      (sample.handle .get ['/', 'a'] silent).router.table = sample.table ∧
      sample.contains .get ['/', '{', 'x', '}', '/', 'b'] = .ok true ∧
      (sample.mount ['/', 'b'] sample).answer = .ok () ∧
      ∀ route, sample.table .get [.literal ['a']] = some route →
        (sample.mount ['/', 'b'] sample).router.table .get [.literal ['b'], .literal ['a']] =
          some (route.within sample.chain) := by
  have hnew : (Router.new {}).Tabular := (Reachable.new {} {}).tabular
  have hsample : sample.Tabular := reachable_sample.tabular
  have haccepts : (Router.new {}).Accepts .get ['/', 'a'] [.literal ['a']] := by
    refine ⟨rfl, by decide, fun s hs => ?_, fun key hkey => by cases hkey⟩
    rw [List.mem_singleton.1 hs]
    exact ⟨_, rfl⟩
  obtain ⟨above, habove, hmounted, -⟩ := hsample.mounted ['/', 'b'] sample reachable_sample rfl
  obtain rfl : above = [.literal ['b']] := (Except.ok.inj habove).symm
  exact ⟨haccepts, (hnew.put _ _ _ _ _ haccepts fun _ => rfl).2, rfl,
    hsample.unchanged _ _ _ _ _ rfl, hsample.contained _ _ _ rfl rfl, rfl,
    fun route => hmounted .get [.literal ['a']] route⟩

end Router

end Routing
