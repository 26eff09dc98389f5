import Routing.Options
import Routing.Proofs.Growing
import Routing.Proofs.Listing
import Routing.Router.Forest

/-!
# Sound forests

A forest of sound trees, one for each method, read as a table of routes and as a list of entries.

* `Forest.Sound` — every method once, and under it a sound tree with a root of its name.
* `Forest.ext_roots` — forests with the same methods and the same trees are the same.
* `Forest.Sound.mem_entries_iff`, `Forest.Sound.distinct_entries` — the entries are the routes, each
  under its method and its segments.
* `Table.putAll` — a table overwritten by entries.
-/

namespace Routing

open Segment (Before)

variable [Regex.Engine]

structure Root.Sound (root : Root) : Prop where
  label : root.label = .literal root.method.name
  slots : root.tree.slots = 0
  tree : root.tree.Sound

structure Forest.Sound (f : Forest) : Prop where
  methods : f.methods.Nodup
  roots : ∀ root ∈ f.roots, root.Sound

theorem Root.sound_bare (m : Method) : (Root.bare m).Sound := ⟨rfl, rfl, Node.sound_bare⟩

/-- Methods stand in the order in which they came. -/
instance : DecidableRel (@emptyRelation Method) := fun _ _ => inferInstanceAs (Decidable False)

instance : IsStrictWeakOrder Method emptyRelation where
  trans _ _ _ h := h.elim
  incomp_trans _ _ _ _ _ := ⟨id, id⟩

namespace Forest

theorem root_eq_bare {f : Forest} {m : Method} (h : m ∉ f.methods) : f.root m = .bare := by
  have : f.root? m = none := by simpa using mt isSome_root?.1 h
  simp [root, this]

theorem root_of_mem {f : Forest} (hf : f.methods.Nodup) {entry : Root} (h : entry ∈ f.roots) :
    f.root entry.method = entry.tree := by
  obtain ⟨roots⟩ := f
  have hfind : roots.find? (fun root => decide (root.method = entry.method)) = some entry := by
    induction roots with
    | nil => cases h
    | cons first rest ih =>
      obtain ⟨hne, hrest⟩ := List.nodup_cons.1 hf
      rcases List.mem_cons.1 h with rfl | h
      · simp
      · have : first.method ≠ entry.method := fun he => hne (he ▸ List.mem_map_of_mem h)
        simpa [this] using ih hrest h
  simp [root, root?, hfind]

theorem Sound.root_mem {f : Forest} (hf : f.Sound) {m : Method} (h : m ∈ f.methods) :
    ∃ entry ∈ f.roots, entry.method = m ∧ f.root m = entry.tree := by
  obtain ⟨entry, hm, rfl⟩ := List.mem_map.1 h
  exact ⟨entry, hm, rfl, root_of_mem hf.methods hm⟩

theorem Sound.root {f : Forest} (hf : f.Sound) (m : Method) : (f.root m).Sound := by
  by_cases h : m ∈ f.methods
  · obtain ⟨entry, hm, -, he⟩ := hf.root_mem h
    rw [he]
    exact (hf.roots entry hm).tree
  · rw [root_eq_bare h]
    exact Node.sound_bare

theorem Sound.slots_root {f : Forest} (hf : f.Sound) (m : Method) : (f.root m).slots = 0 := by
  by_cases h : m ∈ f.methods
  · obtain ⟨entry, hm, -, he⟩ := hf.root_mem h
    rw [he]
    exact (hf.roots entry hm).slots
  · rw [root_eq_bare h]
    rfl

/-- A sound forest is determined by its methods and the trees they have. -/
theorem Sound.roots_eq {f : Forest} (hf : f.Sound) :
    f.roots = f.methods.map fun m => ⟨m, .literal m.name, f.root m⟩ := by
  rw [Forest.methods, List.map_map]
  refine (List.map_id _).symm.trans (List.map_congr_left fun entry h => ?_)
  obtain ⟨m, label, tree⟩ := entry
  have hlabel : label = .literal m.name := (hf.roots _ h).label
  have htree : f.root m = tree := root_of_mem hf.methods h
  simp [hlabel, htree]

/-- **Forests with the same methods and the same trees are the same.** -/
theorem ext_roots {f g : Forest} (hf : f.Sound) (hg : g.Sound) (hm : f.methods = g.methods)
    (h : ∀ m, f.root m = g.root m) : f = g := by
  have hr : f.roots = g.roots := by
    rw [hf.roots_eq, hg.roots_eq, hm]
    simp only [h]
  obtain ⟨roots⟩ := f
  exact congrArg Forest.mk hr

/-! ## Planting and setting trees -/

theorem sound_empty : Forest.Sound {} := ⟨List.nodup_nil, by simp⟩

theorem methods_plant (f : Forest) (m : Method) :
    (f.plant m).methods = seat emptyRelation f.methods m := by
  unfold plant
  by_cases h : m ∈ f.methods
  · rw [if_pos (isSome_root?.2 h), seat_of_mem _ h]
  · rw [if_neg (mt isSome_root?.1 h), seat_last _ h fun _ _ hr => hr.elim]
    simp [methods, Root.bare]

theorem Sound.plant {f : Forest} (hf : f.Sound) (m : Method) : (f.plant m).Sound := by
  unfold Forest.plant
  by_cases h : m ∈ f.methods
  · rwa [if_pos (isSome_root?.2 h)]
  · rw [if_neg (mt isSome_root?.1 h)]
    refine ⟨?_, fun entry he => ?_⟩
    · simp only [Forest.methods, List.map_append, List.map_cons, List.map_nil]
      refine List.Nodup.append hf.methods (List.nodup_singleton _) ?_
      intro m' hm' hb
      obtain rfl : m' = m := List.mem_singleton.1 hb
      exact h hm'
    · rcases List.mem_append.1 he with he | he
      · exact hf.roots entry he
      · rw [List.mem_singleton.1 he]
        exact Root.sound_bare m

theorem root_set {f : Forest} {m : Method} (h : m ∈ f.methods) (m' : Method) (tree : Tree) :
    (f.set m tree).root m' = if m' = m then tree else f.root m' := by
  obtain ⟨old, ho⟩ := Option.isSome_iff_exists.1 (isSome_root?.2 h)
  by_cases hm : m' = m <;> simp [root, root?_set, hm, ho]

theorem Sound.set {f : Forest} (hf : f.Sound) (m : Method) {tree : Tree} (ht : tree.Sound)
    (hs : tree.slots = 0) : (f.set m tree).Sound := by
  refine ⟨by rw [methods_set]; exact hf.methods, fun entry he => ?_⟩
  obtain ⟨old, ho, rfl⟩ := List.mem_map.1 he
  by_cases h : old.method = m
  · rw [if_pos h]
    exact ⟨(hf.roots old ho).label, hs, ht⟩
  · rw [if_neg h]
    exact hf.roots old ho

/-- Setting the tree that a method has changes nothing. -/
theorem Sound.set_root {f : Forest} (hf : f.Sound) (m : Method) : f.set m (f.root m) = f := by
  have hr : (f.set m (f.root m)).roots = f.roots := by
    refine (List.map_congr_left fun entry he => ?_).trans (List.map_id _)
    by_cases h : entry.method = m
    · subst h
      rw [if_pos rfl, root_of_mem hf.methods he]
      rfl
    · rw [if_neg h]
      rfl
  exact congrArg Forest.mk hr

theorem mem_methods_plant (f : Forest) (m : Method) : m ∈ (f.plant m).methods := by
  simp [methods_plant]

theorem route?_eq (f : Forest) (m : Method) (segments : List Segment) :
    f.route? m segments = (f.root m).routeAt segments := by
  unfold route?
  cases h : f.root? m with
  | some tree => simp [root, h, Node.routeAt_eq]
  | none =>
    have : (Tree.bare).routeAt segments = none := by
      cases segments <;> simp [Tree.bare, Node.routeAt_nil, Node.routeAt_cons, Branches.find?]
    simp [root, h, this]

end Forest

/-! ## Entries and tables -/

/-- A route with its key. -/
structure Entry where
  method : Method
  segments : List Segment
  route : Route

/-- No two of the entries have one key. -/
def Entry.Distinct (es : List Entry) : Prop :=
  es.Pairwise fun a b => ¬ (a.method = b.method ∧ a.segments = b.segments)

/-- The routes by method and segments. -/
abbrev Table := Method → List Segment → Option Route

namespace Table

omit [Regex.Engine]

/-- The table with one key overwritten. -/
def put (t : Table) (e : Entry) : Table := fun m segments =>
  if m = e.method ∧ segments = e.segments then some e.route else t m segments

/-- The table overwritten by entries, the first one first. -/
def putAll (t : Table) (es : List Entry) : Table := es.foldl put t

theorem putAll_cons (t : Table) (e : Entry) (es : List Entry) :
    t.putAll (e :: es) = (t.put e).putAll es := rfl

theorem putAll_append (t : Table) (es es' : List Entry) :
    t.putAll (es ++ es') = (t.putAll es).putAll es' := by
  simp [putAll]

/-- Other keys keep what they have. -/
theorem putAll_of_ne {t : Table} {es : List Entry} {m : Method} {segments : List Segment}
    (h : ∀ e ∈ es, ¬ (m = e.method ∧ segments = e.segments)) :
    t.putAll es m segments = t m segments := by
  induction es generalizing t with
  | nil => rfl
  | cons e es ih =>
    rw [putAll_cons, ih fun e' he' => h e' (by simp [he']), put, if_neg (h e (by simp))]

theorem putAll_eq_none_iff {t : Table} {es : List Entry} {m : Method} {segments : List Segment} :
    t.putAll es m segments = none ↔
      t m segments = none ∧ ∀ e ∈ es, ¬ (m = e.method ∧ segments = e.segments) := by
  induction es generalizing t with
  | nil => simp [putAll]
  | cons e es ih =>
    rw [putAll_cons, ih, put, List.forall_mem_cons]
    by_cases h : m = e.method ∧ segments = e.segments
    · simp [h]
    · simp [h]

/-- Entries with different keys all get through. -/
theorem putAll_of_mem {t : Table} {es : List Entry} {e : Entry} (h : e ∈ es)
    (hn : Entry.Distinct es) : t.putAll es e.method e.segments = some e.route := by
  induction es generalizing t with
  | nil => cases h
  | cons first es ih =>
    obtain ⟨hfirst, hn⟩ := List.pairwise_cons.1 hn
    rw [putAll_cons]
    rcases List.mem_cons.1 h with rfl | h
    · rw [putAll_of_ne fun e' he' hk => hfirst e' he' hk]
      simp [put]
    · exact ih h hn

/-- The order in which entries with different keys come does not matter. -/
theorem putAll_congr {t : Table} {es es' : List Entry} (h : ∀ e, e ∈ es ↔ e ∈ es')
    (hn : Entry.Distinct es) (hn' : Entry.Distinct es') : t.putAll es = t.putAll es' := by
  funext m segments
  by_cases hk : ∃ e ∈ es, m = e.method ∧ segments = e.segments
  · obtain ⟨e, he, rfl, rfl⟩ := hk
    rw [putAll_of_mem he hn, putAll_of_mem ((h e).1 he) hn']
  · have hes : ∀ e ∈ es, ¬ (m = e.method ∧ segments = e.segments) := fun e he hek => hk ⟨e, he, hek⟩
    rw [putAll_of_ne hes, putAll_of_ne fun e he => hes e ((h e).2 he)]

end Table

namespace Entry

/-- The segment behind a position in the tree of a method on the way to the entry. -/
def next? (e : Entry) (m : Method) (position : List Segment) : Option Segment :=
  if e.method = m then Routing.next? position e.segments else none

omit [Regex.Engine] in
theorem next?_eq_some_iff {e : Entry} {m : Method} {position : List Segment} {s : Segment} :
    e.next? m position = some s ↔ e.method = m ∧ Routing.next? position e.segments = some s := by
  simp [next?]

/-- No forest has both, or, if routes are not to be replaced, they are for the same key. -/
def Agrees (options : Options) (e e' : Entry) : Prop :=
  e.method = e'.method → ¬ ClashAlong e.segments e'.segments ∧
    (options.duplicateRoutes = .reject → e.segments ≠ e'.segments)

end Entry

namespace Forest

/-- All routes of a forest with their keys, tree by tree. -/
def entries (f : Forest) : List Entry :=
  f.roots.flatMap fun entry =>
    entry.tree.routes.map fun (segments, route) => ⟨entry.method, segments, route⟩

/-- **The entries of a forest are its routes.** -/
theorem Sound.mem_entries_iff {f : Forest} (hf : f.Sound) {e : Entry} :
    e ∈ f.entries ↔ f.route? e.method e.segments = some e.route := by
  rw [route?_eq, ← (hf.root e.method).mem_routes_iff]
  simp only [entries, List.mem_flatMap, List.mem_map, Prod.exists]
  constructor
  · rintro ⟨entry, he, segments, route, hm, rfl⟩
    rwa [root_of_mem hf.methods he]
  · intro hm
    have hmem : e.method ∈ f.methods := by
      by_contra h
      rw [root_eq_bare h] at hm
      cases hm
    obtain ⟨entry, he, hmethod, htree⟩ := hf.root_mem hmem
    exact ⟨entry, he, e.segments, e.route, htree ▸ hm, by rw [hmethod]⟩

/-- No two entries of a forest have one key. -/
theorem Sound.distinct_entries {f : Forest} (hf : f.Sound) : Entry.Distinct f.entries := by
  rw [Entry.Distinct, entries, List.pairwise_flatMap]
  constructor
  · intro entry he
    have hn := (hf.roots entry he).tree.nodup_routes
    rw [List.Nodup, List.pairwise_map] at hn
    exact List.pairwise_map.2 (hn.imp fun h hk => h hk.2)
  · have hn := hf.methods
    rw [Forest.methods, List.Nodup, List.pairwise_map] at hn
    refine hn.imp fun {a b} hne => ?_
    rintro x hx y hy ⟨hm, -⟩
    obtain ⟨_, -, rfl⟩ := List.mem_map.1 hx
    obtain ⟨_, -, rfl⟩ := List.mem_map.1 hy
    exact hne hm

theorem Sound.not_clashAlong {f : Forest} (hf : f.Sound) {e e' : Entry} (he : e ∈ f.entries)
    (he' : e' ∈ f.entries) (hm : e.method = e'.method) :
    ¬ ClashAlong e.segments e'.segments := by
  rintro ⟨position, s, t, hs, ht, hc⟩
  rw [hf.mem_entries_iff, route?_eq, ← (hf.root _).mem_routes_iff] at he he'
  rw [← hm] at he'
  have hroot := hf.root e.method
  exact Segment.not_clashes_of_mem (hroot.ordered position) (hroot.mem_branchesAt he hs)
    (hroot.mem_branchesAt he' ht) hc

/-- **Entries of one forest agree.** -/
theorem Sound.pairwise_entries {f : Forest} (hf : f.Sound) (options : Options) :
    f.entries.Pairwise (Entry.Agrees options) :=
  hf.distinct_entries.imp_of_mem fun he he' hk hm =>
    ⟨hf.not_clashAlong he he' hm, fun _ hs => hk ⟨hm, hs⟩⟩

/-- The entries of a method are the routes of its tree. -/
theorem Sound.filterMap_entries {f : Forest} (hf : f.Sound) (m : Method)
    (position : List Segment) :
    f.entries.filterMap (·.next? m position) =
      (f.root m).routes.filterMap fun entry => Routing.next? position entry.1 := by
  obtain ⟨roots⟩ := f
  have hn := hf.methods
  clear hf
  simp only [entries, Forest.methods] at hn ⊢
  induction roots with
  | nil => rfl
  | cons first rest ih =>
    obtain ⟨hne, hrest⟩ := List.nodup_cons.1 hn
    rw [List.flatMap_cons, List.filterMap_append, List.filterMap_map, ih hrest]
    by_cases hm : first.method = m
    · have hroot : (⟨first :: rest⟩ : Forest).root m = first.tree := by
        simp [Forest.root, root?, hm]
      have hbare : (⟨rest⟩ : Forest).root m = .bare := root_eq_bare (hm ▸ hne)
      rw [hroot, hbare]
      simp [Entry.next?, hm, Tree.bare, Node.routes, Branches.routes]
    · have hroot : (⟨first :: rest⟩ : Forest).root m = (⟨rest⟩ : Forest).root m := by
        simp [Forest.root, root?, hm]
      rw [hroot]
      simp [Function.comp_def, Entry.next?, hm]

/-- **The entries of a forest make its branches.** -/
theorem Sound.seatAll_entries {f : Forest} (hf : f.Sound) (m : Method) (position : List Segment) :
    seatAll Before [] (f.entries.filterMap (·.next? m position)) =
      (f.root m).branchesAt position := by
  rw [hf.filterMap_entries, (hf.root m).seatAll_routes]

/-- The segments of an entry lead along branches of its tree. -/
theorem Sound.proper_entry {f : Forest} (hf : f.Sound) {e : Entry} (he : e ∈ f.entries) :
    ∀ s ∈ e.segments, s.Proper := by
  rw [hf.mem_entries_iff, route?_eq, ← (hf.root _).mem_routes_iff] at he
  exact (hf.root e.method).proper_of_mem_routes he

end Forest

end Routing
