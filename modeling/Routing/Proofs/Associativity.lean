import Routing.Proofs.Covering
import Routing.Proofs.Direct

/-!
# Mounts below mounts

A router is mounted in another one, and that one in a third; or the second is mounted alone, and
then the first below both prefixes. Both ways place the same entries: in the one the routes of two
routers have become one tree before they are listed, in the other they come one list after the
other. What an entry has to pass is the same too, since the two agree below a prefix just when they
agree without it.

* `Forest.Sound.madeOf_entries` — a forest whose trees have routes is made of its entries.
* `Forest.MadeOf.append` — what is placed in it makes it up together with these.
* `Router.fits_iff_agrees` — what fits is told by the entries that there are.
* `Router.Stacks` — what makes no difference between the two ways.
* `Router.Nests` — what has to fit, and what to agree, for either of them to succeed.
* `Router.Reachable.mount_assoc` — both ways answer the same and leave the same router.
-/

namespace Routing

open Segment (Before)

/-- New elements that precede nobody stand behind the others, in their order. -/
theorem seatAll_eq_append {α : Type} [DecidableEq α] {lt : α → α → Prop} [DecidableRel lt]
    {l as : List α} (hn : (l ++ as).Nodup) (h : ∀ a b, ¬ lt a b) :
    seatAll lt l as = l ++ as := by
  induction as generalizing l with
  | nil => simp
  | cons a as ih =>
    have hnew : a ∉ l := fun ha => (List.nodup_append.1 hn).2.2 a ha a List.mem_cons_self rfl
    rw [seatAll_cons, seat_last lt hnew fun b _ => h a b, ih (by simpa using hn)]
    simp

/-- The entry below two prefixes, one after the other. -/
theorem Entry.below_below (outer inner : List Segment) (chain chain' : Chain) (e : Entry) :
    (e.below inner chain).below outer chain' =
      e.below (outer ++ inner) ⟨chain'.layers ++ chain.layers⟩ := by
  simp [Entry.below, Route.within, Chain.within]

section

variable [Regex.Engine]

namespace Forest

/-! ## Forests whose trees all have routes -/

/-- No tree of the forest is without routes. -/
def Laden (f : Forest) : Prop := ∀ root ∈ f.roots, root.tree.routes ≠ []

/-- A method may come with many entries, but it is only seated once. -/
theorem seatAll_methods {f : Forest} (hladen : f.Laden) (l : List Method) :
    seatAll emptyRelation l (f.entries.map Entry.method) = seatAll emptyRelation l f.methods := by
  obtain ⟨roots⟩ := f
  induction roots generalizing l with
  | nil => rfl
  | cons root roots ih =>
    obtain ⟨hroot, hroots⟩ := List.forall_mem_cons.1 hladen
    obtain ⟨k, hk⟩ := Nat.exists_eq_succ_of_ne_zero (mt List.length_eq_zero_iff.1 hroot)
    have hsame (entry : List Segment × Route → Entry) (he : ∀ e, (entry e).method = root.method) :
        (root.tree.routes.map entry).map Entry.method = List.replicate (k + 1) root.method := by
      rw [List.map_map, ← Nat.succ_eq_add_one, ← hk, List.eq_replicate_iff]
      simp +contextual [he]
    rw [entries, List.flatMap_cons, List.map_append, seatAll_append, hsame _ fun _ => rfl,
      seatAll_replicate]
    exact ih (seat emptyRelation l root.method) hroots

/-- **A forest whose trees have routes is made of its entries.** -/
theorem Sound.madeOf_entries {f : Forest} (hf : f.Sound) (hladen : f.Laden) :
    f.MadeOf f.entries where
  sound := hf
  mem _ := Iff.rfl
  branchesAt m position := (hf.seatAll_entries m position).symm
  methods := by
    have hkept : seatAll emptyRelation [] f.methods = f.methods :=
      seatAll_eq_append (by simpa using hf.methods) fun _ _ h => h
    rw [seatAll_methods hladen, hkept]

/-- A forest that was made of entries has them placed in an empty one. -/
theorem MadeOf.placed {f : Forest} {es : List Entry} (h : f.MadeOf es) (hn : Entry.Distinct es) :
    Forest.Placed {} es f where
  sound := h.sound
  branchesAt m position := by
    have hbare : ((({} : Forest).root m).branchesAt position) = [] := by
      cases position <;> rfl
    rw [h.branchesAt, hbare]
  table := by
    funext m segments
    apply Option.ext
    intro route
    rw [← h.sound.mem_entries_iff (e := ⟨m, segments, route⟩), h.mem]
    constructor
    · exact fun he => Table.putAll_of_mem he hn
    · intro hroute
      rcases Table.putAll_cases hroute with hempty | he
      · cases hempty
      · exact he

/-- **What is placed in a forest makes it up together with what it was made of.** -/
theorem MadeOf.append {f f' : Forest} {es es' : List Entry} (h : f.MadeOf es)
    (hn : Entry.Distinct (es ++ es')) (h' : f.Placed es' f')
    (hm : f'.methods = seatAll emptyRelation f.methods (es'.map Entry.method)) :
    f'.MadeOf (es ++ es') := by
  refine ((h.placed (List.pairwise_append.1 hn).1).trans h').madeOf hn ?_
  rw [hm, h.methods, List.map_append, seatAll_append]

end Forest

namespace Router

/-! ## What fits -/

/-- **What fits is told by the entries that there are.** -/
theorem fits_iff_agrees {r : Router} (hr : r.forest.Sound) {e : Entry} :
    r.Fits e ↔ (∀ s ∈ e.segments, s.Readable) ∧
      ∀ e' ∈ r.forest.entries, e'.Agrees r.options e := by
  rw [fits_iff hr]
  refine and_congr_right fun _ => ?_
  constructor
  · rintro ⟨hfree, hfresh⟩ e' he' hm
    have hroute : r.table e.method e'.segments = some e'.route := hm ▸ hr.mem_entries_iff.1 he'
    refine ⟨hfree e'.segments (by rw [hroute]; rfl), fun hreject hsame => ?_⟩
    have hnone := hfresh hreject
    rw [← hsame, hroute] at hnone
    cases hnone
  · intro hagrees
    have hentry {key : List Segment} {route : Route} (hroute : r.table e.method key = some route) :
        (⟨e.method, key, route⟩ : Entry) ∈ r.forest.entries := hr.mem_entries_iff.2 hroute
    refine ⟨fun key hkey => ?_, fun hreject => ?_⟩
    · obtain ⟨route, hroute⟩ := Option.isSome_iff_exists.1 hkey
      exact (hagrees _ (hentry hroute) rfl).1
    · rw [Option.eq_none_iff_forall_ne_some]
      intro route hroute
      exact (hagrees _ (hentry hroute) rfl).2 hreject rfl

theorem mount_ok_iff {r sub : Router} (hr : r.forest.Sound) (hsub : sub.forest.Sound) {path : Text}
    {above : List Segment} (hp : Pattern.split path = .ok above) :
    (r.mount path sub).answer = .ok () ↔ r.Mountable above sub := by
  by_cases h : r.Mountable above sub
  · obtain ⟨f, hmount, -⟩ := mount_of_mountable hr hsub hp h
    simp [hmount, h]
  · obtain ⟨e, hmount⟩ := mount_of_not_mountable hr hp h
    simp [hmount, h]

/-! ## Both ways -/

/-- What `b` has once `a` was mounted in it. -/
def combined (inner : List Segment) (a b : Router) : List Entry :=
  b.forest.entries ++ a.forest.entries.map (Entry.below inner b.chain)

/-- Everything fits in `c`, and what comes from `a` agrees with what `b` had. -/
structure Nests (outer inner : List Segment) (a b c : Router) : Prop where
  depth : ∀ e ∈ combined inner a b,
    Pattern.wildcards outer + Pattern.wildcards e.segments ≤ c.options.maxParamDepth
  fits : ∀ e ∈ combined inner a b, c.Fits (e.below outer c.chain)
  agrees : ∀ e ∈ b.forest.entries, ∀ e' ∈ a.forest.entries,
    e.Agrees b.options (e'.below inner b.chain)

/-- What makes no difference between the two ways: the routers refuse the same, no tree comes
without routes, and the one in the middle has no layers of its own. -/
structure Stacks (a b c : Router) : Prop where
  inner : a.forest.Sound
  middle : b.forest.Sound
  outer : c.forest.Sound
  laden_inner : a.forest.Laden
  laden_middle : b.forest.Laden
  rejects_middle : b.options.duplicateRoutes = .reject
  rejects_outer : c.options.duplicateRoutes = .reject
  depth : b.options.maxParamDepth = c.options.maxParamDepth
  globals : b.chain.layers = []

section

variable {a b c : Router} {outer inner : List Segment} {f : Forest}

theorem mem_combined {e : Entry} (he : e ∈ a.forest.entries) :
    e.below inner b.chain ∈ combined inner a b :=
  List.mem_append_right _ (List.mem_map_of_mem he)

theorem Nests.mountable_outer (h : Nests outer inner a b c) (hs : Stacks a b c) :
    c.Mountable outer b := by
  rw [mountable_iff (hs.middle.madeOf_entries hs.laden_middle)]
  constructor
  · intro e he
    exact h.depth e (List.mem_append_left _ he)
  · intro e he
    exact h.fits e (List.mem_append_left _ he)

theorem Nests.mountable_inner (h : Nests outer inner a b c) (hs : Stacks a b c) :
    b.Mountable inner a := by
  rw [mountable_iff (hs.inner.madeOf_entries hs.laden_inner)]
  constructor
  · intro e he
    have hdepth := h.depth _ (mem_combined he)
    have hsame := hs.depth
    simp only [Entry.below, Pattern.wildcards_append] at hdepth
    omega
  · intro e he
    have hreadable := ((fits_iff_agrees hs.outer).1 (h.fits _ (mem_combined he))).1
    rw [fits_iff_agrees hs.middle]
    exact ⟨fun s hs => hreadable s (List.mem_append_right _ hs),
      fun e' he' => h.agrees e' he' e he⟩

/-- **The router in the middle is made of what it had and of what was mounted in it.** Where
duplicates are refused, what agrees has different keys. -/
theorem Stacks.madeOf_combined (hs : Stacks a b c) (hm : b.Mountable inner a)
    (hplaced : b.forest.Placed (a.forest.entries.map (Entry.below inner b.chain)) f)
    (hmethods : f.methods = seatAll emptyRelation b.forest.methods a.forest.methods) :
    Entry.Distinct (combined inner a b) ∧ f.MadeOf (combined inner a b) := by
  have hn : Entry.Distinct (combined inner a b) := by
    refine List.pairwise_append.2
      ⟨hs.middle.distinct_entries, hs.inner.distinct_entries.below inner b.chain, fun e he => ?_⟩
    rw [List.forall_mem_map]
    intro e' he' hsame
    have hagrees := ((fits_iff_agrees hs.middle).1 (hm.fits e' he')).2 e he
    exact (hagrees hsame.1).2 hs.rejects_middle hsame.2
  refine ⟨hn, (hs.middle.madeOf_entries hs.laden_middle).append hn hplaced ?_⟩
  rw [hmethods, List.map_map]
  exact (Forest.seatAll_methods hs.laden_inner b.forest.methods).symm

/-- Once `a` was mounted in `b`, the result can be mounted in `c` if everything fits. -/
theorem Stacks.mountable_mounted_iff (hs : Stacks a b c) (hm : b.Mountable inner a)
    (hmade : f.MadeOf (combined inner a b)) :
    c.Mountable outer { b with forest := f } ↔ Nests outer inner a b c := by
  rw [mountable_iff hmade]
  constructor
  · rintro ⟨hdepth, hfits⟩
    refine ⟨hdepth, hfits, ?_⟩
    intro e he e' he'
    exact ((fits_iff_agrees hs.middle).1 (hm.fits e' he')).2 e he
  · intro h
    exact ⟨h.depth, h.fits⟩

/-- Once `b` was mounted alone, in the way of an entry of `a` is what was in `c`, and what came from
`b`. -/
theorem Stacks.fits_behind_iff (hs : Stacks a b c)
    (hplaced : c.forest.Placed (b.forest.entries.map (Entry.below outer c.chain)) f) (e : Entry) :
    ({ c with forest := f } : Router).Fits (e.below (outer ++ inner) c.chain) ↔
      c.Fits ((e.below inner b.chain).below outer c.chain) ∧
        ∀ e' ∈ b.forest.entries, e'.Agrees c.options (e.below inner b.chain) := by
  have hbelow : e.below (outer ++ inner) c.chain =
      (e.below inner b.chain).below outer c.chain := by
    rw [Entry.below_below, hs.globals, List.append_nil]
  rw [hbelow, fits_placed_iff hplaced, List.forall_mem_map]
  simp only [Entry.agrees_below_iff]

/-- Once `b` was mounted alone, `a` can be mounted behind both prefixes if everything fits. -/
theorem Stacks.mountable_behind_iff (hs : Stacks a b c) (hm : c.Mountable outer b)
    (hplaced : c.forest.Placed (b.forest.entries.map (Entry.below outer c.chain)) f) :
    ({ c with forest := f } : Router).Mountable (outer ++ inner) a ↔
      Nests outer inner a b c := by
  rw [mountable_iff (hs.middle.madeOf_entries hs.laden_middle)] at hm
  rw [mountable_iff (hs.inner.madeOf_entries hs.laden_inner)]
  simp only [Pattern.wildcards_append, Nat.add_assoc, hs.fits_behind_iff hplaced]
  obtain ⟨hdepth, hfits⟩ := hm
  constructor
  · rintro ⟨hdepth', hboth⟩
    refine ⟨List.forall_mem_append.2 ⟨hdepth, List.forall_mem_map.2 ?_⟩,
      List.forall_mem_append.2 ⟨hfits, List.forall_mem_map.2 ?_⟩, ?_⟩
    · intro e he
      simpa only [Entry.below, Pattern.wildcards_append] using hdepth' e he
    · intro e he
      exact (hboth e he).1
    · intro e he e' he'
      exact ((hboth e' he').2 e he).of_reject hs.rejects_outer b.options
  · rintro ⟨hdepth', hfit, hagrees⟩
    constructor
    · intro e he
      simpa only [Entry.below, Pattern.wildcards_append] using hdepth' _ (mem_combined he)
    · intro e he
      refine ⟨hfit _ (mem_combined he), ?_⟩
      intro e' he'
      exact (hagrees e' he' e he).of_reject hs.rejects_middle c.options

/-- Both mounts of the one way succeed if everything fits. -/
theorem Stacks.mount_mounted_ok_iff (hs : Stacks a b c) {p q : Text}
    (hp : Pattern.split p = .ok inner) (hq : Pattern.split q = .ok outer) :
    (b.mount p a).answer = .ok () ∧ (c.mount q (b.mount p a).router).answer = .ok () ↔
      Nests outer inner a b c := by
  rw [mount_ok_iff hs.middle hs.inner hp]
  by_cases hm : b.Mountable inner a
  · obtain ⟨f, hmount, hplaced, hmethods⟩ := mount_of_mountable hs.middle hs.inner hp hm
    obtain ⟨-, hmade⟩ := hs.madeOf_combined hm hplaced hmethods
    rw [hmount, mount_ok_iff hs.outer hplaced.sound hq, hs.mountable_mounted_iff hm hmade]
    exact and_iff_right hm
  · constructor
    · intro h
      exact absurd h.1 hm
    · intro h
      exact absurd (h.mountable_inner hs) hm

/-- Both mounts of the other way succeed if everything fits. -/
theorem Stacks.mount_behind_ok_iff (hs : Stacks a b c) {path q : Text}
    (hpath : Pattern.split path = .ok (outer ++ inner)) (hq : Pattern.split q = .ok outer) :
    (c.mount q b).answer = .ok () ∧ ((c.mount q b).router.mount path a).answer = .ok () ↔
      Nests outer inner a b c := by
  rw [mount_ok_iff hs.outer hs.middle hq]
  by_cases hm : c.Mountable outer b
  · obtain ⟨f, hmount, hplaced, -⟩ := mount_of_mountable hs.outer hs.middle hq hm
    rw [hmount, mount_ok_iff hplaced.sound hs.inner hpath, hs.mountable_behind_iff hm hplaced]
    exact and_iff_right hm
  · constructor
    · intro h
      exact absurd h.1 hm
    · intro h
      exact absurd (h.mountable_outer hs) hm

/-- **Where everything fits, both ways leave the same router.** -/
theorem Nests.mount_eq (h : Nests outer inner a b c) (hs : Stacks a b c) {p q path : Text}
    (hp : Pattern.split p = .ok inner) (hq : Pattern.split q = .ok outer)
    (hpath : Pattern.split path = .ok (outer ++ inner)) :
    (c.mount q (b.mount p a).router).router = ((c.mount q b).router.mount path a).router := by
  have hm := h.mountable_inner hs
  obtain ⟨f, hmount, hplaced, hmethods⟩ := mount_of_mountable hs.middle hs.inner hp hm
  obtain ⟨hn, hmade⟩ := hs.madeOf_combined hm hplaced hmethods
  obtain ⟨f', hthrough, hplaced', hmethods'⟩ :=
    mount_of_mountable hs.outer hplaced.sound hq ((hs.mountable_mounted_iff hm hmade).2 h)
  have hm' := h.mountable_outer hs
  obtain ⟨g, halone, hplacedg, hmethodsg⟩ := mount_of_mountable hs.outer hs.middle hq hm'
  obtain ⟨g', hbehind, hplacedg', hmethodsg'⟩ :=
    mount_of_mountable hplacedg.sound hs.inner hpath ((hs.mountable_behind_iff hm' hplacedg).2 h)
  have hbelow : (a.forest.entries.map (Entry.below inner b.chain)).map
      (Entry.below outer c.chain) = a.forest.entries.map (Entry.below (outer ++ inner) c.chain) := by
    simp [Entry.below_below, hs.globals]
  have hmethod (es : List Entry) (above : List Segment) (chain : Chain) :
      (es.map (Entry.below above chain)).map Entry.method = es.map Entry.method := by
    rw [List.map_map]
    rfl
  -- Both forests had the same entries placed in them, and have the same methods.
  have hsame : f' = g' := by
    refine hmade.eq_of_placed hn hplaced' ?_ hmethods' ?_
    · rw [combined, List.map_append, hbelow]
      exact hplacedg.trans hplacedg'
    · rw [hmethodsg', hmethodsg, hmethod, combined, List.map_append, hmethod, seatAll_append,
        Forest.seatAll_methods hs.laden_inner, Forest.seatAll_methods hs.laden_middle]
  rw [hmount, hthrough, halone, hbehind, hsame]

end

/-- **Mounting is associative.** Mounting a router in a second one and that in a third succeeds
just when it does to mount the second one alone and then the first behind both prefixes, and both
leave the same router. The second one has no layers of its own, which would be around the routes
of the first one only if these came through it. -/
theorem Reachable.mount_assoc {a b c : Router} (ha : a.Reachable) (hb : b.Reachable)
    (hc : c.Reachable) (hreject : b.options.duplicateRoutes = .reject)
    (hreject' : c.options.duplicateRoutes = .reject)
    (hdepth : b.options.maxParamDepth = c.options.maxParamDepth)
    (hglobals : b.chain.layers = []) (hladen : a.forest.Laden) (hladen' : b.forest.Laden)
    {p q : Text} {inner outer : List Segment} (hp : Pattern.split p = .ok inner)
    (hq : Pattern.split q = .ok outer) :
    let mounted := b.mount p a
    let through := c.mount q mounted.router
    let alone := c.mount q b
    let behind := alone.router.mount (q ++ '/' :: p) a
    (mounted.answer = .ok () ∧ through.answer = .ok () ↔
      alone.answer = .ok () ∧ behind.answer = .ok ()) ∧
    (mounted.answer = .ok () ∧ through.answer = .ok () → through.router = behind.router) := by
  intro mounted through alone behind
  have hpath : Pattern.split (q ++ '/' :: p) = .ok (outer ++ inner) := by
    rw [Pattern.split_append hq, hp]
    rfl
  have hs : Stacks a b c :=
    ⟨ha.sound, hb.sound, hc.sound, hladen, hladen', hreject, hreject', hdepth, hglobals⟩
  have hthrough : mounted.answer = .ok () ∧ through.answer = .ok () ↔ Nests outer inner a b c :=
    hs.mount_mounted_ok_iff hp hq
  have hbehind : alone.answer = .ok () ∧ behind.answer = .ok () ↔ Nests outer inner a b c :=
    hs.mount_behind_ok_iff hpath hq
  constructor
  · rw [hthrough, hbehind]
  · intro h
    exact (hthrough.1 h).mount_eq hs hp hq hpath

end Router

end

namespace Router

open Regex.Standard

/-- The routes `/a` and `/{x}/b` twice, next to `/c/b`. The second time they stand one segment
deeper. -/
theorem mount_assoc_sample :
    let outer := ((Router.new {}).handle .get ['/', 'c', '/', 'b'] silent).router
    let through := outer.mount ['c'] (sample.mount ['a'] sample).router
    through.answer = .ok () ∧ through.router.countRoutes = 5 ∧
      through.router = ((outer.mount ['c'] sample).router.mount ['c', '/', 'a'] sample).router := by
  intro outer through
  have houter : outer.Reachable := .handle _ _ _ _ (.new _ _)
  have hladen : sample.forest.Laden :=
    List.forall_mem_singleton.2 (List.cons_ne_nil _ _)
  have hmounted : (sample.mount ['a'] sample).answer = .ok () := by decide +kernel
  have hthrough : through.answer = .ok () := by decide +kernel
  have hcount : through.router.countRoutes = 5 := by decide +kernel
  have hassoc := reachable_sample.mount_assoc reachable_sample houter rfl rfl rfl rfl hladen hladen
    (show Pattern.split ['a'] = .ok [.literal ['a']] from rfl)
    (show Pattern.split ['c'] = .ok [.literal ['c']] from rfl)
  exact ⟨hthrough, hcount, hassoc.2 ⟨hmounted, hthrough⟩⟩

end Router

end Routing
