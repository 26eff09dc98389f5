import Routing.Proofs.Sessions

/-!
# The limit of parameters

A registration counts the wildcards of its pattern. A mount counts those of the prefix and the slots
of the deepest node in each tree that comes in, and the deepest node of a tree that has routes is on
the way to one of them. So no route goes beyond the limit, and a mount is refused for it just when
one of its routes would.

* `Router.Bounded` — no route has more wildcards than the router allows; `Router.bounded_handle`,
  `Router.bounded_cover` and `Router.bounded_mount` keep it.
* `Router.mount_tooDeep_iff` — a router is refused for the deepest nodes of its trees.
* `Router.Reachable.limited` — what the limit means for routes, for what is found and for mounts.
-/

namespace Routing

section

variable [Regex.Engine]

/-- The call was refused for the limit of parameters. -/
def Edited.TooDeep {α : Type} (e : Edited α) : Prop :=
  ∃ path depth limit, e.answer = .error (.paramDepthExceeded path depth limit)

/-- **The deepest node is on the way to a route**, and no route has more wildcards. -/
theorem Root.Sound.deepest {root : Root} (h : root.Sound) (hne : root.tree.routes ≠ []) :
    (∃ entry ∈ root.tree.routes, Pattern.wildcards entry.1 = root.tree.maxSlots) ∧
      ∀ entry ∈ root.tree.routes, Pattern.wildcards entry.1 ≤ root.tree.maxSlots := by
  have hiff (k : Nat) : root.tree.maxSlots ≤ k ↔
      ∀ entry ∈ root.tree.routes, Pattern.wildcards entry.1 ≤ k := by
    simp only [h.tree.maxSlots_le_iff hne, h.slots, Nat.zero_add]
  have hle := (hiff root.tree.maxSlots).1 le_rfl
  refine ⟨?_, hle⟩
  by_contra hnone
  have hlt : ∀ entry ∈ root.tree.routes, Pattern.wildcards entry.1 < root.tree.maxSlots := by
    intro entry hentry
    exact lt_of_le_of_ne (hle entry hentry) fun heq => hnone ⟨entry, hentry, heq⟩
  obtain ⟨entry, hentry⟩ := List.exists_mem_of_ne_nil _ hne
  have hpos := hlt entry hentry
  have hless := (hiff (root.tree.maxSlots - 1)).2 fun entry hentry =>
    Nat.le_sub_one_of_lt (hlt entry hentry)
  omega

theorem Forest.Sound.wildcards_le_iff {f : Forest} (hf : f.Sound) {k : Nat} :
    (∀ root ∈ f.roots, ∀ entry ∈ root.tree.routes, Pattern.wildcards entry.1 ≤ k) ↔
      ∀ m segments route, f.route? m segments = some route → Pattern.wildcards segments ≤ k := by
  constructor
  · intro h m segments route hroute
    have hentry : ⟨m, segments, route⟩ ∈ f.entries := hf.mem_entries_iff.2 hroute
    obtain ⟨root, hroot, hmem⟩ := List.mem_flatMap.1 hentry
    obtain ⟨entry, hlisted, hsame⟩ := List.mem_map.1 hmem
    obtain ⟨-, rfl, -⟩ := Entry.mk.inj hsame
    exact h root hroot entry hlisted
  · intro h root hroot entry hlisted
    have hentry : ⟨root.method, entry.1, entry.2⟩ ∈ f.entries :=
      List.mem_flatMap.2 ⟨root, hroot, List.mem_map_of_mem hlisted⟩
    exact h root.method entry.1 entry.2 (hf.mem_entries_iff.1 hentry)

namespace Router

/-! ## What each call keeps -/

/-- No route has more wildcards than the router allows. -/
def Bounded (r : Router) : Prop :=
  ∀ m segments route, r.table m segments = some route →
    Pattern.wildcards segments ≤ r.options.maxParamDepth

theorem bounded_of_no_roots {r : Router} (h : r.forest.roots = []) : r.Bounded := by
  intro m segments route hroute
  rw [table_of_no_roots h] at hroute
  cases hroute

theorem options_handle (r : Router) (m : Method) (pattern : Text) (handler : Handler)
    (layers : List Layer) : (r.handle m pattern handler layers).router.options = r.options := by
  simp only [handle, register]
  repeat' split
  all_goals rfl

theorem options_cover (r : Router) (m : Option Method) (pattern : Text) (layers : List Layer) :
    (r.cover m pattern layers).router.options = r.options := by
  unfold cover
  split <;> rfl

theorem bounded_handle {r : Router} (hr : r.forest.Sound) (h : r.Bounded) (m : Method)
    (pattern : Text) (handler : Handler) (layers : List Layer) :
    (r.handle m pattern handler layers).router.Bounded := by
  intro m' segments route hroute
  rw [options_handle]
  cases ha : (r.handle m pattern handler layers).answer with
  | error e =>
    rw [table_of_error hr ha] at hroute
    exact h m' segments route hroute
  | ok _ =>
    obtain ⟨new, haccepts, hfresh⟩ := accepts_of_ok hr ha
    rw [(handle_of_accepts hr haccepts handler layers hfresh).2] at hroute
    rcases Table.put_cases hroute with hold | hnew
    · exact h m' segments route hold
    · obtain ⟨-, rfl, -⟩ := Entry.mk.inj hnew
      exact haccepts.depth

theorem bounded_cover {r : Router} (h : r.Bounded) (m : Option Method) (pattern : Text)
    (layers : List Layer) : (r.cover m pattern layers).router.Bounded := by
  intro m' segments route hroute
  rw [options_cover]
  obtain ⟨old, hold, -⟩ := table_cover_cases hroute
  exact h m' segments old hold

/-- The routes that come in are no deeper than the deepest nodes of their trees, which were
counted. -/
theorem bounded_mount {r sub : Router} (hr : r.forest.Sound) (hsub : sub.forest.Sound)
    (h : r.Bounded) (path : Text) : (r.mount path sub).router.Bounded := by
  cases hp : Pattern.split path with
  | error e => simpa only [mount, hp] using h
  | ok above =>
    by_cases hm : r.Mountable above sub
    · obtain ⟨f, hmount, hplaced, -⟩ := mount_of_mountable hr hsub hp hm
      rw [hmount]
      intro m key route hroute
      rw [table, hplaced.table] at hroute
      rcases Table.putAll_cases hroute with hold | hmem
      · exact h m key route hold
      · obtain ⟨old, hold, hbelow⟩ := List.mem_map.1 hmem
        obtain ⟨-, rfl, -⟩ := Entry.mk.inj hbelow
        obtain ⟨root, hroot, hlisted⟩ := List.mem_flatMap.1 hold
        obtain ⟨entry, hentry, rfl⟩ := List.mem_map.1 hlisted
        have hdeepest : Pattern.wildcards entry.1 ≤ root.tree.maxSlots :=
          ((hsub.roots root hroot).deepest (List.ne_nil_of_mem hentry)).2 entry hentry
        have hdepth := hm.depth root hroot
        rw [Pattern.wildcards_append]
        change Pattern.wildcards above + Pattern.wildcards entry.1 ≤ r.options.maxParamDepth
        omega
    · obtain ⟨e, hmount⟩ := mount_of_not_mountable hr hp hm
      rwa [hmount]

theorem Reachable.bounded {r : Router} (h : r.Reachable) : r.Bounded := by
  induction h with
  | new options chain => exact bounded_of_no_roots rfl
  | @new? options r hr =>
    unfold Router.new? at hr
    split at hr
    · cases hr
      exact bounded_of_no_roots rfl
    · cases hr
  | useGlobal layers _ ih => exact ih
  | handle m pattern handler layers hr ih =>
    exact bounded_handle hr.sound ih m pattern handler layers
  | cover m pattern layers _ ih => exact bounded_cover ih m pattern layers
  | mount path hr hsub ih _ => exact bounded_mount hr.sound hsub.sound ih path
  | serveFiles root strip _ ih =>
    unfold Router.serveFiles
    split <;> exact ih
  | onNotFound h _ ih => exact ih
  | onNotAllowed h _ ih => exact ih

/-! ## Why a mount is refused -/

/-- What comes in is counted before anything else is looked at. -/
theorem depth_of_grafts {r : Router} {path : Text} {above : List Segment} {roots : List Root}
    {e : RouterError} (h : r.grafts path above roots = .error e) :
    ∃ depth, e = .paramDepthExceeded path depth r.options.maxParamDepth ∧
      r.options.maxParamDepth < depth := by
  induction roots with
  | nil => cases h
  | cons root roots ih =>
    simp only [grafts, checkDepth] at h
    split at h
    · rename_i hdeep
      cases h
      exact ⟨_, rfl, hdeep⟩
    · cases hg : r.grafts path above roots with
      | error e' =>
        rw [hg] at h
        cases h
        exact ih hg
      | ok others =>
        rw [hg] at h
        cases h

theorem examineRoutes_ne_depth {r : Router} {m : Method} {routes : List (List Segment × Route)}
    {path : Text} {depth limit : Nat} :
    r.examineRoutes m routes ≠ .error (.paramDepthExceeded path depth limit) := by
  induction routes with
  | nil =>
    intro h
    cases h
  | cons entry routes ih =>
    simp only [examineRoutes]
    split
    · intro h
      cases h
    · unfold checkDuplicate
      split
      · intro h
        cases h
      · exact ih

theorem examine_ne_depth {r : Router} {gs : List Graft} {path : Text} {depth limit : Nat} :
    r.examine gs ≠ .error (.paramDepthExceeded path depth limit) := by
  induction gs with
  | nil =>
    intro h
    cases h
  | cons g gs ih =>
    simp only [examine]
    cases hg : r.examineRoutes g.method g.routes with
    | error e =>
      intro h
      cases h
      exact examineRoutes_ne_depth hg
    | ok _ => exact ih

/-- A mount that is refused for the limit is refused before its routes are examined. -/
theorem grafts_of_mount {r sub : Router} (hr : r.forest.Sound) (hsub : sub.forest.Sound)
    {path : Text} {above : List Segment} (hp : Pattern.split path = .ok above) {pattern : Text}
    {depth limit : Nat}
    (h : (r.mount path sub).answer = .error (.paramDepthExceeded pattern depth limit)) :
    r.grafts path above sub.forest.roots = .error (.paramDepthExceeded pattern depth limit) := by
  simp only [mount, hp] at h
  cases hg : r.grafts path above sub.forest.roots with
  | error e =>
    simp only [hg, Except.error.injEq] at h
    rw [h]
  | ok gs =>
    simp only [hg] at h
    cases he : r.examine gs with
    | error e =>
      rw [he] at h
      cases h
      exact absurd he examine_ne_depth
    | ok _ =>
      -- All routes were examined, so all of them are attached.
      obtain ⟨-, rfl⟩ := grafts_eq_ok_iff.1 hg
      have hfits := (examine_eq_ok_iff hr).1 he
      rw [entries_grafts, List.forall_mem_map] at hfits
      obtain ⟨f, hattach, -⟩ := attach_grafts hr hsub hp hfits
      simp only [he, hattach] at h
      cases h

/-- **A mount is refused for the deepest node of a tree.** -/
theorem mount_tooDeep_iff {r sub : Router} (hr : r.forest.Sound) (hsub : sub.forest.Sound)
    {path : Text} {above : List Segment} (hp : Pattern.split path = .ok above) :
    (r.mount path sub).TooDeep ↔ ∃ root ∈ sub.forest.roots,
      r.options.maxParamDepth < Pattern.wildcards above + root.tree.maxSlots := by
  constructor
  · rintro ⟨pattern, depth, limit, h⟩
    have hgrafts := grafts_of_mount hr hsub hp h
    by_contra hnone
    simp only [not_exists, not_and, not_lt] at hnone
    rw [grafts_eq_ok_iff.2 ⟨hnone, rfl⟩] at hgrafts
    cases hgrafts
  · rintro ⟨root, hroot, hdeep⟩
    cases hg : r.grafts path above sub.forest.roots with
    | error e =>
      obtain ⟨depth, rfl, -⟩ := depth_of_grafts hg
      exact ⟨path, depth, r.options.maxParamDepth, by simp only [mount, hp, hg]⟩
    | ok gs =>
      have hdepth := (grafts_eq_ok_iff.1 hg).1 root hroot
      omega

/-- How a router keeps to its limit of parameters. -/
structure Limited (r : Router) : Prop where
  routes : ∀ root ∈ r.forest.roots, ∀ entry ∈ root.tree.routes,
    Pattern.wildcards entry.1 ≤ r.options.maxParamDepth
  /-- After it was sealed, whatever it was asked before. -/
  found : ∀ calls m path found, ((r.session calls).router.find m path).answer = some (.ok found) →
    found.params.length ≤ r.options.maxParamDepth
  /-- A router whose methods all have routes is refused for the limit just when one of these would
  go beyond it. -/
  mount : ∀ sub path above, sub.Reachable →
    (∀ root ∈ sub.forest.roots, root.tree.routes ≠ []) → Pattern.split path = .ok above →
      ((r.mount path sub).TooDeep ↔ ∃ root ∈ sub.forest.roots, ∃ entry ∈ root.tree.routes,
        r.options.maxParamDepth < Pattern.wildcards above + Pattern.wildcards entry.1)
  /-- The refusal names the prefix, and the limit of the router it was to be mounted in. -/
  told : ∀ sub path pattern depth limit, sub.Reachable →
    (r.mount path sub).answer = .error (.paramDepthExceeded pattern depth limit) →
      pattern = path ∧ limit = r.options.maxParamDepth ∧ limit < depth

/-- **Every router keeps to its limit of parameters.** -/
theorem Reachable.limited {r : Router} (h : r.Reachable) : r.Limited where
  routes := h.sound.wildcards_le_iff.2 h.bounded
  found := by
    intro calls m path found hfind
    rw [(h.recalls_session calls).answer_find h] at hfind
    obtain ⟨is, route, -, htable, -, hanswer⟩ :=
      h.exists_spells_of_finds (Sealed.finds_of_find hfind)
    obtain ⟨-, hparams⟩ := Route.found_eq_ok_iff.1 (hanswer.symm.trans hfind)
    rw [hparams, Instance.length_bindings]
    exact h.bounded m _ route htable
  mount := by
    intro sub path above hsub hne hp
    rw [mount_tooDeep_iff h.sound hsub.sound hp]
    refine exists_congr fun root => and_congr_right fun hroot => ?_
    obtain ⟨⟨deepest, hmem, heq⟩, hle⟩ := (hsub.sound.roots root hroot).deepest (hne root hroot)
    constructor
    · intro hdeep
      exact ⟨deepest, hmem, heq ▸ hdeep⟩
    · rintro ⟨entry, hentry, hdeep⟩
      exact lt_of_lt_of_le hdeep (Nat.add_le_add_left (hle entry hentry) _)
  told := by
    intro sub path pattern depth limit hsub hmount
    cases hp : Pattern.split path with
    | error e => simp [Router.mount, hp] at hmount
    | ok above =>
      have hgrafts := grafts_of_mount h.sound hsub.sound hp hmount
      obtain ⟨depth', heq, hdeep⟩ := depth_of_grafts hgrafts
      cases heq
      exact ⟨rfl, rfl, hdeep⟩

end Router

end

namespace Router

open Regex.Standard

/-- A router with the route `/{y}`, which allows one parameter. -/
def narrow : Router :=
  ((Router.new { maxParamDepth := 1 }).handle .get ['/', '{', 'y', '}'] silent).router

theorem reachable_narrow : narrow.Reachable := .handle _ _ _ _ (.new _ _)

/-- The sample has the route `/{x}/b`, for which there is room below `/c` and none below `/{y}`. -/
theorem limited_narrow :
    let deep := narrow.mount ['/', '{', 'y', '}'] sample
    narrow.Reachable ∧ sample.Reachable ∧
      (∀ root ∈ sample.forest.roots, root.tree.routes ≠ []) ∧ narrow.Limited ∧
      (narrow.mount ['/', 'c'] sample).answer = .ok () ∧ deep.TooDeep ∧
      ∀ pattern depth limit, deep.answer = .error (.paramDepthExceeded pattern depth limit) →
        pattern = ['/', '{', 'y', '}'] ∧ limit = 1 ∧ 1 < depth := by
  intro deep
  have hlimited : narrow.Limited := reachable_narrow.limited
  have hroots : sample.forest.roots =
    [⟨.get, .literal Method.get.name, sample.forest.root .get⟩] := rfl
  have hne : ∀ root ∈ sample.forest.roots, root.tree.routes ≠ [] := by
    rw [hroots, List.forall_mem_singleton]
    decide
  refine ⟨reachable_narrow, reachable_sample, hne, hlimited, rfl, ?_, ?_⟩
  · rw [hlimited.mount sample _ [.wildcard ['y']] reachable_sample hne rfl]
    rw [hroots]
    exact ⟨_, List.mem_cons_self, ([.wildcard ['x'], .literal ['b']], _), .tail _ (.head _),
      by decide⟩
  · intro pattern depth limit hanswer
    obtain ⟨rfl, rfl, hdepth⟩ := hlimited.told sample _ _ _ _ reachable_sample hanswer
    exact ⟨rfl, rfl, hdepth⟩

end Router

end Routing
