import Routing.Regex.Standard
import Routing.Proofs.Mounting

/-!
# Reachable routers

The routers that calls build, whatever the calls answer, have sound forests.

* `Router.Reachable` — what calls make of a new router; a router is mounted once it is built.
* `Router.Reachable.sound` — what all of them keep to.
* `Router.Reachable.mount_atomic` — a router that refuses another one stays as it was.
-/

namespace Routing

section

variable [Regex.Engine]

theorem Branches.mapRoutes_mapRoutes {ρ σ τ : Type} (f : ρ → σ) (g : σ → τ) (b : Branches ρ) :
    (b.mapRoutes f).mapRoutes g = b.mapRoutes (g ∘ f) := by
  induction b with
  | nil => rfl
  | cons edge slots route below rest ihb ihr => simp [mapRoutes, ihb, ihr]

theorem Node.mapRoutes_mapRoutes {ρ σ τ : Type} (f : ρ → σ) (g : σ → τ) (n : Node ρ) :
    (n.mapRoutes f).mapRoutes g = n.mapRoutes (g ∘ f) := by
  simp [mapRoutes, Branches.mapRoutes_mapRoutes]

namespace Router

/-- The routers that are built by calls, each of which may have been refused. A call for one fixed
method, or without layers, is a case of `handle`. -/
inductive Reachable : Router → Prop where
  | new (options : Options) (chain : Chain) : Reachable (.new options chain)
  | new? {options : Options} {r : Router} : Router.new? options = .ok r → Reachable r
  | useGlobal {r : Router} (layers : List Layer) : Reachable r → Reachable (r.useGlobal layers)
  | handle {r : Router} (m : Method) (pattern : Text) (handler : Handler) (layers : List Layer) :
      Reachable r → Reachable (r.handle m pattern handler layers).router
  | cover {r : Router} (m : Option Method) (pattern : Text) (layers : List Layer) :
      Reachable r → Reachable (r.cover m pattern layers).router
  | mount {r sub : Router} (path : Text) :
      Reachable r → Reachable sub → Reachable (r.mount path sub).router
  | serveFiles {r : Router} (root : Text) (strip : Bool) :
      Reachable r → Reachable (r.serveFiles root strip).router
  | onNotFound {r : Router} (h : Handler) : Reachable r → Reachable (r.onNotFound h)
  | onNotAllowed {r : Router} (h : Handler) : Reachable r → Reachable (r.onNotAllowed h)

/-! ## What each call keeps -/

theorem sound_handle {r : Router} (hr : r.forest.Sound) (m : Method) (pattern : Text)
    (handler : Handler) (layers : List Layer) :
    (r.handle m pattern handler layers).router.forest.Sound := by
  unfold handle
  cases hs : Pattern.split pattern with
  | error e => exact hr
  | ok segments =>
    cases hd : r.checkDepth pattern (Pattern.wildcards segments) with
    | error e => simpa [hd] using hr
    | ok _ =>
      let e : Entry := ⟨m, segments, { handler := handler, chain := r.chain.merge ⟨layers⟩ }⟩
      have hproper : ∀ s ∈ e.segments, s.Proper := Pattern.split_proper hs
      by_cases hfits : r.Fits e
      · obtain ⟨f, hregister, hplaced, -⟩ := register_of_fits hr hproper hfits
        simp only [hd]
        rw [hregister]
        exact hplaced.sound
      · obtain ⟨error, hregister, -⟩ := register_of_not_fits hr hfits
        simp only [hd]
        rw [hregister]
        exact hr.plant m

/-- Layers are added to routes and to nothing else. -/
theorem mapRoutes_coverTree {σ : Type} {shape : Route → σ} {layers : List Layer}
    (h : ∀ route : Route, shape (route.append layers) = shape route) (segments : List Segment)
    (tree : Tree) : (coverTree segments layers tree).mapRoutes shape = tree.mapRoutes shape := by
  rw [coverTree_eq]
  refine Node.mapRoutes_modifyAt (fun n => ?_) segments tree
  have hshape : shape ∘ (·.append layers) = shape := funext h
  rw [Node.mapRoutes_mapRoutes, hshape]

theorem sound_graft_coverTree {root : Root} (h : root.Sound) (segments : List Segment)
    (layers : List Layer) : (root.graft (coverTree segments layers root.tree)).Sound := by
  have hmap : (coverTree segments layers root.tree).mapRoutes (fun _ => ()) =
      root.tree.mapRoutes fun _ => () := mapRoutes_coverTree (fun _ => rfl) segments root.tree
  refine ⟨h.label, ?_, ?_⟩
  · have hslots := congrArg Node.slots hmap
    exact hslots.trans h.slots
  · have hsound : ((coverTree segments layers root.tree).mapRoutes fun _ => ()).Sound := by
      rw [hmap]
      exact Node.sound_mapRoutes.2 h.tree
    exact Node.sound_mapRoutes.1 hsound

theorem sound_cover {r : Router} (hr : r.forest.Sound) (m : Option Method) (pattern : Text)
    (layers : List Layer) : (r.cover m pattern layers).router.forest.Sound := by
  unfold cover
  cases hs : Pattern.split pattern with
  | error e => exact hr
  | ok segments =>
    refine ⟨?_, ?_⟩
    · have hmethods := hr.methods
      rw [Forest.methods] at hmethods ⊢
      rw [List.map_map]
      convert hmethods using 2
      funext root
      by_cases h : m.all (· = root.method) = true <;> simp [h]
    · intro root hroot
      obtain ⟨old, hold, rfl⟩ := List.mem_map.1 hroot
      by_cases h : m.all (· = old.method) = true
      · simp only [h, ↓reduceIte]
        exact sound_graft_coverTree (hr.roots old hold) segments layers
      · simp only [h, Bool.false_eq_true, ↓reduceIte]
        exact hr.roots old hold

theorem sound_mount {r sub : Router} (hr : r.forest.Sound) (hsub : sub.forest.Sound)
    (path : Text) : (r.mount path sub).router.forest.Sound := by
  cases hp : Pattern.split path with
  | error e => simpa [mount, hp] using hr
  | ok above =>
    by_cases h : r.Mountable above sub
    · obtain ⟨f, hmount, hplaced, -⟩ := mount_of_mountable hr hsub hp h
      rw [hmount]
      exact hplaced.sound
    · obtain ⟨e, hmount⟩ := mount_of_not_mountable hr hp h
      rw [hmount]
      exact hr

theorem sound_serveFiles {r : Router} (hr : r.forest.Sound) (root : Text) (strip : Bool) :
    (r.serveFiles root strip).router.forest.Sound := by
  unfold serveFiles
  split <;> exact hr

/-- **Every router has a sound forest.** -/
theorem Reachable.sound {r : Router} (h : r.Reachable) : r.forest.Sound := by
  induction h with
  | new options chain => exact Forest.sound_empty
  | @new? options r hr =>
    unfold Router.new? at hr
    split at hr
    · cases hr
      exact Forest.sound_empty
    · cases hr
  | useGlobal layers _ ih => exact ih
  | handle m pattern handler layers _ ih => exact sound_handle ih m pattern handler layers
  | cover m pattern layers _ ih => exact sound_cover ih m pattern layers
  | mount path _ _ ih ihsub => exact sound_mount ih ihsub path
  | serveFiles root strip _ ih => exact sound_serveFiles ih root strip
  | onNotFound h _ ih => exact ih
  | onNotAllowed h _ ih => exact ih

/-- **Mounting is atomic.** A router that refuses leaves everything as it was, and once all routes
were examined none of them is refused when they are attached. -/
theorem Reachable.mount_atomic {r sub : Router} (h : r.Reachable) (hsub : sub.Reachable)
    (path : Text) :
    (∀ e, (r.mount path sub).answer = .error e → (r.mount path sub).router = r) ∧
      ∀ above gs, Pattern.split path = .ok above → r.grafts path above sub.forest.roots = .ok gs →
        r.examine gs = .ok () → (r.attach gs).answer = .ok () := by
  refine ⟨fun e he => ?_, fun above gs hp hgrafts hexamine => ?_⟩
  · cases hp : Pattern.split path with
    | error fault => simp only [Router.mount, hp]
    | ok above =>
      by_cases hm : r.Mountable above sub
      · obtain ⟨f, hmount, -⟩ := mount_of_mountable h.sound hsub.sound hp hm
        rw [hmount] at he
        cases he
      · obtain ⟨error, hmount⟩ := mount_of_not_mountable h.sound hp hm
        rw [hmount]
  · obtain ⟨-, rfl⟩ := grafts_eq_ok_iff.1 hgrafts
    rw [examine_eq_ok_iff h.sound, entries_grafts, List.forall_mem_map] at hexamine
    obtain ⟨f, hattach, -⟩ := attach_grafts h.sound hsub.sound hp hexamine
    rw [hattach]

end Router

end

namespace Router

open Regex.Standard

def silent : Handler := fun _ => .of {}

/-- A router with the routes `/a` and `/{x}/b`. -/
def sample : Router :=
  let one := ((Router.new {}).handle .get ['/', 'a'] silent).router
  (one.handle .get ['/', '{', 'x', '}', '/', 'b'] silent).router

theorem reachable_sample : sample.Reachable :=
  .handle _ _ _ _ (.handle _ _ _ _ (.new _ _))

/-- The route `/c` comes before `/a`, which is a duplicate, and is not attached. Below `/b` all
routes are. -/
theorem mount_atomic_sample :
    let sub := (sample.handle .get ['c'] silent).router
    (sample.mount ['/'] sub).answer = .error (.duplicateRoute .get ['/', 'a']) ∧
      (sample.mount ['/'] sub).router = sample ∧
      ∃ gs, sample.grafts ['b'] [.literal ['b']] sub.forest.roots = .ok gs ∧
        sample.examine gs = .ok () ∧ (sample.attach gs).answer = .ok () := by
  intro sub
  have hsub : sub.Reachable := .handle _ _ _ _ reachable_sample
  have hroot := reachable_sample.mount_atomic hsub ['/']
  have hbelow := reachable_sample.mount_atomic hsub ['b']
  refine ⟨rfl, hroot.1 _ rfl, sub.forest.roots.map (sample.graftOf [.literal ['b']]), rfl, rfl, ?_⟩
  exact hbelow.2 [.literal ['b']] _ rfl rfl rfl

end Router

end Routing
