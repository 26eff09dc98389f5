import Routing.Proofs.Allowing
import Routing.Proofs.Sessions

/-!
# Allowed methods and found routes

What is allowed for a path is what would be found there. The methods are told in the order of the
trees, and that is the order of their first routes unless an expression could not be read.

* `Sealed.finders` — the methods, of some, for which a route is found.
* `Sealed.Agrees` — what is allowed is what would be found.
* `Router.Reachable.allowed_agrees` — it is, whatever was asked before.
* `Router.exists_allowed_early` — a method can be told before one whose first route came earlier.
-/

namespace Routing

section

variable [Regex.Engine]

namespace Sealed

/-- Those of the methods for which a route is found at the path, beside the one that was asked for
and `OPTIONS`. -/
def finders (s : Sealed) (m : Method) (path : Text) (ms : List Method) : List Method :=
  ms.filter fun other =>
    other ≠ m && other ≠ Method.options && (s.foundAt? other path).isSome

/-- What is allowed at a path is what would be found there by other methods, which are told in the
order of these. -/
structure Agrees (s : Sealed) (m : Method) (path : Text) (ms : List Method) : Prop where
  /-- None is left out. -/
  mem_finders : ∀ other, other ∈ s.finders m path ms ↔
    other ≠ m ∧ other ≠ .options ∧ s.Finds other path
  allowed_eq_none_iff : s.allowed m path = none ↔ s.finders m path ms = []
  items : ∀ allow, s.allowed m path = some allow →
    Text.items allow = (s.finders m path ms ++ [Method.options]).map Method.name
  once : ∀ allow, s.allowed m path = some allow → (Text.items allow).Nodup
  /-- A request without a route is told the same text. -/
  told : ∀ allow, (s.resolve m path).answer.bind Resolution.allow? = some allow →
    s.allowed m path = some allow
  /-- A request is told nothing when no other method finds a route. -/
  untold : s.finders m path ms = [] → (s.resolve m path).answer.bind Resolution.allow? = none

theorem isSome_foundAt? (s : Sealed) (m : Method) (path : Text) :
    (s.foundAt? m path).isSome = (s.arrive? m (Text.Percent.text path)).isSome :=
  Option.isSome_map

/-- What is probed for the list is what would be found. -/
theorem otherMethods_eq_finders (s : Sealed) (m : Method) {path : Text}
    (h : Text.Percent.text path ≠ ['*']) :
    s.otherMethods m (Text.Percent.text path) = s.finders m path s.forest.methods := by
  simp only [otherMethods, if_neg h, finders, isSome_foundAt?]

/-- A request is told what is allowed, or nothing. -/
theorem allowed_of_resolve {s : Sealed} {m : Method} {path allow : Text}
    (h : (s.resolve m path).answer.bind Resolution.allow? = some allow) :
    s.allowed m path = some allow := by
  rw [answer_resolve] at h
  cases hfind : (s.find m path).answer with
  | none =>
    rw [hfind] at h
    cases h
  | some answer =>
    rw [hfind] at h
    cases answer with
    | ok found => cases h
    | error e => exact allowedAt_of_fallback h

theorem allowed_eq_none_iff {s : Sealed} {m : Method} {path : Text}
    (h : Text.Percent.text path ≠ ['*']) :
    s.allowed m path = none ↔ s.finders m path s.forest.methods = [] := by
  simp [allowed, allowedAt, h, otherMethods_eq_finders s m h]

/-- **What is allowed is what would be found**, in the order of the trees. -/
theorem agrees {s : Sealed} (hs : s.forest.methods.Nodup) (m : Method) {path : Text}
    (h : Text.Percent.text path ≠ ['*']) : s.Agrees m path s.forest.methods := by
  have hothers := otherMethods_eq_finders s m h
  have hitems (allow : Text) (hallow : s.allowed m path = some allow) :
      Text.items allow =
        (s.finders m path s.forest.methods ++ [Method.options]).map Method.name := by
    rw [← hothers]
    exact (items_of_allowedAt hallow).1
  refine {
    mem_finders := fun other => ?_
    allowed_eq_none_iff := allowed_eq_none_iff h
    items := hitems
    once := fun allow hallow => ?_
    told := fun allow => allowed_of_resolve
    untold := fun hnone => ?_ }
  · rw [← hothers, mem_otherMethods h, finds_iff, Option.isSome_iff_exists, Prod.exists]
  · rw [hitems allow hallow]
    exact nodup_listed (hs.filter _) (by simp [finders])
  · rw [Option.eq_none_iff_forall_ne_some]
    intro allow hallow
    rw [← allowed_eq_none_iff h, allowed_of_resolve hallow] at hnone
    cases hnone

end Sealed

namespace Router

/-- **What is allowed agrees with what is found**, whatever was asked before. The methods are told
in the order of the trees, which is the order of their first routes unless an expression could not
be read in the first registration of a method. -/
theorem Reachable.allowed_agrees {r : Router} (h : r.Reachable) (calls : List Call) (m : Method)
    {path : Text} (hstar : Text.Percent.text path ≠ ['*']) :
    (r.session calls).router.Agrees m path r.forest.methods ∧
      ∀ ms, r.Enrolls ms → (r.session calls).router.Agrees m path ms := by
  have hrecalls := h.recalls_session calls
  have hagrees := Sealed.agrees (hrecalls.sound h).methods m hstar
  rw [hrecalls.methods] at hagrees
  refine ⟨hagrees, fun ms henrolls => ?_⟩
  rwa [henrolls.methods] at hagrees

end Router

end

namespace Router

open Regex.Standard

/-- `GET` and `POST` have routes at `/a`, and that for `GET` is composed already. -/
theorem allowed_agrees_surveyed :
    let path := ['/', '%', '6', '1']
    let ms := [Method.get, Method.post, Method.options]
    let s := (surveyed.session [.find .get path]).router
    surveyed.Reachable ∧ surveyed.Enrolls ms ∧ Text.Percent.text path ≠ ['*'] ∧
      s.finders .put path ms = [.get, .post] ∧
      ∃ allow, s.allowed .put path = some allow ∧
        Text.items allow = [Method.get.name, Method.post.name, Method.options.name] := by
  intro path ms s
  have hreachable : surveyed.Reachable := enrolls_surveyed.reachable
  have hstar : Text.Percent.text path ≠ ['*'] := by decide
  have hfinders : s.finders .put path ms = [.get, .post] := by decide
  obtain ⟨-, hagrees⟩ := hreachable.allowed_agrees [.find .get path] .put hstar
  have hsurveyed := hagrees ms enrolls_surveyed
  obtain ⟨allow, hallow⟩ : ∃ allow, s.allowed .put path = some allow := by
    rw [← Option.ne_none_iff_exists', ne_eq, hsurveyed.allowed_eq_none_iff, hfinders]
    exact List.cons_ne_nil _ _
  refine ⟨hreachable, enrolls_surveyed, hstar, hfinders, allow, hallow, ?_⟩
  rw [hsurveyed.items allow hallow, hfinders]
  rfl

/-- **A method can be told before one whose first route came earlier**: a registration that was
refused for its expression leaves `GET` in front of `POST`. -/
theorem exists_allowed_early :
    let refused := (Router.new {}).handle .get ['/', '{', 'x', ':', '[', '}'] silent
    let posted := refused.router.handle .post ['/', 'a'] silent
    let gotten := posted.router.handle .get ['/', 'a'] silent
    refused.answer = .error (.tree (.regexInvalid ['x'] ['['])) ∧ posted.answer = .ok () ∧
      gotten.answer = .ok () ∧ gotten.router.Reachable ∧
      ¬ gotten.router.seal.Agrees .put ['/', 'a'] [.post, .get] := by
  intro refused posted gotten
  have hallow : gotten.router.seal.allowed .put ['/', 'a'] =
      some (methodList [.get, .post, .options]) := by decide +kernel
  have hfinders : gotten.router.seal.finders .put ['/', 'a'] [.post, .get] = [.post, .get] := by
    decide +kernel
  have hgotten : gotten.answer = .ok () := by decide +kernel
  refine ⟨rfl, rfl, hgotten, .handle _ _ _ _ (.handle _ _ _ _ (.handle _ _ _ _ (.new _ _))), ?_⟩
  intro hagrees
  have hitems := hagrees.items _ hallow
  rw [hfinders, items_methodList (List.cons_ne_nil _ _)] at hitems
  revert hitems
  decide

end Router

end Routing
