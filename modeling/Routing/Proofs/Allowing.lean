import Routing.Proofs.Enrolling
import Routing.Proofs.Orders
import Routing.Proofs.Tracing

/-!
# What is allowed

The list of allowed methods is read back from its text, item by item, and it is said of which
methods it consists: for a path, of those that have a route there; for the path `*`, of all.

* `Text.items`, `items_methodList` — the items of a list, and of a list of methods.
* `Router.Reachable.resolve_notAllowed` — a request that is not allowed.
* `Router.Enrolls.resolve_options_star` — what is told of the whole server.
-/

namespace Routing

/-! ## Lists of methods -/

/-- The items of a list, with a comma and a blank between each two. -/
def Text.items : Text → List Text
  | [] => [[]]
  | ',' :: ' ' :: rest => [] :: items rest
  | c :: rest => (items rest).modifyHead (c :: ·)

namespace Text

theorem items_cons {c : Char} (h : c ≠ ',') (rest : Text) :
    items (c :: rest) = (items rest).modifyHead (c :: ·) := by
  rw [items.eq_3]
  rintro _ rfl
  exact absurd rfl h

/-- Up to the first separator all is one item. -/
theorem items_append {t rest first : Text} {others : List Text} (ht : ',' ∉ t)
    (h : items rest = first :: others) : items (t ++ rest) = (t ++ first) :: others := by
  induction t with
  | nil => exact h
  | cons c t ih =>
    rw [List.mem_cons, not_or] at ht
    obtain ⟨hc, ht⟩ := ht
    rw [List.cons_append, items_cons (Ne.symm hc), ih ht]
    rfl

theorem items_of_not_mem {t : Text} (h : ',' ∉ t) : items t = [t] := by
  have hlast : items [] = [[]] := rfl
  simpa using items_append h hlast

/-- **Texts that are joined are the items of the list**, if they hold no comma. -/
theorem items_join {ts : List Text} (hne : ts ≠ []) (h : ∀ t ∈ ts, ',' ∉ t) :
    items (join allowSeparator ts) = ts := by
  induction ts with
  | nil => exact absurd rfl hne
  | cons t ts ih =>
    obtain ⟨ht, hts⟩ := List.forall_mem_cons.1 h
    cases ts with
    | nil => exact items_of_not_mem ht
    | cons t' ts =>
      have hrest := ih (List.cons_ne_nil t' ts) hts
      have hsep : items (allowSeparator ++ join allowSeparator (t' :: ts)) = [] :: t' :: ts :=
        congrArg ([] :: ·) hrest
      have hjoin : join allowSeparator (t :: t' :: ts) =
          t ++ (allowSeparator ++ join allowSeparator (t' :: ts)) := by
        simp only [join, List.append_assoc]
      rw [hjoin, items_append ht hsep, List.append_nil]

end Text

namespace Method

theorem comma_not_mem_name (m : Method) : ',' ∉ m.name := by
  intro hmem
  have htoken := m.token
  rw [isToken, Bool.and_eq_true, List.all_eq_true] at htoken
  have hcomma : isTokenChar ',' = true := htoken.2 ',' hmem
  revert hcomma
  decide

theorem name_injective : Function.Injective name := by
  rintro ⟨name, _⟩ ⟨name', _⟩ rfl
  rfl

end Method

theorem items_methodList {ms : List Method} (h : ms ≠ []) :
    Text.items (methodList ms) = ms.map Method.name := by
  apply Text.items_join
  · simpa using h
  · intro t ht
    obtain ⟨m, -, rfl⟩ := List.mem_map.1 ht
    exact m.comma_not_mem_name

/-- No name is listed twice when `OPTIONS` stands behind other methods. -/
theorem nodup_listed {ms : List Method} (h : ms.Nodup) (hoptions : Method.options ∉ ms) :
    ((ms ++ [Method.options]).map Method.name).Nodup := by
  apply List.Nodup.map Method.name_injective
  apply h.append (List.nodup_singleton _)
  intro m hm hlast
  obtain rfl := List.mem_singleton.1 hlast
  exact hoptions hm

section

variable [Regex.Engine]

/-! ## What a request is told -/

/-- The methods that a request is told. -/
def Resolution.allow? : Resolution → Option Text
  | options allow | notAllowed allow => some allow
  | found _ | staticFile | notFound => none

namespace Sealed

theorem answer_resolve (s : Sealed) (m : Method) (path : Text) :
    (s.resolve m path).answer = (s.find m path).answer.map fun
      | .ok found => .found found
      | .error _ => s.fallback m (Text.Percent.text path) := by
  simp only [resolve, find, Served.answer_map, Option.map_map]
  congr 1
  funext found
  cases found <;> rfl

/-- An unmatched request is told what is allowed. -/
theorem allowedAt_of_fallback {s : Sealed} {m : Method} {path allow : Text}
    (h : (s.fallback m path).allow? = some allow) : s.allowedAt m path = some allow := by
  unfold fallback at h
  split at h
  · split at h
    · rename_i hallow
      rw [hallow]
      exact h
    · cases h
  · split at h
    · cases h
    · split at h
      · split at h
        · rename_i hallow
          rw [hallow]
          exact h
        · cases h
      · cases h

/-- **The list has the other methods and then `OPTIONS`.** -/
theorem items_of_allowedAt {s : Sealed} {m : Method} {path allow : Text}
    (h : s.allowedAt m path = some allow) :
    Text.items allow = (s.otherMethods m path ++ [Method.options]).map Method.name ∧
      (path ≠ ['*'] → s.otherMethods m path ≠ []) := by
  rw [allowedAt_eq, Option.map_eq_some_iff] at h
  obtain ⟨ms, hms, rfl⟩ := h
  simp only [allowedMethods] at hms
  obtain ⟨hlisted, hms⟩ := Option.ite_none_left_eq_some.1 hms
  obtain rfl := Option.some.inj hms
  refine ⟨items_methodList (by simp), fun hstar => ?_⟩
  rwa [if_neg hstar, List.isEmpty_iff] at hlisted

theorem mem_methods_of_arrive? {s : Sealed} {m : Method} {path : Text}
    (h : (s.arrive? m path).isSome) : m ∈ s.forest.methods := by
  obtain ⟨found, hfound⟩ := Option.isSome_iff_exists.1 h
  obtain ⟨tree, htree, -⟩ := Option.bind_eq_some_iff.1 hfound
  rw [← Forest.isSome_root?, htree]
  rfl

/-- The other methods are those for which a route is found. -/
theorem mem_otherMethods {s : Sealed} {m m' : Method} {path : Text} (h : path ≠ ['*']) :
    m' ∈ s.otherMethods m path ↔
      m' ≠ m ∧ m' ≠ .options ∧ (s.arrive? m' path).isSome := by
  rw [otherMethods, if_neg h, List.mem_filter]
  simp only [Bool.and_eq_true, decide_eq_true_eq, and_assoc]
  exact ⟨fun hm => hm.2, fun hm => ⟨mem_methods_of_arrive? hm.2.2, hm⟩⟩

theorem otherMethods_sublist (s : Sealed) (m : Method) (path : Text) :
    (s.otherMethods m path).Sublist s.forest.methods := by
  unfold otherMethods
  split <;> exact List.filter_sublist

end Sealed

namespace Router

/-- **A request that is not allowed finds no route**, and is told which other methods do: all that
have a route there, in the order of the methods, and then `OPTIONS`. But for the path `*` it is told
all methods, its own among them, whether they have a route there or not. -/
theorem Reachable.resolve_notAllowed {r : Router} (h : r.Reachable) {m : Method} {path allow : Text}
    (hres : (r.seal.resolve m path).answer = some (.notAllowed allow)) :
    (r.seal.find m path).answer = some (.error (.routeNotFound m path)) ∧
      ∃ others : List Method, others.Nodup ∧ others.Sublist r.forest.methods ∧
        Text.items allow = (others ++ [Method.options]).map Method.name ∧
        (Text.Percent.text path ≠ ['*'] → others ≠ [] ∧
          (∀ m', m' ∈ others ↔ m' ≠ m ∧ m' ≠ .options ∧ r.seal.Finds m' path) ∧
          (m ≠ .options → m.name ∉ Text.items allow)) ∧
        (Text.Percent.text path = ['*'] → others = r.forest.methods.filter (· ≠ .options)) := by
  cases hf : r.seal.finding? m (Text.Percent.text path) with
  | some f =>
    rw [Sealed.answer_resolve, Sealed.answer_find, hf, Option.map_map] at hres
    obtain ⟨handler, -, hfound⟩ := Option.map_eq_some_iff.1 hres
    cases hfound
  | none =>
    have hfind : (r.seal.find m path).answer = some (.error (.routeNotFound m path)) := by
      rw [Sealed.answer_find, hf]
    rw [Sealed.answer_resolve, hfind, Option.map_some, Option.some.injEq] at hres
    have hallow := Sealed.allowedAt_of_fallback (congrArg Resolution.allow? hres)
    obtain ⟨hitems, hne⟩ := Sealed.items_of_allowedAt hallow
    have hsublist := r.seal.otherMethods_sublist m (Text.Percent.text path)
    refine ⟨hfind, r.seal.otherMethods m (Text.Percent.text path),
      h.sound.methods.sublist hsublist, hsublist, hitems, fun hstar => ⟨hne hstar, ?_, ?_⟩, ?_⟩
    · intro m'
      rw [Sealed.mem_otherMethods hstar, Sealed.finds_iff, Option.isSome_iff_exists, Prod.exists]
    · intro hoptions hlisted
      rw [hitems, List.mem_map_of_injective Method.name_injective, List.mem_append,
        List.mem_singleton, Sealed.mem_otherMethods hstar] at hlisted
      exact hlisted.elim (fun hm => hm.1 rfl) hoptions
    · intro hstar
      rw [Sealed.otherMethods, if_pos hstar]
      rfl

end Router

end

namespace Router

open Regex.Standard

/-- The sample has routes for `GET` only. -/
theorem resolve_notAllowed_sample :
    let allow := ['G', 'E', 'T', ',', ' ', 'O', 'P', 'T', 'I', 'O', 'N', 'S']
    sample.Reachable ∧ (sample.seal.resolve .post ['/', 'a']).answer = some (.notAllowed allow) ∧
      (sample.seal.find .post ['/', 'a']).answer =
        some (.error (.routeNotFound .post ['/', 'a'])) ∧
      ∃ others : List Method, Text.items allow = (others ++ [Method.options]).map Method.name ∧
        ∀ m, m ∈ others ↔ m ≠ .post ∧ m ≠ .options ∧ sample.seal.Finds m ['/', 'a'] := by
  intro allow
  have hres : (sample.seal.resolve .post ['/', 'a']).answer = some (.notAllowed allow) := rfl
  obtain ⟨hfind, others, -, -, hitems, hpath, -⟩ := reachable_sample.resolve_notAllowed hres
  have hstar : Text.Percent.text ['/', 'a'] ≠ ['*'] := by decide
  exact ⟨reachable_sample, hres, hfind, others, hitems, (hpath hstar).2.1⟩

/-- The path `*` is not allowed for `GET`, which is told that `GET` is, and no method has a route
there. -/
theorem exists_notAllowed_own :
    let allow := ['G', 'E', 'T', ',', ' ', 'O', 'P', 'T', 'I', 'O', 'N', 'S']
    sample.Reachable ∧ (sample.seal.resolve .get ['*']).answer = some (.notAllowed allow) ∧
      Method.get.name ∈ Text.items allow ∧ ∀ m, ¬ sample.seal.Finds m ['*'] := by
  intro allow
  refine ⟨reachable_sample, rfl, by decide, fun m hfinds => ?_⟩
  obtain ⟨arrival, route, harrive⟩ := Sealed.finds_iff.1 hfinds
  have hm : m ∈ [Method.get] :=
    Sealed.mem_methods_of_arrive? (Option.isSome_iff_exists.2 ⟨_, harrive⟩)
  obtain rfl := List.mem_singleton.1 hm
  cases harrive

end Router

section

variable [Regex.Engine]

namespace Router

/-- **The whole server is told by `OPTIONS *`**: all methods that have a route, in the order of
their first routes, and then `OPTIONS`; unless a route for `OPTIONS` is found for the path `*`,
which then answers. -/
theorem Enrolls.resolve_options_star {r : Router} {ms : List Method} (h : r.Enrolls ms)
    (hoptions : r.options.handleOptions = true) (hroute : 0 < r.countRoutes) :
    (∀ m, m ∈ ms ↔ r.Routes m) ∧
      (∀ found, (r.seal.find .options ['*']).answer = some (.ok found) →
        (r.seal.resolve .options ['*']).answer = some (.found found)) ∧
      (∀ e, (r.seal.find .options ['*']).answer = some (.error e) →
        ∃ allow, (r.seal.resolve .options ['*']).answer = some (.options allow) ∧
          Text.items allow = (ms.filter (· ≠ .options) ++ [Method.options]).map Method.name ∧
          (Text.items allow).Nodup) := by
  refine ⟨h.mem_iff, fun found hfind => ?_, fun e hfind => ?_⟩
  · rw [Sealed.answer_resolve, hfind, Option.map_some]
  · have hmethods : r.seal.forest.methods = ms := h.methods
    have hsome : r.seal.forest.roots.isEmpty = false := by
      rw [List.isEmpty_eq_false_iff]
      intro hnone
      simp [countRoutes, Forest.countRoutes, show r.forest.roots = [] from hnone] at hroute
    obtain ⟨allow, hallow⟩ : ∃ allow, r.seal.allowedAt .options ['*'] = some allow := by
      simp [Sealed.allowedAt, hsome]
    have hothers : r.seal.otherMethods .options ['*'] = ms.filter (· ≠ .options) := by
      rw [Sealed.otherMethods, if_pos rfl, hmethods]
    have hitems := (Sealed.items_of_allowedAt hallow).1
    rw [hothers] at hitems
    refine ⟨allow, ?_, hitems, ?_⟩
    · have hstar : Text.Percent.text ['*'] = ['*'] := by decide
      have hserve : r.seal.options.handleOptions = true := hoptions
      rw [Sealed.answer_resolve, hfind, hstar, Option.map_some]
      simp only [Sealed.fallback, hserve, hallow, and_self, ↓reduceIte]
    · have hnodup : ms.Nodup := hmethods ▸ h.reachable.sound.methods
      rw [hitems]
      exact nodup_listed (hnodup.filter _) (by simp)

end Router

end

namespace Router

open Regex.Standard

/-- The sample with a route for `POST`, after which one for `GET` was refused, and with a route for
`OPTIONS`. -/
def surveyed : Router :=
  let posted := (sample.handle .post ['/', 'a'] silent).router
  let refused := (posted.handle .get ['/', 'a'] silent).router
  (refused.handle .options ['/', 'o'] silent).router

theorem enrolls_surveyed : surveyed.Enrolls [.get, .post, .options] := by
  have hsample : sample.Enrolls [.get] := .handle (.handle (.new {} {}) rfl) rfl
  have hduplicate (r : Router) :
      ¬ r.FirstUnreadable .get (.duplicateRoute .get ['/', 'a']) := by
    rintro ⟨-, name, raw, hne⟩
    cases hne
  exact .handle (.refuseHandle (.handle hsample rfl) rfl (hduplicate _)) rfl

theorem resolve_options_star_surveyed :
    surveyed.Enrolls [.get, .post, .options] ∧ surveyed.options.handleOptions = true ∧
      0 < surveyed.countRoutes ∧
      (surveyed.seal.find .options ['*']).answer =
        some (.error (.routeNotFound .options ['*'])) ∧
      ∃ allow, (surveyed.seal.resolve .options ['*']).answer = some (.options allow) ∧
        Text.items allow = [Method.get.name, Method.post.name, Method.options.name] := by
  have hroute : 0 < surveyed.countRoutes := by decide
  have hfind : (surveyed.seal.find .options ['*']).answer =
    some (.error (.routeNotFound .options ['*'])) := rfl
  obtain ⟨-, -, hresolve⟩ := enrolls_surveyed.resolve_options_star rfl hroute
  obtain ⟨allow, hallow, hitems, -⟩ := hresolve _ hfind
  exact ⟨enrolls_surveyed, rfl, hroute, hfind, allow, hallow, hitems⟩

/-- A wildcard that `OPTIONS` has takes the path `*` like any other. -/
theorem exists_options_star_found :
    let r := ((Router.new {}).handle .options ['/', '{', 'x', '}'] silent).router
    r.Reachable ∧ r.options.handleOptions = true ∧ 0 < r.countRoutes ∧
      ∀ allow, (r.seal.resolve .options ['*']).answer ≠ some (.options allow) := by
  refine ⟨.handle _ _ _ _ (.new _ _), rfl, by decide, fun allow hresolve => ?_⟩
  cases hresolve

end Router

end Routing
