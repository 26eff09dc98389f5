import Routing.Proofs.Conforming
import Routing.Proofs.Regularity
import Routing.Router.Sealed

/-!
# What a constraint accepts

The text of a constraint is put between `^(?:` and `)$` and read as one expression. If it is an
expression by itself, the whole accepts just the texts that it matches from their first to their
last character. It need not be one: a parenthesis in it may close the group that it was put into,
and then the anchors belong to other branches.

* `Regex.ClosesGroup` — such a parenthesis.
* `Regex.Engine.Documented.anchored_cases` — how a text can stand between the anchors.
* `Constraint.Anchored`, `Constraint.anchored_all` — what constraints accept, and which of them are
  no expressions by themselves.
* `Router.exists_unanchored` — a router may have one of these.
-/

namespace Routing

section

variable [Regex.Engine]

namespace Regex

/-- A parenthesis in the text closes the group that the text is put into. -/
def ClosesGroup (t : Text) : Prop :=
  ∃ before after, t = before ++ ')' :: after ∧ IsExpr (group before)

variable {Matches : Engine.Expr → Text → Nat → Nat → Prop}

theorem Engine.Documented.not_isExpr (h : Engine.Documented Matches) {t : Text}
    (ht : ClosesGroup t) : ¬ IsExpr t := by
  obtain ⟨before, after, rfl, hbefore⟩ := ht
  exact h.unopened hbefore

/-- **A text between the anchors** is an expression by itself, and so is the group around it, or it
closes that group. -/
theorem Engine.Documented.anchored_cases (h : Engine.Documented Matches) {raw : Text}
    (hraw : IsExpr (anchored raw)) : (IsExpr raw ∧ IsExpr (group raw)) ∨ ClosesGroup raw := by
  rw [anchored, List.append_assoc] at hraw
  obtain ⟨inner, rest, hsplit, hinner, hgroup⟩ := h.closed hraw
  rcases Text.eq_or_split_of_append_cons (by decide) hsplit with rfl | ⟨after, rfl⟩
  · exact Or.inl ⟨hinner, hgroup⟩
  · exact Or.inr ⟨inner, after, rfl, hgroup⟩

/-- **Between the anchors an expression finds what it matches as a whole.** -/
theorem Engine.Documented.search_anchored (h : Engine.Documented Matches) {raw : Text}
    {e f : Engine.Expr} (hgroup : IsExpr (group raw)) (he : Engine.read? raw = some e)
    (hf : Engine.read? (anchored raw) = some f) (t : Text) :
    Engine.search f t = true ↔ Matches e t 0 t.length := by
  obtain ⟨g, hg⟩ := hgroup
  have hgrouped : Grouped (group raw) := .group ⟨e, he⟩ ⟨g, hg⟩
  obtain ⟨stopped, hstopped, hstop⟩ := h.stop_iff hgrouped hg
  obtain ⟨started, hstarted, hstart⟩ := h.start_iff hgrouped.stop hstopped
  have hanchored : anchored raw = '^' :: (group raw ++ ['$']) := by simp [anchored, group]
  rw [← hanchored, hf] at hstarted
  obtain rfl := Option.some.inj hstarted
  rw [h.search_iff]
  simp only [hstart, hstop, h.group_iff he hg]
  constructor
  · rintro ⟨i, j, rfl, hmatches, rfl⟩
    exact hmatches
  · intro hmatches
    exact ⟨0, t.length, rfl, hmatches, rfl⟩

end Regex

/-- What a constraint has to do with its text, for expressions that match as `Matches` says. -/
structure Constraint.Anchored (Matches : Regex.Engine.Expr → Text → Nat → Nat → Prop)
    (c : Constraint) : Prop where
  /-- It accepts what the text, as an expression of its own, matches from the first character to
  the last. -/
  accepts_iff : ∀ e, Regex.Engine.read? c.raw = some e →
    ∀ t, c.accepts t = true ↔ Matches e t 0 t.length
  /-- The text is no expression of its own if it closes the group that it is put into. -/
  unread_iff : Regex.Engine.read? c.raw = none ↔ Regex.ClosesGroup c.raw

/-- **Constraints are anchored**, up to those that close the group they are put into. -/
theorem Constraint.anchored_all {Matches : Regex.Engine.Expr → Text → Nat → Nat → Prop}
    (h : Regex.Engine.Documented Matches) (c : Constraint) : c.Anchored Matches := by
  have hread : Regex.Engine.read? (anchored c.raw) = some c.expr :=
    Regex.read?_of_compile? c.compiled
  have hunread (hcloses : Regex.ClosesGroup c.raw) : Regex.Engine.read? c.raw = none :=
    Option.eq_none_iff_forall_ne_some.2 fun e he => h.not_isExpr hcloses ⟨e, he⟩
  rcases h.anchored_cases ⟨_, hread⟩ with ⟨⟨e, he⟩, hgroup⟩ | hcloses
  · refine ⟨fun e' he' t => h.search_anchored hgroup he' hread t, fun hnone => ?_, hunread⟩
    rw [he] at hnone
    cases hnone
  · refine ⟨fun e he => ?_, fun _ => hcloses, hunread⟩
    rw [hunread hcloses] at he
    cases he

end

open Regex.Standard

/-- A digit is an expression by itself; `a)|(?:b` is none, and closes the group. -/
theorem Constraint.anchored_all_standard :
    let digit : Text := ['[', '0', '-', '9', ']']
    let pasted : Text := ['a', ')', '|', '(', '?', ':', 'b']
    Regex.Engine.Documented Matches ∧
      ∃ c d, ofRaw? digit = some c ∧ ofRaw? pasted = some d ∧
        c.Anchored Matches ∧ d.Anchored Matches ∧
        (∃ e, Regex.Engine.read? digit = some e ∧ Matches e ['7'] 0 1) ∧
        Regex.ClosesGroup pasted := by
  intro digit pasted
  have hdigit : ((ofRaw? digit).any (·.accepts ['7'])) = true := by decide +kernel
  have hpasted : (ofRaw? pasted).isSome = true := by decide +kernel
  have hread : (Regex.Engine.read? digit).isSome = true := by decide +kernel
  have hunread : (Regex.Engine.read? pasted).isNone = true := by decide +kernel
  obtain ⟨c, hc, haccepts⟩ := (Option.any_eq_true _ _).1 hdigit
  obtain ⟨d, hd⟩ := Option.isSome_iff_exists.1 hpasted
  obtain ⟨e, he⟩ := Option.isSome_iff_exists.1 hread
  have hcanchored : c.Anchored Matches := Constraint.anchored_all documented c
  have hdanchored : d.Anchored Matches := Constraint.anchored_all documented d
  refine ⟨documented, c, d, hc, hd, hcanchored, hdanchored, ⟨e, he, ?_⟩, ?_⟩
  · refine (hcanchored.accepts_iff e ?_ ['7']).1 haccepts
    rw [raw_ofRaw? hc, he]
  · rw [← raw_ofRaw? hd, ← hdanchored.unread_iff, raw_ofRaw? hd]
    exact Option.isNone_iff_eq_none.1 hunread

namespace Router

/-- The route `/{x:a)|(?:b}`, whose expression is `^(?:a)|(?:b)$` with the anchors around it. -/
def pasted : Router :=
  ((Router.new {}).handle .get ['/', '{', 'x', ':', 'a', ')', '|', '(', '?', ':', 'b', '}']
    silent).router

theorem reachable_pasted : pasted.Reachable := .handle _ _ _ _ (.new _ _)

/-- Not every constraint of a router is an expression by itself: `a)|(?:b` is none. -/
theorem exists_unanchored :
    ¬ ∀ r : Router, r.Reachable → ∀ root ∈ r.forest.roots, ∀ n ∈ root.tree.nodes,
      ∀ (name : Text) (c : Constraint), .regex name c ∈ n.below.edges →
        ∃ e, Regex.Engine.read? c.raw = some e ∧
          ∀ t, c.accepts t = true → Matches e t 0 t.length := by
  intro h
  let raw : Text := ['a', ')', '|', '(', '?', ':', 'b']
  have hedge : (pasted.forest.roots.any fun root => root.tree.nodes.any fun n =>
      n.below.edges.any fun edge => edge.expression? = some raw) = true := by decide +kernel
  simp only [List.any_eq_true, decide_eq_true_eq] at hedge
  obtain ⟨root, hroot, n, hn, edge, hedge, hraw⟩ := hedge
  cases edge with
  | literal id => cases hraw
  | wildcard name => cases hraw
  | regex name c =>
    obtain ⟨e, he, -⟩ := h pasted reachable_pasted root hroot n hn name c hedge
    have hnone : (Regex.Engine.read? raw).isNone = true := by decide +kernel
    rw [Option.some.inj hraw] at he
    rw [he] at hnone
    cases hnone

/-- The route is found for a path that only begins with `a`. -/
example : (pasted.seal.find .get ['/', 'a', 'x', 'y', 'z']).answer.any (·.isOk) = true := by
  decide +kernel

end Router

end Routing
