import Routing.Text

/-!
# Engines for regular expressions

Regular expressions belong to a library of their own. Whatever reads their texts and searches other
texts for what they match is an engine, and all that is said of wildcards with expressions is about
any engine.

* `Engine` — what is asked of an engine.
* `Regex.compile?` — the expression of a text that an engine takes.
* `Engine.Documented` — what the documentation of an engine says about groups and anchors.
-/

namespace Routing.Regex

/-- Reads the texts of regular expressions, and searches texts for what they match. -/
class Engine where
  Expr : Type
  /-- The expression that a text stands for, if it is one. -/
  read? (t : Text) : Option Expr
  /-- The expression does not nest too deep and does not get too large. -/
  fits (e : Expr) : Bool
  /-- The expression matches somewhere in the text. -/
  search (e : Expr) (t : Text) : Bool

variable [Engine]

/-- The expression of a text, unless it is none or is beyond the limits of the engine. -/
def compile? (t : Text) : Option Engine.Expr := (Engine.read? t).filter Engine.fits

theorem read?_of_compile? {t : Text} {e : Engine.Expr} (h : compile? t = some e) :
    Engine.read? t = some e :=
  (Option.filter_eq_some_iff.1 h).1

/-- The text stands for an expression, whatever its size. -/
def IsExpr (t : Text) : Prop := ∃ e, Engine.read? t = some e

/-- The text between the parentheses of a group. -/
def group (t : Text) : Text := ['(', '?', ':'] ++ t ++ [')']

/-- A group around an expression, with or without anchors before it and behind it. -/
inductive Grouped : Text → Prop where
  | group {t : Text} : IsExpr t → IsExpr (group t) → Grouped (group t)
  | start {t : Text} : Grouped t → Grouped ('^' :: t)
  | stop {t : Text} : Grouped t → Grouped (t ++ ['$'])

/-- What the documentation says of an engine. `Matches e t i j` is to say that the expression
matches the text from the position `i` to the position `j`. -/
structure Engine.Documented (Matches : Engine.Expr → Text → Nat → Nat → Prop) : Prop where
  /-- A search succeeds if there is a match anywhere. -/
  search_iff : ∀ e t, Engine.search e t = true ↔ ∃ i j, Matches e t i j
  /-- A group matches what the expression in it matches. -/
  group_iff : ∀ {t e g}, Engine.read? t = some e → Engine.read? (group t) = some g →
    ∀ u i j, Matches g u i j ↔ Matches e u i j
  /-- `^` is the beginning of the text. -/
  start_iff : ∀ {t e}, Grouped t → Engine.read? t = some e →
    ∃ f, Engine.read? ('^' :: t) = some f ∧ ∀ u i j, Matches f u i j ↔ i = 0 ∧ Matches e u i j
  /-- `$` is the end of the text. -/
  stop_iff : ∀ {t e}, Grouped t → Engine.read? t = some e →
    ∃ f, Engine.read? (t ++ ['$']) = some f ∧
      ∀ u i j, Matches f u i j ↔ Matches e u i j ∧ j = u.length
  /-- A group that is opened is closed, behind an expression. -/
  closed : ∀ {t}, IsExpr (['^', '(', '?', ':'] ++ t) →
    ∃ inner rest, t = inner ++ ')' :: rest ∧ IsExpr inner ∧ IsExpr (group inner)
  /-- A parenthesis that closes a group is refused where none is open. -/
  unopened : ∀ {before after}, IsExpr (group before) → ¬ IsExpr (before ++ ')' :: after)

end Routing.Regex
