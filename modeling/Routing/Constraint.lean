import Routing.Regex.Engine

/-!
# Constraints

A wildcard may demand that its text satisfy a regular expression. The expression is put into a
group between the anchors of the text, and the result has to match somewhere.

* `Constraint.ofRaw?` — the constraint written `raw`, if the engine takes its expression.
* `Constraint.accepts` — whether a text satisfies it.
-/

namespace Routing

/-- The text of the expression with the anchors around it. -/
def anchored (raw : Text) : Text := ['^', '(', '?', ':'] ++ raw ++ [')', '$']

variable [Regex.Engine]

structure Constraint where
  raw : Text
  expr : Regex.Engine.Expr
  compiled : Regex.compile? (anchored raw) = some expr

namespace Constraint

@[ext] theorem ext {a b : Constraint} (h : a.raw = b.raw) : a = b := by
  obtain ⟨raw, e, he⟩ := a
  obtain ⟨_, f, hf⟩ := b
  subst h
  obtain rfl : e = f := Option.some.inj (he.symm.trans hf)
  rfl

/-- Constraints are the same when they are written the same. -/
instance : DecidableEq Constraint := fun a b =>
  decidable_of_iff (a.raw = b.raw) ⟨ext, congrArg raw⟩

def ofRaw? (raw : Text) : Option Constraint :=
  match h : Regex.compile? (anchored raw) with
  | none => none
  | some expr => some ⟨raw, expr, h⟩

@[simp] theorem raw_ofRaw? {raw : Text} {c : Constraint} (h : ofRaw? raw = some c) :
    c.raw = raw := by
  unfold ofRaw? at h
  split at h
  · simp at h
  · rw [← Option.some.inj h]

theorem ofRaw?_raw (c : Constraint) : ofRaw? c.raw = some c := by
  unfold ofRaw?
  split
  · rename_i h
    rw [c.compiled] at h
    cases h
  · exact congrArg some (ext rfl)

def accepts (c : Constraint) (t : Text) : Bool := Regex.Engine.search c.expr t

end Constraint

end Routing
