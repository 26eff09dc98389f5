import Routing.Regex.Engine
import Routing.Regex.Reader
import Routing.Regex.Search
import Routing.Regex.Weight

/-!
# The standard engine

The engine that routers run with: the reader, the search and the limits of this library.

* `Standard.read?` — the expression that a text stands for.
* `Standard.engine` — the engine.
-/

namespace Routing.Regex.Standard

/-- How deep an expression may nest. -/
def nestingLimit : Nat := 250

/-- How large the automaton of an expression may be, in bytes. -/
def weightLimit : Nat := 10 * 0x100000

def read? (t : Text) : Option Item := (({} : Reader).run t).bind Reader.finish

def Fits (item : Item) : Prop := item.nesting ≤ nestingLimit ∧ item.expr.weight ≤ weightLimit

instance : DecidablePred Fits := fun _ => inferInstanceAs (Decidable (_ ∧ _))

scoped instance engine : Engine where
  Expr := Item
  read? := read?
  fits item := Fits item
  search item t := item.expr.search t

end Routing.Regex.Standard
