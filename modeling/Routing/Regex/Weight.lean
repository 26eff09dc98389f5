import Routing.Regex.Expr

/-!
# The weight of an expression

An expression is compiled to an automaton on bytes, and one whose automaton is too large is
refused. The weight is the size of that automaton in bytes: a state takes 32, a transition of a
state with several takes 8. Classes beyond ASCII are counted by their ranges, with two states for
each.

* `Expr.weight` — the size of the automaton.
-/

namespace Routing.Regex

namespace CharSet

/-- How many ranges the set is made of, at most about. -/
def pieces : CharSet → Nat
  | empty => 0
  | range _ _ => 1
  | those _ ranges => ranges
  | compl s => s.pieces + 1
  | union s t | inter s t | diff s t | symmDiff s t => s.pieces + t.pieces
  | caseless s | asciiCaseless s => 2 * s.pieces

/-- The set holds ASCII characters only, as far as its form shows. -/
def isAscii : CharSet → Bool
  | empty => true
  | range _ hi => hi.toNat < 128
  | those _ _ => false
  | compl _ => false
  | union s t | symmDiff s t => s.isAscii && t.isAscii
  | inter s t => s.isAscii || t.isAscii
  | diff s _ | caseless s | asciiCaseless s => s.isAscii

def weight : CharSet → Nat
  | range lo hi =>
    if lo = hi then 32 * lo.utf8Size else if hi.toNat < 128 then 72 else 64 + 32 * (hi.utf8Size + 1)
  | s => if s.isAscii then 64 + 8 * s.pieces else 128 + 64 * s.pieces

end CharSet

namespace Expr

/-- The expression can take a character. -/
def consumes : Expr → Bool
  | empty | anchor _ => false
  | set _ => true
  | seq a b | alt a b => a.consumes || b.consumes
  | times a _ most => a.consumes && most != some 0

def weight : Expr → Nat
  | empty => 32
  | anchor _ => 32
  | set s => s.weight
  | seq a b => a.weight + b.weight
  | alt a b => a.weight + b.weight + 40
  | times a least most =>
    let w := a.weight
    if !a.consumes then w + 40
    else
      match most with
      | none => max 1 least * w + 40
      | some most => if most = 0 then 32 else least * w + (most - least) * (w + 40) + 32

end Expr

end Routing.Regex
