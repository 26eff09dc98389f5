import Routing.Regex.CharSet
import Routing.Unicode.Property

/-!
# Regular expressions and what they match

An expression relates positions of a text: it matches from one cursor to another.

* `Expr.Matches` — the relation, by recursion on the expression.
* `Matches.eq_or_shorter` — a match that does not stay where it is leaves less text ahead.
-/

namespace Routing.Regex

/-- A position in a text, with the character before it and the text behind it. -/
structure Cursor where
  index : Nat
  before : Option Char
  rest : Text
  deriving DecidableEq, Repr

namespace Cursor

def start (t : Text) : Cursor := ⟨0, none, t⟩

/-- The position behind the next character, if the set takes it. -/
def advance (s : CharSet) (p : Cursor) : Option Cursor :=
  match p.rest with
  | [] => none
  | c :: rest => if s.contains c then some ⟨p.index + 1, some c, rest⟩ else none

/-- The position itself and every later one. -/
def onward (index : Nat) (before : Option Char) : Text → List Cursor
  | [] => [⟨index, before, []⟩]
  | c :: rest => ⟨index, before, c :: rest⟩ :: onward (index + 1) (some c) rest

end Cursor

/-- What must hold of the two sides of a position at the edge of a word. -/
inductive WordEdge where
  | boundary | inner | opening | closing | openingHalf | closingHalf
  deriving DecidableEq, Repr

inductive Anchor where
  | textStart | textEnd
  /-- Lines end at a line feed. -/
  | lineStart | lineEnd
  /-- Lines end at a carriage return, a line feed, or the two in this order. -/
  | crlfLineStart | crlfLineEnd
  | word (unicode : Bool) (edge : WordEdge)
  deriving DecidableEq, Repr

def isWordChar (unicode : Bool) (c : Char) : Bool :=
  if unicode then Unicode.Property.isWord c else c.isAlphanum || c == '_'

def WordEdge.holds (edge : WordEdge) (before after : Bool) : Bool :=
  match edge with
  | boundary => before != after
  | inner => before == after
  | opening => !before && after
  | closing => before && !after
  | openingHalf => !before
  | closingHalf => !after

def Anchor.holds (a : Anchor) (p : Cursor) : Bool :=
  let after := p.rest.head?
  match a with
  | textStart => p.before.isNone
  | textEnd => after.isNone
  | lineStart => p.before.isNone || p.before == some '\n'
  | lineEnd => after.isNone || after == some '\n'
  | crlfLineStart =>
    p.before.isNone || p.before == some '\n' || (p.before == some '\r' && after != some '\n')
  | crlfLineEnd =>
    after.isNone || after == some '\r' || (after == some '\n' && p.before != some '\r')
  | word unicode edge =>
    edge.holds (p.before.any (isWordChar unicode)) (after.any (isWordChar unicode))

inductive Expr where
  | empty
  | set (s : CharSet)
  | anchor (a : Anchor)
  | seq (first second : Expr)
  | alt (left right : Expr)
  /-- The body at least `least` times in a row, and at most `most` times if that is given. -/
  | times (body : Expr) (least : Nat) (most : Option Nat)

/-- `n` steps of the relation in a row. -/
def Steps (R : Cursor → Cursor → Prop) : Nat → Cursor → Cursor → Prop
  | 0, p, q => p = q
  | n + 1, p, q => ∃ m, R p m ∧ Steps R n m q

namespace Expr

/-- The expression matches the text between the two cursors. -/
def Matches : Expr → Cursor → Cursor → Prop
  | empty, p, q => p = q
  | set s, p, q => p.advance s = some q
  | anchor a, p, q => a.holds p = true ∧ p = q
  | seq a b, p, q => ∃ m, a.Matches p m ∧ b.Matches m q
  | alt a b, p, q => a.Matches p q ∨ b.Matches p q
  | times a least most, p, q =>
    ∃ n, least ≤ n ∧ (∀ m ∈ most, n ≤ m) ∧ Steps a.Matches n p q

/-- A match stays where it is or leaves less text ahead. -/
theorem Matches.eq_or_shorter {e : Expr} {p q : Cursor} (h : e.Matches p q) :
    q = p ∨ q.rest.length < p.rest.length := by
  induction e generalizing p q with
  | empty => exact .inl h.symm
  | set s =>
    right
    simp only [Matches, Cursor.advance] at h
    split at h
    · simp at h
    · rename_i c rest hrest
      split at h
      · rw [← Option.some.inj h, hrest]
        exact Nat.lt_succ_self _
      · simp at h
  | anchor a => exact .inl h.2.symm
  | seq a b iha ihb =>
    obtain ⟨m, ha, hb⟩ := h
    rcases iha ha with rfl | hm
    · exact ihb hb
    · rcases ihb hb with rfl | hq
      · exact .inr hm
      · exact .inr (by omega)
  | alt a b iha ihb =>
    rcases h with h | h
    · exact iha h
    · exact ihb h
  | times a least most ih =>
    obtain ⟨n, -, -, hn⟩ := h
    induction n generalizing p with
    | zero => exact .inl hn.symm
    | succ n ihn =>
      obtain ⟨m, hm, hn⟩ := hn
      rcases ih hm with rfl | hlt
      · exact ihn hn
      · rcases ihn hn with rfl | hq
        · exact .inr hlt
        · exact .inr (by omega)

end Expr

end Routing.Regex
