import Routing.Unicode.Folding

/-!
# Sets of characters

What one place of a regular expression admits. A set is kept as it was put together, and
`contains` reads membership off it.

* `CharSet.contains` — membership.
* `CharSet.caseless` — the set closed under simple case folding.
-/

namespace Routing.Regex

inductive CharSet where
  | empty
  | range (lo hi : Char)
  /-- The characters that pass a test; they lie in about `ranges` ranges. -/
  | those (test : Char → Bool) (ranges : Nat)
  | compl (s : CharSet)
  | union (s t : CharSet)
  | inter (s t : CharSet)
  | diff (s t : CharSet)
  | symmDiff (s t : CharSet)
  /-- Characters with a case variant in the set. -/
  | caseless (s : CharSet)
  /-- The same, where only the letters A to Z have variants. -/
  | asciiCaseless (s : CharSet)

namespace CharSet

/-- The other case of an ASCII letter. -/
def asciiSwap (c : Char) : Char :=
  if c.isUpper then Char.ofNat (c.toNat + 32)
  else if c.isLower then Char.ofNat (c.toNat - 32)
  else c

def contains : CharSet → Char → Bool
  | empty, _ => false
  | range lo hi, c => lo.toNat ≤ c.toNat && c.toNat ≤ hi.toNat
  | those test _, c => test c
  | compl s, c => !s.contains c
  | union s t, c => s.contains c || t.contains c
  | inter s t, c => s.contains c && t.contains c
  | diff s t, c => s.contains c && !t.contains c
  | symmDiff s t, c => s.contains c != t.contains c
  | caseless s, c => (Unicode.Folding.variants c).any fun d => s.contains d
  | asciiCaseless s, c => s.contains c || s.contains (asciiSwap c)

def single (c : Char) : CharSet := range c c

/-- One of the listed ranges. -/
def ranges (list : List (Char × Char)) : CharSet :=
  list.foldr (fun r s => union (range r.1 r.2) s) empty

def complIf (negated : Bool) (s : CharSet) : CharSet := if negated then compl s else s

/-- Any character. -/
def any : CharSet := compl empty

end CharSet

end Routing.Regex
