import Routing.Text

/-!
# Segments

A route pattern is a list of segments. A literal stands for itself; a wildcard stands for some
text of a path, which it binds to its name, and may demand that the text satisfy a regular
expression.

* `Segment.display` — a segment as it is written in a pattern.
* `Pattern.render` — a list of segments as one pattern.
-/

namespace Routing

inductive Segment where
  | literal (text : Text)
  | wildcard (name : Text)
  /-- A wildcard whose text satisfies the regular expression written `raw`. -/
  | regex (name raw : Text)
  deriving DecidableEq, Repr

namespace Segment

def isWildcard : Segment → Bool
  | literal _ => false
  | wildcard _ | regex _ _ => true

def display : Segment → Text
  | literal text => text
  | wildcard name => ['{'] ++ name ++ ['}']
  | regex name raw => ['{'] ++ name ++ [':'] ++ raw ++ ['}']

end Segment

namespace Pattern

/-- How many wildcards the segments hold. -/
def wildcards (segments : List Segment) : Nat := segments.countP Segment.isWildcard

/-- Every segment behind a slash; no segments are the root, a slash alone. -/
def render : List Segment → Text
  | [] => ['/']
  | s :: rest => ((s :: rest).map fun segment => '/' :: segment.display).flatten

end Pattern

end Routing
