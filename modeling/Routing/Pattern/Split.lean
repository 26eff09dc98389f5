import Routing.Pattern.Segment

/-!
# Splitting a pattern

A pattern is read one character at a time. Outside a wildcard a slash ends a piece of literal
text, and empty pieces are dropped. A wildcard runs from its opening brace to the brace that
closes it: braces nest inside, and a backslash there hides the character after it. Its body is a
name, or a name and an expression with a colon between them.

* `split` — the segments of a pattern, or its leftmost fault.
* `Fault` — what can be wrong; positions count bytes of the pattern.
-/

namespace Routing.Pattern

inductive Fault where
  /-- The wildcard opened at `index` has no name. -/
  | emptyName (index : Nat)
  /-- The wildcard has a colon and no expression behind it. -/
  | emptyRegex (name : Text)
  /-- The wildcard opened at `index` is never closed. -/
  | unterminated (index : Nat)
  /-- A closing brace stands outside every wildcard. -/
  | unexpectedClose (index : Nat)
  deriving DecidableEq, Repr

structure Error where
  pattern : Text
  fault : Fault
  deriving DecidableEq, Repr

def Error.message (e : Error) : String :=
  let pattern := String.ofList e.pattern
  match e.fault with
  | .emptyName index => s!"wildcard at byte {index} in pattern '{pattern}' has an empty name"
  | .emptyRegex text =>
    let name := String.ofList text
    s!"wildcard '{name}' in pattern '{pattern}' has an empty regular expression"
  | .unterminated index =>
    s!"wildcard opened at byte {index} in pattern '{pattern}' is never closed"
  | .unexpectedClose index => s!"unexpected '\x7d' at byte {index} in pattern '{pattern}'"

/-- The wildcard with this body, opened at `index`. -/
def wildcardOf (index : Nat) (body : Text) : Except Fault Segment :=
  match Text.cut ':' body with
  | ([], _) => .error (.emptyName index)
  | (name, none) => .ok (.wildcard name)
  | (name, some []) => .error (.emptyRegex name)
  | (name, some raw) => .ok (.regex name raw)

/-- Where the reader stands: in literal text, with the piece read since the last slash, or in the
body of the wildcard opened at `start`, with `depth` braces open inside it. -/
inductive Place where
  | literal (piece : Text)
  | wildcard (start : Nat) (body : Text) (depth : Nat)
  /-- Behind a backslash in the body of a wildcard. -/
  | hidden (start : Nat) (body : Text) (depth : Nat)
  deriving DecidableEq, Repr

structure Reader where
  /-- Bytes read so far. -/
  offset : Nat
  segments : List Segment
  place : Place
  deriving DecidableEq, Repr

def Reader.start : Reader := ⟨0, [], .literal []⟩

/-- The segments with a piece of literal text behind them, unless it is empty. -/
def closePiece (segments : List Segment) (piece : Text) : List Segment :=
  if piece = [] then segments else segments ++ [.literal piece]

def Reader.step (r : Reader) (c : Char) : Except Fault Reader :=
  let offset := r.offset + c.utf8Size
  match r.place with
  | .literal piece =>
    if c = '{' then .ok ⟨offset, closePiece r.segments piece, .wildcard r.offset [] 0⟩
    else if c = '}' then .error (.unexpectedClose r.offset)
    else if c = '/' then .ok ⟨offset, closePiece r.segments piece, .literal []⟩
    else .ok ⟨offset, r.segments, .literal (piece ++ [c])⟩
  | .wildcard start body depth =>
    if c = '\\' then .ok ⟨offset, r.segments, .hidden start (body ++ [c]) depth⟩
    else if c = '{' then .ok ⟨offset, r.segments, .wildcard start (body ++ [c]) (depth + 1)⟩
    else if c = '}' then
      match depth with
      | 0 => do
        let segment ← wildcardOf start body
        .ok ⟨offset, r.segments ++ [segment], .literal []⟩
      | depth + 1 => .ok ⟨offset, r.segments, .wildcard start (body ++ [c]) depth⟩
    else .ok ⟨offset, r.segments, .wildcard start (body ++ [c]) depth⟩
  | .hidden start body depth => .ok ⟨offset, r.segments, .wildcard start (body ++ [c]) depth⟩

def Reader.finish (r : Reader) : Except Fault (List Segment) :=
  match r.place with
  | .literal piece => .ok (closePiece r.segments piece)
  | .wildcard start _ _ | .hidden start _ _ => .error (.unterminated start)

def Reader.run (r : Reader) : Text → Except Fault Reader
  | [] => .ok r
  | c :: t => do (← r.step c).run t

/-- Reading on is reading what is left from where the reader stands. -/
theorem Reader.run_append (r : Reader) (s t : Text) :
    r.run (s ++ t) = (r.run s).bind (·.run t) := by
  induction s generalizing r with
  | nil => rfl
  | cons c s ih =>
    simp only [List.cons_append, Reader.run]
    cases r.step c with
    | error e => rfl
    | ok r => exact ih r

/-- The segments of a pattern. -/
def split (pattern : Text) : Except Error (List Segment) :=
  ((Reader.start.run pattern).bind Reader.finish).mapError (Error.mk pattern)

end Routing.Pattern
