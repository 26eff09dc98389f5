import Routing.Pattern.Split
import Routing.Text.Utf8

/-!
# Scanning a pattern

A pattern split by the bytes it is written in: the index of an opening brace is looked up, then that
of the brace that closes it, and the pattern is cut before and behind both. A scan of bytes can go
wrong in ways that are no fault of the pattern, and here each of them is a halt of its own.

* `Scan.split` — the segments of a pattern, scanned from its bytes.
* `Halt` — what can keep it from them.
-/

namespace Routing.Pattern

inductive Halt where
  | fault (f : Fault)
  /-- A brace was closed that was not open. -/
  | underflow
  /-- A text was cut inside a character. -/
  | severed
  deriving DecidableEq, Repr

/-- The segments in literal text: what stands between its slashes, unless it is empty. -/
def literals (text : Text) : List Segment :=
  ((Text.pieces '/' text).filter (· ≠ [])).map .literal

namespace Scan

def backslash : UInt8 := 0x5C

def openingBrace : UInt8 := 0x7B

def closingBrace : UInt8 := 0x7D

/-- Whether a text may be cut at an index: at an end, or before the first byte of a character. -/
def isBoundary (bytes : Bytes) (i : Nat) : Bool :=
  match bytes[i]? with
  | none => i == bytes.length
  | some b => i == 0 || b < 0x80 || 0xC0 ≤ b

/-- The bytes from one index to another. -/
def cut (bytes : Bytes) (i j : Nat) : Except Halt Bytes :=
  if i ≤ j ∧ isBoundary bytes i ∧ isBoundary bytes j then .ok ((bytes.take j).drop i)
  else .error .severed

def read (bytes : Bytes) : Except Halt Text :=
  match Text.Utf8.strict? bytes with
  | none => .error .severed
  | some text => .ok text

/-- The segments in literal text that `offset` bytes stand before. -/
def literalsAt (offset : Nat) (bytes : Bytes) : Except Halt (List Segment) :=
  match bytes.findIdx? (· == closingBrace) with
  | some i => .error (.fault (.unexpectedClose (offset + i)))
  | none => (read bytes).map literals

/-- The index of the brace that closes the last open one, when `depth` braces are open before these
bytes, the first of which has the index `i`. A backslash hides the byte behind it. -/
def closing (depth i : Nat) : Bytes → Except Halt (Option Nat)
  | [] => .ok none
  | b :: rest =>
    if b = backslash then
      match rest with
      | [] => .ok none
      | _ :: rest => closing depth (i + 2) rest
    else if b = openingBrace then closing (depth + 1) (i + 1) rest
    else if b = closingBrace then
      match depth with
      | 0 => .error .underflow
      | 1 => .ok (some i)
      | depth + 2 => closing (depth + 1) (i + 1) rest
    else closing depth (i + 1) rest

/-- The segments in the rest of a pattern, which `offset` bytes stand before. -/
def splitFrom (offset : Nat) (rest : Bytes) : Except Halt (List Segment) :=
  match _hopen : rest.findIdx? (· == openingBrace) with
  | none => literalsAt offset rest
  | some i => do
    let before ← literalsAt offset (← cut rest 0 i)
    match ← closing 0 i (rest.drop i) with
    | none => .error (.fault (.unterminated (offset + i)))
    | some j => do
      let body ← read (← cut rest (i + 1) j)
      let wildcard ← (wildcardOf (offset + i) body).mapError .fault
      let _ ← cut rest (j + 1) rest.length
      let after ← splitFrom (offset + (j + 1)) (rest.drop (j + 1))
      return before ++ wildcard :: after
termination_by rest.length
decreasing_by
  have hne : rest ≠ [] := by
    rintro rfl
    cases _hopen
  have hpos := List.length_pos_iff.2 hne
  rw [List.length_drop]
  omega

def split (pattern : Bytes) : Except Halt (List Segment) := splitFrom 0 pattern

end Scan

end Routing.Pattern
