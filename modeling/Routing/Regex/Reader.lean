import Routing.Regex.Classes
import Routing.Regex.Expr

/-!
# Reading a regular expression

The text of a regular expression is read one character at a time. The reader keeps the groups and
the brackets that are open, the flags in force, and what the next character continues. With the
flag `x` it may be in blanks or in a comment, which most places skip.

* `Reader.step` — the reader behind one more character, if the text can still be an expression.
* `Reader.run` — the reader behind a text.
* `Reader.finish` — the expression that was read, if nothing is left open.
-/

namespace Routing.Regex

structure Flags where
  caseless : Bool := false
  multiline : Bool := false
  dotAll : Bool := false
  crlf : Bool := false
  /-- Blanks and comments between the parts of the expression mean nothing. -/
  verbose : Bool := false
  unicode : Bool := true
  deriving DecidableEq, Repr

/-- The flags with one of them set or cleared; swapping greed does not change what matches. -/
def Flags.put (f : Flags) (letter : Char) (on : Bool) : Option Flags :=
  match letter with
  | 'i' => some { f with caseless := on }
  | 'm' => some { f with multiline := on }
  | 's' => some { f with dotAll := on }
  | 'R' => some { f with crlf := on }
  | 'x' => some { f with verbose := on }
  | 'u' => some { f with unicode := on }
  | 'U' => some f
  | _ => none

/-- What a place skips before it takes a character. -/
inductive Skip where
  | nothing | blanks
  /-- The rest of a line, and then blanks. -/
  | comment
  deriving DecidableEq, Repr

def Flags.skip (f : Flags) : Skip := if f.verbose then .blanks else .nothing

/-- One part of a branch. Setting flags is a part too, but cannot be repeated. `nesting` is the
depth of the part as a tree. -/
structure Item where
  expr : Expr
  nesting : Nat := 0
  repeatable : Bool := true

namespace Item

/-- The parts of a branch as one; `items` has the last one first. -/
def seq : List Item → Item
  | [] => { expr := .empty }
  | [item] => item
  | item :: items =>
    { expr := items.foldl (fun e i => .seq i.expr e) item.expr
      nesting := 1 + (item :: items).foldl (fun n i => max n i.nesting) 0 }

/-- The branches of a group as one; `items` has the last one first. -/
def alt : List Item → Item
  | [] => { expr := .empty }
  | [item] => item
  | item :: items =>
    { expr := items.foldl (fun e i => .alt i.expr e) item.expr
      nesting := 1 + (item :: items).foldl (fun n i => max n i.nesting) 0 }

end Item

/-- An open group: the flags to go back to, and what was read of the group around it. -/
structure Frame where
  flags : Flags
  branches : List Item
  items : List Item

/-- The members of a bracket read so far, and the depth of the deepest. -/
structure Members where
  count : Nat := 0
  set : CharSet := .empty
  nesting : Nat := 0

/-- A set of characters, and the depth of the tree it was written as. -/
structure Value where
  set : CharSet
  nesting : Nat := 0

inductive SetOperator where
  | intersection | difference | symmetricDifference
  deriving DecidableEq, Repr

/-- An open bracket. The operators between its operands all bind alike, to the left. -/
structure Bracket where
  negated : Bool := false
  pending : Option (Value × SetOperator) := none
  members : Members := {}

/-- One character, class or anchor, before it is known what it is for. -/
inductive Primitive where
  /-- A character; `byte` when it was written with two hexadecimal digits. -/
  | char (c : Char) (byte : Bool)
  | set (s : CharSet)
  | anchor (a : Anchor)

/-- What a primitive is read for: as part of a branch, as member of a bracket, or as the end of
a range there. -/
inductive Purpose where
  | part
  | member
  | rangeEnd (first : Primitive)

/-- How a bracket opens: a circumflex may follow, then hyphens or one closing bracket that stand
for themselves. -/
inductive Opening where
  | bracket | circumflex | hyphens
  deriving DecidableEq, Repr

/-- What stands between a hyphen in a bracket and the character that decides about it. -/
inductive Gap where
  | nothing | blanks | comment
  /-- A comment and the end of its line. -/
  | commentLine
  deriving DecidableEq, Repr

/-- Where a number in a counted repetition stands. -/
inductive CountPlace where
  | before | within | behind
  /-- Right behind the comma. -/
  | comma
  deriving DecidableEq, Repr

/-- What the next character continues. -/
inductive Mode where
  /-- A part of a branch may start here. -/
  | part
  /-- Behind a repetition; a question mark here makes it prefer fewer rounds. -/
  | lazyMark
  /-- Behind the parenthesis that opens a group. -/
  | group
  /-- Behind `(?`. -/
  | groupMark
  /-- Behind `(?P`. -/
  | groupP
  /-- Behind `(?<`. -/
  | groupAngle
  | groupName (name : Text)
  /-- In the flags of a group: the letters so far, whether a hyphen was among them and was the
  last, and the flags they make. -/
  | groupFlags (letters : Text) (negated dangling : Bool) (flags : Flags)
  /-- In a counted repetition: the first number once it is complete, the digits of the one being
  read. -/
  | count (least : Option Nat) (digits : Text) (place : CountPlace)
  | escape (purpose : Purpose)
  /-- Behind the letter that opens a hexadecimal escape of `digits` digits. -/
  | hexOpen (purpose : Purpose) (digits : Nat)
  /-- `left` digits of the escape are still to come. -/
  | hexDigits (purpose : Purpose) (digits left value : Nat)
  | hexBrace (purpose : Purpose) (value : Option Nat)
  | propertyOpen (purpose : Purpose) (negated : Bool)
  | propertyBrace (purpose : Purpose) (negated : Bool) (description : Text)
  /-- Behind the escape of a word boundary. -/
  | boundary
  | boundaryOpen
  | boundaryName (name : Text)
  | bracketOpen (opening : Opening)
  /-- A member of a bracket may start here. -/
  | member
  /-- Behind a character that is an operator when written twice. -/
  | twin (c : Char)
  /-- Behind a primitive in a bracket. -/
  | behind (first : Primitive)
  /-- Behind a hyphen that follows a primitive in a bracket. -/
  | hyphen (first : Primitive) (gap : Gap)
  | rangeEnd (first : Primitive)
  /-- Behind a bracket inside a bracket, in what may be the name of a class. -/
  | posix (spelling : Text)

structure Reader where
  /-- The open groups, the innermost first. -/
  frames : List Frame := []
  /-- The finished branches of the innermost group, the last first. -/
  branches : List Item := []
  /-- The parts of the current branch, the last first. -/
  items : List Item := []
  flags : Flags := {}
  /-- The names of groups, of which each may be used once. -/
  names : List Text := []
  /-- The open brackets, the innermost first. -/
  brackets : List Bracket := []
  mode : Mode := .part
  skip : Skip := .nothing

namespace Reader

/-- Goes on in a mode, skipping blanks before the next character if the flags say so. -/
def goto (r : Reader) (mode : Mode) : Reader := { r with mode := mode, skip := r.flags.skip }

/-- Goes on in a mode with the very next character. -/
def stay (r : Reader) (mode : Mode) : Reader := { r with mode := mode, skip := .nothing }

/-- Hands a character to `take`, unless the reader skips it. -/
def pass (r : Reader) (c : Char) (take : Option Reader) : Option Reader :=
  match r.skip with
  | .nothing => take
  | .blanks =>
    if Unicode.Property.isSpace c then some r
    else if c = '#' then some { r with skip := .comment }
    else take
  | .comment => some (if c = '\n' then { r with skip := .blanks } else r)

def push (r : Reader) (item : Item) : Reader := { r with items := item :: r.items }.goto .part

/-- The set with all case variants, if case does not matter. -/
def fold (f : Flags) (s : CharSet) : CharSet :=
  if f.caseless then if f.unicode then .caseless s else .asciiCaseless s else s

/-! ## Primitives -/

/-- The character as part of a branch. Without Unicode an escape of two digits is a byte, and a
byte beyond ASCII is no text. -/
def charExpr (f : Flags) (c : Char) (byte : Bool) : Option Expr :=
  if !f.unicode && byte && 128 ≤ c.toNat then none else some (.set (fold f (.single c)))

/-- A character a bracket can hold: without Unicode only ASCII. -/
def bracketChar (f : Flags) (c : Char) : Bool := f.unicode || c.toNat < 128

def updateBracket (r : Reader) (change : Bracket → Bracket) : Reader :=
  match r.brackets with
  | [] => r
  | b :: rest => { r with brackets := change b :: rest }

def addMember (r : Reader) (v : Value) : Reader :=
  r.updateBracket fun b =>
    { b with members :=
        { count := b.members.count + 1
          set := .union b.members.set v.set
          nesting := max b.members.nesting v.nesting } }

/-- Adds a single primitive to the bracket. -/
def addPrimitive (r : Reader) : Primitive → Option Reader
  | .char c _ => if bracketChar r.flags c then some (r.addMember { set := .single c }) else none
  | .set s => some (r.addMember { set := s })
  | .anchor _ => none

/-- Puts a primitive that was read to its purpose. -/
def deliver (r : Reader) (purpose : Purpose) (p : Primitive) : Option Reader :=
  match purpose, p with
  | .part, .char c byte => (charExpr r.flags c byte).map fun e => r.push { expr := e }
  | .part, .set s => some (r.push { expr := .set s })
  | .part, .anchor a => some (r.push { expr := .anchor a })
  | .member, .anchor _ => none
  | .member, p => some (r.goto (.behind p))
  | .rangeEnd (.char lo _), .char hi _ =>
    if bracketChar r.flags lo && bracketChar r.flags hi && lo.toNat ≤ hi.toNat then
      some ((r.addMember { set := .range lo hi }).goto .member)
    else none
  | .rangeEnd _, _ => none

/-! ## Groups and branches -/

def openGroup (r : Reader) (flags : Flags) : Reader :=
  { r with
    frames := { flags := r.flags, branches := r.branches, items := r.items } :: r.frames
    branches := [], items := [], flags := flags }.goto .part

/-- All that was read of the innermost group, as one item. -/
def groupItem (r : Reader) : Item := Item.alt (Item.seq r.items :: r.branches)

def closeGroup (r : Reader) : Option Reader :=
  match r.frames with
  | [] => none
  | frame :: frames =>
    let item := r.groupItem
    some ({ r with
      frames := frames, branches := frame.branches, items := frame.items
      flags := frame.flags }.push { expr := item.expr, nesting := item.nesting + 1 })

def closeBranch (r : Reader) : Reader :=
  { r with branches := Item.seq r.items :: r.branches, items := [] }.goto .part

/-- Repeats the last part of the branch, which must be there. -/
def repeatLast (r : Reader) (least : Nat) (most : Option Nat) : Option Reader :=
  match r.items with
  | [] => none
  | item :: items =>
    if item.repeatable then
      some { r with items :=
        { expr := .times item.expr least most, nesting := item.nesting + 1 } :: items }
    else none

def canRepeat (r : Reader) : Bool := r.items.head?.any Item.repeatable

def newline : CharSet := .single '\n'

/-- The characters a dot stands for. -/
def dotSet (f : Flags) : CharSet :=
  if f.dotAll then .any
  else if f.crlf then .compl (.union newline (.single '\r'))
  else .compl newline

def startAnchor (f : Flags) : Anchor :=
  if f.multiline then if f.crlf then .crlfLineStart else .lineStart else .textStart

def endAnchor (f : Flags) : Anchor :=
  if f.multiline then if f.crlf then .crlfLineEnd else .lineEnd else .textEnd

/-- Takes a character where a part of a branch may start. -/
def takePart (r : Reader) (c : Char) : Option Reader :=
  match c with
  | '(' => some (r.goto .group)
  | ')' => r.closeGroup
  | '|' => some r.closeBranch
  | '[' => some ({ r with brackets := [{}] }.goto (.bracketOpen .bracket))
  | '?' => (r.repeatLast 0 (some 1)).map (·.stay .lazyMark)
  | '*' => (r.repeatLast 0 none).map (·.stay .lazyMark)
  | '+' => (r.repeatLast 1 none).map (·.stay .lazyMark)
  | '{' => if r.canRepeat then some (r.goto (.count none [] .before)) else none
  | '\\' => some (r.stay (.escape .part))
  | '.' => if r.flags.unicode then some (r.push { expr := .set (dotSet r.flags) }) else none
  | '^' => some (r.push { expr := .anchor (startAnchor r.flags) })
  | '$' => some (r.push { expr := .anchor (endAnchor r.flags) })
  | c => r.deliver .part (.char c false)

/-- Takes a character where a part may start, after blanks. -/
def enterPart (r : Reader) (c : Char) : Option Reader :=
  let r := r.goto .part
  r.pass c (r.takePart c)

/-- Takes a character behind the opening parenthesis of a group. -/
def takeGroup (r : Reader) (c : Char) : Option Reader :=
  if c = '?' then some (r.stay .groupMark) else (r.openGroup r.flags).takePart c

def takeFlags (r : Reader) (letters : Text) (negated dangling : Bool) (flags : Flags) (c : Char) :
    Option Reader :=
  if c = ':' ∨ c = ')' then
    if dangling then none
    else if c = ':' then some (r.openGroup flags)
    else if letters = [] then none
    else some ({ r with flags := flags }.push { expr := .empty, repeatable := false })
  else if c = '-' then
    if negated then none else some (r.stay (.groupFlags letters true true flags))
  else if letters.contains c then none
  else (flags.put c !negated).map fun flags =>
    r.stay (.groupFlags (c :: letters) negated false flags)

/-- A character a group's name can hold. -/
def isNameChar (isFirst : Bool) (c : Char) : Bool :=
  c == '_' ||
    if isFirst then Unicode.Property.isAlphabetic c
    else c == '.' || c == '[' || c == ']' || Unicode.Property.isAlphanumeric c

def takeName (r : Reader) (name : Text) (c : Char) : Option Reader :=
  if c = '>' then
    if name = [] ∨ name ∈ r.names then none
    else some ({ r with names := name :: r.names }.openGroup r.flags)
  else if isNameChar name.isEmpty c then some (r.stay (.groupName (name ++ [c])))
  else none

/-! ## Counted repetition -/

/-- The number with these digits, if it fits 32 bits. -/
def number? (digits : Text) : Option Nat :=
  if digits = [] then none
  else
    let n := digits.foldl (fun n d => 10 * n + (d.toNat - 48)) 0
    if n < 0x100000000 then some n else none

def takeCount (r : Reader) (least : Option Nat) (digits : Text) (place : CountPlace) (c : Char) :
    Option Reader :=
  let close (least : Nat) (most : Option Nat) : Option Reader :=
    (r.repeatLast least most).map (·.goto .lazyMark)
  if c.isDigit then
    match place with
    | .behind => none
    | _ => some (r.goto (.count least (digits ++ [c]) .within))
  else if Unicode.Property.isSpace c then
    match place with
    | .before | .comma => some (r.stay (.count least digits .before))
    | .within | .behind => some (r.goto (.count least digits .behind))
  else if c = ',' then
    match least, number? digits with
    | none, some n => some (r.goto (.count (some n) [] .comma))
    | _, _ => none
  else if c = '}' then
    match least, number? digits with
    | none, some n => close n (some n)
    | some n, some m => if n ≤ m then close n (some m) else none
    | some n, none => if place = .comma then close n none else none
    | none, none => none
  else none

/-! ## Escapes -/

/-- Characters with a meaning of their own, which a backslash takes away. -/
def isMeta (c : Char) : Bool :=
  ['\\', '.', '+', '*', '?', '(', ')', '|', '[', ']', '{', '}', '^', '$', '#', '&', '-',
    '~'].contains c

/-- Other characters that may be written behind a backslash: ASCII without letters, digits and
angle brackets. -/
def isEscapable (c : Char) : Bool :=
  c.toNat < 128 && !c.isAlphanum && c != '<' && c != '>'

/-- A class with a letter of its own. Without Unicode its complement would hold bytes that are no
text. -/
def letterClass (r : Reader) (purpose : Purpose) (k : LetterClass) (negated : Bool) :
    Option Reader :=
  if negated && !r.flags.unicode then none
  else r.deliver purpose (.set (.complIf negated (Classes.letter r.flags.unicode k)))

def wordAnchor (r : Reader) (edge : WordEdge) : Primitive := .anchor (.word r.flags.unicode edge)

/-- Takes the character behind a backslash. -/
def takeEscape (r : Reader) (purpose : Purpose) (c : Char) : Option Reader :=
  let char (c : Char) := r.deliver purpose (.char c false)
  if isMeta c || isEscapable c then char c
  else
    match c with
    | 'x' => some (r.goto (.hexOpen purpose 2))
    | 'u' => some (r.goto (.hexOpen purpose 4))
    | 'U' => some (r.goto (.hexOpen purpose 8))
    | 'p' => some (r.goto (.propertyOpen purpose false))
    | 'P' => some (r.goto (.propertyOpen purpose true))
    | 'd' => r.letterClass purpose .digit false
    | 's' => r.letterClass purpose .space false
    | 'w' => r.letterClass purpose .word false
    | 'D' => r.letterClass purpose .digit true
    | 'S' => r.letterClass purpose .space true
    | 'W' => r.letterClass purpose .word true
    | 'a' => char '\x07'
    | 'f' => char '\x0C'
    | 't' => char '\t'
    | 'n' => char '\n'
    | 'r' => char '\r'
    | 'v' => char '\x0B'
    | 'A' => r.deliver purpose (.anchor .textStart)
    | 'z' => r.deliver purpose (.anchor .textEnd)
    | 'b' =>
      match purpose with
      | .part => some (r.stay .boundary)
      | _ => none
    | 'B' => r.deliver purpose (r.wordAnchor .inner)
    | '<' => r.deliver purpose (r.wordAnchor .opening)
    | '>' => r.deliver purpose (r.wordAnchor .closing)
    | _ => none

/-- The character with this code point, if there is one. -/
def charOf? (n : Nat) : Option Char := if n.isValidChar then some (Char.ofNat n) else none

def takeHexDigits (r : Reader) (purpose : Purpose) (digits left value : Nat) (c : Char) :
    Option Reader := do
  let value := 16 * value + (← Text.hexDigit? c)
  if left ≤ 1 then r.deliver purpose (.char (← charOf? value) (digits = 2))
  else some (r.goto (.hexDigits purpose digits (left - 1) value))

def takeHexBrace (r : Reader) (purpose : Purpose) (value : Option Nat) (c : Char) :
    Option Reader := do
  if c = '}' then r.deliver purpose (.char (← charOf? (← value)) false)
  else
    let value := 16 * value.getD 0 + (← Text.hexDigit? c)
    if value < 0x110000 then some (r.goto (.hexBrace purpose (some value))) else none

/-- A class named by a property. Case is folded before the complement is taken. -/
def property (r : Reader) (purpose : Purpose) (negated : Bool) (description : Text) :
    Option Reader := do
  let s ← Classes.property? description
  if r.flags.unicode then r.deliver purpose (.set (.complIf negated (fold r.flags s))) else none

def takeProperty (r : Reader) (purpose : Purpose) (negated : Bool) (c : Char) : Option Reader :=
  if c = '{' then some (r.goto (.propertyBrace purpose negated []))
  else if c = '\\' then none
  else do
    let s ← Classes.named? [c]
    if r.flags.unicode then r.deliver purpose (.set (.complIf negated (fold r.flags s))) else none

def edgeNamed? (name : Text) : Option WordEdge :=
  match String.ofList name with
  | "start" => some .opening
  | "end" => some .closing
  | "start-half" => some .openingHalf
  | "end-half" => some .closingHalf
  | _ => none

def isEdgeChar (c : Char) : Bool := c.isAlpha || c == '-'

/-- Takes a character behind the opening brace that follows a word boundary: the name of a
special boundary, or else a counted repetition. -/
def takeBoundaryOpen (r : Reader) (c : Char) : Option Reader :=
  if isEdgeChar c then some (r.goto (.boundaryName [c]))
  else (r.push { expr := .anchor (.word r.flags.unicode .boundary) }).takeCount none [] .before c

/-! ## Brackets -/

def openBracket (r : Reader) : Reader := { r with brackets := {} :: r.brackets }

/-- The operand read so far. -/
def Members.value (m : Members) : Value :=
  { set := m.set, nesting := if 2 ≤ m.count then m.nesting + 1 else m.nesting }

/-- Without Unicode sets hold ASCII only, and no complement does. -/
def bracketNegated (r : Reader) (negated : Bool) : Bool := negated && !r.flags.unicode

def SetOperator.apply (op : SetOperator) (s t : CharSet) : CharSet :=
  match op with
  | .intersection => .inter s t
  | .difference => .diff s t
  | .symmetricDifference => .symmDiff s t

/-- The value of the operators and operands read so far. -/
def Bracket.value (b : Bracket) (f : Flags) : Value :=
  let right := Members.value b.members
  match b.pending with
  | none => right
  | some (left, op) =>
    { set := SetOperator.apply op (fold f left.set) (fold f right.set)
      nesting := 1 + max left.nesting right.nesting }

def putOperator (r : Reader) (op : SetOperator) : Reader :=
  (r.updateBracket fun b =>
    { b with pending := some (Bracket.value b r.flags, op), members := {} }).goto .member

def closeBracket (r : Reader) : Option Reader :=
  match r.brackets with
  | [] => none
  | b :: outer =>
    let v := Bracket.value b r.flags
    let set := CharSet.complIf b.negated (fold r.flags v.set)
    if r.bracketNegated b.negated then none
    else
      match outer with
      | [] => some ({ r with brackets := [] }.push { expr := .set set, nesting := v.nesting + 1 })
      | _ :: _ =>
        some (({ r with brackets := outer }.addMember
          { set := set, nesting := v.nesting + 1 }).goto .member)

/-- Takes a character where a member of a bracket may start. -/
def takeMember (r : Reader) (c : Char) : Option Reader :=
  match c with
  | '[' => some (r.stay (.posix []))
  | ']' => r.closeBracket
  | '&' | '-' | '~' => some (r.stay (.twin c))
  | '\\' => some (r.stay (.escape .member))
  | c => r.deliver .member (.char c false)

/-- Takes a character behind a primitive in a bracket: a hyphen may make it the start of a
range. -/
def takeBehind (r : Reader) (first : Primitive) (c : Char) : Option Reader :=
  if c = '-' then some (r.stay (.hyphen first .nothing))
  else do (← r.addPrimitive first).takeMember c

def enterBehind (r : Reader) (first : Primitive) (c : Char) : Option Reader :=
  let r := r.goto (.behind first)
  r.pass c (r.takeBehind first c)

def operator? (c : Char) : Option SetOperator :=
  match c with
  | '&' => some .intersection
  | '-' => some .difference
  | '~' => some .symmetricDifference
  | _ => none

def takeTwin (r : Reader) (first c : Char) : Option Reader :=
  if c = first then (operator? c).map r.putOperator
  else r.enterBehind (.char first false) c

def takeRangeEnd (r : Reader) (first : Primitive) (c : Char) : Option Reader :=
  if c = '\\' then some (r.stay (.escape (.rangeEnd first)))
  else r.deliver (.rangeEnd first) (.char c false)

/-- Takes a character behind a hyphen that follows a primitive. A closing bracket or a second
hyphen leaves the primitive by itself; anything else makes a range. A comment between them is
looked through to decide, and then skipped. -/
def takeHyphen (r : Reader) (first : Primitive) (gap : Gap) (c : Char) : Option Reader :=
  let hyphen := Primitive.char '-' false
  if r.flags.verbose && Unicode.Property.isSpace c then
    let gap := match gap with
      | .nothing | .blanks => Gap.blanks
      | .comment => if c = '\n' then .commentLine else .comment
      | .commentLine => .commentLine
    some (r.stay (.hyphen first gap))
  else if r.flags.verbose && c == '#' && (gap = .nothing || gap = .blanks) then
    some (r.stay (.hyphen first .comment))
  else if c = ']' ∨ c = '-' then
    (r.addPrimitive first).bind fun r =>
      match gap with
      | .nothing =>
        if c = '-' then some (r.putOperator .difference)
        else (r.addPrimitive hyphen).bind (·.takeMember c)
      | .blanks | .commentLine => r.takeBehind hyphen c
      | .comment => some { r with mode := .behind hyphen, skip := .comment }
  else
    match gap with
    | .nothing | .blanks => r.takeRangeEnd first c
    | .comment => some { r with mode := .rangeEnd first, skip := .comment }
    | .commentLine =>
      if c = '#' then some { r with mode := .rangeEnd first, skip := .comment }
      else r.takeRangeEnd first c

def takeBracketOpen (r : Reader) (opening : Opening) (c : Char) : Option Reader :=
  match opening, c with
  | .bracket, '^' =>
    some ((r.updateBracket fun b => { b with negated := true }).goto (.bracketOpen .circumflex))
  | _, '-' => some ((r.addMember { set := .single '-' }).goto (.bracketOpen .hyphens))
  | .hyphens, c => r.takeMember c
  | _, ']' => some ((r.addMember { set := .single ']' }).goto .member)
  | _, c => r.takeMember c

/-- Opens a bracket and takes the text that follows it, in which every character stands for
itself, and then one more character. -/
def takePlain (r : Reader) (text : Text) (c : Char) : Option Reader :=
  let r := r.openBracket.goto (.bracketOpen .bracket)
  match text.getLast? with
  | none => r.pass c (r.takeBracketOpen .bracket c)
  | some last =>
    (text.dropLast.foldl (fun r d => r.addMember { set := .single d }) r).enterBehind
      (.char last false) c

/-- Takes a character of what may be the name of a class; if it turns out to be none, the
bracket before it opened a set inside the set. -/
def takePosix (r : Reader) (spelling : Text) (c : Char) : Option Reader :=
  let longer := spelling ++ [c]
  match Classes.posix? longer with
  | some (negated, s) =>
    if r.bracketNegated negated then none
    else some ((r.addMember { set := CharSet.complIf negated (fold r.flags s) }).goto .member)
  | none =>
    if Classes.opensPosix longer then some (r.stay (.posix longer)) else r.takePlain spelling c

/-! ## The reader -/

/-- Takes a character that is not skipped. -/
def take (r : Reader) (c : Char) : Option Reader :=
  match r.mode with
  | .part => r.takePart c
  | .lazyMark => if c = '?' then some (r.goto .part) else r.enterPart c
  | .group => r.takeGroup c
  | .groupMark =>
    if c = 'P' then some (r.stay .groupP)
    else if c = '<' then some (r.stay .groupAngle)
    else r.takeFlags [] false false r.flags c
  | .groupP => if c = '<' then some (r.stay (.groupName [])) else none
  | .groupAngle => if c = '=' ∨ c = '!' then none else r.takeName [] c
  | .groupName name => r.takeName name c
  | .groupFlags letters negated dangling flags => r.takeFlags letters negated dangling flags c
  | .count least digits place => r.takeCount least digits place c
  | .escape purpose => r.takeEscape purpose c
  | .hexOpen purpose digits =>
    if c = '{' then some (r.goto (.hexBrace purpose none))
    else r.takeHexDigits purpose digits digits 0 c
  | .hexDigits purpose digits left value => r.takeHexDigits purpose digits left value c
  | .hexBrace purpose value => r.takeHexBrace purpose value c
  | .propertyOpen purpose negated => r.takeProperty purpose negated c
  | .propertyBrace purpose negated description =>
    if c = '}' then r.property purpose negated description
    else some (r.goto (.propertyBrace purpose negated (description ++ [c])))
  | .boundary =>
    if c = '{' then some (r.goto .boundaryOpen)
    else (r.push { expr := .anchor (.word r.flags.unicode .boundary) }).enterPart c
  | .boundaryOpen => r.takeBoundaryOpen c
  | .boundaryName name =>
    if isEdgeChar c then some (r.goto (.boundaryName (name ++ [c])))
    else if c = '}' then
      (edgeNamed? name).map fun edge => r.push { expr := .anchor (.word r.flags.unicode edge) }
    else none
  | .bracketOpen opening => r.takeBracketOpen opening c
  | .member => r.takeMember c
  | .twin first => r.takeTwin first c
  | .behind first => r.takeBehind first c
  | .hyphen first gap => r.takeHyphen first gap c
  | .rangeEnd first => r.takeRangeEnd first c
  | .posix spelling => r.takePosix spelling c

def step (r : Reader) (c : Char) : Option Reader := r.pass c (r.take c)

def run (r : Reader) : Text → Option Reader
  | [] => some r
  | c :: t => (r.step c).bind (·.run t)

/-- What was read, if no group, bracket, escape or number is left open. -/
def finish (r : Reader) : Option Item :=
  let r :=
    match r.mode with
    | .boundary => r.push { expr := .anchor (.word r.flags.unicode .boundary) }
    | _ => r
  match r.mode, r.frames with
  | .part, [] | .lazyMark, [] => some r.groupItem
  | _, _ => none

end Reader

end Routing.Regex
