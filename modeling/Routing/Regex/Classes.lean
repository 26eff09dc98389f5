import Routing.Regex.CharSet
import Routing.Unicode.Property
import Routing.Unicode.Script

/-!
# Named classes of characters

* `Classes.escape` — digits, blanks and word characters, written with one letter.
* `Classes.posix?` — the classes of ASCII characters written in brackets and colons.
* `Classes.property?` — the classes of Unicode: general categories, scripts, binary properties.
-/

namespace Routing.Regex

/-- The three classes that have a letter of their own. -/
inductive LetterClass where
  | digit | space | word
  deriving DecidableEq, Repr

namespace Classes

def asciiSpace : CharSet := .ranges [('\t', '\r'), (' ', ' ')]

def asciiWord : CharSet := .ranges [('0', '9'), ('A', 'Z'), ('_', '_'), ('a', 'z')]

def letter (unicode : Bool) : LetterClass → CharSet
  | .digit => if unicode then .those Unicode.Property.isDigit 71 else .range '0' '9'
  | .space => if unicode then .those Unicode.Property.isSpace 10 else asciiSpace
  | .word => if unicode then .those Unicode.Property.isWord 796 else asciiWord

/-- The classes of ASCII characters, by name. -/
def posix : List (Text × CharSet) :=
  [(['a', 'l', 'n', 'u', 'm'], .ranges [('0', '9'), ('A', 'Z'), ('a', 'z')]),
   (['a', 'l', 'p', 'h', 'a'], .ranges [('A', 'Z'), ('a', 'z')]),
   (['a', 's', 'c', 'i', 'i'], .range '\x00' '\x7F'),
   (['b', 'l', 'a', 'n', 'k'], .ranges [('\t', '\t'), (' ', ' ')]),
   (['c', 'n', 't', 'r', 'l'], .ranges [('\x00', '\x1F'), ('\x7F', '\x7F')]),
   (['d', 'i', 'g', 'i', 't'], .range '0' '9'),
   (['g', 'r', 'a', 'p', 'h'], .range '!' '~'),
   (['l', 'o', 'w', 'e', 'r'], .range 'a' 'z'),
   (['p', 'r', 'i', 'n', 't'], .range ' ' '~'),
   (['p', 'u', 'n', 'c', 't'], .ranges [('!', '/'), (':', '@'), ('[', '\x60'), ('\x7B', '~')]),
   (['s', 'p', 'a', 'c', 'e'], asciiSpace),
   (['u', 'p', 'p', 'e', 'r'], .range 'A' 'Z'),
   (['w', 'o', 'r', 'd'], asciiWord),
   (['x', 'd', 'i', 'g', 'i', 't'], .ranges [('0', '9'), ('A', 'F'), ('a', 'f')])]

/-- A class of ASCII characters as it stands behind its opening bracket: colon, perhaps a
circumflex, name, colon, bracket. The circumflex asks for the complement. -/
def posixSpellings : List (Text × Bool × CharSet) :=
  posix.flatMap fun (name, s) =>
    [([':'] ++ name ++ [':', ']'], false, s), ([':', '^'] ++ name ++ [':', ']'], true, s)]

def posix? (spelling : Text) : Option (Bool × CharSet) :=
  (posixSpellings.find? fun entry => entry.1 == spelling).map Prod.snd

/-- Some class is written with this text and more behind it. -/
def opensPosix (text : Text) : Bool :=
  posixSpellings.any fun entry => text.isPrefixOf entry.1

/-- Names are compared in lower case, without blanks, hyphens and underscores, without what is
not ASCII, and without an `is` in front. -/
def normalize (name : Text) : Text :=
  let (isFirst, body) :=
    match name with
    | a :: b :: rest =>
      if (a == 'i' || a == 'I') && (b == 's' || b == 'S') then (true, rest) else (false, name)
    | _ => (false, name)
  let isKept (c : Char) : Bool := c.toNat < 128 && c != ' ' && c != '_' && c != '-'
  let kept := (body.filter isKept).map Char.toLower
  if isFirst && kept == ['c'] then ['i', 's', 'c'] else kept

def categories (list : List Unicode.Category) : CharSet :=
  .those (Unicode.Property.inCategories list) ((list.map (·.ranges.length)).foldr (· + ·) 0)

def category? (name : String) : Option CharSet :=
  match name with
  | "any" => some .any
  | "ascii" => some (.range '\x00' '\x7F')
  | "assigned" => some (categories Unicode.Category.assigned)
  | "cn" | "unassigned" => some (.compl (categories Unicode.Category.assigned))
  | "c" | "other" =>
    some (.union (categories [.control, .format, .privateUse])
      (.compl (categories Unicode.Category.assigned)))
  | _ => (Unicode.Category.named? name).map categories

def script? (name : String) : Option CharSet :=
  (Unicode.Script.named? name).map fun ranges => .those ranges.contains ranges.length

/-- The class with this name alone: a binary property, a general category or a script, in this
order. Three names belong to a category although a property has them too. -/
def named? (name : Text) : Option CharSet :=
  let name := String.ofList (normalize name)
  let property :=
    if name == "cf" || name == "sc" || name == "lc" then none
    else (Unicode.Property.named? name).map fun test => CharSet.those test 500
  property <|> category? name <|> script? name

/-- The class of the characters whose property has the value. -/
def valued? (property value : Text) : Option CharSet :=
  let value := String.ofList (normalize value)
  match String.ofList (normalize property) with
  | "gc" | "generalcategory" => category? value
  | "sc" | "script" => script? value
  | _ => none

/-- The text before the first `!=`, and the text behind it. -/
def cutUnequal : Text → Option (Text × Text)
  | '!' :: '=' :: rest => some ([], rest)
  | c :: rest => (cutUnequal rest).map fun (before, after) => (c :: before, after)
  | [] => none

/-- The class with the description that stands between the braces. -/
def property? (description : Text) : Option CharSet :=
  match cutUnequal description with
  | some (name, value) => valued? name value
  | none =>
    match Text.cut ':' description with
    | (name, some value) => valued? name value
    | (_, none) =>
      match Text.cut '=' description with
      | (name, some value) => valued? name value
      | (name, none) => named? name

end Classes

end Routing.Regex
