import Routing.Unicode.Category

/-!
# Quoted text

Text between double quotes, as it is shown in the description of a value. A backslash stands before
quotes and backslashes and in front of a letter for the common controls; other characters that
cannot be seen, and marks that would join the quote, are written by their code point.

* `quote` — the quoted text.
-/

namespace Routing.Text

/-- Characters beside marks that extend the character before them. -/
def otherExtending : Unicode.Ranges :=
  Unicode.Ranges.read "9BE 9D7 B3E B57 BBE BD7 CC0 CC2 CC7-CC8 CCA-CCB CD5-CD6 D3E D57 DCF DDF 1715
    1734 1B35 1B3B 1B3D 1B43-1B44 1BAA 1BF2-1BF3 200C 302E-302F A953 A9C0 FF9E-FF9F 111C0 11235
    1133E 1134D 11357 113B8 113C2 113C5 113C7-113C9 113CF 114B0 114BD 115AF 116B6 11930 1193D
    16FF0-16FF1 1D165 1D16D-1D172 E0020-E007F"

def isExtending (c : Char) : Bool :=
  0x300 ≤ c.toNat &&
    (Unicode.Category.nonspacingMarkRanges.contains c ||
      Unicode.Category.enclosingMarkRanges.contains c || otherExtending.contains c)

/-- The categories of characters that can be seen. -/
def visibleCategories : List Unicode.Category :=
  Unicode.Category.letters ++ Unicode.Category.marks ++ Unicode.Category.numbers ++
    Unicode.Category.punctuation ++ Unicode.Category.symbols

def isVisible (c : Char) : Bool :=
  if c.toNat < 128 then 32 ≤ c.toNat && c.toNat < 127
  else visibleCategories.any fun category => category.ranges.contains c

def escapeChar (c : Char) : Text :=
  match c with
  | '\x00' => ['\\', '0']
  | '\t' => ['\\', 't']
  | '\n' => ['\\', 'n']
  | '\r' => ['\\', 'r']
  | '\\' => ['\\', '\\']
  | '"' => ['\\', '"']
  | c =>
    if isVisible c && !isExtending c then [c]
    else ['\\', 'u', '{'] ++ Nat.toDigits 16 c.toNat ++ ['}']

def quote (t : Text) : Text := ['"'] ++ t.flatMap escapeChar ++ ['"']

end Routing.Text
