import Routing.Text.Hex

/-!
# Ranges of code points

A set of characters written as a list of ranges, each `lo-hi` or a single point, in hexadecimal.

* `Ranges.contains` — whether a character lies in one of the ranges.
-/

namespace Routing.Unicode

abbrev Ranges := List (Nat × Nat)

namespace Ranges

def contains (ranges : Ranges) (c : Char) : Bool :=
  ranges.any fun range => range.1 ≤ c.toNat && c.toNat ≤ range.2

def read (table : String) : Ranges :=
  (Text.words table.toList).map fun word =>
    match Text.cut '-' word with
    | (lo, none) => (Text.hexNumber lo, Text.hexNumber lo)
    | (lo, some hi) => (Text.hexNumber lo, Text.hexNumber hi)

end Ranges

end Routing.Unicode
