import Routing.Text

/-!
# Hexadecimal digits
-/

namespace Routing.Text

/-- The value of a hexadecimal digit, in either case. -/
def hexDigit? (c : Char) : Option Nat :=
  let n := c.toNat
  if 48 ≤ n ∧ n ≤ 57 then some (n - 48)
  else if 97 ≤ n ∧ n ≤ 102 then some (n - 87)
  else if 65 ≤ n ∧ n ≤ 70 then some (n - 55)
  else none

/-- The number written in hexadecimal digits; what is no digit counts as a zero. -/
def hexNumber (t : Text) : Nat := t.foldl (fun n c => 16 * n + (hexDigit? c).getD 0) 0

end Routing.Text
