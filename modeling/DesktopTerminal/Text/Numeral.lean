/-!
# Reading numerals

An unsigned decimal numeral may carry one plus sign, has at least one digit, and must stay below
the bound of the type it is read for.
-/
namespace DesktopTerminal.Text

/-- Ten to the power of `n`. -/
def tenTo (n : Nat) : Nat := Nat.pow 10 n

/-- The value of a digit in base ten. -/
def digitValue? (c : Char) : Option Nat :=
  if c.isDigit then some (c.toNat - '0'.toNat) else none

/-- The number written by the digits `cs` after digits of value `value`. -/
def readDigits (value : Nat) : List Char → Option Nat
  | [] => some value
  | c :: cs => (digitValue? c).bind fun d => readDigits (10 * value + d) cs

/-- Reads a numeral whose value is below `bound`. -/
def readUnsigned (bound : Nat) (s : String) : Option Nat :=
  let digits := match s.toList with
    | '+' :: rest => rest
    | cs => cs
  if digits.isEmpty then none
  else (readDigits 0 digits).bind fun n => if n < bound then some n else none

end DesktopTerminal.Text
