/-!
# Columns

Padding to a width counted in characters, and numerals padded with zeros.
-/
namespace DesktopTerminal.Text

def spaces (n : Nat) : String := String.ofList (List.replicate n ' ')

/-- The text with spaces after it, up to `width` characters. -/
def padRight (width : Nat) (s : String) : String := s ++ spaces (width - s.length)

/-- The text with spaces before it, up to `width` characters. -/
def padLeft (width : Nat) (s : String) : String := spaces (width - s.length) ++ s

/-- The decimal numeral of `n` with at least `width` digits. -/
def zeroPadded (width n : Nat) : String :=
  let digits := Nat.toDigits 10 n
  String.ofList (List.replicate (width - digits.length) '0' ++ digits)

def numeral (n : Nat) : String := zeroPadded 1 n

end DesktopTerminal.Text
