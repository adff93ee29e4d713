/-!
# Ranges of characters

A class of characters is written as the inclusive ranges of its code points.
-/
namespace DesktopTerminal.Text

def inRanges (ranges : List (Nat × Nat)) (c : Char) : Bool :=
  ranges.any fun r => r.1 ≤ c.toNat && c.toNat ≤ r.2

end DesktopTerminal.Text
