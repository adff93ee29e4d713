import DesktopTerminal.Text.Size

/-!
# Searching for a literal text

A search compares characters with a given relation: equality, or equality after ASCII letters have
been folded. Matches are taken from the left and never overlap.
-/
namespace DesktopTerminal.Text

/-- How characters are compared. -/
def sameChar (ignoreCase : Bool) (c d : Char) : Bool :=
  if ignoreCase then c.toLower == d.toLower else c == d

/-- Whether the text starts with a match of `needle`. -/
def matchesAt (same : Char → Char → Bool) : List Char → List Char → Bool
  | [], _ => true
  | _ :: _, [] => false
  | n :: needle, c :: cs => same n c && matchesAt same needle cs

/-- What stands before the first match. -/
def beforeMatch? (same : Char → Char → Bool) (needle : List Char) : List Char → Option (List Char)
  | [] => if needle.isEmpty then some [] else none
  | c :: cs =>
    if matchesAt same needle (c :: cs) then some []
    else (beforeMatch? same needle cs).map (c :: ·)

/-- The offset in bytes of the first match. -/
def find? (haystack needle : String) (ignoreCase : Bool) : Option Nat :=
  (beforeMatch? (sameChar ignoreCase) needle.toList haystack.toList).map size

end DesktopTerminal.Text
