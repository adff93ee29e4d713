import DesktopTerminal.Text.Ranges

/-!
# Blank characters

Blanks are the characters with the Unicode property White_Space, as in PropList.txt. Trimming and
splitting into words go by this class everywhere except in the command-line scanner, whose four
blanks are a class of their own.
-/
namespace DesktopTerminal.Text

/-- The blanks outside ASCII, as inclusive ranges of code points. -/
def wideBlanks : List (Nat × Nat) :=
  [(0x85, 0x85), (0xa0, 0xa0), (0x1680, 0x1680), (0x2000, 0x200a), (0x2028, 0x2029),
    (0x202f, 0x202f), (0x205f, 0x205f), (0x3000, 0x3000)]

def isBlank (c : Char) : Bool :=
  c == ' ' || (9 ≤ c.toNat && c.toNat ≤ 13) ||
    (128 ≤ c.toNat && inRanges wideBlanks c)

/-- A text of blanks only, the empty one included. -/
def isBlankText (s : String) : Bool := s.toList.all isBlank

def trimStartChars (cs : List Char) : List Char := cs.dropWhile isBlank

/-- The text without its longest ending all of whose characters satisfy `p`. -/
def dropEndWhile (p : Char → Bool) (cs : List Char) : List Char :=
  (cs.reverse.dropWhile p).reverse

def trimEndChars (cs : List Char) : List Char := dropEndWhile isBlank cs

def trimEnd (s : String) : String := String.ofList (trimEndChars s.toList)

def trim (s : String) : String := String.ofList (trimEndChars (trimStartChars s.toList))

end DesktopTerminal.Text
