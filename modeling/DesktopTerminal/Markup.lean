import DesktopTerminal.Text.Search

/-!
# Display markup

Commands give plain text and, where it helps the eye, the same text with escape sequences for
colours. An escape sequence is ESC, `[`, and all that follows up to the first ASCII letter.
-/
namespace DesktopTerminal.Markup

def matchStart : String := "\x1b[1;31m"

def directoryStart : String := "\x1b[1;34m"

def reset : String := "\x1b[0m"

/-- Wraps every match of `n :: needle`. -/
def highlightChars (same : Char → Char → Bool) (n : Char) (needle : List Char) :
    List Char → List Char
  | [] => []
  | c :: cs =>
    if Text.matchesAt same (n :: needle) (c :: cs) then
      matchStart.toList ++ (c :: cs.take needle.length) ++ reset.toList ++
        highlightChars same n needle (cs.drop needle.length)
    else c :: highlightChars same n needle cs
termination_by cs => cs.length
decreasing_by
  · rw [List.length_drop, List.length_cons]
    omega
  · exact Nat.lt_succ_self _

/-- The line with every match of `needle` marked. An empty needle marks nothing. -/
def highlight (line needle : String) (ignoreCase : Bool) : String :=
  match needle.toList with
  | [] => line
  | n :: rest => String.ofList (highlightChars (Text.sameChar ignoreCase) n rest line.toList)

def directory (name : String) : String := directoryStart ++ name ++ reset

/-- The text without escape sequences; `inside` tells whether one has been opened. -/
def stripFrom : Bool → List Char → List Char
  | _, [] => []
  | true, c :: cs => stripFrom (!c.isAlpha) cs
  | false, '\x1b' :: '[' :: cs => stripFrom true cs
  | false, c :: cs => c :: stripFrom false cs

def strip (text : String) : String := String.ofList (stripFrom false text.toList)

end DesktopTerminal.Markup
