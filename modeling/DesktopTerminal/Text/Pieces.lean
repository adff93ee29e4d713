import DesktopTerminal.Text.Blank

/-!
# Pieces, words and lines

Three ways to cut a text: at every separator, into runs without blanks, and into lines. A line ends
with a line feed or with a carriage return and a line feed; the last line may lack its ending, and
then keeps a carriage return it has. `joinWith` puts pieces together again.
-/
namespace DesktopTerminal.Text

/-- The pieces between the characters that satisfy `p`: one more than there are such characters. -/
def cut (p : Char → Bool) : List Char → List (List Char)
  | [] => [[]]
  | c :: cs =>
    match p c, cut p cs with
    | true, pieces => [] :: pieces
    | false, [] => [[c]]
    | false, first :: pieces => (c :: first) :: pieces

theorem cut_ne_nil (p : Char → Bool) (cs : List Char) : cut p cs ≠ [] := by
  cases cs with
  | nil => simp [cut]
  | cons c cs => rw [cut]; split <;> simp

/-- The pieces of a text between the occurrences of `sep`. -/
def splitAt (sep : Char) (s : String) : List String :=
  (cut (· == sep) s.toList).map String.ofList

/-- The non-empty runs without a blank. -/
def words (s : String) : List String :=
  ((cut isBlank s.toList).filter (!·.isEmpty)).map String.ofList

/-- The lines of a text, without their endings. -/
def lineChars : List Char → List (List Char)
  | [] => []
  | '\n' :: cs => [] :: lineChars cs
  | '\r' :: '\n' :: cs => [] :: lineChars cs
  | c :: cs =>
    match cs, lineChars cs with
    | [], _ => [[c]]
    | _ :: _, [] => [[c]]
    | _ :: _, first :: more => (c :: first) :: more

def lines (s : String) : List String := (lineChars s.toList).map String.ofList

def joinWith (sep : String) : List String → String
  | [] => ""
  | [s] => s
  | s :: t :: rest => s ++ sep ++ joinWith sep (t :: rest)

/-- The texts before and after the first character that satisfies `p`, if there is one. -/
def splitFirst (p : Char → Bool) (s : String) : Option (String × String) :=
  match s.toList.dropWhile (!p ·) with
  | [] => none
  | _ :: after => some (String.ofList (s.toList.takeWhile (!p ·)), String.ofList after)

end DesktopTerminal.Text
