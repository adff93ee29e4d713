import DesktopTerminal.Text.CaseTable
import DesktopTerminal.Text.Ranges

/-!
# Letter case

Full case mapping of texts. A capital sigma becomes a final sigma in lower case when it ends a word:
when a cased letter stands before it and none after it, case-ignorable characters aside.
-/
namespace DesktopTerminal.Text

/-- Where a range sends a code point that it has. -/
def CaseRange.map? (r : CaseRange) (n : Nat) : Option Nat :=
  if r.first ≤ n && n ≤ r.last && (n - r.first) % r.step == 0 then some (r.target + (n - r.first))
  else none

/-- The characters that a code point is mapped to. -/
def mapCase (ranges : List CaseRange) (sequences : List (Nat × List Nat)) (c : Char) :
    List Char :=
  match sequences.lookup c.toNat with
  | some ns => ns.map Char.ofNat
  | none =>
    match ranges.findSome? (·.map? c.toNat) with
    | some n => [Char.ofNat n]
    | none => [c]

def lowerChar (c : Char) : List Char :=
  if c.toNat < 128 then [c.toLower] else mapCase lowerRanges lowerSequences c

def upperChar (c : Char) : List Char :=
  if c.toNat < 128 then [c.toUpper] else mapCase upperRanges upperSequences c

/-- Whether a cased letter comes first, after case-ignorable characters. -/
def leadsCased (cs : List Char) : Bool :=
  match cs.dropWhile (inRanges ignorableRanges) with
  | [] => false
  | c :: _ => inRanges casedRanges c

/-- The rest of a text in lower case; `before` is what comes before it, in reverse. -/
def lowerFrom (before : List Char) : List Char → List Char
  | [] => []
  | c :: cs =>
    let mapped :=
      if c = 'Σ' then (if leadsCased before && !leadsCased cs then ['ς'] else ['σ'])
      else lowerChar c
    mapped ++ lowerFrom (c :: before) cs

def lower (s : String) : String := String.ofList (lowerFrom [] s.toList)

def upper (s : String) : String := String.ofList (s.toList.flatMap upperChar)

end DesktopTerminal.Text
