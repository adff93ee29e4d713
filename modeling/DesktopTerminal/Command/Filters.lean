import DesktopTerminal.Command.Arguments
import DesktopTerminal.Command.Workspace
import DesktopTerminal.Markup
import DesktopTerminal.Text.Column
import DesktopTerminal.Text.Numeral

/-!
# Commands on lines

`echo` makes text; `grep`, `head` and `tail` select lines of a file or of the piped input.
-/
namespace DesktopTerminal.Command

def echo (a : Arguments) (w : Workspace) : Outcome × Workspace :=
  (Outcome.success (Text.joinWith " " a.positional), w)

structure GrepOptions where
  ignoreCase : Bool
  invert : Bool
  lineNumber : Bool
deriving DecidableEq, Repr

/-- A selected line, plain and with its matches marked. -/
structure Selected where
  plain : String
  marked : String
deriving DecidableEq, Repr

/-- The lines that contain the pattern, or the others; `number` is that of the first line. -/
def selectLines (o : GrepOptions) (pattern : String) : Nat → List String → List Selected
  | _, [] => []
  | number, line :: rest =>
    let later := selectLines o pattern (number + 1) rest
    if (Text.find? line pattern o.ignoreCase).isSome == o.invert then later
    else
      let label := if o.lineNumber then Text.numeral number ++ ":" else ""
      let marked := if o.invert then line else Markup.highlight line pattern o.ignoreCase
      ⟨label ++ line, label ++ marked⟩ :: later

def grepLines (o : GrepOptions) (pattern text : String) : List Selected :=
  selectLines o pattern 1 (Text.lines text)

/-- The outcome of a search: it fails if nothing was selected. -/
def grepOutcome (count : Bool) (selected : List Selected) : Outcome :=
  let code := if selected.isEmpty then 1 else 0
  if count then ⟨code, Text.numeral selected.length, "", none, false⟩
  else
    ⟨code, Text.joinWith "\n" (selected.map (·.plain)), "",
      some (Text.joinWith "\n" (selected.map (·.marked))), false⟩

def grep (a : Arguments) (w : Workspace) : Outcome × Workspace :=
  let o : GrepOptions := ⟨a.hasFlag "ignore_case", a.hasFlag "invert", a.hasFlag "line_number"⟩
  let finish (pattern text : String) := grepOutcome (a.hasFlag "count") (grepLines o pattern text)
  match a.positional with
  | [] => (Outcome.failure 2 "grep: missing pattern", w)
  | [pattern] =>
    let (input, w) := w.takeInput
    (finish pattern input, w)
  | pattern :: operand :: _ =>
    match w.store.read (w.resolve operand) with
    | .ok text => (finish pattern text, w)
    | .error fault =>
      (Outcome.failure 2 ("grep: " ++ operand ++ ": " ++ fault.reason), w)

/-- Whether a word is a dash and digits, as a count may be written. -/
def dashCount? (word : String) : Option String :=
  match word.toList with
  | '-' :: c :: cs => if (c :: cs).all Char.isDigit then some (String.ofList (c :: cs)) else none
  | _ => none

/-- The first count behind a dash and the first other operand. -/
def countAndPath : List String → Option String × Option String → Option String × Option String
  | [], found => found
  | word :: rest, (count, path) =>
    match count, dashCount? word, path with
    | none, some digits, path => countAndPath rest (some digits, path)
    | count, _, none => countAndPath rest (count, some word)
    | count, _, some path => countAndPath rest (count, some path)

/-- Reads a count of lines; ten if there is none. -/
def lineCount (tool : String) : Option String → Except Outcome Nat
  | none => .ok 10
  | some numeral =>
    match Text.readUnsigned (Nat.pow 2 64) numeral with
    | some n => .ok n
    | none => .error (Outcome.failure 1 (tool ++ ": invalid number of lines: '" ++ numeral ++ "'"))

/-- The count and the text for `head` and `tail`. -/
def lineInput (tool : String) (a : Arguments) (w : Workspace) :
    Except Outcome (Nat × String) × Workspace :=
  let (dashed, path) := countAndPath a.positional (none, none)
  match lineCount tool ((a.named? "lines").or dashed), path with
  | .error o, _ => (.error o, w)
  | .ok n, none =>
    let (input, w) := w.takeInput
    (.ok (n, input), w)
  | .ok n, some operand =>
    match w.store.read (w.resolve operand) with
    | .ok text => (.ok (n, text), w)
    | .error fault =>
      (.error (Outcome.failure 1
        (tool ++ ": cannot open '" ++ operand ++ "' for reading: " ++ fault.reason)), w)

def firstLines (n : Nat) (text : String) : String :=
  Text.joinWith "\n" ((Text.lines text).take n)

def lastLines (n : Nat) (text : String) : String :=
  let ls := Text.lines text
  Text.joinWith "\n" (ls.drop (ls.length - n))

def selectCounted (tool : String) (select : Nat → String → String) (a : Arguments)
    (w : Workspace) : Outcome × Workspace :=
  match lineInput tool a w with
  | (.error o, w) => (o, w)
  | (.ok (n, text), w) => (Outcome.success (select n text), w)

def head (a : Arguments) (w : Workspace) : Outcome × Workspace :=
  selectCounted "head" firstLines a w

def tail (a : Arguments) (w : Workspace) : Outcome × Workspace :=
  selectCounted "tail" lastLines a w

end DesktopTerminal.Command
