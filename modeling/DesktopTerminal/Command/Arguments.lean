import DesktopTerminal.Command.Schema

/-!
# Arguments

Words are sorted into operands and options by the conventions of getopt. Letters may be clustered
behind one dash; an option with a value takes the rest of its cluster or the next word; a long option
has its value after an equals sign or in the next word; `--` ends the options. A lone dash and a
negative number are operands.
-/
namespace DesktopTerminal

structure Arguments where
  positional : List String
  named : List (String × String)
  flags : List String
deriving DecidableEq, Repr

namespace Arguments

def empty : Arguments := ⟨[], [], []⟩

def addPositional (word : String) (a : Arguments) : Arguments :=
  { a with positional := a.positional ++ [word] }

/-- Sets a named value; a later value replaces an earlier one. -/
def setNamed (name value : String) (a : Arguments) : Arguments :=
  { a with named := (name, value) :: a.named.filter (·.1 ≠ name) }

def addFlag (name : String) (a : Arguments) : Arguments :=
  if a.flags.contains name then a else { a with flags := name :: a.flags }

def named? (name : String) (a : Arguments) : Option String := a.named.lookup name

def hasFlag (name : String) (a : Arguments) : Bool := a.flags.contains name

end Arguments

/-- Why the words do not fit the schema. -/
inductive UsageFault where
  | unrecognized (word : String)
  | unwantedValue (flag : String)
  | missingLongValue (flag : String)
  | invalidLetter (letter : Char)
  | missingLetterValue (letter : Char)
deriving DecidableEq, Repr

def UsageFault.message (tool : String) : UsageFault → String
  | .unrecognized word => tool ++ ": unrecognized option '" ++ word ++ "'"
  | .unwantedValue flag => tool ++ ": option '" ++ flag ++ "' doesn't allow an argument"
  | .missingLongValue flag => tool ++ ": option '" ++ flag ++ "' requires an argument"
  | .invalidLetter c => tool ++ ": invalid option -- '" ++ String.ofList [c] ++ "'"
  | .missingLetterValue c => tool ++ ": option requires an argument -- '" ++ String.ofList [c] ++ "'"

/-- An option with a value, which may still have to come from the next word. -/
structure Valued where
  name : String
  value : Option String
  ifMissing : UsageFault
deriving DecidableEq, Repr

/-- What one option word asks for. -/
structure Request where
  switches : List String
  valued : Option Valued
deriving DecidableEq, Repr

/-- A word that starts with a dash, unless nothing or a digit follows. -/
def isOption (word : String) : Bool :=
  match word.toList with
  | '-' :: c :: _ => !c.isDigit
  | _ => false

/-- Reads the letters behind a single dash. -/
def readCluster (schema : Schema) : List Char → Except UsageFault Request
  | [] => .ok ⟨[], none⟩
  | c :: cs =>
    match schema.param? (String.ofList ['-', c]) with
    | none => .error (.invalidLetter c)
    | some p =>
      if p.isSwitch then
        (readCluster schema cs).map fun r => ⟨p.name :: r.switches, r.valued⟩
      else
        .ok ⟨[], some ⟨p.name, if cs.isEmpty then none else some (String.ofList cs),
          .missingLetterValue c⟩⟩

/-- Reads what stands behind two dashes in `word`. -/
def readLong (schema : Schema) (word : String) (cs : List Char) : Except UsageFault Request :=
  let flag := "--" ++ String.ofList (cs.takeWhile (· ≠ '='))
  let value := match cs.dropWhile (· ≠ '=') with
    | [] => none
    | _ :: rest => some (String.ofList rest)
  match schema.param? flag with
  | none => .error (.unrecognized word)
  | some p =>
    if p.isSwitch then
      match value with
      | none => .ok ⟨[p.name], none⟩
      | some _ => .error (.unwantedValue flag)
    else .ok ⟨[], some ⟨p.name, value, .missingLongValue flag⟩⟩

def readOption (schema : Schema) (word : String) : Except UsageFault Request :=
  match word.toList with
  | '-' :: '-' :: cs => readLong schema word cs
  | _ :: cs => readCluster schema cs
  | [] => .ok ⟨[], none⟩

/-- Reads on over the words, with the arguments so far. -/
def readWords (schema : Schema) : List String → Arguments → Except UsageFault Arguments
  | [], a => .ok a
  | word :: words, a =>
    if !isOption word then readWords schema words (a.addPositional word)
    else if word = "--" then .ok (words.foldl (fun a w => a.addPositional w) a)
    else
      match readOption schema word with
      | .error fault => .error fault
      | .ok request =>
        let a := request.switches.foldl (fun a name => a.addFlag name) a
        match request.valued, words with
        | none, words => readWords schema words a
        | some ⟨name, some value, _⟩, words => readWords schema words (a.setNamed name value)
        | some ⟨name, none, _⟩, value :: words => readWords schema words (a.setNamed name value)
        | some ⟨_, none, fault⟩, [] => .error fault

/-- Sorts the words of a command. A raw command gets them as they are. -/
def readArguments (schema : Schema) (words : List String) : Except UsageFault Arguments :=
  if schema.raw then .ok ⟨words, [], []⟩ else readWords schema words Arguments.empty

end DesktopTerminal
