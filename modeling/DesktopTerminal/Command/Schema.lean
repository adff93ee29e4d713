import DesktopTerminal.Text.Case
import DesktopTerminal.Text.Pieces

/-!
# Command schemas

A schema says what a command takes: its options and operands, with text for help. An option goes by
its name and by its aliases, those that start with a dash being the spellings a user types.
-/
namespace DesktopTerminal

structure Param where
  name : String
  type : String
  required : Bool
  default : Option String
  description : String
  aliases : List String
deriving DecidableEq, Repr

namespace Param

/-- An operand that must be given. -/
def needed (name type description : String) : Param := ⟨name, type, true, none, description, []⟩

/-- An operand or option that may be given. -/
def optional (name type : String) (default : Option String) (description : String)
    (aliases : List String) : Param :=
  ⟨name, type, false, default, description, aliases⟩

/-- An option that is on or off. -/
def switch (name description : String) (aliases : List String) : Param :=
  ⟨name, "bool", false, some "false", description, aliases⟩

def isSwitch (p : Param) : Bool := p.type = "bool"

def answersTo (flag : String) (p : Param) : Bool := p.name = flag || p.aliases.contains flag

end Param

structure Example where
  description : String
  code : String
deriving DecidableEq, Repr

structure Schema where
  name : String
  description : String
  params : List Param
  examples : List Example
  /-- The command takes all words as they are. -/
  raw : Bool
deriving DecidableEq, Repr

def startsWithDash (s : String) : Bool := s.toList.head? == some '-'

namespace Schema

/-- The first parameter that a flag refers to. -/
def param? (flag : String) (s : Schema) : Option Param := s.params.find? (·.answersTo flag)

/-- All spellings of options, as declared. -/
def flags (s : Schema) : List String := (s.params.flatMap (·.aliases)).filter startsWithDash

/-- How a parameter shows in the usage line. -/
def usageOf (p : Param) : String :=
  match p.aliases.find? startsWithDash with
  | some flag =>
    if p.isSwitch then "[" ++ flag ++ "]" else "[" ++ flag ++ " " ++ Text.upper p.name ++ "]"
  | none => if p.required then p.name else "[" ++ p.name ++ "]"

def usage (s : Schema) : String := Text.joinWith " " (s.name :: s.params.map usageOf)

end Schema

end DesktopTerminal
