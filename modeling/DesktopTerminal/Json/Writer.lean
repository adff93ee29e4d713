import DesktopTerminal.Json.Basic
import DesktopTerminal.Text.Column
import DesktopTerminal.Text.Numeral

/-!
# Writing JSON

Two layouts: compact, without any blank, and indented by two spaces for each level. Characters
beyond ASCII stand as they are; only quotes, backslashes and control characters are escaped.
-/
namespace DesktopTerminal.Json

def hexDigit (n : Nat) : Char := (Nat.digitChar (n % 16))

/-- How a character is written between quotes. -/
def escape (c : Char) : List Char :=
  if c = '\x22' then ['\\', '\x22']
  else if c = '\\' then ['\\', '\\']
  else if c = '\n' then ['\\', 'n']
  else if c = '\r' then ['\\', 'r']
  else if c = '\t' then ['\\', 't']
  else if c = '\x08' then ['\\', 'b']
  else if c = '\x0c' then ['\\', 'f']
  else if c.toNat < 32 then ['\\', 'u', '0', '0', hexDigit (c.toNat / 16), hexDigit c.toNat]
  else [c]

def writeText (s : String) : String :=
  String.ofList ('\x22' :: s.toList.flatMap escape ++ ['\x22'])

/-- A decimal in positional notation. -/
def writeNumber (mantissa exponent : Int) : String :=
  let sign := if mantissa < 0 then "-" else ""
  match exponent with
  | .ofNat e => sign ++ Text.numeral (mantissa.natAbs * Text.tenTo e)
  | .negSucc e =>
    let scale := Text.tenTo (e + 1)
    sign ++ Text.numeral (mantissa.natAbs / scale) ++ "." ++
      Text.zeroPadded (e + 1) (mantissa.natAbs % scale)

mutual

def compact : Json → String
  | .null => "null"
  | .bool true => "true"
  | .bool false => "false"
  | .number mantissa exponent => writeNumber mantissa exponent
  | .text s => writeText s
  | .brokenText => writeText "\ufffd"
  | .array items => "[" ++ compactItems "" items ++ "]"
  | .object members => "\x7b" ++ compactMembers "" members ++ "\x7d"

def compactItems (separator : String) : List Json → String
  | [] => ""
  | j :: rest => separator ++ compact j ++ compactItems "," rest

def compactMembers (separator : String) : List (String × Json) → String
  | [] => ""
  | (key, j) :: rest =>
    separator ++ writeText key ++ ":" ++ compact j ++ compactMembers "," rest

end

/-- A new line indented for `depth` levels. -/
def newLine (depth : Nat) : String := "\n" ++ Text.spaces (2 * depth)

mutual

/-- The indented layout of a value whose first character stands at `depth` levels. -/
def indented (depth : Nat) : Json → String
  | .null => "null"
  | .bool true => "true"
  | .bool false => "false"
  | .number mantissa exponent => writeNumber mantissa exponent
  | .text s => writeText s
  | .brokenText => writeText "\ufffd"
  | .array [] => "[]"
  | .array items => "[" ++ indentedItems (depth + 1) "" items ++ newLine depth ++ "]"
  | .object [] => "\x7b\x7d"
  | .object members => "\x7b" ++ indentedMembers (depth + 1) "" members ++ newLine depth ++ "\x7d"

def indentedItems (depth : Nat) (separator : String) : List Json → String
  | [] => ""
  | j :: rest => separator ++ newLine depth ++ indented depth j ++ indentedItems depth "," rest

def indentedMembers (depth : Nat) (separator : String) : List (String × Json) → String
  | [] => ""
  | (key, j) :: rest =>
    separator ++ newLine depth ++ writeText key ++ ": " ++ indented depth j ++
      indentedMembers depth "," rest

end

end DesktopTerminal.Json
