/-!
# Tokens of a command line

A line is a sequence of words and three operators. A word has lost its quotes: what is left is the
text that a command sees.
-/
namespace DesktopTerminal.Line

inductive Operator where
  | pipe
  | overwrite
  | append
deriving DecidableEq, Repr

def Operator.text : Operator → String
  | .pipe => "|"
  | .overwrite => ">"
  | .append => ">>"

inductive Token where
  | word (text : String)
  | operator (op : Operator)
deriving DecidableEq, Repr

def Token.text : Token → String
  | .word text => text
  | .operator op => op.text

/-- A stretch of a line, in bytes from its start; `stop` is the first byte after it. -/
structure Span where
  start : Nat
  stop : Nat
deriving DecidableEq, Repr

structure Spanned (α : Type) where
  value : α
  span : Span
deriving DecidableEq, Repr

/-- What can be wrong with the characters of a line. -/
inductive LexicalFault where
  | unexpectedCharacter
  | unterminatedString
deriving DecidableEq, Repr

def LexicalFault.message : LexicalFault → String
  | .unexpectedCharacter => "unexpected character"
  | .unterminatedString => "unterminated quoted string"

end DesktopTerminal.Line
