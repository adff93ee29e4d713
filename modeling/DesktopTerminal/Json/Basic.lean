/-!
# JSON values

Members of an object keep their order and may repeat a key: it is for the reader of a document to
say what a repeated key means. A number is a decimal, `mantissa · 10 ^ exponent`, so that none is
rounded. A string literal that spells half of a surrogate pair has no text and is kept apart.
-/
namespace DesktopTerminal

inductive Json where
  | null
  | bool (b : Bool)
  | number (mantissa exponent : Int)
  | text (s : String)
  | brokenText
  | array (items : List Json)
  | object (members : List (String × Json))
deriving Repr, Inhabited

namespace Json

def nat (n : Nat) : Json := .number n 0

def int (n : Int) : Json := .number n 0

def texts (ss : List String) : Json := .array (ss.map .text)

def optional {α : Type} (encode : α → Json) : Option α → Json
  | none => .null
  | some a => encode a

/-- The value of the last member with this key. -/
def member? (j : Json) (key : String) : Option Json :=
  match j with
  | .object members => (members.reverse.find? (·.1 = key)).map (·.2)
  | _ => none

def text? : Json → Option String
  | .text s => some s
  | _ => none

/-- The whole number that a value is, if it is written as one. -/
def int? : Json → Option Int
  | .number mantissa exponent => if exponent = 0 then some mantissa else none
  | _ => none

def bool? : Json → Option Bool
  | .bool b => some b
  | _ => none

def array? : Json → Option (List Json)
  | .array items => some items
  | _ => none

end Json

end DesktopTerminal
