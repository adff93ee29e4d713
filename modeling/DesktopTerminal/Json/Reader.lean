import DesktopTerminal.Json.Basic
import DesktopTerminal.Text.Numeral

/-!
# Reading JSON

The grammar of RFC 8259: one value with blanks around it. Reading a value spends one unit of fuel;
every value takes at least one character, so the length of the text is fuel enough.
-/
namespace DesktopTerminal.Json

def isSpace (c : Char) : Bool := c == ' ' || c == '\t' || c == '\n' || c == '\r'

def skipSpace (cs : List Char) : List Char := cs.dropWhile isSpace

def hexValue? (c : Char) : Option Nat :=
  if c.isDigit then some (c.toNat - '0'.toNat)
  else if 'a' ≤ c ∧ c ≤ 'f' then some (c.toNat - 'a'.toNat + 10)
  else if 'A' ≤ c ∧ c ≤ 'F' then some (c.toNat - 'A'.toNat + 10)
  else none

/-- The code unit written by four hexadecimal digits. -/
def codeUnit? (a b c d : Char) : Option Nat := do
  let a ← hexValue? a
  let b ← hexValue? b
  let c ← hexValue? c
  let d ← hexValue? d
  some (((a * 16 + b) * 16 + c) * 16 + d)

def simpleEscape? (c : Char) : Option Char :=
  if c = '\x22' ∨ c = '\\' ∨ c = '/' then some c
  else if c = 'b' then some '\x08'
  else if c = 'f' then some '\x0c'
  else if c = 'n' then some '\n'
  else if c = 'r' then some '\r'
  else if c = 't' then some '\t'
  else none

def isHighSurrogate (u : Nat) : Bool := 0xd800 ≤ u && u < 0xdc00

def isLowSurrogate (u : Nat) : Bool := 0xdc00 ≤ u && u < 0xe000

/-- One unit of a string literal: a character or a code unit. -/
inductive Unit16 where
  | char (c : Char)
  | escaped (u : Nat)

/-- The units of a string literal after its opening quote, and what follows the literal. -/
def readUnits : List Char → Option (List Unit16 × List Char)
  | [] => none
  | '\x22' :: cs => some ([], cs)
  | '\\' :: 'u' :: a :: b :: c :: d :: cs => do
    let u ← codeUnit? a b c d
    let (units, rest) ← readUnits cs
    some (.escaped u :: units, rest)
  | '\\' :: c :: cs => do
    let c ← simpleEscape? c
    let (units, rest) ← readUnits cs
    some (.char c :: units, rest)
  | c :: cs =>
    if c.toNat < 32 ∨ c = '\\' then none
    else do
      let (units, rest) ← readUnits cs
      some (.char c :: units, rest)

/-- Joins surrogate pairs. A lone half has no text. -/
def joinUnits : List Unit16 → Option (List Char)
  | [] => some []
  | .char c :: units => (joinUnits units).map (c :: ·)
  | .escaped u :: .escaped v :: units =>
    if isHighSurrogate u then
      if isLowSurrogate v then
        (joinUnits units).map
          (Char.ofNat (0x10000 + (u - 0xd800) * 0x400 + (v - 0xdc00)) :: ·)
      else none
    else if isLowSurrogate u then none
    else (joinUnits (.escaped v :: units)).map (Char.ofNat u :: ·)
  | .escaped u :: units =>
    if isHighSurrogate u || isLowSurrogate u then none
    else (joinUnits units).map (Char.ofNat u :: ·)

/-- Splits off the longest run of digits. -/
def spanDigits (cs : List Char) : List Char × List Char :=
  (cs.takeWhile Char.isDigit, cs.dropWhile Char.isDigit)

def digitsValue (cs : List Char) : Nat := (Text.readDigits 0 cs).getD 0

/-- The digits after a decimal point, if there is one; a point without digits is an error. -/
def readFraction : List Char → Option (List Char × List Char)
  | '.' :: cs =>
    match spanDigits cs with
    | ([], _) => none
    | result => some result
  | cs => some ([], cs)

def readExponentDigits (negative : Bool) (cs : List Char) : Option (Int × List Char) :=
  match spanDigits cs with
  | ([], _) => none
  | (digits, rest) =>
    let n : Int := digitsValue digits
    some (if negative then -n else n, rest)

/-- The exponent, if there is one. -/
def readExponent : List Char → Option (Int × List Char)
  | c :: cs =>
    if c = 'e' ∨ c = 'E' then
      match cs with
      | '+' :: rest => readExponentDigits false rest
      | '-' :: rest => readExponentDigits true rest
      | rest => readExponentDigits false rest
    else some (0, c :: cs)
  | [] => some (0, [])

/-- A number without its sign. No leading zero stands before another digit. -/
def readMagnitude (cs : List Char) : Option (Nat × Int × List Char) := do
  let (whole, rest) := spanDigits cs
  if whole.isEmpty || (whole.head? == some '0' && whole.length > 1) then none
  else do
    let (fraction, rest) ← readFraction rest
    let (exponent, rest) ← readExponent rest
    some (digitsValue (whole ++ fraction), exponent - fraction.length, rest)

def readNumber : List Char → Option (Json × List Char)
  | '-' :: cs => do
    let (mantissa, exponent, rest) ← readMagnitude cs
    some (.number (-mantissa) exponent, rest)
  | cs => do
    let (mantissa, exponent, rest) ← readMagnitude cs
    some (.number mantissa exponent, rest)

/-- A string literal after its opening quote. -/
def readText (cs : List Char) : Option (Json × List Char) := do
  let (units, rest) ← readUnits cs
  match joinUnits units with
  | some chars => some (.text (String.ofList chars), rest)
  | none => some (.brokenText, rest)

/-- A key and the colon after it. -/
def readKey (cs : List Char) : Option (String × List Char) :=
  match skipSpace cs with
  | '\x22' :: cs => do
    let (units, rest) ← readUnits cs
    let chars ← joinUnits units
    match skipSpace rest with
    | ':' :: rest => some (String.ofList chars, rest)
    | _ => none
  | _ => none

mutual

/-- A value and what follows it. -/
def readValue : Nat → List Char → Option (Json × List Char)
  | 0, _ => none
  | fuel + 1, cs =>
    match skipSpace cs with
    | 'n' :: 'u' :: 'l' :: 'l' :: rest => some (.null, rest)
    | 't' :: 'r' :: 'u' :: 'e' :: rest => some (.bool true, rest)
    | 'f' :: 'a' :: 'l' :: 's' :: 'e' :: rest => some (.bool false, rest)
    | '\x22' :: rest => readText rest
    | '[' :: rest =>
      match skipSpace rest with
      | ']' :: rest => some (.array [], rest)
      | rest => do
        let (items, rest) ← readItems fuel rest
        some (.array items, rest)
    | '\x7b' :: rest =>
      match skipSpace rest with
      | '\x7d' :: rest => some (.object [], rest)
      | rest => do
        let (members, rest) ← readMembers fuel rest
        some (.object members, rest)
    | rest => readNumber rest

/-- The items of an array that has some, and what follows its closing bracket. -/
def readItems : Nat → List Char → Option (List Json × List Char)
  | 0, _ => none
  | fuel + 1, cs => do
    let (item, rest) ← readValue fuel cs
    match skipSpace rest with
    | ',' :: rest => do
      let (items, rest) ← readItems fuel rest
      some (item :: items, rest)
    | ']' :: rest => some ([item], rest)
    | _ => none

/-- The members of an object that has some, and what follows its closing brace. -/
def readMembers : Nat → List Char → Option (List (String × Json) × List Char)
  | 0, _ => none
  | fuel + 1, cs => do
    let (key, rest) ← readKey cs
    let (value, rest) ← readValue fuel rest
    match skipSpace rest with
    | ',' :: rest => do
      let (members, rest) ← readMembers fuel rest
      some ((key, value) :: members, rest)
    | '\x7d' :: rest => some ([(key, value)], rest)
    | _ => none

end

/-- Reads a text that holds one value. -/
def read (s : String) : Option Json :=
  let cs := s.toList
  match readValue (2 * cs.length + 2) cs with
  | some (value, rest) => if (skipSpace rest).isEmpty then some value else none
  | none => none

end DesktopTerminal.Json
