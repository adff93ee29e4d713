import DesktopTerminal.Clock.Calendar
import DesktopTerminal.Json.Reader
import DesktopTerminal.Toml.Basic

/-!
# TOML scalars

Strings in four forms, numbers, and dates. Single underscores may stand between the digits of a
number. What is no string is read as a token and then classified as a whole.
-/
namespace DesktopTerminal.Toml

def isSpace (c : Char) : Bool := c == ' ' || c == '\t'

def skipSpace (cs : List Char) : List Char := cs.dropWhile isSpace

/-- The characters that may stand in a comment or a string: all but control characters. -/
def isPrintable (c : Char) : Bool := c == '\t' || (32 ≤ c.toNat && c.toNat ≠ 127)

/-- The rest after a line feed, which a carriage return may precede. -/
def newline? : List Char → Option (List Char)
  | '\n' :: cs => some cs
  | '\r' :: '\n' :: cs => some cs
  | _ => none

/-- The rest after a newline, if there is one. -/
def skipNewline (cs : List Char) : List Char := (newline? cs).getD cs

def hexDigits (cs : List Char) : Option Nat :=
  cs.foldl (fun n c => n.bind fun n => (Json.hexValue? c).map (16 * n + ·)) (some 0)

/-- The character of a code point, which must not be half a surrogate pair. -/
def scalarValue? (n : Nat) : Option Char :=
  if n < 0xd800 ∨ (0xdfff < n ∧ n < 0x110000) then some (Char.ofNat n) else none

/-- A code point of so many hexadecimal digits. -/
def codePoint? (width : Nat) (cs : List Char) : Option (Char × List Char) :=
  let digits := cs.take width
  if digits.length = width then
    (hexDigits digits).bind fun n => (scalarValue? n).map (·, cs.drop width)
  else none

/-- What an escape stands for, after its backslash. -/
def escape? : List Char → Option (Char × List Char)
  | [] => none
  | c :: cs =>
    if c = 'b' then some ('\x08', cs)
    else if c = 't' then some ('\t', cs)
    else if c = 'n' then some ('\n', cs)
    else if c = 'f' then some ('\x0c', cs)
    else if c = 'r' then some ('\r', cs)
    else if c = '\x22' ∨ c = '\\' then some (c, cs)
    else if c = 'u' then codePoint? 4 cs
    else if c = 'U' then codePoint? 8 cs
    else none

/-- A basic string after its opening quote. -/
def readBasic : Nat → List Char → Option (List Char × List Char)
  | 0, _ => none
  | _, [] => none
  | _, '\x22' :: cs => some ([], cs)
  | fuel + 1, '\\' :: cs => do
    let (c, rest) ← escape? cs
    let (taken, rest) ← readBasic fuel rest
    some (c :: taken, rest)
  | fuel + 1, c :: cs =>
    if isPrintable c then (readBasic fuel cs).map fun (taken, rest) => (c :: taken, rest) else none

/-- A literal string after its opening quote. -/
def readLiteral : List Char → Option (List Char × List Char)
  | [] => none
  | '\x27' :: cs => some ([], cs)
  | c :: cs =>
    if isPrintable c then (readLiteral cs).map fun (taken, rest) => (c :: taken, rest) else none

/-- The end of a string of many lines: three quotes, before which two more may belong to it. -/
def closing? (quote : Char) : List Char → Option (List Char × List Char)
  | a :: b :: c :: cs =>
    if a = quote ∧ b = quote ∧ c = quote then
      match cs with
      | d :: e :: rest =>
        if d = quote ∧ e = quote then some ([quote, quote], rest)
        else if d = quote then some ([quote], e :: rest)
        else some ([], d :: e :: rest)
      | [d] => if d = quote then some ([quote], []) else some ([], [d])
      | [] => some ([], [])
    else none
  | _ => none

/-- The rest after a backslash that ends a line and all blank space that follows. -/
def lineContinuation? (cs : List Char) : Option (List Char) :=
  (newline? (skipSpace cs)).map fun rest =>
    rest.dropWhile fun c => isSpace c || c == '\n' || c == '\r'

/-- Whether every carriage return in a text comes before a line feed. -/
def returnsPaired : List Char → Bool
  | [] => true
  | '\r' :: '\n' :: cs => returnsPaired cs
  | c :: cs => c != '\r' && returnsPaired cs

/-- The blank space that a line continuation skips. -/
def continuationSpace (cs : List Char) : List Char :=
  cs.takeWhile fun c => isSpace c || c == '\n' || c == '\r'

/-- A string of many lines after its opening quotes; escapes count only in basic ones. -/
def readMultiline (basic : Bool) : Nat → List Char → Option (List Char × List Char)
  | 0, _ => none
  | fuel + 1, cs =>
    match closing? (if basic then '\x22' else '\x27') cs with
    | some result => some result
    | none =>
      match newline? cs with
      | some rest =>
        (readMultiline basic fuel rest).map fun (taken, rest) => ('\n' :: taken, rest)
      | none =>
        match cs with
        | [] => none
        | c :: rest =>
          if basic && c == '\\' then
            match lineContinuation? rest with
            | some after =>
              if returnsPaired (continuationSpace rest) then readMultiline basic fuel after
              else none
            | none => do
              let (c, rest) ← escape? rest
              let (taken, rest) ← readMultiline basic fuel rest
              some (c :: taken, rest)
          else if isPrintable c then
            (readMultiline basic fuel rest).map fun (taken, rest) => (c :: taken, rest)
          else none

/-- A string at the start of a text. -/
def readString (cs : List Char) : Option (String × List Char) :=
  let result := match cs with
    | '\x22' :: '\x22' :: '\x22' :: rest =>
      readMultiline true (rest.length + 1) (skipNewline rest)
    | '\x27' :: '\x27' :: '\x27' :: rest =>
      readMultiline false (rest.length + 1) (skipNewline rest)
    | '\x22' :: rest => readBasic (rest.length + 1) rest
    | '\x27' :: rest => readLiteral rest
    | _ => none
  result.map fun (taken, rest) => (String.ofList taken, rest)

/-! Numbers. -/

/-- Digits without the underscores between them, each of which must have a digit on either side. -/
def grouped? (isDigit : Char → Bool) : List Char → Option (List Char)
  | [] => none
  | [c] => if isDigit c then some [c] else none
  | c :: '_' :: cs => if isDigit c then (grouped? isDigit cs).map (c :: ·) else none
  | c :: cs => if isDigit c then (grouped? isDigit cs).map (c :: ·) else none

/-- A number of 64 bits with a sign. -/
def integer? (n : Int) : Option Toml :=
  if -9223372036854775808 ≤ n ∧ n < 9223372036854775808 then some (.integer n) else none

def digitsIn (base : Nat) (cs : List Char) : Option Nat :=
  (grouped? (fun c => ((Json.hexValue? c).any (· < base))) cs).map fun digits =>
    digits.foldl (fun n c => base * n + (Json.hexValue? c).getD 0) 0

def isDigitOrGap (c : Char) : Bool := c.isDigit || c == '_'

/-- The digits of a whole number, which does not start with a superfluous zero. -/
def whole? (cs : List Char) : Option (List Char) :=
  match cs with
  | '0' :: _ :: _ => none
  | cs => grouped? Char.isDigit cs

/-- The value of an exponent behind its letter. -/
def exponent? (cs : List Char) : Option Int :=
  match cs with
  | '-' :: ds => (grouped? Char.isDigit ds).map fun ds => -(Json.digitsValue ds : Int)
  | '+' :: ds => (grouped? Char.isDigit ds).map fun ds => (Json.digitsValue ds : Int)
  | ds => (grouped? Char.isDigit ds).map fun ds => (Json.digitsValue ds : Int)

/-- Whether `mantissa · 10 ^ exponent` is beyond every double-precision number. -/
def overflows (mantissa : Nat) (exponent : Int) : Bool :=
  let order := (Nat.toDigits 10 mantissa).length + exponent
  if mantissa = 0 ∨ order < 300 then false
  else if 320 < order then true
  else
    let bound := Nat.pow 2 1024 - Nat.pow 2 970
    match exponent with
    | .ofNat e => bound ≤ mantissa * Text.tenTo e
    | .negSucc e => bound * Text.tenTo (e + 1) ≤ mantissa

/-- A number with a fraction or an exponent. Only a negative one may be too large. -/
def float? (negative : Bool) (digits fraction : List Char) (exponent : Int) : Option Toml :=
  let mantissa := Json.digitsValue (digits ++ fraction)
  if !negative && overflows mantissa (exponent - fraction.length) then none else some .float

/-- A decimal number behind its sign. -/
def decimal? (negative : Bool) (cs : List Char) : Option Toml := do
  let digits ← whole? (cs.takeWhile isDigitOrGap)
  match cs.dropWhile isDigitOrGap with
  | [] =>
    let n : Int := Json.digitsValue digits
    integer? (if negative then -n else n)
  | '.' :: rest =>
    let fraction ← grouped? Char.isDigit (rest.takeWhile isDigitOrGap)
    match rest.dropWhile isDigitOrGap with
    | [] => float? negative digits fraction 0
    | e :: rest =>
      if e = 'e' ∨ e = 'E' then float? negative digits fraction (← exponent? rest) else none
  | e :: rest =>
    if e = 'e' ∨ e = 'E' then float? negative digits [] (← exponent? rest) else none

def isSpecialFloat (cs : List Char) : Bool :=
  cs == ['i', 'n', 'f'] || cs == ['n', 'a', 'n']

def number? : List Char → Option Toml
  | '0' :: 'x' :: cs => (digitsIn 16 cs).bind fun n => integer? n
  | '0' :: 'o' :: cs => (digitsIn 8 cs).bind fun n => integer? n
  | '0' :: 'b' :: cs => (digitsIn 2 cs).bind fun n => integer? n
  | '+' :: cs => if isSpecialFloat cs then some .float else decimal? false cs
  | '-' :: cs => if isSpecialFloat cs then some .float else decimal? true cs
  | cs => if isSpecialFloat cs then some .float else decimal? false cs

/-! Dates. -/

/-- A number of exactly so many digits. -/
def fixedWidth? (width : Nat) (cs : List Char) : Option (Nat × List Char) :=
  let digits := cs.take width
  if digits.length = width ∧ digits.all Char.isDigit then
    some (Json.digitsValue digits, cs.drop width)
  else none

/-- Two digits of a value up to `limit`. -/
def bounded? (limit : Nat) (cs : List Char) : Option (List Char) :=
  (fixedWidth? 2 cs).bind fun (n, rest) => if n ≤ limit then some rest else none

def mark? (mark : Char) : List Char → Option (List Char)
  | c :: cs => if c = mark then some cs else none
  | [] => none

/-- The rest after a calendar date. -/
def calendarDate? (cs : List Char) : Option (List Char) := do
  let (year, rest) ← fixedWidth? 4 cs
  let (month, rest) ← fixedWidth? 2 (← mark? '-' rest)
  let (day, rest) ← fixedWidth? 2 (← mark? '-' rest)
  if Clock.Date.isValid ⟨year, month, day⟩ then some rest else none

/-- The rest after a time of day. -/
def timeOfDay? (cs : List Char) : Option (List Char) := do
  let rest ← bounded? 23 cs
  let rest ← bounded? 59 (← mark? ':' rest)
  let rest ← bounded? 60 (← mark? ':' rest)
  match rest with
  | '.' :: digits =>
    if (digits.head?.any Char.isDigit) then some (digits.dropWhile Char.isDigit) else none
  | rest => some rest

/-- Whether nothing or an offset from UTC is left. -/
def isOffset (cs : List Char) : Bool :=
  match cs with
  | [] => true
  | ['Z'] => true
  | ['z'] => true
  | c :: rest =>
    (c == '+' || c == '-') &&
      (((bounded? 23 rest).bind (mark? ':')).bind (bounded? 59)) == some []

/-- Whether a token is a time of day with or without an offset. -/
def isClockTime (cs : List Char) : Bool := (timeOfDay? cs).any isOffset

/-- Whether a token is a date, a date with a time, or a time alone. -/
def isDate (cs : List Char) : Bool :=
  match calendarDate? cs with
  | some [] => true
  | some (c :: rest) => (c == 'T' || c == 't') && isClockTime rest
  | none => timeOfDay? cs == some []

/-! Tokens. -/

def isTokenChar (c : Char) : Bool :=
  c.isAlphanum || c == '+' || c == '-' || c == '_' || c == '.' || c == ':'

/-- What a token that is no string stands for. -/
def scalar? (token : List Char) : Option Toml :=
  if token == ['t', 'r', 'u', 'e'] then some (.bool true)
  else if token == ['f', 'a', 'l', 's', 'e'] then some (.bool false)
  else if isDate token then some .date
  else number? token

/-- A token, or a date and a time with a space between them. -/
def readScalar (cs : List Char) : Option (Toml × List Char) :=
  let token := cs.takeWhile isTokenChar
  let rest := cs.dropWhile isTokenChar
  match calendarDate? token, rest with
  | some [], ' ' :: after =>
    if isClockTime (after.takeWhile isTokenChar) then some (.date, after.dropWhile isTokenChar)
    else some (.date, rest)
  | _, _ => (scalar? token).map (·, rest)

end DesktopTerminal.Toml
