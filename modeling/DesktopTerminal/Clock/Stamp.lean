import DesktopTerminal.Clock.Instant
import DesktopTerminal.Text.Blank
import DesktopTerminal.Text.Column
import DesktopTerminal.Text.Numeral

/-!
# Timestamps

Timestamps are written as RFC 3339 has them, in UTC, with as few of 0, 3, 6 or 9 fraction digits as
lose nothing; a year of more than four digits has a sign. Reading is more generous: blanks may
stand before most fields and at the end, numbers may lack leading zeros, and any offset from UTC
will do.
-/
namespace DesktopTerminal.Clock

/-- A year with four digits, or with a sign outside 0 to 9999. -/
def yearText (year : Int) : String :=
  if 0 ≤ year ∧ year ≤ 9999 then Text.zeroPadded 4 year.natAbs
  else (if year < 0 then "-" else "+") ++ Text.zeroPadded 4 year.natAbs

def dateText (d : Date) : String :=
  yearText d.year ++ "-" ++ Text.zeroPadded 2 d.month ++ "-" ++ Text.zeroPadded 2 d.day

def timeText (t : Instant) : String :=
  Text.zeroPadded 2 t.hour ++ ":" ++ Text.zeroPadded 2 t.minute ++ ":" ++
    Text.zeroPadded 2 t.second

/-- A point and 3, 6 or 9 digits, the fewest that lose nothing; nothing for a whole second. -/
def fractionText (t : Instant) : String :=
  let n := t.subsecond
  if n = 0 then ""
  else if n % 1000000 = 0 then "." ++ Text.zeroPadded 3 (n / 1000000)
  else if n % 1000 = 0 then "." ++ Text.zeroPadded 6 (n / 1000)
  else "." ++ Text.zeroPadded 9 n

/-- A timestamp whose offset from UTC, which is zero, is written as `offset`. -/
def stampText (t : Instant) (offset : String) : String :=
  dateText t.date ++ "T" ++ timeText t ++ fractionText t ++ offset

def stamp (t : Instant) : String := stampText t "Z"

/-- Splits off at most `width` digits, of which there must be one. -/
def readNumber (width : Nat) (cs : List Char) : Option (Nat × List Char) :=
  let digits := (cs.takeWhile Char.isDigit).take width
  if digits.isEmpty then none
  else (Text.readDigits 0 digits).map (·, cs.drop digits.length)

/-- A number after any blanks. -/
def readField (width : Nat) (cs : List Char) : Option (Nat × List Char) :=
  readNumber width (Text.trimStartChars cs)

/-- A year after any blanks: up to four digits, or a sign and any number of them. -/
def readYear (cs : List Char) : Option (Int × List Char) :=
  match Text.trimStartChars cs with
  | '-' :: rest => (readNumber rest.length rest).map fun (n, rest) => (-(n : Int), rest)
  | '+' :: rest => (readNumber rest.length rest).map fun (n, rest) => ((n : Int), rest)
  | rest => (readNumber 4 rest).map fun (n, rest) => ((n : Int), rest)

/-- A separator after any blanks. -/
def readMark (mark : Char) (cs : List Char) : Option (List Char) :=
  match Text.trimStartChars cs with
  | c :: rest => if c = mark then some rest else none
  | [] => none

/-- Nanoseconds after a point, if there is one. Digits after the ninth have no effect. -/
def readFraction (cs : List Char) : Option (Nat × List Char) :=
  match cs with
  | '.' :: rest =>
    (readNumber 9 rest).map fun (n, after) =>
      (n * Text.tenTo (9 - (rest.length - after.length)), after.dropWhile Char.isDigit)
  | _ => some (0, cs)

/-- Two digits. -/
def readPair (cs : List Char) : Option (Nat × List Char) :=
  match cs with
  | a :: b :: rest => (Text.readDigits 0 [a, b]).map (·, rest)
  | _ => none

/-- The seconds of an offset after its sign. -/
def readOffsetSize (cs : List Char) : Option (Nat × List Char) := do
  let (hours, rest) ← readPair cs
  let (minutes, rest) ← readPair (rest.dropWhile fun c => c == ':' || Text.isBlank c)
  if minutes < 60 ∧ hours < 24 then some (hours * 3600 + minutes * 60, rest) else none

/-- An offset from UTC in seconds. -/
def readOffset (cs : List Char) : Option (Int × List Char) :=
  match cs with
  | '+' :: rest => (readOffsetSize rest).map fun (n, rest) => ((n : Int), rest)
  | '-' :: rest => (readOffsetSize rest).map fun (n, rest) => (-(n : Int), rest)
  | '\u2212' :: rest => (readOffsetSize rest).map fun (n, rest) => (-(n : Int), rest)
  | c :: rest =>
    if c = 'Z' ∨ c = 'z' then some (0, rest)
    else if (c :: rest.take 2).map Char.toUpper = ['U', 'T', 'C'] then some (0, rest.drop 2)
    else none
  | [] => none

/-- The years that a date can have. -/
def isYear (y : Int) : Bool := -262143 ≤ y && y ≤ 262142

/-- The instant of a date and time of day at an offset from UTC, if there is such a time. A minute
may have a leap second. -/
def instantAt? (d : Date) (hour minute second nanos : Nat) (offset : Int) : Option Instant :=
  if isYear d.year ∧ d.isValid ∧ hour < 24 ∧ minute < 60 ∧ second ≤ 60 then
    let leap := second = 60
    let ofDay := hour * 3600 + minute * 60 + (if leap then 59 else second)
    let t : Instant :=
      ⟨d.toDays * 86400 + ofDay - offset, nanos + if leap then Instant.billion else 0⟩
    if isYear t.date.year then some t else none
  else none

/-- Reads a timestamp. -/
def readStamp (s : String) : Option Instant := do
  let (year, rest) ← readYear s.toList
  let (month, rest) ← readField 2 (← readMark '-' rest)
  let (day, rest) ← readField 2 (← readMark '-' rest)
  let rest ← match rest with
    | c :: rest => if c = 'T' ∨ c = 't' ∨ c = ' ' then some rest else none
    | [] => none
  let (hour, rest) ← readField 2 rest
  let (minute, rest) ← readField 2 (← readMark ':' rest)
  let (second, rest) ← readField 2 (← readMark ':' rest)
  let (nanos, rest) ← readFraction rest
  let (offset, rest) ← readOffset (Text.trimStartChars rest)
  if rest.all Text.isBlank then instantAt? ⟨year, month, day⟩ hour minute second nanos offset
  else none

end DesktopTerminal.Clock
