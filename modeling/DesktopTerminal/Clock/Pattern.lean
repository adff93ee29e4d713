import DesktopTerminal.Clock.Stamp

/-!
# Date patterns

A pattern is text with specifiers, each a percent sign and a letter. Numeric specifiers take a mark
for their padding: `-` for none, `0` for zeros, `_` for spaces. An unknown specifier spoils the
whole pattern. Clocks run in UTC; only the name of the zone tells local time from UTC.
-/
namespace DesktopTerminal.Clock

inductive Padding where
  | none
  | zero
  | space
deriving DecidableEq, Repr

inductive NumericField where
  | year
  | century
  | yearOfCentury
  | isoYear
  | isoYearOfCentury
  | quarter
  | month
  | day
  | weekFromSunday
  | weekFromMonday
  | isoWeek
  | weekdayFromSunday
  | weekdayFromMonday
  | ordinal
  | hour
  | hour12
  | minute
  | second
  | nanosecond
  | timestamp
deriving DecidableEq, Repr

inductive Item where
  | literal (text : String)
  | numeric (field : NumericField) (padding : Padding)
  | shortMonth
  | longMonth
  | shortWeekday
  | longWeekday
  | lowerHalf
  | upperHalf
  /-- A point and the shortest fraction of the second, or nothing. -/
  | fraction
  /-- So many digits of the fraction of the second, with a point or without. -/
  | fractionDigits (point : Bool) (digits : Nat)
  | zoneName
  | stamp
deriving DecidableEq, Repr

inductive Zone where
  | utc
  | local
deriving DecidableEq, Repr

def Zone.name : Zone → String
  | .utc => "UTC"
  | .local => "+00:00"

def monthNames : List String :=
  ["January", "February", "March", "April", "May", "June", "July", "August", "September",
    "October", "November", "December"]

def weekdayNames : List String :=
  ["Sunday", "Monday", "Tuesday", "Wednesday", "Thursday", "Friday", "Saturday"]

/-- The first three letters of a name. -/
def abbreviate (name : String) : String := String.ofList (name.toList.take 3)

def monthName (d : Date) : String := monthNames.getD (d.month - 1) ""

def weekdayName (d : Date) : String := weekdayNames.getD d.weekday ""

/-- A number of two digits. Tens above nine go on in the characters after `9`. -/
def twoDigits (n : Nat) (padding : Padding) : String :=
  let ones := Text.numeral (n % 10)
  match n / 10, padding with
  | 0, .none => ones
  | 0, .space => " " ++ ones
  | tens, _ => String.ofList [Char.ofNat ('0'.toNat + tens)] ++ ones

/-- A number of at least `width` digits; zeros go between its sign and its digits. -/
def wideNumber (width : Nat) (padding : Padding) (sign : String) (n : Nat) : String :=
  match padding with
  | .none => sign ++ Text.numeral n
  | .zero => sign ++ Text.zeroPadded (width - sign.length) n
  | .space => Text.padLeft width (sign ++ Text.numeral n)

def signOf (n : Int) : String := if n < 0 then "-" else ""

/-- A year. Outside 0 to 9999 it has a sign and takes one more column for it. -/
def yearNumber (padding : Padding) (year : Int) : String :=
  if 0 ≤ year ∧ year ≤ 9999 then wideNumber 4 padding "" year.natAbs
  else wideNumber 5 padding (if year < 0 then "-" else "+") year.natAbs

/-- The hour on a clock face, from 1 to 12. -/
def clockHour (t : Instant) : Nat := if t.hour % 12 = 0 then 12 else t.hour % 12

def NumericField.render (t : Instant) (padding : Padding) : NumericField → String
  | .year => yearNumber padding t.date.year
  | .century => twoDigits ((t.date.year.fdiv 100).emod 256).toNat padding
  | .yearOfCentury => twoDigits (t.date.year.emod 100).toNat padding
  | .isoYear => yearNumber padding t.date.isoYear
  | .isoYearOfCentury => twoDigits (t.date.isoYear.emod 100).toNat padding
  | .quarter => Text.numeral ((t.date.month - 1) / 3 + 1)
  | .month => twoDigits t.date.month padding
  | .day => twoDigits t.date.day padding
  | .weekFromSunday => twoDigits (t.date.weekFrom 0) padding
  | .weekFromMonday => twoDigits (t.date.weekFrom 1) padding
  | .isoWeek => twoDigits t.date.isoWeek padding
  | .weekdayFromSunday => Text.numeral t.date.weekday
  | .weekdayFromMonday => Text.numeral ((t.date.weekday + 6) % 7 + 1)
  | .ordinal => wideNumber 3 padding "" t.date.ordinal
  | .hour => twoDigits t.hour padding
  | .hour12 => twoDigits (clockHour t) padding
  | .minute => twoDigits t.minute padding
  | .second => twoDigits t.second padding
  | .nanosecond => wideNumber 9 padding "" t.subsecond
  | .timestamp => wideNumber 9 padding (signOf t.seconds) t.seconds.natAbs

def Item.render (zone : Zone) (t : Instant) : Item → String
  | .literal text => text
  | .numeric field padding => field.render t padding
  | .shortMonth => abbreviate (monthName t.date)
  | .longMonth => monthName t.date
  | .shortWeekday => abbreviate (weekdayName t.date)
  | .longWeekday => weekdayName t.date
  | .lowerHalf => if t.hour < 12 then "am" else "pm"
  | .upperHalf => if t.hour < 12 then "AM" else "PM"
  | .fraction => fractionText t
  | .fractionDigits point digits =>
    (if point then "." else "") ++ Text.zeroPadded digits (t.subsecond / Text.tenTo (9 - digits))
  | .zoneName => zone.name
  | .stamp => stampText t "+00:00"

def zeros (field : NumericField) : Item := .numeric field .zero

def clockTime : List Item :=
  [zeros .hour, .literal ":", zeros .minute, .literal ":", zeros .second]

def slashedDate : List Item :=
  [zeros .month, .literal "/", zeros .day, .literal "/", zeros .yearOfCentury]

/-- What a specifier of one letter stands for. -/
def letterItems? : Char → Option (List Item)
  | 'A' => some [.longWeekday]
  | 'B' => some [.longMonth]
  | 'C' => some [zeros .century]
  | 'D' => some slashedDate
  | 'F' => some [zeros .year, .literal "-", zeros .month, .literal "-", zeros .day]
  | 'G' => some [zeros .isoYear]
  | 'H' => some [zeros .hour]
  | 'I' => some [zeros .hour12]
  | 'M' => some [zeros .minute]
  | 'P' => some [.lowerHalf]
  | 'R' => some [zeros .hour, .literal ":", zeros .minute]
  | 'S' => some [zeros .second]
  | 'T' => some clockTime
  | 'U' => some [zeros .weekFromSunday]
  | 'V' => some [zeros .isoWeek]
  | 'W' => some [zeros .weekFromMonday]
  | 'X' => some clockTime
  | 'Y' => some [zeros .year]
  | 'Z' => some [.zoneName]
  | 'a' => some [.shortWeekday]
  | 'b' => some [.shortMonth]
  | 'c' => some ([.shortWeekday, .literal " ", .shortMonth, .literal " ", .numeric .day .space,
      .literal " "] ++ clockTime ++ [.literal " ", zeros .year])
  | 'd' => some [zeros .day]
  | 'e' => some [.numeric .day .space]
  | 'f' => some [zeros .nanosecond]
  | 'g' => some [zeros .isoYearOfCentury]
  | 'h' => some [.shortMonth]
  | 'j' => some [zeros .ordinal]
  | 'k' => some [.numeric .hour .space]
  | 'l' => some [.numeric .hour12 .space]
  | 'm' => some [zeros .month]
  | 'n' => some [.literal "\n"]
  | 'p' => some [.upperHalf]
  | 'q' => some [zeros .quarter]
  | 'r' => some [zeros .hour12, .literal ":", zeros .minute, .literal ":", zeros .second,
      .literal " ", .upperHalf]
  | 's' => some [.numeric .timestamp .none]
  | 't' => some [.literal "\t"]
  | 'u' => some [zeros .weekdayFromMonday]
  | 'v' => some [.numeric .day .space, .literal "-", .shortMonth, .literal "-", zeros .year]
  | 'w' => some [zeros .weekdayFromSunday]
  | 'x' => some slashedDate
  | 'y' => some [zeros .yearOfCentury]
  | 'z' => some [.literal "+0000"]
  | '+' => some [.stamp]
  | '%' => some [.literal "%"]
  | _ => none

/-- A number of fraction digits that a specifier may ask for. -/
def fractionWidth? (c : Char) : Option Nat :=
  if c = '3' then some 3 else if c = '6' then some 6 else if c = '9' then some 9 else none

/-- The items of a specifier after its percent sign and any padding mark, and what follows it. -/
def readSpecifier : List Char → Option (List Item × List Char)
  | ':' :: ':' :: ':' :: 'z' :: rest => some ([.literal "+00"], rest)
  | ':' :: ':' :: 'z' :: rest => some ([.literal "+00:00:00"], rest)
  | ':' :: 'z' :: rest => some ([.literal "+00:00"], rest)
  | '.' :: 'f' :: rest => some ([.fraction], rest)
  | '.' :: d :: 'f' :: rest => (fractionWidth? d).map fun n => ([.fractionDigits true n], rest)
  | c :: rest =>
    match letterItems? c, fractionWidth? c, rest with
    | some items, _, rest => some (items, rest)
    | none, some n, 'f' :: rest => some ([.fractionDigits false n], rest)
    | _, _, _ => none
  | [] => none

def paddingMark? (c : Char) : Option Padding :=
  if c = '-' then some .none
  else if c = '0' then some .zero
  else if c = '_' then some .space
  else none

/-- Replaces the padding of a specifier, which must be a single number. -/
def repad (padding : Padding) : List Item → Option (List Item)
  | [.numeric field _] => some [.numeric field padding]
  | _ => none

/-- A whole specifier after its percent sign, and what follows it. -/
def readDirective (cs : List Char) : Option (List Item × List Char) :=
  match cs with
  | [] => none
  | c :: rest =>
    match paddingMark? c with
    | none => readSpecifier cs
    | some padding => do
      let (items, rest) ← readSpecifier rest
      some (← repad padding items, rest)

/-- The items of a pattern. Every step takes a character, so the length is fuel enough. -/
def readItems : Nat → List Char → Option (List Item)
  | _, [] => some []
  | 0, _ :: _ => none
  | fuel + 1, '%' :: cs => do
    let (items, rest) ← readDirective cs
    some (items ++ (← readItems fuel rest))
  | fuel + 1, c :: cs => (readItems fuel cs).map (.literal (String.ofList [c]) :: ·)

/-- Writes an instant after a pattern, unless the pattern is spoilt. -/
def format? (zone : Zone) (pattern : String) (t : Instant) : Option String :=
  (readItems pattern.toList.length pattern.toList).map fun items =>
    items.foldl (fun text item => text ++ item.render zone t) ""

end DesktopTerminal.Clock
