/-!
# The calendar

Days are numbered from 1 January 1970 in the Gregorian calendar, carried on before its introduction.
The conversions count in eras of 400 years, with March as the first month of a year so that the
leap day comes last.
-/
namespace DesktopTerminal.Clock

structure Date where
  year : Int
  month : Nat
  day : Nat
deriving DecidableEq, Repr

namespace Date

/-- The number of the day. -/
def toDays (d : Date) : Int :=
  let year := if d.month ≤ 2 then d.year - 1 else d.year
  let era := year.fdiv 400
  let yearOfEra := year - era * 400
  let month : Int := if d.month > 2 then d.month - 3 else d.month + 9
  let dayOfYear := (153 * month + 2).fdiv 5 + d.day - 1
  era * 146097 + (yearOfEra * 365 + yearOfEra.fdiv 4 - yearOfEra.fdiv 100 + dayOfYear) - 719468

/-- The date of a day. -/
def ofDays (days : Int) : Date :=
  let z := days + 719468
  let era := z.fdiv 146097
  let dayOfEra := z - era * 146097
  let yearOfEra :=
    (dayOfEra - dayOfEra.fdiv 1460 + dayOfEra.fdiv 36524 - dayOfEra.fdiv 146096).fdiv 365
  let dayOfYear := dayOfEra - (365 * yearOfEra + yearOfEra.fdiv 4 - yearOfEra.fdiv 100)
  let shifted := (5 * dayOfYear + 2).fdiv 153
  let month := if shifted < 10 then shifted + 3 else shifted - 9
  let year := yearOfEra + era * 400
  ⟨if month ≤ 2 then year + 1 else year, month.toNat,
    (dayOfYear - (153 * shifted + 2).fdiv 5 + 1).toNat⟩

/-- Whether the calendar has such a day: it is the date of the day it would be. -/
def isValid (d : Date) : Bool :=
  1 ≤ d.month && d.month ≤ 12 && 1 ≤ d.day && d.day ≤ 31 && ofDays d.toDays == d

/-- Days since Sunday. -/
def weekday (d : Date) : Nat := ((d.toDays + 4).emod 7).toNat

/-- The number of the day in its year, from 1. -/
def ordinal (d : Date) : Nat := (d.toDays - toDays ⟨d.year, 1, 1⟩ + 1).toNat

/-- The week of the year when weeks start on the given day, counted from Sunday; days before the
first such day are in week 0. -/
def weekFrom (start : Nat) (d : Date) : Nat :=
  (d.ordinal + 6 - (d.weekday + 7 - start) % 7) / 7

/-- The Thursday of the week, Monday being its first day. A week belongs to the year of its
Thursday. -/
def thursday (d : Date) : Date := ofDays (d.toDays + 3 - ((d.weekday + 6) % 7 : Nat))

def isoYear (d : Date) : Int := d.thursday.year

def isoWeek (d : Date) : Nat := (d.thursday.ordinal - 1) / 7 + 1

end Date

end DesktopTerminal.Clock
