import DesktopTerminal.Clock.Calendar

/-!
# Instants

An instant is a number of seconds since 1 January 1970, UTC, and nanoseconds after it. A leap second
is written as the second before it with 10⁹ nanoseconds or more.
-/
namespace DesktopTerminal

structure Instant where
  seconds : Int
  nanos : Nat
deriving DecidableEq, Repr, Inhabited

namespace Instant

def billion : Nat := 1000000000

def date (t : Instant) : Clock.Date := Clock.Date.ofDays (t.seconds.fdiv 86400)

def secondOfDay (t : Instant) : Nat := (t.seconds.emod 86400).toNat

def hour (t : Instant) : Nat := t.secondOfDay / 3600

def minute (t : Instant) : Nat := t.secondOfDay / 60 % 60

/-- The second of the minute, 60 in a leap second. -/
def second (t : Instant) : Nat := t.secondOfDay % 60 + t.nanos / billion

/-- The nanosecond of the second. -/
def subsecond (t : Instant) : Nat := t.nanos % billion

end Instant

end DesktopTerminal
