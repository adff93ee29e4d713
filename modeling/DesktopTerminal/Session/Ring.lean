/-!
# The copy ring

Recently copied texts, newest first. A repeat of the newest is dropped, and the oldest falls off
when the ring is full.
-/
namespace DesktopTerminal

structure Ring where
  capacity : Nat
  entries : List String
deriving DecidableEq, Repr

namespace Ring

/-- An empty ring. -/
def ofCapacity (capacity : Nat) : Ring := ⟨capacity, []⟩

/-- The ring that a session starts with. -/
def empty : Ring := ofCapacity 10

def head? (r : Ring) : Option String := r.entries.head?

def push (text : String) (r : Ring) : Ring :=
  if r.head? = some text then r
  else ⟨r.capacity, (text :: r.entries).take r.capacity⟩

end Ring

end DesktopTerminal
