/-!
# Windows

The open windows of the desktop, in the order in which they were opened. Processes are listed by a
number made from the window's identifier, which different windows may share.
-/
namespace DesktopTerminal

structure Window where
  id : String
  app : String
  title : String
deriving DecidableEq, Repr

structure Windows where
  windows : List Window
  /-- How many windows have been opened so far; identifiers are numbered by it. A counter of 64 bits is
  this number as long as fewer than `2 ^ 64` windows have been opened. -/
  opened : Nat
deriving DecidableEq, Repr

namespace Windows

def empty : Windows := ⟨[], 0⟩

def ofList (ws : List Window) : Windows := ⟨ws, 0⟩

/-- Opens a window and tells its identifier. -/
def openWindow (app title : String) (ws : Windows) : String × Windows :=
  let id := app ++ "-" ++ toString (ws.opened + 1)
  (id, ⟨ws.windows ++ [⟨id, app, title⟩], ws.opened + 1⟩)

/-- Closes every window with this identifier; false if there is none. -/
def close (id : String) (ws : Windows) : Bool × Windows :=
  let kept := ws.windows.filter (·.id ≠ id)
  (kept.length ≠ ws.windows.length, ⟨kept, ws.opened⟩)

end Windows

/-- The FNV-1a hash of some bytes, in 32 bits. -/
def fnv1a (bytes : List UInt8) : UInt32 :=
  bytes.foldl (fun h b => (h ^^^ b.toUInt32) * 0x01000193) 0x811c9dc5

/-- The process number under which a window is listed, from 1000 up to 9999. -/
def processNumber (id : String) : Nat := 1000 + (fnv1a id.toUTF8.data.toList).toNat % 9000

end DesktopTerminal
