import DesktopTerminal.Command.Outcome
import DesktopTerminal.Tree.Store
import DesktopTerminal.Windows

/-!
# Workspaces

A workspace is all that a command can see and change: the store and the windows that every terminal
of the desktop shares, and the directory, the piped input and the history of one terminal. The clock
stands still while a line runs.
-/
namespace DesktopTerminal

structure Workspace where
  store : Store
  windows : Windows
  hostname : String
  cwd : Path
  previous : Option Path
  stdin : Option String
  history : List String
  now : Instant
deriving Repr

namespace Workspace

def user (w : Workspace) : String := w.store.identity.user

def resolve (target : String) (w : Workspace) : Path := w.store.resolve w.cwd target

/-- Makes a directory the current one and remembers the one before. -/
def enter (p : Path) (w : Workspace) : Workspace := { w with cwd := p, previous := some w.cwd }

/-- Takes what is left of the piped input. -/
def takeInput (w : Workspace) : String × Workspace :=
  (w.stdin.getD "", { w with stdin := none })

/-- Runs an operation of the store. -/
def onStore (op : Store → Except Fault Unit × Store) (w : Workspace) :
    Except Fault Unit × Workspace :=
  let r := op w.store
  (r.1, { w with store := r.2 })

/-- Handles operands one after another and collects what there is to report. -/
def forEach (handle : String → Workspace → Option String × Workspace) :
    List String → Workspace → List String × Workspace
  | [], w => ([], w)
  | operand :: rest, w =>
    let r := handle operand w
    let later := forEach handle rest r.2
    (r.1.toList ++ later.1, later.2)

end Workspace

/-- A line that reports a fault of an operand. -/
def diagnostic (what operand : String) (fault : Fault) : String :=
  what ++ " '" ++ operand ++ "': " ++ fault.reason

/-- Reports a fault, if there is one. -/
def reportFault (what operand : String) : Except Fault Unit → Option String
  | .ok () => none
  | .error fault => some (diagnostic what operand fault)

end DesktopTerminal
