import DesktopTerminal.Clock.Pattern
import DesktopTerminal.Command.Arguments
import DesktopTerminal.Command.Workspace
import DesktopTerminal.Markup
import DesktopTerminal.Text.Column

/-!
# Listings and navigation

`ls` lists a directory by name, in short or in full; `cd` and `pwd` change and tell the current
directory.
-/
namespace DesktopTerminal.Command

/-- The widths of the columns of a full listing. Owners and groups are measured in bytes. -/
structure Widths where
  owner : Nat
  group : Nat
  size : Nat
deriving DecidableEq, Repr

def Widths.include (ws : Widths) (e : Entry) : Widths :=
  ⟨max ws.owner e.owner.utf8ByteSize, max ws.group e.group.utf8ByteSize,
    max ws.size (Text.numeral e.size).length⟩

def Widths.of (es : List Entry) : Widths := es.foldl Widths.include ⟨0, 0, 0⟩

def listingTime (t : Instant) : String :=
  Clock.abbreviate (Clock.monthName t.date) ++ " " ++
    Text.padLeft 2 (Text.numeral t.date.day) ++ " " ++ Text.zeroPadded 2 t.hour ++ ":" ++
    Text.zeroPadded 2 t.minute

/-- All that stands before the name in a full listing. -/
def Widths.label (ws : Widths) (e : Entry) : String :=
  e.permissions.render ++ " 1 " ++ Text.padRight ws.owner e.owner ++ " " ++
    Text.padRight ws.group e.group ++ " " ++ Text.padLeft ws.size (Text.numeral e.size) ++ " " ++
    listingTime e.created ++ " "

/-- The name of an entry, in colour if it is a directory. -/
def styledName (e : Entry) : String :=
  match e.kind with
  | .directory => Markup.directory e.name
  | .file => e.name

def listEntries (long : Bool) (es : List Entry) : Outcome :=
  let sorted := es.mergeSort fun a b => a.name ≤ b.name
  let ws := Widths.of sorted
  let label (e : Entry) : String := if long then ws.label e else ""
  Outcome.shown (Text.joinWith "\n" (sorted.map fun e => label e ++ e.name))
    (Text.joinWith "\n" (sorted.map fun e => label e ++ styledName e))

def ls (a : Arguments) (w : Workspace) : Outcome × Workspace :=
  let operand := a.positional.head?.getD "."
  let p := w.resolve operand
  let long := a.hasFlag "long"
  match w.store.stat p with
  | .error fault => (Outcome.failure 2 (diagnostic "ls: cannot access" operand fault), w)
  | .ok target =>
    match target.kind with
    | .file => (listEntries long [{ target with name := operand }], w)
    | .directory =>
      match w.store.entries p with
      | .error fault =>
        (Outcome.failure 2 (diagnostic "ls: cannot open directory" operand fault), w)
      | .ok es =>
        (listEntries long (es.filter fun e => a.hasFlag "all" || !e.isHidden), w)

/-- Where `cd` goes: home without an operand, back for a dash. -/
def cdTarget (operand : String) (w : Workspace) : Option Path :=
  if operand = "-" then w.previous else some (w.resolve operand)

def cdTo (operand : String) (w : Workspace) : Outcome × Workspace :=
  match cdTarget operand w with
  | none => (Outcome.failure 1 "cd: OLDPWD not set", w)
  | some p =>
    match w.store.kind p with
    | .ok .directory =>
      (Outcome.success (if operand = "-" then p.render else ""), w.enter p)
    | .ok .file => (Outcome.failure 1 ("cd: " ++ operand ++ ": Not a directory"), w)
    | .error fault => (Outcome.failure 1 ("cd: " ++ operand ++ ": " ++ fault.reason), w)

def cd (a : Arguments) (w : Workspace) : Outcome × Workspace :=
  match a.positional with
  | [] => cdTo "~" w
  | [operand] => cdTo operand w
  | _ => (Outcome.failure 1 "cd: too many arguments", w)

def pwd (w : Workspace) : Outcome × Workspace := (Outcome.success w.cwd.render, w)

end DesktopTerminal.Command
