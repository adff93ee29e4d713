import DesktopTerminal.Command.Arguments
import DesktopTerminal.Command.Workspace

/-!
# Commands on files

These commands read and change the tree through the store. Those with many operands go on after a
fault and report each under the name that the user typed.
-/
namespace DesktopTerminal.Command

open Workspace (forEach)

/-- The contents of the operands that can be read, and reports of the others. -/
def readOperands (w : Workspace) : List String → List String × List String
  | [] => ([], [])
  | operand :: rest =>
    let later := readOperands w rest
    match w.store.read (w.resolve operand) with
    | .ok content => (content :: later.1, later.2)
    | .error fault =>
      (later.1, ("cat: " ++ operand ++ ": " ++ fault.reason) :: later.2)

def cat (a : Arguments) (w : Workspace) : Outcome × Workspace :=
  if a.positional.isEmpty then
    let (input, w) := w.takeInput
    (Outcome.success input, w)
  else
    let (contents, reports) := readOperands w a.positional
    (Outcome.ofDiagnostics (Text.joinWith "\n" contents) reports, w)

/-- Finishes a command that has no output. -/
def finishSilently (r : List String × Workspace) : Outcome × Workspace :=
  (Outcome.ofDiagnostics "" r.1, r.2)

def touchOne (operand : String) (w : Workspace) : Option String × Workspace :=
  let p := w.resolve operand
  if w.store.contains p then (none, w)
  else
    let (result, w) := w.onStore (Store.write p "" w.now)
    (reportFault "touch: cannot touch" operand result, w)

def touch (a : Arguments) (w : Workspace) : Outcome × Workspace :=
  if a.positional.isEmpty then (Outcome.failure 1 "touch: missing file operand", w)
  else finishSilently (forEach touchOne a.positional w)

def chmodOne (mode operand : String) (w : Workspace) : Option String × Workspace :=
  let (result, w) := w.onStore (Store.changeMode (w.resolve operand) mode)
  (reportFault "chmod: cannot access" operand result, w)

/-- A bad mode is refused before any operand is touched. -/
def chmod (a : Arguments) (w : Workspace) : Outcome × Workspace :=
  match a.positional with
  | [] => (Outcome.failure 1 "chmod: missing operand", w)
  | [mode] => (Outcome.failure 1 ("chmod: missing operand after '" ++ mode ++ "'"), w)
  | mode :: operands =>
    match ModeChange.parse? mode with
    | none => (Outcome.failure 1 ("chmod: invalid mode: '" ++ mode ++ "'"), w)
    | some _ => finishSilently (forEach (chmodOne mode) operands w)

/-- Makes each missing directory on the way to the end of `segments`, from the path `above` on. -/
def makeParents (now : Instant) (above : Path) : List String → Store → Except Fault Unit × Store
  | [], s => (.ok (), s)
  | segment :: rest, s =>
    let p := above.join segment
    match s.kind p with
    | .ok .directory => makeParents now p rest s
    | .ok .file => (.error (.notADirectory p), s)
    | .error fault =>
      if fault.isNotFound then
        match s.makeDirectory p now with
        | (.ok (), s) => makeParents now p rest s
        | (.error fault, s) => (.error fault, s)
      else (.error fault, s)

def mkdirOne (parents : Bool) (operand : String) (w : Workspace) : Option String × Workspace :=
  let p := w.resolve operand
  let (result, w) := w.onStore
    (if parents then makeParents w.now Path.root p.segments else Store.makeDirectory p w.now)
  (reportFault "mkdir: cannot create directory" operand result, w)

def mkdir (a : Arguments) (w : Workspace) : Outcome × Workspace :=
  if a.positional.isEmpty then (Outcome.failure 1 "mkdir: missing operand", w)
  else finishSilently (forEach (mkdirOne (a.hasFlag "parents")) a.positional w)

/-- Whether the last piece of an operand, slashes at its end aside, is `.` or `..`. -/
def isDotOperand (operand : String) : Bool :=
  let last := (Text.cut (· == '/') (Text.dropEndWhile (· == '/') operand.toList)).getLast?
  last == some ['.'] || last == some ['.', '.']

def rmOne (recursive force : Bool) (operand : String) (w : Workspace) :
    Option String × Workspace :=
  if isDotOperand operand then
    (some ("rm: refusing to remove '.' or '..' directory: skipping '" ++ operand ++ "'"), w)
  else
    let p := w.resolve operand
    match w.store.kind p with
    | .error fault =>
      if fault.isNotFound && force then (none, w)
      else (some (diagnostic "rm: cannot remove" operand fault), w)
    | .ok kind =>
      if kind = .directory ∧ !recursive then
        (some ("rm: cannot remove '" ++ operand ++ "': Is a directory"), w)
      else
        let (result, w) := w.onStore (Store.delete p)
        (reportFault "rm: cannot remove" operand result, w)

def rm (a : Arguments) (w : Workspace) : Outcome × Workspace :=
  let force := a.hasFlag "force"
  if a.positional.isEmpty then
    (if force then Outcome.success "" else Outcome.failure 1 "rm: missing operand", w)
  else finishSilently (forEach (rmOne (a.hasFlag "recursive") force) a.positional w)

/-- Sources and a destination, or the complaint about their lack. -/
def splitOperands (tool : String) : List String → Except String (List String × String)
  | [] => .error (tool ++ ": missing file operand")
  | [only] => .error (tool ++ ": missing destination file operand after '" ++ only ++ "'")
  | first :: second :: rest =>
    let operands := first :: second :: rest
    .ok (operands.dropLast, operands.getLast?.getD "")

/-- Where a source goes: into the destination, if that is a directory. -/
def targetOf (source destination : Path) (intoDirectory : Bool) : Path :=
  match intoDirectory, source.fileName? with
  | true, some name => destination.join name
  | _, _ => destination

/-- The destination of `cp` and `mv` as typed and as resolved. -/
structure Destination where
  operand : String
  path : Path
  isDirectory : Bool

def destinationOf (operand : String) (w : Workspace) : Destination :=
  let p := w.resolve operand
  ⟨operand, p, match w.store.kind p with
    | .ok .directory => true
    | _ => false⟩

/-- Runs `cp` or `mv`: many sources need a directory to go to. -/
def transfer (tool : String) (one : Destination → String → Workspace → Option String × Workspace)
    (a : Arguments) (w : Workspace) : Outcome × Workspace :=
  match splitOperands tool a.positional with
  | .error complaint => (Outcome.failure 1 complaint, w)
  | .ok (sources, operand) =>
    let d := destinationOf operand w
    if 1 < sources.length ∧ !d.isDirectory then
      (Outcome.failure 1 (tool ++ ": target '" ++ operand ++ "' is not a directory"), w)
    else finishSilently (forEach (one d) sources w)

def sameFile (tool source destination : String) : String :=
  tool ++ ": '" ++ source ++ "' and '" ++ destination ++ "' are the same file"

def cpFault (d : Destination) (operand : String) : Except Fault Unit → Option String
  | .ok () => none
  | .error (.invalidPath _) =>
    some ("cp: cannot copy a directory, '" ++ operand ++ "', into itself, '" ++ d.operand ++ "'")
  | .error fault => some (diagnostic "cp: cannot create regular file" d.operand fault)

def cpOne (recursive : Bool) (d : Destination) (operand : String) (w : Workspace) :
    Option String × Workspace :=
  let source := w.resolve operand
  match w.store.kind source with
  | .error fault => (some (diagnostic "cp: cannot stat" operand fault), w)
  | .ok kind =>
    if kind = .directory ∧ !recursive then
      (some ("cp: -r not specified; omitting directory '" ++ operand ++ "'"), w)
    else
      let target := targetOf source d.path d.isDirectory
      if target = source then (some (sameFile "cp" operand d.operand), w)
      else
        let (result, w) := w.onStore (Store.copy source target w.now)
        (cpFault d operand result, w)

def cp (a : Arguments) (w : Workspace) : Outcome × Workspace :=
  transfer "cp" (cpOne (a.hasFlag "recursive")) a w

def mvFault (d : Destination) (operand : String) : Except Fault Unit → Option String
  | .ok () => none
  | .error (.invalidPath _) =>
    some ("mv: cannot move '" ++ operand ++ "' to a subdirectory of itself, '" ++ d.operand ++ "'")
  | .error fault =>
    some ("mv: cannot move '" ++ operand ++ "' to '" ++ d.operand ++ "': " ++ fault.reason)

def mvOne (d : Destination) (operand : String) (w : Workspace) : Option String × Workspace :=
  let source := w.resolve operand
  match w.store.kind source with
  | .error fault => (some (diagnostic "mv: cannot stat" operand fault), w)
  | .ok _ =>
    let target := targetOf source d.path d.isDirectory
    if target = source then (some (sameFile "mv" operand d.operand), w)
    else
      let (result, w) := w.onStore (Store.move source target)
      (mvFault d operand result, w)

def mv (a : Arguments) (w : Workspace) : Outcome × Workspace := transfer "mv" mvOne a w

end DesktopTerminal.Command
