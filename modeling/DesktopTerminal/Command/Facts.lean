import DesktopTerminal.Clock.Pattern
import DesktopTerminal.Command.Arguments
import DesktopTerminal.Command.Builtin
import DesktopTerminal.Command.Workspace
import DesktopTerminal.Help
import DesktopTerminal.Text.Column
import DesktopTerminal.Text.Numeral

/-!
# Commands about the desktop

The date, the system, the history and the processes, which are a few fixed ones and one for each
open window. Closing a window is killing its process.
-/
namespace DesktopTerminal.Command

def defaultPattern : String := "%a %b %e %H:%M:%S %Z %Y"

def formatNow (pattern : String) (a : Arguments) (w : Workspace) : Outcome :=
  match Clock.format? (if a.hasFlag "utc" then .utc else .local) pattern w.now with
  | some text => Outcome.success text
  | none => Outcome.failure 1 ("date: invalid format '" ++ pattern ++ "'")

/-- The date, in a pattern that follows a plus sign. -/
def date (a : Arguments) (w : Workspace) : Outcome × Workspace :=
  match a.positional with
  | [] => (formatNow defaultPattern a w, w)
  | operand :: _ =>
    match operand.toList with
    | '+' :: pattern => (formatNow (String.ofList pattern) a w, w)
    | _ => (Outcome.failure 1 ("date: invalid date '" ++ operand ++ "'"), w)

def help (a : Arguments) (w : Workspace) : Outcome × Workspace :=
  let word := a.positional.head?.getD ""
  match Help.text? (HelpTopic.ofWord word) Builtin.schemas with
  | some text => (Outcome.success text, w)
  | none => (Outcome.failure 1 ("help: no help topics match '" ++ word ++ "'"), w)

/-- Numbered lines, the first with the given number. -/
def numbered : Nat → List String → List String
  | _, [] => []
  | n, line :: rest => (Text.padLeft 5 (Text.numeral n) ++ "  " ++ line) :: numbered (n + 1) rest

def history (w : Workspace) : Outcome × Workspace :=
  (Outcome.success (Text.joinWith "\n" (numbered 1 w.history)), w)

def hostname (w : Workspace) : Outcome × Workspace := (Outcome.success w.hostname, w)

def whoami (w : Workspace) : Outcome × Workspace := (Outcome.success w.user, w)

def kernelName : String := "Linux"

def kernelRelease : String := "6.1.0-desktop"

def kernelVersion : String := "#1 SMP PREEMPT_DYNAMIC"

def machine : String := "x86_64"

def operatingSystem : String := "GNU/Linux"

/-- The facts that can be asked for singly, by the options that ask for them. -/
def systemFacts (w : Workspace) : List (String × String) :=
  [("kernel_name", kernelName), ("nodename", w.hostname), ("kernel_release", kernelRelease),
    ("machine", machine)]

def uname (a : Arguments) (w : Workspace) : Outcome × Workspace :=
  if a.hasFlag "all" then
    (Outcome.success (Text.joinWith " "
      [kernelName, w.hostname, kernelRelease, kernelVersion, machine, operatingSystem]), w)
  else
    match (systemFacts w).filter fun fact => a.hasFlag fact.1 with
    | [] => (Outcome.success kernelName, w)
    | facts => (Outcome.success (Text.joinWith " " (facts.map (·.2))), w)

/-- A process that is always there. -/
structure SystemProcess where
  number : Nat
  ofRoot : Bool
  command : String
deriving DecidableEq, Repr

def systemProcesses : List SystemProcess :=
  [⟨1, true, "init"⟩, ⟨2, true, "kthreadd"⟩, ⟨87, true, "dbus-daemon"⟩,
    ⟨112, false, "window-manager"⟩]

def processRow (number user command : String) : String :=
  Text.padLeft 5 number ++ " " ++ Text.padRight 8 user ++ " " ++ command

def ps (w : Workspace) : Outcome × Workspace :=
  let system := systemProcesses.map fun p =>
    processRow (Text.numeral p.number) (if p.ofRoot then "root" else w.user) p.command
  let windows := w.windows.windows.map fun v =>
    processRow (Text.numeral (processNumber v.id)) w.user v.app
  (Outcome.success (Text.joinWith "\n" (processRow "PID" "USER" "COMMAND" :: system ++ windows)), w)

/-- Closes the first window whose process has this number. -/
def killNumber (number : Nat) (w : Workspace) : Outcome × Workspace :=
  let about (complaint : String) : Outcome :=
    Outcome.failure 1 ("kill: (" ++ Text.numeral number ++ ") - " ++ complaint)
  if systemProcesses.any (·.number = number) then (about "Operation not permitted", w)
  else
    match w.windows.windows.find? fun v => processNumber v.id = number with
    | none => (about "No such process", w)
    | some v =>
      match w.windows.close v.id with
      | (true, windows) => (Outcome.success "", { w with windows })
      | (false, windows) => (about "No such process", { w with windows })

/-- Signals are taken and ignored: the last word without a dash is the process. -/
def kill (a : Arguments) (w : Workspace) : Outcome × Workspace :=
  match (a.positional.filter fun word => !startsWithDash word).getLast? with
  | none =>
    (Outcome.failure 2 "kill: usage: kill [-s sigspec | -n signum | -sigspec] pid", w)
  | some word =>
    match Text.readUnsigned (Nat.pow 2 32) word with
    | none =>
      (Outcome.failure 1 ("kill: " ++ word ++ ": arguments must be process or job IDs"), w)
    | some number => killNumber number w

end DesktopTerminal.Command
