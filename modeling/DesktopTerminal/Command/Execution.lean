import DesktopTerminal.Command.Facts
import DesktopTerminal.Command.Files
import DesktopTerminal.Command.Filters
import DesktopTerminal.Command.Listing
import DesktopTerminal.Line.Pipeline

/-!
# Running a pipeline

Every name is resolved before anything runs, so that a line with an unknown name has no effect. Then
the commands run from left to right. Output goes into the next command; error texts are collected
and never go into a pipe. A redirect takes the output of the last command.
-/
namespace DesktopTerminal

def Builtin.run (b : Builtin) (a : Arguments) (w : Workspace) : Outcome × Workspace :=
  match b with
  | .cat => Command.cat a w
  | .cd => Command.cd a w
  | .chmod => Command.chmod a w
  | .clear => (Outcome.wiped, w)
  | .cp => Command.cp a w
  | .date => Command.date a w
  | .echo => Command.echo a w
  | .grep => Command.grep a w
  | .head => Command.head a w
  | .help => Command.help a w
  | .history => Command.history w
  | .hostname => Command.hostname w
  | .kill => Command.kill a w
  | .ls => Command.ls a w
  | .mkdir => Command.mkdir a w
  | .mv => Command.mv a w
  | .ps => Command.ps w
  | .pwd => Command.pwd w
  | .rm => Command.rm a w
  | .tail => Command.tail a w
  | .touch => Command.touch a w
  | .uname => Command.uname a w
  | .whoami => Command.whoami w

/-- A command whose name is known, with its words. -/
structure Invocation where
  builtin : Builtin
  words : List String
deriving DecidableEq, Repr

/-- Resolves every name, or tells the first that is unknown. -/
def resolveAll : List Line.Command → Except String (List Invocation)
  | [] => .ok []
  | c :: rest =>
    match Builtin.ofName? c.name with
    | none => .error c.name
    | some b => (resolveAll rest).map (⟨b, c.args⟩ :: ·)

/-- Runs one command with the given input, which is gone afterwards. -/
def Invocation.run (i : Invocation) (input : Option String) (w : Workspace) :
    Outcome × Workspace :=
  let (outcome, w) := match readArguments i.builtin.schema i.words with
    | .ok a => i.builtin.run a { w with stdin := input }
    | .error fault => (Outcome.failure 2 (fault.message i.builtin.schema.name), w)
  (outcome, { w with stdin := none })

/-- What a pipeline has come to. -/
structure Progress where
  last : Outcome
  errors : List String
  clear : Bool
deriving DecidableEq, Repr

namespace Progress

def start : Progress := ⟨Outcome.success "", [], false⟩

/-- Takes in the outcome of the next command. -/
def add (o : Outcome) (p : Progress) : Progress :=
  ⟨o, if o.err = "" then p.errors else p.errors ++ [o.err], p.clear || o.clear⟩

/-- The outcome of the whole: that of the last command with the errors of all. -/
def finish (p : Progress) : Outcome :=
  { p.last with err := Text.joinWith "\n" p.errors, clear := p.clear }

end Progress

/-- Runs commands after `p`, the first of them with the given input. -/
def runSegments : List Invocation → Option String → Progress → Workspace → Progress × Workspace
  | [], _, p, w => (p, w)
  | i :: rest, input, p, w =>
    let (o, w) := i.run input w
    runSegments rest (some o.out) (p.add o) w

/-- Sends the output to a file. -/
def applyRedirect (r : Line.Redirect) (p : Progress) (w : Workspace) : Progress × Workspace :=
  let target := w.resolve r.target
  let (result, w) := w.onStore (match r.kind with
    | .overwrite => Store.write target p.last.out w.now
    | .append => Store.append target p.last.out w.now)
  match result with
  | .ok () => ({ p with last := { p.last with out := "", rendered := none } }, w)
  | .error fault =>
    (⟨{ p.last with out := "", rendered := none, code := 1 },
      p.errors ++ ["deskshell: " ++ r.target ++ ": " ++ fault.reason], p.clear⟩, w)

/-- How a pipeline went: it ran, or it holds a name that is not known here. -/
inductive RunResult where
  | completed (outcome : Outcome)
  | delegate (command : String)
deriving DecidableEq, Repr

def runPipeline (line : Line.Pipeline) (w : Workspace) : RunResult × Workspace :=
  match resolveAll line.commands with
  | .error name => (.delegate name, w)
  | .ok invocations =>
    let (p, w) := runSegments invocations none Progress.start w
    let (p, w) := match line.redirect with
      | none => (p, w)
      | some r => applyRedirect r p w
    (.completed p.finish, w)

end DesktopTerminal
