import DesktopTerminal.Launch
import Std.Time.DateTime.Timestamp

/-!
# The program

Reads the clock, the environment and the configuration file, and then lines from standard input as
they come. It has no network of its own: a gateway that is configured is never reached.
-/
namespace DesktopTerminal

def currentInstant : IO Instant := do
  let nanos := (← Std.Time.Timestamp.now).toNanosecondsSinceUnixEpoch.val
  return ⟨nanos.fdiv Instant.billion, (nanos.fmod Instant.billion).toNat⟩

def readText? (path : String) : IO (Option String) := do
  try
    return some (← IO.FS.readFile path)
  catch _ =>
    return none

/-- The path of the configuration file of the user. -/
def configPath : IO String := do
  match ← IO.getEnv "XDG_CONFIG_HOME" with
  | some folder =>
    if folder.startsWith "/" then return folder ++ "/deskshell/config.toml"
  | none => pure ()
  return (← IO.getEnv "HOME").getD "" ++ "/.config/deskshell/config.toml"

/-- The path of the saved tree that a configuration file names. -/
def seedPath? (configText : Option String) : Option String :=
  match configText.map ConfigFile.parse with
  | some (.ok file) => file.seed
  | _ => none

def surroundings : IO Surroundings := do
  let path ← configPath
  let configText ← readText? path
  let seedText ← match seedPath? configText with
    | none => pure none
    | some seed => readText? seed
  return {
    now := ← currentInstant
    configPath := path
    configText
    fileAt := fun _ => seedText
    apiKey := ← IO.getEnv "DESKSHELL_API_KEY"
    exchange := fun _ => none }

def emit (printed : Console.Print) : IO Unit := do
  IO.print printed.out
  (← IO.getStdout).flush
  IO.eprint printed.err

/-- A line as it came, without its ending; none at the end of input. -/
def readLine? : IO (Option String) := do
  let line ← (← IO.getStdin).getLine
  if line.isEmpty then return none
  return some ((Text.lines line).headD "")

/-- Keeps a console until its input ends or it is told to exit. -/
partial def keepConsole (gateway : Gateway) (c : Console) : IO Unit := do
  emit (.toOut c.prompt)
  match ← readLine? with
  | none => emit (.toOut Console.farewell)
  | some line =>
    let (printed, next) := c.respond gateway (← currentInstant) line
    emit printed
    match next with
    | none => return
    | some c => keepConsole gateway c

def finish (report : Report) : IO UInt32 := do
  emit report.printed
  return report.code.toUInt32

def launch (args : List String) : IO UInt32 := do
  let around ← surroundings
  let launch := Launch.ofArguments args
  match launch with
  | .console =>
    let audience : Console.Audience :=
      if ← (← IO.getStdout).isTty then .interactive else .piped
    match Launch.setUp around audience with
    | .error _ => finish (launch.run around [])
    | .ok (gateway, c) =>
      emit (.toOut Console.greeting)
      keepConsole gateway c
      return 0
  | _ => finish (launch.run around [])

end DesktopTerminal

def main (args : List String) : IO UInt32 := DesktopTerminal.launch args
