import DesktopTerminal.ConfigFile
import DesktopTerminal.Console.Transcript
import DesktopTerminal.Gateway.Chat

/-!
# Launches

The program is launched to keep a console, to run one line, or for its help. A console and a line need
a desktop, which is set up from a configuration file that need not exist.
-/
namespace DesktopTerminal

inductive Launch where
  | console
  | once (line : String)
  /-- The option for one line without the line. -/
  | missingLine
  | help
  | version
  | unknown (option : String)
deriving DecidableEq, Repr

/-- What a launch is given from outside. -/
structure Surroundings where
  now : Instant
  /-- The path of the configuration file. -/
  configPath : String
  /-- The text of the configuration file, if there is one. -/
  configText : Option String
  /-- The texts of other files. -/
  fileAt : String → Option String
  apiKey : Option String
  /-- How posts to a gateway are answered. -/
  exchange : Chat.Post → Option Chat.Response

/-- What a launch leaves: its exit code and what it printed. -/
structure Report where
  code : Nat
  printed : Console.Print
deriving DecidableEq, Repr

namespace Launch

def ofArguments : List String → Launch
  | [] => .console
  | option :: rest =>
    if option = "--help" ∨ option = "-h" then .help
    else if option = "--version" ∨ option = "-V" then .version
    else if option = "-c" then rest.head?.elim .missingLine .once
    else .unknown option

def helpText : String := Text.joinWith "\n"
  ["deskshell v" ++ Console.version,
    "",
    "Usage:",
    "  deskshell                    Interactive REPL",
    "  deskshell -c <command>       Execute command line and exit",
    "",
    "Options:",
    "  -c <command>                 Execute command line and exit",
    "  -h, --help                   Show this help",
    "  -V, --version                Show version",
    "",
    "Configuration:",
    "  ~/.config/deskshell/config.toml   user, hostname, seed tree, [gateway]",
    "  DESKSHELL_API_KEY                 bearer token for the gateway",
    "  RUST_LOG                          log filter, e.g. deskshell_kernel=debug",
    "",
    "Examples:",
    "  deskshell -c 'ls -la'",
    "  deskshell -c 'echo hello > note.txt'",
    "  deskshell -c 'cat Documents/readme.txt | grep Welcome'",
    "",
    ""]

/-- Why there is no desktop. -/
inductive SetupFault where
  | config (path : String) (cause : ConfigFault)
  | boot (cause : BootFault)
deriving DecidableEq, Repr

def SetupFault.message : SetupFault → String
  | .config path .invalidFile => "in " ++ path
  | .config _ cause => cause.message
  | .boot _ => "Failed to create kernel"

/-- The configuration in force. A file that does not exist asks for nothing. -/
def config (around : Surroundings) : Except ConfigFault Config := do
  let file ← match around.configText with
    | none => .ok ConfigFile.empty
    | some text => ConfigFile.parse text
  file.toConfig around.fileAt (around.apiKey.filter (· ≠ ""))

/-- A console with the gateway that it asks. -/
def setUp (around : Surroundings) (audience : Console.Audience) :
    Except SetupFault (Gateway × Console) :=
  match config around with
  | .error cause => .error (.config around.configPath cause)
  | .ok c =>
    match Desktop.start c around.now with
    | .error cause => .error (.boot cause)
    | .ok d => .ok (Chat.gatewayOf around.exchange c, Console.ofDesktop d audience)

/-- What a launch leaves that came to nothing. -/
def failed (message : String) : Report := ⟨1, .toErr ("Error: " ++ message ++ "\n")⟩

/-- Whether an entry tells of an error. -/
def isError : LogEntry → Bool
  | .error _ => true
  | _ => false

/-- Runs one line, which fails if it leaves an error in the log. -/
def runOnce (gateway : Gateway) (now : Instant) (line : String) (c : Console) : Report :=
  match c.processLine gateway now line with
  | (.exit, _) => ⟨0, .nothing⟩
  | (.refused cause, _) => failed cause.message
  | (reaction, c) => ⟨if c.session.log.any isError then 1 else 0, reaction.print⟩

/-- Carries out a launch whose input has the given lines. -/
def run (around : Surroundings) (input : List String) : Launch → Report
  | .help => ⟨0, .toOut helpText⟩
  | .version => ⟨0, .toOut ("deskshell " ++ Console.version ++ "\n")⟩
  | .missingLine => failed "-c requires a command argument"
  | .unknown option =>
    ⟨1, .toErr ("Unknown option: " ++ option ++ "\nRun 'deskshell --help' for usage.\n")⟩
  | .once line =>
    match setUp around .piped with
    | .error fault => failed fault.message
    | .ok (gateway, c) => runOnce gateway around.now line c
  | .console =>
    match setUp around .piped with
    | .error fault => failed fault.message
    | .ok (gateway, c) => ⟨0, .toOut Console.greeting ++ c.transcript gateway around.now input⟩

end Launch

end DesktopTerminal
