import DesktopTerminal.Console.Format
import DesktopTerminal.Tree.Encoding

/-!
# The console

The console drives one session from lines of input. A line that starts with a slash is for the
console itself; `exit`, `quit` and `logout` end it; every other line is submitted, and what it adds
to the log is printed.
-/
namespace DesktopTerminal

structure Console where
  desktop : Desktop
  session : Session
  audience : Console.Audience
deriving Repr

namespace Console

/-- What a line brings about. -/
inductive Reaction where
  | exit
  | shown (text : Option String)
  | refused (cause : Refusal)
deriving DecidableEq, Repr

/-- A console on a desktop, in which it is the first window. -/
def ofDesktop (d : Desktop) (audience : Audience) : Console :=
  let d := { d with windows := (Windows.empty.openWindow "terminal" "Terminal").2 }
  ⟨d, Session.start d, audience⟩

def prompt (c : Console) : String := formatPrompt c.audience (c.session.prompt c.desktop)

def clearScreen : String := "\x1b[2J\x1b[H"

def helpText : String := Text.joinWith "\n"
  ["deskshell REPL",
    "",
    "Meta commands:",
    "  /help               Show this help",
    "  /quit               Exit (also: exit, Ctrl-D)",
    "  /cwd                Print the working directory",
    "  /open <app> [title] Open a window (visible to ps and kill)",
    "  /windows            List open windows",
    "  /snapshot           Print the filesystem as JSON",
    "  /copy <text>        Copy text to the clipboard",
    "  /clipboard          List recent copies",
    "",
    "Everything else runs in the shell. Try `help` for the builtins.",
    "Commands the shell doesn't know are answered by the gateway."]

def windowLine (w : Window) : String := w.id ++ "  " ++ w.app ++ "  " ++ w.title

def listWindows (ws : Windows) : String :=
  if ws.windows.isEmpty then "(no open windows)"
  else Text.joinWith "\n" (ws.windows.map windowLine)

/-- Numbered copies, the newest with the given number. -/
def numberedCopies : Nat → List String → List String
  | _, [] => []
  | n, text :: rest =>
    (Text.padLeft 2 (Text.numeral n) ++ "  " ++ text) :: numberedCopies (n + 1) rest

def listCopies (r : Ring) : String :=
  if r.entries.isEmpty then "(clipboard empty)"
  else Text.joinWith "\n" (numberedCopies 0 r.entries)

/-- Opens a window for the first word, with the others for its title. -/
def openWindow (rest : String) (c : Console) : String × Console :=
  match Text.words rest with
  | [] => ("Usage: /open <app> [title]", c)
  | app :: title =>
    let title := if title.isEmpty then app else Text.joinWith " " title
    let (id, windows) := c.desktop.windows.openWindow app title
    ("opened " ++ id, { c with desktop := { c.desktop with windows } })

/-- Carries out a command of the console. -/
def runMeta (command rest : String) (c : Console) : Reaction × Console :=
  let say (text : String) : Reaction × Console := (.shown (some text), c)
  match command with
  | "/quit" => (.exit, c)
  | "/q" => (.exit, c)
  | "/exit" => (.exit, c)
  | "/help" => say helpText
  | "/h" => say helpText
  | "/?" => say helpText
  | "/cwd" => say c.session.cwd.render
  | "/open" =>
    let (text, c) := c.openWindow rest
    (.shown (some text), c)
  | "/windows" => say (listWindows c.desktop.windows)
  | "/snapshot" => say c.desktop.store.exported.indented
  | "/copy" =>
    if rest = "" then say "Usage: /copy <text>"
    else
      let (desktop, session) := c.session.copy rest c.desktop
      (.shown none, { c with desktop, session })
  | "/clipboard" => say (listCopies c.session.ring)
  | _ => say ("Unknown command: " ++ command ++ "\nType /help for available commands.")

/-- Submits a line, asks the gateway if it is needed, and shows what the log has gained. -/
def submitLine (gateway : Gateway) (now : Instant) (line : String) (c : Console) :
    Reaction × Console :=
  let before := c.session.log.length
  match c.session.execute gateway now line c.desktop with
  | (.error cause, desktop, session) => (.refused cause, { c with desktop, session })
  | (.ok .cleared, desktop, session) =>
    (.shown (match c.audience with
      | .interactive => some clearScreen
      | .piped => none), { c with desktop, session })
  | (.ok _, desktop, session) =>
    (.shown (formatEntries c.audience (session.log.drop before)), { c with desktop, session })

/-- Takes one line of input. -/
def processLine (gateway : Gateway) (now : Instant) (line : String) (c : Console) :
    Reaction × Console :=
  let trimmed := Text.trim line
  if trimmed.toList.head? == some '/' then
    match Text.splitFirst Text.isBlank trimmed with
    | some (command, rest) => c.runMeta command (Text.trim rest)
    | none => c.runMeta trimmed ""
  else if trimmed = "exit" ∨ trimmed = "quit" ∨ trimmed = "logout" then (.exit, c)
  else if trimmed = "" then (.shown none, c)
  else c.submitLine gateway now line

def interrupt (c : Console) : Console :=
  { c with session := c.session.interrupt c.desktop }

end Console

end DesktopTerminal
