import DesktopTerminal.Command.Schema
import DesktopTerminal.Text.Column

/-!
# Help

Two texts and what the schemas of commands say of themselves. A topic that is none of the known ones
is taken for the name of a command.
-/
namespace DesktopTerminal

inductive HelpTopic where
  | overview
  | lines
  | builtins
  | command (name : String)
deriving DecidableEq, Repr

namespace HelpTopic

/-- The topic that a word names, in any case. -/
def ofWord (word : String) : HelpTopic :=
  match Text.lower word with
  | "" => .overview
  | "overview" => .overview
  | "syntax" => .lines
  | "pipes" => .lines
  | "quoting" => .lines
  | "builtins" => .builtins
  | "commands" => .builtins
  | name => .command name

end HelpTopic

namespace Help

def overviewLines : List String :=
  [
    "deskshell: the desktop's built-in terminal",
    "",
    "Everything here runs against the desktop's in-memory filesystem. Nothing",
    "touches the real machine. Commands the shell doesn't know are handed to",
    "the assistant, which answers as a Linux system would.",
    "",
    "Topics:",
    "  help syntax      Quoting, pipes and redirection",
    "  help builtins    Every built-in command",
    "  help <command>   Usage for one command",
    "",
    "Keys: Up/Down walk history, Tab completes, Ctrl-C discards the line."]

def lineLines : List String :=
  [
    "Command lines",
    "",
    "  cmd arg arg              words split on whitespace",
    "  \"two words\" 'as one'     quotes group words; \\\" and \\\\ escape inside \"...\"",
    "  a | b | c                output of each command feeds the next",
    "  cmd > file               write the final output to file",
    "  cmd >> file              append it, on a new line",
    "",
    "Redirection applies to the whole pipeline and must come last:",
    "  ls | grep txt > found.txt",
    "",
    "Paths",
    "  /abs/path   relative/path   .   ..   ~   ~/Documents",
    "",
    "Error messages are shown, never piped or redirected."]

/-- An option in the help of its command. -/
def optionLine (p : Param) : String :=
  "  " ++ Text.padRight 18 (Text.joinWith ", " p.aliases) ++ " " ++ p.description

def exampleLine (e : Example) : String := "  " ++ Text.padRight 28 e.code ++ " # " ++ e.description

/-- A blank line and a titled list, if there is anything to list. -/
def titled (title : String) (ls : List String) : List String :=
  if ls.isEmpty then [] else "" :: title :: ls

/-- Usage, description, options and examples of one command. -/
def ofSchema (s : Schema) : String :=
  Text.joinWith "\n" (["Usage: " ++ s.usage, "", s.description]
    ++ titled "Options:" ((s.params.filter (!·.aliases.isEmpty)).map optionLine)
    ++ titled "Examples:" (s.examples.map exampleLine))

def comesBefore (a b : String × String) : Bool := a.1 < b.1 || (a.1 == b.1 && a.2 ≤ b.2)

/-- Names and descriptions in two columns, sorted. The first is as wide as the longest name in
bytes. -/
def listing (schemas : List Schema) : String :=
  let rows := (schemas.map fun s => (s.name, s.description)).mergeSort comesBefore
  let width := (rows.map (·.1.utf8ByteSize)).foldl max 0
  Text.joinWith "\n" ("Built-in commands:" ::
    rows.map fun row => "  " ++ Text.padRight width row.1 ++ "  " ++ row.2)

/-- The help on a topic; there is none on an unknown command. -/
def text? (topic : HelpTopic) (schemas : List Schema) : Option String :=
  match topic with
  | .overview => some (Text.joinWith "\n" overviewLines ++ "\n\n" ++ listing schemas)
  | .lines => some (Text.joinWith "\n" lineLines)
  | .builtins => some (listing schemas)
  | .command name => (schemas.find? (·.name = name)).map ofSchema

end Help

end DesktopTerminal
