import DesktopTerminal.Session.Basic

/-!
# What the console prints

Log entries and the prompt as text, in colour for a reader at a screen and plain for a pipe.
-/
namespace DesktopTerminal.Console

/-- Who reads the output. -/
inductive Audience where
  | interactive
  | piped
deriving DecidableEq, Repr

def red (text : String) : String := "\x1b[31m" ++ text ++ "\x1b[39m"

def bold (colour text : String) : String :=
  "\x1b[1m\x1b[" ++ colour ++ "m" ++ text ++ "\x1b[39m\x1b[0m"

/-- The text of an entry; there is none if the line editor has shown it already. -/
def formatEntry (audience : Audience) : LogEntry → Option String
  | .command _ _ => none
  | .interrupted _ _ => none
  | .output text =>
    match audience with
    | .interactive => some text
    | .piped => some (Markup.strip text)
  | .error text =>
    match audience with
    | .interactive => some (red text)
    | .piped => some text
  | .delegated text => some text

/-- The entries one below the other, if any shows. -/
def formatEntries (audience : Audience) (entries : List LogEntry) : Option String :=
  match entries.filterMap (formatEntry audience) with
  | [] => none
  | texts => some (Text.joinWith "\n" texts)

/-- The prompt, for the screen with user and host in green and the path in blue. -/
def formatPrompt (audience : Audience) (prompt : String) : String :=
  match audience with
  | .piped => prompt
  | .interactive =>
    let body := String.ofList (Text.dropEndWhile (· == '$') (Text.trimEndChars prompt.toList))
    match Text.splitFirst (· == ':') body with
    | some (who, path) => bold "32" who ++ ":" ++ bold "34" path ++ "$ "
    | none => prompt

end DesktopTerminal.Console
