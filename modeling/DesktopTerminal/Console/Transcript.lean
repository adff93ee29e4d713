import DesktopTerminal.Console.Basic
import DesktopTerminal.Text.Cluster
import DesktopTerminal.Text.Size

/-!
# Transcripts

What a console prints while it reads lines to the end of its input or until it is told to exit. The
prompt is printed before each line is read, the last time before the end of input. Backspaces in a
line erase what was typed before them.
-/
namespace DesktopTerminal.Console

/-- What goes to the two outputs. -/
structure Print where
  out : String
  err : String
deriving DecidableEq, Repr

namespace Print

def nothing : Print := ⟨"", ""⟩

def toOut (text : String) : Print := ⟨text, ""⟩

def toErr (text : String) : Print := ⟨"", text⟩

def append (a b : Print) : Print := ⟨a.out ++ b.out, a.err ++ b.err⟩

instance : Append Print := ⟨append⟩

end Print

/-- What is printed for a reaction. Clearing the screen does not start a new line. -/
def Reaction.print : Reaction → Print
  | .exit => .nothing
  | .shown none => .nothing
  | .shown (some text) => .toOut (if text = clearScreen then text else text ++ "\n")
  | .refused cause => .toErr ("Error: " ++ cause.message ++ "\n")

/-- A line while it is typed. -/
structure Draft where
  /-- The characters, in reverse. -/
  text : List Char
  /-- The sizes in bytes of the clusters, the last one first. -/
  sizes : List Nat

namespace Draft

def empty : Draft := ⟨[], []⟩

/-- A size is kept in one byte, so that of a longer cluster only the remainder is erased. -/
def type (d : Draft) (cluster : List Char) : Draft :=
  ⟨cluster.reverse ++ d.text, Text.size cluster % 256 :: d.sizes⟩

def erase (d : Draft) : Draft :=
  ⟨Text.dropSize (d.sizes.headD 0) d.text, d.sizes.drop 1⟩

def step (d : Draft) (cluster : List Char) : Draft :=
  if cluster = ['\x08'] then d.erase else d.type cluster

end Draft

/-- A line in which every backspace has erased the cluster before it. -/
def eraseBack (line : String) : String :=
  String.ofList ((Text.clusters line.toList).foldl Draft.step .empty).text.reverse

/-- Takes a line as it was typed. There is no console any more after an exit. -/
def respond (gateway : Gateway) (now : Instant) (line : String) (c : Console) :
    Print × Option Console :=
  match c.processLine gateway now (eraseBack line) with
  | (.exit, _) => (.nothing, none)
  | (reaction, c) => (reaction.print, some c)

def version : String := "0.1.0"

def greeting : String :=
  "deskshell v" ++ version ++ "\nType /help for commands, /quit to exit.\n\n"

def farewell : String := "^D\n"

/-- What a console prints for the rest of its input. -/
def transcript (gateway : Gateway) (now : Instant) : List String → Console → Print
  | [], c => .toOut (c.prompt ++ farewell)
  | line :: rest, c =>
    let (printed, next) := c.respond gateway now line
    .toOut c.prompt ++ printed ++
      match next with
      | none => .nothing
      | some c => c.transcript gateway now rest

end DesktopTerminal.Console
