/-!
# Pipelines

A command line is one pipeline: commands run from left to right, each fed with the output of the one
before it, and the output of the last may go to a file.
-/
namespace DesktopTerminal.Line

structure Command where
  name : String
  args : List String
deriving DecidableEq, Repr

inductive RedirectKind where
  | overwrite
  | append
deriving DecidableEq, Repr

def RedirectKind.text : RedirectKind → String
  | .overwrite => ">"
  | .append => ">>"

structure Redirect where
  kind : RedirectKind
  target : String
deriving DecidableEq, Repr

structure Pipeline where
  commands : List Command
  redirect : Option Redirect
deriving DecidableEq, Repr

def Command.render (c : Command) : String :=
  c.args.foldl (fun text arg => text ++ " " ++ arg) c.name

def renderCommands : List Command → String
  | [] => ""
  | [c] => c.render
  | c :: d :: rest => c.render ++ " | " ++ renderCommands (d :: rest)

/-- The line that spells the words as they are, without quotes. -/
def Pipeline.render (p : Pipeline) : String :=
  match p.redirect with
  | none => renderCommands p.commands
  | some r => renderCommands p.commands ++ " " ++ r.kind.text ++ " " ++ r.target

end DesktopTerminal.Line
