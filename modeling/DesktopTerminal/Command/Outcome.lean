import DesktopTerminal.Text.Pieces

/-!
# Outcomes

What a command leaves: an exit code, plain output for pipes and files, error text, and perhaps the
output in colours for the eye.
-/
namespace DesktopTerminal

structure Outcome where
  code : Nat
  out : String
  err : String
  rendered : Option String
  /-- The visible log is to be wiped. -/
  clear : Bool
deriving DecidableEq, Repr

namespace Outcome

def success (out : String) : Outcome := ⟨0, out, "", none, false⟩

/-- Output with a form for display. -/
def shown (out rendered : String) : Outcome := ⟨0, out, "", some rendered, false⟩

def failure (code : Nat) (err : String) : Outcome := ⟨code, "", err, none, false⟩

/-- Nothing but the wish for a clean screen. -/
def wiped : Outcome := ⟨0, "", "", none, true⟩

def isOk (o : Outcome) : Bool := o.code == 0

/-- The text for display. -/
def display (o : Outcome) : String := o.rendered.getD o.out

/-- The outcome of a command that goes on after an error: a failure if there were any. -/
def ofDiagnostics (out : String) (diagnostics : List String) : Outcome :=
  if diagnostics.isEmpty then success out
  else ⟨1, out, Text.joinWith "\n" diagnostics, none, false⟩

end Outcome

end DesktopTerminal
