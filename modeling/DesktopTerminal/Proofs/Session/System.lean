import DesktopTerminal.Session.Basic

/-!
# Systems

A system is a desktop with the sessions of its terminals. What users do at the terminals, one after
another, makes its run; the gateway's answers come in between like other actions.
-/
namespace DesktopTerminal

/-- What can happen at one terminal. -/
inductive Action where
  | submit (line : String)
  | submitInput
  | setInput (text : String)
  | historyPrevious
  | historyNext
  | complete
  | copy (text : String)
  | paste
  | interrupt
  /-- The gateway has answered. -/
  | finish (answer : GatewayAnswer)

/-- What the terminal gives back. -/
inductive Reply where
  | nothing
  | turn (result : Except Refusal Turn)
  | completed (changed : Bool)
  | pasted (text : Option String)

def Session.act (now : Instant) (a : Action) (d : Desktop) (s : Session) :
    Reply × Desktop × Session :=
  match a with
  | .submit line =>
    let r := s.submit now line d
    (.turn r.1, r.2)
  | .submitInput =>
    let r := s.submitInput now d
    (.turn r.1, r.2)
  | .setInput text => (.nothing, d, s.setInput text)
  | .historyPrevious => (.nothing, d, s.historyPrevious)
  | .historyNext => (.nothing, d, s.historyNext)
  | .complete =>
    let r := s.complete d
    (.completed r.1, d, r.2)
  | .copy text => (.nothing, s.copy text d)
  | .paste =>
    let r := s.paste d
    (.pasted r.1, d, r.2)
  | .interrupt => (.nothing, d, s.interrupt d)
  | .finish answer => (.nothing, d, s.finishDelegation answer)

structure System where
  desktop : Desktop
  sessions : List Session

inductive Event where
  /-- A new terminal is opened. -/
  | start
  /-- Something happens at the terminal of this number. -/
  | act (terminal : Nat) (action : Action)

namespace System

/-- A terminal that is not there does nothing. -/
def step (now : Instant) (e : Event) (y : System) : Reply × System :=
  match e with
  | .start => (.nothing, { y with sessions := y.sessions ++ [Session.start y.desktop] })
  | .act i action =>
    match y.sessions[i]? with
    | none => (.nothing, y)
    | some s =>
      let r := s.act now action y.desktop
      (r.1, ⟨r.2.1, y.sessions.set i r.2.2⟩)

/-- The system after some events, each at its own time. -/
def run : List (Event × Instant) → System → System
  | [], y => y
  | (e, now) :: rest, y => run rest (y.step now e).2

/-- What each event of a run gives back, and the system after it. -/
def trace : List (Event × Instant) → System → List (Reply × System)
  | [], _ => []
  | (e, now) :: rest, y =>
    let r := y.step now e
    r :: trace rest r.2

end System

end DesktopTerminal
