import DesktopTerminal.Command.Execution
import DesktopTerminal.Desktop
import DesktopTerminal.Gateway.Fence
import DesktopTerminal.Gateway.Request
import DesktopTerminal.Line.Reading
import DesktopTerminal.Session.Completion
import DesktopTerminal.Session.History
import DesktopTerminal.Session.Ring

/-!
# Sessions

A session is the state of one terminal: directory, history, copy ring, input line and visible log. A
submitted line either settles at once or goes to the gateway; then the session waits for the answer
and takes no other line.
-/
namespace DesktopTerminal

inductive LogEntry where
  /-- A submitted line and the prompt at which it was typed. -/
  | command (prompt line : String)
  | output (text : String)
  | error (text : String)
  /-- Input that was given up. -/
  | interrupted (prompt line : String)
  /-- The answer of the gateway. -/
  | delegated (text : String)
deriving DecidableEq, Repr

/-- Where a session is in its turn. -/
inductive Phase where
  | idle
  /-- A line has been taken. -/
  | submitted
  /-- The line runs. -/
  | processing
  /-- Waiting for the gateway. -/
  | delegated
  /-- The log shows what has come of the line. -/
  | rendered
  /-- The log has been wiped. -/
  | cleared
deriving DecidableEq, Repr

/-- Whether a submitted line has not settled. -/
def Phase.isProcessing : Phase → Bool
  | .submitted | .processing | .delegated => true
  | .idle | .rendered | .cleared => false

/-- What is to be seen of a phase between two operations. -/
inductive TurnState where
  | idle
  | delegated
deriving DecidableEq, Repr

structure Session where
  cwd : Path
  previous : Option Path
  history : History
  ring : Ring
  input : String
  log : List LogEntry
  phase : Phase
deriving DecidableEq, Repr

/-- How a submitted line settled. -/
inductive Turn where
  | rendered
  | cleared
  | delegated (request : GatewayRequest)
deriving Repr

/-- A line came while the session was waiting. -/
inductive Refusal where
  | busy
deriving DecidableEq, Repr

def Refusal.message : Refusal → String
  | .busy => "a command is still running"

namespace Session

/-- A new session in the home directory. -/
def start (d : Desktop) : Session :=
  ⟨d.store.home, none, History.empty, Ring.empty, "", [], .idle⟩

def isBusy (s : Session) : Bool := s.phase.isProcessing

def state (s : Session) : TurnState :=
  match s.phase with
  | .delegated => .delegated
  | _ => .idle

/-- The current directory, with the home directory shown as `~`. -/
def displayCwd (d : Desktop) (s : Session) : String :=
  let home := d.store.home
  if s.cwd = home then "~"
  else if s.cwd.startsWith home && !home.isRoot then
    "~/" ++ Text.joinWith "/" (s.cwd.segments.drop home.segments.length)
  else s.cwd.render

def prompt (d : Desktop) (s : Session) : String :=
  d.store.identity.user ++ "@" ++ d.hostname ++ ":" ++ s.displayCwd d ++ "$ "

/-- The session with more entries in its log. -/
def note (entries : List LogEntry) (s : Session) : Session := { s with log := s.log ++ entries }

def moveTo (phase : Phase) (s : Session) : Session := { s with phase }

/-- Passes through the last phase of a turn back to idle. -/
def endTurn (last : Phase) (s : Session) : Session := (s.moveTo last).moveTo .idle

/-- What a command line sees of the desktop and the session. -/
def workspace (now : Instant) (d : Desktop) (s : Session) : Workspace :=
  ⟨d.store, d.windows, d.hostname, s.cwd, s.previous, none, s.history.entries, now⟩

/-- How a line went: it ran, or it belongs to the gateway, or it is ill-formed. -/
inductive LineResult where
  | completed (outcome : Outcome) (after : Workspace)
  | delegate (command : String)
  | malformed (cause : Line.Misreading)

/-- Runs a line that is not blank. A line that cannot be read goes to the gateway unless it starts
with the name of a command. -/
def runLine (line : String) (w : Workspace) : LineResult :=
  match Line.parse line with
  | .ok pipeline =>
    match runPipeline pipeline w with
    | (.completed o, w) => .completed o w
    | (.delegate command, _) => .delegate command
  | .error m =>
    match (Text.words line).head? with
    | none => .malformed m.value
    | some first =>
      match Builtin.ofName? first with
      | none => .delegate first
      | some _ => .malformed m.value

/-- The entries that an outcome leaves in the log. -/
def outcomeEntries (o : Outcome) : List LogEntry :=
  (if o.display = "" then [] else [.output o.display]) ++
    (if o.err = "" then [] else [.error o.err])

/-- Goes where the commands went. -/
def follow (w : Workspace) (s : Session) : Session :=
  { s with cwd := w.cwd, previous := w.previous }

/-- The session once a line has been taken into the log and the history. -/
def entered (line : String) (d : Desktop) (s : Session) : Session :=
  { s.note [.command (s.prompt d) line] with
    input := "", history := s.history.push line, phase := .submitted }

/-- Takes in how a line went. -/
def settle (line : String) (d : Desktop) (s : Session) :
    LineResult → Except Refusal Turn × Desktop × Session
  | .completed o w =>
    let d := { d with store := w.store, windows := w.windows }
    let s := s.follow w
    if o.clear then (.ok .cleared, d, { s with log := [] }.endTurn .cleared)
    else (.ok .rendered, d, (s.note (outcomeEntries o)).endTurn .rendered)
  | .malformed cause =>
    let complaint := .error ("deskshell: syntax error: " ++ cause.message)
    (.ok .rendered, d, (s.note [complaint]).endTurn .rendered)
  | .delegate command =>
    (.ok (.delegated ⟨line, command, s.cwd.render, d.store.outline⟩), d, s.moveTo .delegated)

/-- Submits a line. -/
def submit (now : Instant) (line : String) (d : Desktop) (s : Session) :
    Except Refusal Turn × Desktop × Session :=
  if s.isBusy then (.error .busy, d, s)
  else
    let s := s.entered line d
    if Text.isBlankText line then (.ok .rendered, d, s.endTurn .rendered)
    else
      let s := s.moveTo .processing
      s.settle line d (runLine line (s.workspace now d))

/-- Submits the input line, which is gone even if it is refused. -/
def submitInput (now : Instant) (d : Desktop) (s : Session) :
    Except Refusal Turn × Desktop × Session :=
  submit now s.input d { s with input := "" }

/-- The entries that an answer of the gateway leaves in the log. -/
def answerEntries : GatewayAnswer → List LogEntry
  | .ok text => if stripFences text = "" then [] else [.delegated (stripFences text)]
  | .error fault => [.error ("deskshell: " ++ fault.message)]

/-- Takes the answer of the gateway and ends the turn. -/
def finishDelegation (answer : GatewayAnswer) (s : Session) : Session :=
  (s.note (answerEntries answer)).moveTo .idle

/-- Submits a line and waits for the gateway if it is needed. Asking may have effects. -/
def executeWith {m : Type → Type} [Monad m] (ask : GatewayRequest → m GatewayAnswer)
    (now : Instant) (line : String) (d : Desktop) (s : Session) :
    m (Except Refusal Turn × Desktop × Session) :=
  match s.submit now line d with
  | (.ok (.delegated request), d, s) => do
    let answer ← ask request
    return (.ok (.delegated request), d, s.finishDelegation answer)
  | result => return result

/-- Submits a line to a session whose gateway has an answer to every request. -/
def execute (gateway : Gateway) (now : Instant) (line : String) (d : Desktop) (s : Session) :
    Except Refusal Turn × Desktop × Session :=
  Id.run (s.executeWith (fun request => pure (gateway request)) now line d)

/-- Gives up the input line. -/
def interrupt (d : Desktop) (s : Session) : Session :=
  { s.note [.interrupted (s.prompt d) s.input] with input := "", history := s.history.resetCursor }

def setInput (text : String) (s : Session) : Session := { s with input := text }

/-- Does to the input what a step in the history asks for. -/
def withRecall (r : Recall × History) (s : Session) : Session :=
  match r.1 with
  | .entry line => { s with input := line, history := r.2 }
  | .blank => { s with input := "", history := r.2 }
  | .unchanged => { s with history := r.2 }

def historyPrevious (s : Session) : Session := s.withRecall s.history.previous

def historyNext (s : Session) : Session := s.withRecall s.history.next

/-- Completes the input line; true if it changed. -/
def complete (d : Desktop) (s : Session) : Bool × Session :=
  match Completion.completeLine Builtin.schemas d.store s.cwd s.input with
  | some line => (true, { s with input := line })
  | none => (false, s)

/-- Copies a text to the ring and the clipboard. The empty text is not copied. -/
def copy (text : String) (d : Desktop) (s : Session) : Desktop × Session :=
  if text = "" then (d, s)
  else ({ d with clipboard := some text }, { s with ring := s.ring.push text })

/-- What there is to paste: the clipboard, or else the newest text of the ring. -/
def pasted? (d : Desktop) (s : Session) : Option String :=
  match d.clipboard with
  | none => s.ring.head?
  | some text => if text = "" then s.ring.head? else some text

/-- Adds what there is to paste at the end of the input. -/
def paste (d : Desktop) (s : Session) : Option String × Session :=
  match s.pasted? d with
  | none => (none, s)
  | some text => (some text, { s with input := s.input ++ text })

end Session

end DesktopTerminal
