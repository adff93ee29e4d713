import DesktopTerminal.Line.Lexeme
import DesktopTerminal.Line.Pipeline
import DesktopTerminal.Line.Reader

/-!
# Reading a line as a pipeline

    line     := segment ('|' segment)* redirect?
    segment  := WORD WORD*
    redirect := ('>' | '>>') WORD

A redirect belongs to the whole pipeline and comes last. Of a line that is no pipeline the furthest
token that was refused is to blame; if that is none of them, the line ended too early.
-/
namespace DesktopTerminal.Line

def readWord : Reader String :=
  Reader.select fun
    | .word text => some text
    | _ => none

def readPipe : Reader Unit :=
  Reader.select fun
    | .operator .pipe => some ()
    | _ => none

def readRedirectKind : Reader RedirectKind :=
  Reader.select fun
    | .operator .append => some .append
    | .operator .overwrite => some .overwrite
    | _ => none

def readCommand : Reader Command := do
  let name ← readWord
  let args ← readWord.many
  pure ⟨name, args⟩

def readRedirect : Reader Redirect := do
  let kind ← readRedirectKind
  let target ← readWord
  pure ⟨kind, target⟩

def readPipeline : Reader Pipeline := do
  let commands ← readCommand.separated readPipe
  let redirect ← readRedirect.optional
  Reader.finish
  pure ⟨commands, redirect⟩

/-- Why a line is no pipeline. -/
inductive Misreading where
  | lexical (cause : LexicalFault)
  | unexpected (token : Token)
  | endOfInput
deriving DecidableEq, Repr

def Misreading.message : Misreading → String
  | .lexical cause => cause.message
  | .unexpected token => "unexpected '" ++ token.text ++ "'"
  | .endOfInput => "unexpected end of input"

/-- What a reply says about a line of `size` bytes. -/
def Reply.verdict (size : Nat) (reply : Reply Pipeline) : Except (Spanned Misreading) Pipeline :=
  match reply.value, reply.refused with
  | some (pipeline, _), _ => .ok pipeline
  | none, some (t :: _) => .error ⟨.unexpected t.value, t.span⟩
  | none, _ => .error ⟨.endOfInput, size, size⟩

/-- Reads a line. Of several faults in its characters the first is reported. -/
def parse (source : String) : Except (Spanned Misreading) Pipeline :=
  match tokenize source with
  | .ok tokens => (readPipeline tokens).verdict source.utf8ByteSize
  | .error [] => .error ⟨.endOfInput, source.utf8ByteSize, source.utf8ByteSize⟩
  | .error (fault :: _) => .error ⟨.lexical fault.value, fault.span⟩

end DesktopTerminal.Line
