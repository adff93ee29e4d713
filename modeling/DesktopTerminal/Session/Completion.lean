import DesktopTerminal.Command.Schema
import DesktopTerminal.Tree.Store

/-!
# Completion

Completion looks at the last token of the input. The first token is completed to a command, a token
that starts with a dash to a flag, any other to an entry of the directory that it points into. The
first candidate is taken.
-/
namespace DesktopTerminal.Completion

/-- The input up to the last blank, and what follows it. -/
def splitToken (input : List Char) : List Char × List Char :=
  ((input.reverse.dropWhile (!Text.isBlank ·)).reverse,
    (input.reverse.takeWhile (!Text.isBlank ·)).reverse)

/-- Whether `word` starts with `start`. -/
def leadsTo (start : List Char) (word : String) : Bool := start.isPrefixOf word.toList

/-- The least name of a command. -/
def commandFor (schemas : List Schema) (token : List Char) : Option String :=
  if token.isEmpty then none
  else ((schemas.map (·.name)).mergeSort (· ≤ ·)).find? (leadsTo token)

/-- The first flag of the command that comes first in the input. -/
def flagFor (schemas : List Schema) (before : List Char) (token : List Char) : Option String := do
  let command ← (Text.words (String.ofList before)).head?
  let schema ← schemas.find? (·.name = command)
  schema.flags.find? (leadsTo token)

/-- The directory part of a token with its slash, and the rest. -/
def splitDirectory (token : List Char) : List Char × List Char :=
  ((token.reverse.dropWhile (· ≠ '/')).reverse, (token.reverse.takeWhile (· ≠ '/')).reverse)

def directoryFor (store : Store) (cwd : Path) (part : List Char) : Path :=
  if part.isEmpty then cwd else store.resolve cwd (String.ofList part)

/-- The entries that may complete `rest`, by name. Hidden ones are for those who ask. -/
def candidates (rest : List Char) (es : List Entry) : List Entry :=
  (es.mergeSort fun a b => a.name ≤ b.name).filter fun e =>
    (rest.head? == some '.' || !e.isHidden) && leadsTo rest e.name

/-- What is shown of an entry: directories have a slash after them. -/
def entryText (e : Entry) : String :=
  match e.kind with
  | .directory => e.name ++ "/"
  | .file => e.name

def pathFor (store : Store) (cwd : Path) (token : List Char) : Option String :=
  let (part, rest) := splitDirectory token
  match store.entries (directoryFor store cwd part) with
  | .error _ => none
  | .ok es => (candidates rest es).head?.map fun e => String.ofList part ++ entryText e

/-- The completed input, unless nothing fits or nothing would change. -/
def completeLine (schemas : List Schema) (store : Store) (cwd : Path) (input : String) :
    Option String :=
  let (before, token) := splitToken input.toList
  let completed :=
    if before.all Text.isBlank then commandFor schemas token
    else if token.head? == some '-' then flagFor schemas before token
    else pathFor store cwd token
  match completed with
  | none => none
  | some text =>
    let line := String.ofList before ++ text
    if line = input then none else some line

/-- The characters of the first `n` bytes. -/
def takeBytes : Nat → List Char → List Char
  | _, [] => []
  | n, c :: cs => if c.utf8Size ≤ n then c :: takeBytes (n - c.utf8Size) cs else []

/-- Where a completion at byte `pos` goes, and the candidates. A completed line replaces all that
stands before the cursor. -/
def completeAt (schemas : List Schema) (store : Store) (cwd : Path) (line : String) (pos : Nat) :
    Nat × List String :=
  match completeLine schemas store cwd (String.ofList (takeBytes pos line.toList)) with
  | some completed => (0, [completed])
  | none => (pos, [])

end DesktopTerminal.Completion
