import DesktopTerminal.Toml.Scalar

/-!
# Reading TOML

A document is a list of lines: headers, and keys with values. The lines are read one after another
and then put together into tables. Values nest to a limited depth. Every step of a reader takes a
character, so that the length of a text is fuel enough.
-/
namespace DesktopTerminal.Toml

/-- How many arrays and inline tables may lie within one another, and how many parts a key has. -/
def depthLimit : Nat := 80

def isBareKeyChar (c : Char) : Bool := c.isAlphanum || c == '-' || c == '_'

/-- One part of a key: a bare word or a string on one line. -/
def readKeyPart (cs : List Char) : Option (String × List Char) :=
  match cs with
  | '\x22' :: rest =>
    (readBasic (rest.length + 1) rest).map fun (taken, rest) => (String.ofList taken, rest)
  | '\x27' :: rest => (readLiteral rest).map fun (taken, rest) => (String.ofList taken, rest)
  | cs =>
    match cs.takeWhile isBareKeyChar with
    | [] => none
    | word => some (String.ofList word, cs.dropWhile isBareKeyChar)

/-- A key: its parts with points between them, spaces around any of them. -/
def readKeyParts : Nat → List Char → Option (List String × List Char)
  | 0, _ => none
  | fuel + 1, cs => do
    let (part, rest) ← readKeyPart (skipSpace cs)
    match skipSpace rest with
    | '.' :: rest => (readKeyParts fuel rest).map fun (parts, rest) => (part :: parts, rest)
    | rest => some ([part], rest)

def readKey (cs : List Char) : Option (List String × List Char) :=
  (readKeyParts (cs.length + 1) cs).bind fun (parts, rest) =>
    if parts.length < depthLimit then some (parts, rest) else none

/-- The rest after a comment, if one starts here. -/
def skipComment : List Char → List Char
  | '#' :: cs => cs.dropWhile isPrintable
  | cs => cs

/-- The rest after the end of a line, before which a comment may stand. -/
def endOfLine? (cs : List Char) : Option (List Char) :=
  match skipComment (skipSpace cs) with
  | [] => some []
  | rest => newline? rest

/-- Skips spaces, newlines and comments. -/
def skipLines : Nat → List Char → List Char
  | 0, cs => cs
  | fuel + 1, cs =>
    match newline? (skipComment (skipSpace cs)) with
    | some rest => skipLines fuel rest
    | none => skipSpace cs

def skipBlank (cs : List Char) : List Char := skipLines (cs.length + 1) cs

mutual

/-- A value inside `depth` arrays and inline tables. -/
def readValue : Nat → Nat → List Char → Option (Toml × List Char)
  | 0, _, _ => none
  | fuel + 1, depth, cs =>
    match cs with
    | '[' :: rest =>
      if depth + 1 < depthLimit then
        match skipBlank rest with
        | ']' :: rest => some (.array [], rest)
        | rest =>
          (readItems fuel (depth + 1) rest).map fun (items, rest) => (.array items, rest)
      else none
    | '\x7b' :: rest =>
      if depth + 1 < depthLimit then
        match skipSpace rest with
        | '\x7d' :: rest => some (.inline [], rest)
        | rest =>
          (readPairs fuel (depth + 1) [] rest).map fun (ms, rest) => (.inline ms, rest)
      else none
    | '\x22' :: _ => (readString cs).map fun (taken, rest) => (.text taken, rest)
    | '\x27' :: _ => (readString cs).map fun (taken, rest) => (.text taken, rest)
    | cs => readScalar cs

/-- The items of an array that has some, up to its closing bracket. -/
def readItems : Nat → Nat → List Char → Option (List Toml × List Char)
  | 0, _, _ => none
  | fuel + 1, depth, cs => do
    let (item, rest) ← readValue fuel depth cs
    match skipBlank rest with
    | ']' :: rest => some ([item], rest)
    | ',' :: rest =>
      match skipBlank rest with
      | ']' :: rest => some ([item], rest)
      | rest => (readItems fuel depth rest).map fun (items, rest) => (item :: items, rest)
    | _ => none

/-- The members of an inline table that has some, up to its closing brace, after the members
`before`. -/
def readPairs : Nat → Nat → Members → List Char → Option (Members × List Char)
  | 0, _, _, _ => none
  | fuel + 1, depth, before, cs => do
    let (path, rest) ← readKey cs
    let rest ← mark? '=' rest
    let (value, rest) ← readValue fuel depth (skipSpace rest)
    let (_, ms) ← addUnder? path.dropLast (path.getLast?.getD "") value .header before
    match skipSpace rest with
    | '\x7d' :: rest => some (ms, rest)
    | ',' :: rest => readPairs fuel depth ms rest
    | _ => none

end

/-- A line that says something. -/
inductive Statement where
  | header (path : List String)
  | arrayHeader (path : List String)
  | pair (path : List String) (value : Toml)

def readStatement (cs : List Char) : Option (Statement × List Char) :=
  match cs with
  | '[' :: '[' :: rest => do
    let (path, rest) ← readKey rest
    let rest ← mark? ']' rest
    let rest ← mark? ']' rest
    some (.arrayHeader path, ← endOfLine? rest)
  | '[' :: rest => do
    let (path, rest) ← readKey rest
    let rest ← mark? ']' rest
    some (.header path, ← endOfLine? rest)
  | cs => do
    let (path, rest) ← readKey cs
    let rest ← mark? '=' rest
    let (value, rest) ← readValue (2 * rest.length + 2) 0 (skipSpace rest)
    some (.pair path value, ← endOfLine? rest)

/-- All lines of a document. -/
def readStatements : Nat → List Char → Option (List Statement)
  | 0, _ => none
  | fuel + 1, cs =>
    match skipBlank cs with
    | [] => some []
    | '#' :: rest => if (rest.dropWhile isPrintable).isEmpty then some [] else none
    | rest => do
      let (statement, rest) ← readStatement rest
      (readStatements fuel rest).map (statement :: ·)

/-- Opens the table under a header. -/
def openTable? (path : List String) (ms : Members) : Option Members :=
  let key := path.getLast?.getD ""
  (within? false
    (fun o inner =>
      match inner.lookup key with
      | none => some (o, inner ++ [(key, .table .header [])])
      | some (.table .implied ms) => some (o, setMember key (.table .header ms) inner)
      | some _ => none)
    path.dropLast .header ms).map (·.2)

/-- Opens one more table of an array of tables. -/
def openNext? (path : List String) (ms : Members) : Option Members :=
  let key := path.getLast?.getD ""
  (within? false
    (fun o inner =>
      match inner.lookup key with
      | none => some (o, inner ++ [(key, .tables [[]])])
      | some (.tables items) => some (o, setMember key (.tables (items ++ [[]])) inner)
      | some _ => none)
    path.dropLast .header ms).map (·.2)

/-- Puts lines together, the first of them in the table at `current`. -/
def assemble (current : List String) : List Statement → Members → Option Members
  | [], ms => some ms
  | .header path :: rest, ms => (openTable? path ms).bind (assemble path rest)
  | .arrayHeader path :: rest, ms => (openNext? path ms).bind (assemble path rest)
  | .pair path value :: rest, ms =>
    (within? false (addUnder? path.dropLast (path.getLast?.getD "") value) current .header ms).bind
      fun r => assemble current rest r.2

/-- The members of a document, before which a byte order mark may stand. -/
def read (s : String) : Option Members :=
  let cs := match s.toList with
    | '\ufeff' :: rest => rest
    | cs => cs
  (readStatements (cs.length + 1) cs).bind fun statements => assemble [] statements []

end DesktopTerminal.Toml
