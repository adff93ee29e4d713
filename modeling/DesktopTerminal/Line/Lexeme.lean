import DesktopTerminal.Line.Token
import DesktopTerminal.Text.Size

/-!
# Lexemes and the words they form

Outside quotes a line is made of gaps, operators, stray characters and bare pieces. Quotes open
quoted pieces. Pieces that touch form one word. In a double-quoted piece a backslash protects the
next character, which may not be a line feed; if it is, or if the line ends there, the piece breaks
off before the backslash and counts as never closed.
-/
namespace DesktopTerminal.Line

inductive Lexeme where
  | operator (op : Operator)
  | piece (text : List Char)
  | fault (cause : LexicalFault)
deriving DecidableEq, Repr

/-- The four characters that separate lexemes. -/
def isGap (c : Char) : Bool := c == ' ' || c == '\t' || c == '\r' || c == '\n'

/-- The characters that form bare pieces. -/
def isBare (c : Char) : Bool :=
  !(isGap c || c == '|' || c == '>' || c == '<' || c == '\x22' || c == '\x27')

/-- What a backslash and the character after it stand for between double quotes. -/
def escaped (c : Char) : List Char :=
  if c = '\x22' ∨ c = '\\' then [c] else ['\\', c]

/-- Reads a double-quoted piece after its opening quote: its text, if it is closed, and what
follows. -/
def readDouble : List Char → Option (List Char) × List Char
  | [] => (none, [])
  | '\x22' :: cs => (some [], cs)
  | ['\\'] => (none, ['\\'])
  | '\\' :: '\n' :: cs => (none, '\\' :: '\n' :: cs)
  | '\\' :: c :: cs =>
    let inner := readDouble cs
    (inner.1.map (escaped c ++ ·), inner.2)
  | c :: cs =>
    let inner := readDouble cs
    (inner.1.map (c :: ·), inner.2)

/-- Reads a single-quoted piece after its opening quote. Nothing is special in it. -/
def readSingle : List Char → Option (List Char) × List Char
  | [] => (none, [])
  | '\x27' :: cs => (some [], cs)
  | c :: cs =>
    let inner := readSingle cs
    (inner.1.map (c :: ·), inner.2)

def quotedLexeme (result : Option (List Char) × List Char) : Lexeme × List Char :=
  match result with
  | (some text, rest) => (.piece text, rest)
  | (none, rest) => (.fault .unterminatedString, rest)

/-- The lexeme that starts with `c`, which is no gap, and what follows it in `c :: cs`. -/
def readLexeme (c : Char) (cs : List Char) : Lexeme × List Char :=
  if c = '|' then (.operator .pipe, cs)
  else if c = '>' then
    match cs with
    | '>' :: rest => (.operator .append, rest)
    | rest => (.operator .overwrite, rest)
  else if c = '<' then (.fault .unexpectedCharacter, cs)
  else if c = '\x22' then quotedLexeme (readDouble cs)
  else if c = '\x27' then quotedLexeme (readSingle cs)
  else (.piece (c :: cs.takeWhile isBare), cs.dropWhile isBare)

theorem readDouble_length_le (cs : List Char) : (readDouble cs).2.length ≤ cs.length := by
  fun_induction readDouble cs <;> grind

theorem readSingle_length_le (cs : List Char) : (readSingle cs).2.length ≤ cs.length := by
  fun_induction readSingle cs <;> grind

theorem quotedLexeme_snd (r : Option (List Char) × List Char) : (quotedLexeme r).2 = r.2 := by
  obtain ⟨_ | _, _⟩ := r <;> rfl

/-- Reading a lexeme makes progress. -/
theorem readLexeme_length_le (c : Char) (cs : List Char) :
    (readLexeme c cs).2.length ≤ cs.length := by
  have hd := readDouble_length_le cs
  have hs := readSingle_length_le cs
  have hw : (cs.dropWhile isBare).length ≤ cs.length := (List.dropWhile_sublist isBare).length_le
  unfold readLexeme
  split
  · exact Nat.le_refl _
  · split
    · split <;> simp
    · split
      · exact Nat.le_refl _
      · split
        · rwa [quotedLexeme_snd]
        · split
          · rwa [quotedLexeme_snd]
          · exact hw

/-- The lexemes of a text that starts at byte `pos`. -/
def lexemes (pos : Nat) : List Char → List (Spanned Lexeme)
  | [] => []
  | c :: cs =>
    if isGap c then lexemes (pos + c.utf8Size) cs
    else
      let next := readLexeme c cs
      let stop := pos + (Text.size (c :: cs) - Text.size next.2)
      ⟨next.1, pos, stop⟩ :: lexemes stop next.2
termination_by cs => cs.length
decreasing_by
  · simp
  · exact Nat.lt_succ_of_le (readLexeme_length_le c cs)

/-- Joins pieces that touch into words. -/
def assemble : List (Spanned Lexeme) → List (Spanned Token)
  | [] => []
  | ⟨.fault _, _⟩ :: rest => assemble rest
  | ⟨.operator op, span⟩ :: rest => ⟨.operator op, span⟩ :: assemble rest
  | ⟨.piece text, span⟩ :: rest =>
    match assemble rest with
    | ⟨.word more, next⟩ :: tokens =>
      if span.stop = next.start then
        ⟨.word (String.ofList text ++ more), span.start, next.stop⟩ :: tokens
      else ⟨.word (String.ofList text), span⟩ :: ⟨.word more, next⟩ :: tokens
    | tokens => ⟨.word (String.ofList text), span⟩ :: tokens

def lexicalFaults (ls : List (Spanned Lexeme)) : List (Spanned LexicalFault) :=
  ls.filterMap fun l =>
    match l.value with
    | .fault cause => some ⟨cause, l.span⟩
    | _ => none

/-- The tokens of a line, or every fault in it. -/
def tokenize (source : String) : Except (List (Spanned LexicalFault)) (List (Spanned Token)) :=
  let ls := lexemes 0 source.toList
  match lexicalFaults ls with
  | [] => .ok (assemble ls)
  | faults => .error faults

/-- The text of a double-quoted literal after its opening quote, up to the first quote that no
backslash protects. -/
def literalBody : List Char → Option (List Char)
  | [] => none
  | '\x22' :: _ => some []
  | ['\\'] => none
  | '\\' :: c :: cs => (literalBody cs).map (escaped c ++ ·)
  | c :: cs => (literalBody cs).map (c :: ·)

/-- The text that a double-quoted literal stands for. -/
def readLiteral (source : String) : Except LexicalFault String :=
  match source.toList with
  | '\x22' :: cs =>
    match literalBody cs with
    | some text => .ok (String.ofList text)
    | none => .error .unterminatedString
  | _ => .error .unterminatedString

end DesktopTerminal.Line
