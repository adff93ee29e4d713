import DesktopTerminal.Proofs.Line.Pieces

/-!
# The layout of a line

Every character of a line has its part: it is a blank between tokens, or it belongs to one token, which
is an operator or a word written in pieces without a gap. A line that cannot be laid out so has a stray
`<` outside quotes or a quoted piece that is never closed, and the faults of the line are just these.
-/
namespace DesktopTerminal.Line

/-- A piece of a word, bare or in quotes, and the text it stands for. -/
inductive PieceWritten : List Char → List Char → Prop
  | bare {text} (hne : text ≠ []) (h : ∀ c ∈ text, c ∉ specials) : PieceWritten text text
  | closed {written text} (h : Closed written text) : PieceWritten written text

/-- Pieces one behind the other, and the text they stand for together. -/
inductive WordWritten : List Char → List Char → Prop
  | last {written text} (h : PieceWritten written text) : WordWritten written text
  | cons {written text more after} (h : PieceWritten written text) (hmore : WordWritten more after) :
      WordWritten (written ++ more) (text ++ after)

/-- A token, how it is written, and what follows it, which would not make it longer. -/
inductive TokenWritten : Token → List Char → List Char → Prop
  | operator {op rest} (h : op = .overwrite → rest.head? ≠ some '>') :
      TokenWritten (.operator op) op.text.toList rest
  | word {text written rest} (h : WordWritten written text.toList) (hrest : Detached rest) :
      TokenWritten (.word text) written rest

/-- From byte `pos` on the text consists of these tokens and of blanks. -/
inductive LaidOut : Nat → List Char → List (Spanned Token) → Prop
  | done {pos} : LaidOut pos [] []
  | blank {pos c rest ts} (hc : c ∈ blanks) (h : LaidOut (pos + c.utf8Size) rest ts) :
      LaidOut pos (c :: rest) ts
  | token {pos t written rest ts} (ht : TokenWritten t written rest)
      (h : LaidOut (pos + Text.size written) rest ts) :
      LaidOut pos (written ++ rest) (⟨t, pos, pos + Text.size written⟩ :: ts)

/-- Reading from left to right, one is outside quotes after `front`. -/
inductive Outside (source : List Char) : List Char → List Char → Prop
  | start : Outside source [] source
  | mark {front c rest} (hdouble : c ≠ '\x22') (hsingle : c ≠ '\x27')
      (h : Outside source front (c :: rest)) : Outside source (front ++ [c]) rest
  | closed {front written text rest} (hw : Closed written text)
      (h : Outside source front (written ++ rest)) : Outside source (front ++ written) rest
  | unclosed {front written rest} (hw : Unclosed written rest)
      (h : Outside source front (written ++ rest)) : Outside source (front ++ written) rest

/-- The line has this fault. -/
inductive FaultAt (source : List Char) : Spanned LexicalFault → Prop
  | stray {front rest} (h : Outside source front ('<' :: rest)) :
      FaultAt source ⟨.unexpectedCharacter, Text.size front, Text.size front + Text.size ['<']⟩
  | unclosed {front written rest} (hw : Unclosed written rest)
      (h : Outside source front (written ++ rest)) :
      FaultAt source ⟨.unterminatedString, Text.size front, Text.size front + Text.size written⟩

/-- The tokens account for every character of the line. -/
structure Accounts (source : List Char) (ts : List (Spanned Token)) : Prop where
  nonempty : ∀ t ∈ ts, t.span.start < t.span.stop
  inBounds : ∀ t ∈ ts, t.span.stop ≤ Text.size source
  ordered : ts.Pairwise fun t u => t.span.stop ≤ u.span.start
  /-- No two words touch. -/
  apart : ts.Pairwise fun t u => ∀ text more, t.value = .word text → u.value = .word more →
    t.span.stop < u.span.start
  /-- What is in no token is a blank. -/
  outside : ∀ front c rest, source = front ++ c :: rest →
    (∀ t ∈ ts, ¬ (t.span.start ≤ Text.size front ∧ Text.size front < t.span.stop)) → c ∈ blanks
  /-- In its span a token is written in full. -/
  filled : ∀ t ∈ ts, ∃ front written rest, source = front ++ (written ++ rest) ∧
    t.span = ⟨Text.size front, Text.size front + Text.size written⟩ ∧
    TokenWritten t.value written rest

/-! ## How pieces and tokens are read -/

/-- Two pieces that touch are as good as one. -/
theorem assemble_pieces (s t : List Char) (a b c : Nat) (ls : List (Spanned Lexeme)) :
    assemble (⟨.piece s, a, b⟩ :: ⟨.piece t, b, c⟩ :: ls) =
      assemble (⟨.piece (s ++ t), a, c⟩ :: ls) := by
  simp only [assemble]
  cases assemble ls with
  | nil => simp
  | cons u us =>
    obtain ⟨value, span⟩ := u
    cases value with
    | operator op => simp
    | word more => by_cases h : c = span.start <;> simp [h, String.append_assoc]

theorem assemble_piece_touching {text : List Char} {start stop : Nat} {ls : List (Spanned Lexeme)}
    {more : String} {next : Span} {ts : List (Spanned Token)}
    (h : assemble ls = ⟨.word more, next⟩ :: ts) (hstop : stop = next.start) :
    assemble (⟨.piece text, start, stop⟩ :: ls) =
      ⟨.word (String.ofList text ++ more), start, next.stop⟩ :: ts := by
  rw [assemble, h]
  exact if_pos hstop

/-- A piece at the front is read first, though its bare characters may go on behind it. -/
theorem PieceWritten.lexemes_eq {written text : List Char} (h : PieceWritten written text)
    (rest : List Char) (pos : Nat) :
    lexicalFaults (lexemes pos (written ++ rest)) =
        lexicalFaults (lexemes (pos + Text.size written) rest) ∧
      assemble (lexemes pos (written ++ rest)) =
        assemble (⟨.piece text, pos, pos + Text.size written⟩ ::
          lexemes (pos + Text.size written) rest) := by
  cases h with
  | closed h =>
    rw [(LexemeWritten.closed h).lexemes_eq]
    exact ⟨rfl, rfl⟩
  | bare hne h =>
    let front := rest.takeWhile isBare
    let back := rest.dropWhile isBare
    have hrest : rest = front ++ back := List.takeWhile_append_dropWhile.symm
    have hfront : ∀ c ∈ front, c ∉ specials := fun _ => not_mem_specials_of_mem_takeWhile
    have hback : ∀ c, back.head? = some c → c ∈ specials := fun _ => mem_specials_of_head?_dropWhile
    -- one lexeme takes the piece and the bare characters behind it
    have hall : LexemeWritten (.piece (written ++ front)) (written ++ front) back :=
      .bare (List.append_ne_nil_of_left_ne_nil hne _)
        (fun c hc => (List.mem_append.mp hc).elim (h c) (hfront c)) hback
    rw [hrest]
    by_cases hnone : front = []
    · rw [hnone, List.append_nil] at hall
      rw [hnone, List.nil_append, hall.lexemes_eq]
      exact ⟨rfl, rfl⟩
    · have hmore : LexemeWritten (.piece front) front back := .bare hnone hfront hback
      rw [← List.append_assoc, hall.lexemes_eq, hmore.lexemes_eq, assemble_pieces, Text.size_append,
        Nat.add_assoc]
      exact ⟨rfl, rfl⟩

/-! ## From the lexemes to the layout -/

theorem LexemeWritten.pieceWritten {text written rest : List Char}
    (h : LexemeWritten (.piece text) written rest) : PieceWritten written text := by
  cases h with
  | bare hne h _ => exact .bare hne h
  | closed h => exact .closed h

theorem PieceWritten.ne_nil {written text : List Char} (h : PieceWritten written text) :
    written ≠ [] := by
  cases h with
  | bare hne _ => exact hne
  | closed h => cases h <;> exact List.cons_ne_nil _ _

theorem WordWritten.ne_nil {written text : List Char} (h : WordWritten written text) :
    written ≠ [] := by
  cases h with
  | last h => exact h.ne_nil
  | cons h _ => exact List.append_ne_nil_of_left_ne_nil h.ne_nil _

theorem TokenWritten.ne_nil {t : Token} {written rest : List Char} (h : TokenWritten t written rest) :
    written ≠ [] := by
  cases h with
  | @operator op _ _ => cases op <;> exact List.cons_ne_nil _ _
  | word h _ => exact h.ne_nil

theorem PieceWritten.not_detached {written text : List Char} (h : PieceWritten written text)
    (rest : List Char) : ¬ Detached (written ++ rest) := by
  intro hdetached
  cases h with
  | bare hne h =>
    obtain ⟨c, cs, rfl⟩ := List.exists_cons_of_ne_nil hne
    have hc : c ∉ specials := h c List.mem_cons_self
    rcases hdetached c rfl with hblank | rfl | rfl
    · exact hc (List.mem_append_left _ hblank)
    · exact hc (by decide)
    · exact hc (by decide)
  | closed h =>
    cases h with
    | single _ => exact absurd (hdetached '\x27' rfl) (by decide)
    | double _ => exact absurd (hdetached '\x22' rfl) (by decide)

theorem WordWritten.not_detached {written text : List Char} (h : WordWritten written text)
    (rest : List Char) : ¬ Detached (written ++ rest) := by
  cases h with
  | last h => exact h.not_detached rest
  | cons h _ =>
    rw [List.append_assoc]
    exact h.not_detached _

theorem TokenWritten.ofList {text written rest : List Char} (h : WordWritten written text)
    (hrest : Detached rest) : TokenWritten (.word (String.ofList text)) written rest :=
  .word (by rwa [String.toList_ofList]) hrest

theorem detached_operator (op : Operator) (rest : List Char) :
    Detached (op.text.toList ++ rest) := by
  cases op with
  | pipe => exact detached_pipe rest
  | overwrite => exact detached_redirect .overwrite rest
  | append => exact detached_redirect .append rest

theorem LaidOut.le_start {pos : Nat} {cs : List Char} {ts : List (Spanned Token)}
    (h : LaidOut pos cs ts) : ∀ t ∈ ts, pos ≤ t.span.start := by
  induction h with
  | done => exact fun t ht => absurd ht List.not_mem_nil
  | blank _ _ ih => exact fun t ht => Nat.le_of_add_right_le (ih t ht)
  | token _ _ ih =>
    exact List.forall_mem_cons.mpr ⟨Nat.le_refl _, fun t ht => Nat.le_of_add_right_le (ih t ht)⟩

/-- A piece before a text that is laid out starts a word there, or makes the first one longer. -/
theorem LaidOut.piece {pos : Nat} {written text rest : List Char} (hpiece : PieceWritten written text)
    {ls : List (Spanned Lexeme)} (h : LaidOut (pos + Text.size written) rest (assemble ls)) :
    LaidOut pos (written ++ rest)
      (assemble (⟨.piece text, pos, pos + Text.size written⟩ :: ls)) := by
  generalize hts : assemble ls = ts at h
  cases h with
  | done =>
    rw [assemble_piece_apart (by simp [hts]), hts]
    exact .token (.ofList (.last hpiece) detached_nil) .done
  | @blank _ c rest _ hc h =>
    have hpos := c.utf8Size_pos
    rw [assemble_piece_apart, hts]
    · exact .token (.ofList (.last hpiece) fun d hd => .inl (Option.some.inj hd ▸ hc)) (.blank hc h)
    · intro t ht
      have hle := h.le_start t (List.mem_of_mem_head? (hts ▸ ht))
      have hlt : pos + Text.size written < t.span.start := by omega
      exact .inl hlt
  | @token _ t more rest ts ht h =>
    cases ht with
    | @operator op _ hop =>
      rw [assemble_piece_apart, hts]
      · exact .token (.ofList (.last hpiece) (detached_operator op rest)) (.token (.operator hop) h)
      · intro t ht
        rw [hts] at ht
        exact .inr ⟨op, congrArg Spanned.value (Option.some.inj ht).symm⟩
    | word hw hrest =>
      have hword := WordWritten.cons hpiece hw
      have hsize : pos + Text.size written + Text.size more = pos + Text.size (written ++ more) := by
        rw [Text.size_append, Nat.add_assoc]
      rw [hsize] at h hts
      rw [assemble_piece_touching hts rfl, ← List.append_assoc]
      refine .token (.word ?_ hrest) h
      rwa [String.toList_append, String.toList_ofList]

/-- Without faults the tokens that are read are a layout. -/
theorem laidOut_assemble (pos : Nat) (cs : List Char) :
    lexicalFaults (lexemes pos cs) = [] → LaidOut pos cs (assemble (lexemes pos cs)) := by
  induction pos, cs using lexemes_written_induction with
  | nil pos =>
    intro _
    rw [lexemes]
    exact .done
  | blank pos c cs hc ih =>
    rw [lexemes_gap (isGap_iff.mpr hc)]
    exact fun h => .blank hc (ih h)
  | lexeme pos l written rest hl ih =>
    rw [hl.lexemes_eq]
    cases l with
    | operator op =>
      intro h
      cases hl with
      | operator hop => exact .token (.operator hop) (ih h)
    | piece text => exact fun h => (ih h).piece hl.pieceWritten
    | fault cause => exact fun h => absurd h (List.cons_ne_nil _ _)

/-! ## From the layout to the tokens -/

theorem WordWritten.lexemes_eq {written text : List Char} (h : WordWritten written text)
    {rest : List Char} (hrest : Detached rest) (pos : Nat) :
    lexicalFaults (lexemes pos (written ++ rest)) =
        lexicalFaults (lexemes (pos + Text.size written) rest) ∧
      assemble (lexemes pos (written ++ rest)) =
        ⟨.word (String.ofList text), pos, pos + Text.size written⟩ ::
          assemble (lexemes (pos + Text.size written) rest) := by
  induction h generalizing pos with
  | last h =>
    obtain ⟨hfaults, hassemble⟩ := h.lexemes_eq rest pos
    refine ⟨hfaults, ?_⟩
    rw [hassemble, assemble_piece_apart (hrest.apart _)]
  | @cons written text more after h _ ih =>
    obtain ⟨hfaults, hassemble⟩ := h.lexemes_eq (more ++ rest) pos
    obtain ⟨hmorefaults, hmore⟩ := ih (pos + Text.size written)
    rw [List.append_assoc, hfaults, hmorefaults, hassemble, assemble_piece_touching hmore rfl]
    simp [Nat.add_assoc]

theorem LaidOut.assemble_eq {pos : Nat} {cs : List Char} {ts : List (Spanned Token)}
    (h : LaidOut pos cs ts) :
    lexicalFaults (lexemes pos cs) = [] ∧ assemble (lexemes pos cs) = ts := by
  induction h with
  | done => simp [lexemes, lexicalFaults, assemble]
  | blank hc _ ih => rwa [lexemes_gap (isGap_iff.mpr hc)]
  | token ht _ ih =>
    obtain ⟨hfaults, hassemble⟩ := ih
    cases ht with
    | operator hop =>
      rw [(LexemeWritten.operator hop).lexemes_eq]
      exact ⟨hfaults, by rw [assemble, hassemble]⟩
    | word hw hrest =>
      obtain ⟨hwordfaults, hword⟩ := hw.lexemes_eq hrest _
      rw [hwordfaults, hword, hassemble, String.ofList_toList]
      exact ⟨hfaults, rfl⟩

/-- The tokens of a line are those of its layout, and there is no other. -/
theorem tokenize_eq_ok_iff {source : String} {ts : List (Spanned Token)} :
    tokenize source = .ok ts ↔ LaidOut 0 source.toList ts := by
  constructor
  · intro h
    simp only [tokenize] at h
    split at h
    next hfaults =>
      obtain rfl := Except.ok.inj h
      exact laidOut_assemble 0 source.toList hfaults
    next => cases h
  · intro h
    obtain ⟨hfaults, rfl⟩ := h.assemble_eq
    simp only [tokenize, hfaults]

/-! ## Every character has its part -/

theorem size_pos_of_ne_nil {cs : List Char} (h : cs ≠ []) : 0 < Text.size cs := by
  obtain ⟨c, cs, rfl⟩ := List.exists_cons_of_ne_nil h
  rw [Text.size_cons]
  exact Nat.add_pos_left c.utf8Size_pos _

namespace LaidOut

variable {pos : Nat} {cs : List Char} {ts : List (Spanned Token)} (h : LaidOut pos cs ts)
include h

theorem bounds : ∀ t ∈ ts, t.span.start < t.span.stop ∧ t.span.stop ≤ pos + Text.size cs := by
  induction h with
  | done => exact fun t ht => absurd ht List.not_mem_nil
  | blank _ _ ih =>
    intro t ht
    obtain ⟨hlt, hle⟩ := ih t ht
    rw [Text.size_cons]
    exact ⟨hlt, by omega⟩
  | token ht _ ih =>
    rw [Text.size_append]
    refine List.forall_mem_cons.mpr ⟨?_, fun t ht => ?_⟩
    · have hpos := size_pos_of_ne_nil ht.ne_nil
      exact ⟨by simpa using hpos, by simp⟩
    · obtain ⟨hlt, hle⟩ := ih t ht
      exact ⟨hlt, by omega⟩

theorem pairwise : ts.Pairwise fun t u => t.span.stop ≤ u.span.start := by
  induction h with
  | done => exact .nil
  | blank _ _ ih => exact ih
  | token _ h ih => exact List.pairwise_cons.mpr ⟨h.le_start, ih⟩

/-- Where no word can go on, the next one is further on. -/
theorem lt_start_of_detached (hdetached : Detached cs) :
    ∀ t ∈ ts, ∀ word, t.value = .word word → pos < t.span.start := by
  cases h with
  | done => exact fun t ht => absurd ht List.not_mem_nil
  | @blank _ c _ _ _ h =>
    intro t ht word _
    have hpos := c.utf8Size_pos
    have hle := h.le_start t ht
    omega
  | @token _ t written rest ts ht h =>
    have hpos := size_pos_of_ne_nil ht.ne_nil
    refine List.forall_mem_cons.mpr ⟨fun word hword => ?_, fun u hu word _ => ?_⟩
    · cases ht with
      | operator => cases hword
      | word hw _ => exact absurd hdetached (hw.not_detached rest)
    · have hle := h.le_start u hu
      omega

theorem words_apart : ts.Pairwise fun t u => ∀ text more, t.value = .word text →
    u.value = .word more → t.span.stop < u.span.start := by
  induction h with
  | done => exact .nil
  | blank _ _ ih => exact ih
  | token ht h ih =>
    refine List.pairwise_cons.mpr ⟨fun u hu text more htext hmore => ?_, ih⟩
    cases ht with
    | operator => cases htext
    | word _ hrest => exact h.lt_start_of_detached hrest u hu more hmore

/-- A character that belongs to no token is a blank. -/
theorem mem_blanks {front rest : List Char} {c : Char} (hcs : cs = front ++ c :: rest)
    (hout : ∀ t ∈ ts, ¬ (t.span.start ≤ pos + Text.size front ∧ pos + Text.size front < t.span.stop)) :
    c ∈ blanks := by
  induction h generalizing front with
  | done => simp at hcs
  | blank hd _ ih =>
    cases front with
    | nil =>
      obtain ⟨rfl, -⟩ := List.cons.inj hcs
      exact hd
    | cons d front =>
      obtain ⟨rfl, hrest⟩ := List.cons.inj hcs
      refine ih hrest fun t ht => ?_
      have hnot := hout t ht
      rwa [Text.size_cons, ← Nat.add_assoc] at hnot
  | @token pos t written back ts ht _ ih =>
    obtain ⟨hfirst, hlater⟩ := List.forall_mem_cons.mp hout
    rcases List.append_eq_append_iff.mp hcs with ⟨more, rfl, hmore⟩ | ⟨more, rfl, hmore⟩
    · refine ih hmore fun u hu => ?_
      have hnot := hlater u hu
      rwa [Text.size_append, ← Nat.add_assoc] at hnot
    · by_cases hnone : more = []
      · subst hnone
        have hrest : _ = [] ++ _ := hmore.symm
        refine ih hrest fun u hu => ?_
        have hnot := hlater u hu
        simpa using hnot
      · have hpos := size_pos_of_ne_nil hnone
        have hlt : pos + Text.size front < pos + Text.size (front ++ more) := by
          rw [Text.size_append]
          omega
        exact absurd ⟨Nat.le_add_right _ _, hlt⟩ hfirst

theorem exists_written : ∀ t ∈ ts, ∃ front written rest, cs = front ++ (written ++ rest) ∧
    t.span = ⟨pos + Text.size front, pos + Text.size front + Text.size written⟩ ∧
    TokenWritten t.value written rest := by
  induction h with
  | done => exact fun t ht => absurd ht List.not_mem_nil
  | @blank _ c _ _ _ _ ih =>
    intro t ht
    obtain ⟨front, written, rest, rfl, hspan, hwritten⟩ := ih t ht
    refine ⟨c :: front, written, rest, rfl, ?_, hwritten⟩
    rwa [Text.size_cons, ← Nat.add_assoc]
  | @token _ t written rest _ ht _ ih =>
    refine List.forall_mem_cons.mpr ⟨⟨[], written, rest, rfl, rfl, ht⟩, fun u hu => ?_⟩
    obtain ⟨front, more, back, rfl, hspan, hwritten⟩ := ih u hu
    refine ⟨written ++ front, more, back, (List.append_assoc ..).symm, ?_, hwritten⟩
    rwa [Text.size_append, ← Nat.add_assoc]

theorem accounts (hpos : pos = 0) : Accounts cs ts where
  nonempty t ht := (h.bounds t ht).1
  inBounds t ht := by simpa [hpos] using (h.bounds t ht).2
  ordered := h.pairwise
  apart := h.words_apart
  outside front c rest hcs hout := h.mem_blanks hcs (by simpa [hpos] using hout)
  filled := by simpa [hpos] using h.exists_written

end LaidOut

/-! ## Every fault has its place -/

theorem Operator.mem_text {op : Operator} {c : Char} (h : c ∈ op.text.toList) :
    c = '|' ∨ c = '>' := by
  cases op with
  | pipe => exact .inl (List.mem_singleton.mp h)
  | overwrite => exact .inr (List.mem_singleton.mp h)
  | append => exact .inr (by simpa [Operator.text] using h)

namespace Outside

variable {source front written rest : List Char}

theorem marks (h : Outside source front (written ++ rest))
    (hquotes : ∀ c ∈ written, c ≠ '\x22' ∧ c ≠ '\x27') : Outside source (front ++ written) rest := by
  induction written generalizing front with
  | nil => simpa using h
  | cons c written ih =>
    obtain ⟨hc, hwritten⟩ := List.forall_mem_cons.mp hquotes
    have hnext := ih (.mark hc.1 hc.2 h) hwritten
    rwa [List.append_assoc] at hnext

/-- After a lexeme one is outside quotes. -/
theorem lexeme {l : Lexeme} (h : Outside source front (written ++ rest))
    (hl : LexemeWritten l written rest) : Outside source (front ++ written) rest := by
  cases hl with
  | operator _ =>
    refine h.marks fun c hc => ?_
    rcases Operator.mem_text hc with rfl | rfl <;> decide
  | bare _ hbare _ =>
    refine h.marks fun c hc => ⟨?_, ?_⟩
    · rintro rfl
      exact hbare _ hc (by decide)
    · rintro rfl
      exact hbare _ hc (by decide)
  | closed hw => exact .closed hw h
  | stray => exact h.marks (List.forall_mem_singleton.mpr (by decide))
  | unclosed hw => exact .unclosed hw h

end Outside

/-- What is reported is a fault of the line. -/
theorem faultAt_of_mem {source : List Char} (pos : Nat) (cs : List Char) :
    ∀ front, Text.size front = pos → Outside source front cs →
      ∀ f ∈ lexicalFaults (lexemes pos cs), FaultAt source f := by
  induction pos, cs using lexemes_written_induction with
  | nil pos => simp [lexemes, lexicalFaults]
  | blank pos c cs hc ih =>
    rintro front rfl hfront
    rw [lexemes_gap (isGap_iff.mpr hc)]
    refine ih (front ++ [c]) (by simp) (.mark ?_ ?_ hfront)
    · rintro rfl
      exact absurd hc (by decide)
    · rintro rfl
      exact absurd hc (by decide)
  | lexeme pos l written rest hl ih =>
    rintro front rfl hfront
    have hlater := ih (front ++ written) (Text.size_append front written) (hfront.lexeme hl)
    rw [hl.lexemes_eq]
    cases hl with
    | operator _ => exact hlater
    | bare _ _ _ => exact hlater
    | closed _ => exact hlater
    | stray => exact List.forall_mem_cons.mpr ⟨.stray hfront, hlater⟩
    | unclosed hw => exact List.forall_mem_cons.mpr ⟨.unclosed hw hfront, hlater⟩

theorem lexicalFaults_operator {op : Operator} {written rest : List Char}
    (h : LexemeWritten (.operator op) written rest) (pos : Nat) :
    lexicalFaults (lexemes pos (written ++ rest)) =
      lexicalFaults (lexemes (pos + Text.size written) rest) := by
  rw [h.lexemes_eq]
  rfl

/-- A redirect operator hides no fault, be it of one character or of two. -/
theorem lexicalFaults_redirect (pos : Nat) (cs : List Char) :
    lexicalFaults (lexemes pos ('>' :: cs)) = lexicalFaults (lexemes (pos + '>'.utf8Size) cs) := by
  induction cs generalizing pos with
  | nil =>
    have hone : LexemeWritten (.operator .overwrite) ['>'] [] := .operator nofun
    exact lexicalFaults_operator hone pos
  | cons d cs ih =>
    by_cases hd : d = '>'
    · subst hd
      have htwo : LexemeWritten (.operator .append) ['>', '>'] cs := .operator nofun
      exact (lexicalFaults_operator htwo pos).trans (ih (pos + '>'.utf8Size)).symm
    · have hone : LexemeWritten (.operator .overwrite) ['>'] (d :: cs) :=
        .operator fun _ heq => hd (Option.some.inj heq)
      exact lexicalFaults_operator hone pos

/-- Going on by one character loses no fault of what is left. -/
theorem lexicalFaults_mark {c : Char} (hdouble : c ≠ '\x22') (hsingle : c ≠ '\x27') (pos : Nat)
    (cs : List Char) :
    lexicalFaults (lexemes (pos + c.utf8Size) cs) ⊆ lexicalFaults (lexemes pos (c :: cs)) := by
  by_cases hspecial : c ∈ specials
  · rcases List.mem_append.mp hspecial with hblank | hmark
    · rw [lexemes_gap (isGap_iff.mpr hblank)]
      exact List.Subset.refl _
    · simp only [List.mem_cons, List.not_mem_nil, or_false, hdouble, hsingle] at hmark
      rcases hmark with rfl | rfl | rfl
      · have hpipe : LexemeWritten (.operator .pipe) ['|'] cs := .operator nofun
        rw [← List.singleton_append, lexicalFaults_operator hpipe]
        exact List.Subset.refl _
      · rw [lexicalFaults_redirect]
        exact List.Subset.refl _
      · rw [← List.singleton_append, LexemeWritten.stray.lexemes_eq]
        exact List.subset_cons_self _ _
  · have hbare : PieceWritten [c] [c] := .bare (List.cons_ne_nil _ _) (by simpa using hspecial)
    rw [← List.singleton_append, (hbare.lexemes_eq cs pos).1]
    exact List.Subset.refl _

/-- Wherever one is outside quotes, the faults from there on are faults of the line. -/
theorem Outside.lexicalFaults_subset {source front rest : List Char} (h : Outside source front rest) :
    lexicalFaults (lexemes (Text.size front) rest) ⊆ lexicalFaults (lexemes 0 source) := by
  induction h with
  | start => exact List.Subset.refl _
  | mark hdouble hsingle _ ih =>
    rw [Text.size_append]
    exact List.Subset.trans (lexicalFaults_mark hdouble hsingle _ _) ih
  | closed hw _ ih =>
    rw [(LexemeWritten.closed hw).lexemes_eq] at ih
    rwa [Text.size_append]
  | unclosed hw _ ih =>
    rw [(LexemeWritten.unclosed hw).lexemes_eq] at ih
    rw [Text.size_append]
    exact List.Subset.trans (List.subset_cons_self _ _) ih

theorem mem_lexicalFaults_iff {source : List Char} {f : Spanned LexicalFault} :
    f ∈ lexicalFaults (lexemes 0 source) ↔ FaultAt source f := by
  constructor
  · exact faultAt_of_mem 0 source [] rfl .start f
  · intro h
    cases h with
    | stray h =>
      refine h.lexicalFaults_subset ?_
      rw [← List.singleton_append, LexemeWritten.stray.lexemes_eq]
      exact List.mem_cons_self
    | unclosed hw h =>
      refine h.lexicalFaults_subset ?_
      rw [(LexemeWritten.unclosed hw).lexemes_eq]
      exact List.mem_cons_self

theorem tokenize_eq_error_iff {source : String} {faults : List (Spanned LexicalFault)} :
    tokenize source = .error faults ↔
      faults ≠ [] ∧ lexicalFaults (lexemes 0 source.toList) = faults := by
  simp only [tokenize]
  split
  next hnone =>
    constructor
    · intro h
      cases h
    · rintro ⟨hne, heq⟩
      exact absurd (heq.symm.trans hnone) hne
  next hne =>
    constructor
    · intro h
      obtain rfl := Except.error.inj h
      exact ⟨hne, rfl⟩
    · rintro ⟨-, heq⟩
      exact congrArg _ heq

/-- A line has tokens, and then they account for all of it, or it has faults, and then all of them
are reported and nothing else. -/
theorem line_accounted_for (source : String) :
    ((∃ faults, tokenize source = .error faults) ↔ ∃ f, FaultAt source.toList f) ∧
      (∀ faults, tokenize source = .error faults → ∀ f, f ∈ faults ↔ FaultAt source.toList f) ∧
      ∀ ts, tokenize source = .ok ts → Accounts source.toList ts := by
  refine ⟨⟨?_, ?_⟩, ?_, fun ts h => (tokenize_eq_ok_iff.mp h).accounts rfl⟩
  · rintro ⟨faults, h⟩
    obtain ⟨hne, rfl⟩ := tokenize_eq_error_iff.mp h
    obtain ⟨f, hf⟩ := List.exists_mem_of_ne_nil _ hne
    exact ⟨f, mem_lexicalFaults_iff.mp hf⟩
  · rintro ⟨f, hf⟩
    have hmem := mem_lexicalFaults_iff.mpr hf
    exact ⟨_, tokenize_eq_error_iff.mpr ⟨List.ne_nil_of_mem hmem, rfl⟩⟩
  · intro faults h f
    obtain ⟨-, rfl⟩ := tokenize_eq_error_iff.mp h
    exact mem_lexicalFaults_iff

/-- Three pieces make a word in which a letter takes two bytes; a backslash before a line feed breaks
its piece off, and what follows it is read outside quotes. -/
theorem pieces_and_faults_accounted_for :
    let line := "cat a\x22é | \x22'b'>>\tout"
    let ts : List (Spanned Token) := [⟨.word "cat", 0, 3⟩, ⟨.word "aé | b", 4, 15⟩,
      ⟨.operator .append, 15, 17⟩, ⟨.word "out", 18, 21⟩]
    let broken := "x\x22a\\\n< 'b"
    let faults : List (Spanned LexicalFault) := [⟨.unterminatedString, 1, 3⟩,
      ⟨.unexpectedCharacter, 5, 6⟩, ⟨.unterminatedString, 7, 9⟩]
    tokenize line = .ok ts ∧ Accounts line.toList ts ∧
      tokenize broken = .error faults ∧ ∀ f, f ∈ faults ↔ FaultAt broken.toList f := by
  intro line ts broken faults
  have hline : tokenize line = .ok ts := by decide +kernel
  have hbroken : tokenize broken = .error faults := by decide +kernel
  exact ⟨hline, (line_accounted_for line).2.2 ts hline, hbroken,
    (line_accounted_for broken).2.1 faults hbroken⟩

end DesktopTerminal.Line
