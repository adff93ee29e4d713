import Mathlib.Data.List.TakeWhile
import DesktopTerminal.Proofs.Line.Spelling

/-!
# Lexemes as they are written

What a lexeme looks like in the line, and what it stands for, without a word on how it is read. A quoted
piece is closed, or it is read to the end of the line, or it breaks off at a backslash that can protect
nothing. Reading a lexeme takes off the front of the text what such a lexeme looks like, and all of it.
-/
namespace DesktopTerminal.Line

/-- What stands between double quotes, and the text it stands for. -/
inductive Quoted : List Char → List Char → Prop
  | nil : Quoted [] []
  | plain {c body text} (hquote : c ≠ '\x22') (hslash : c ≠ '\\') (h : Quoted body text) :
      Quoted (c :: body) (c :: text)
  | escape {c body text} (hc : c = '\x22' ∨ c = '\\') (h : Quoted body text) :
      Quoted ('\\' :: c :: body) (c :: text)
  | kept {c body text} (hquote : c ≠ '\x22') (hslash : c ≠ '\\') (hline : c ≠ '\n')
      (h : Quoted body text) : Quoted ('\\' :: c :: body) ('\\' :: c :: text)

/-- A closed quoted piece and the text it stands for. -/
inductive Closed : List Char → List Char → Prop
  | single {text} (h : '\x27' ∉ text) : Closed ('\x27' :: text ++ ['\x27']) text
  | double {body text} (h : Quoted body text) : Closed ('\x22' :: body ++ ['\x22']) text

/-- Where double quotes are given up: at the end, or at a backslash before the end or a line feed. -/
inductive BreaksOff : List Char → Prop
  | finish : BreaksOff []
  | slash : BreaksOff ['\\']
  | line (rest : List Char) : BreaksOff ('\\' :: '\n' :: rest)

/-- A quoted piece that is never closed, and what is left after it. -/
inductive Unclosed : List Char → List Char → Prop
  | single {text} (h : '\x27' ∉ text) : Unclosed ('\x27' :: text) []
  | double {body text rest} (h : Quoted body text) (hrest : BreaksOff rest) :
      Unclosed ('\x22' :: body) rest

/-- A lexeme, how it is written, and what follows it, which would not make it longer. -/
inductive LexemeWritten : Lexeme → List Char → List Char → Prop
  | operator {op rest} (h : op = .overwrite → rest.head? ≠ some '>') :
      LexemeWritten (.operator op) op.text.toList rest
  | bare {text rest} (hne : text ≠ []) (h : ∀ c ∈ text, c ∉ specials)
      (hnext : ∀ c, rest.head? = some c → c ∈ specials) : LexemeWritten (.piece text) text rest
  | closed {written text rest} (h : Closed written text) : LexemeWritten (.piece text) written rest
  | stray {rest} : LexemeWritten (.fault .unexpectedCharacter) ['<'] rest
  | unclosed {written rest} (h : Unclosed written rest) :
      LexemeWritten (.fault .unterminatedString) written rest

/-! ## Quotes -/

theorem readDouble_escaped {c : Char} (hc : c ≠ '\n') (cs : List Char) :
    readDouble ('\\' :: c :: cs) = ((readDouble cs).1.map (escaped c ++ ·), (readDouble cs).2) := by
  rw [readDouble]
  exact hc

theorem readDouble_plain {c : Char} (hquote : c ≠ '\x22') (hslash : c ≠ '\\') (cs : List Char) :
    readDouble (c :: cs) = ((readDouble cs).1.map (c :: ·), (readDouble cs).2) := by
  rw [readDouble] <;> simp_all

/-- Reading goes through what may stand between double quotes. -/
theorem Quoted.readDouble_append {body text : List Char} (h : Quoted body text) (rest : List Char) :
    readDouble (body ++ rest) = ((readDouble rest).1.map (text ++ ·), (readDouble rest).2) := by
  induction h with
  | nil => simp
  | plain hquote hslash _ ih =>
    rw [List.cons_append, readDouble_plain hquote hslash, ih]
    simp [Function.comp_def]
  | @escape c _ _ hc _ ih =>
    have hline : c ≠ '\n' := by rcases hc with rfl | rfl <;> decide
    rw [List.cons_append, List.cons_append, readDouble_escaped hline, ih]
    simp [Function.comp_def, escaped, hc]
  | kept hquote hslash hline _ ih =>
    rw [List.cons_append, List.cons_append, readDouble_escaped hline, ih]
    simp [Function.comp_def, escaped, hquote, hslash]

theorem BreaksOff.readDouble_eq {rest : List Char} (h : BreaksOff rest) :
    readDouble rest = (none, rest) := by
  cases h <;> rfl

/-- The text between double quotes is read up to the quote, or up to where it breaks off. -/
theorem readDouble_sound (cs : List Char) :
    (∃ body text rest, Quoted body text ∧ cs = body ++ '\x22' :: rest ∧
      readDouble cs = (some text, rest)) ∨
    ∃ body text rest, Quoted body text ∧ cs = body ++ rest ∧ BreaksOff rest ∧
      readDouble cs = (none, rest) := by
  fun_induction readDouble cs with
  | case1 => exact .inr ⟨[], [], [], .nil, rfl, .finish, rfl⟩
  | case2 cs => exact .inl ⟨[], [], cs, .nil, rfl, rfl⟩
  | case3 => exact .inr ⟨[], [], ['\\'], .nil, rfl, .slash, rfl⟩
  | case4 cs => exact .inr ⟨[], [], '\\' :: '\n' :: cs, .nil, rfl, .line cs, rfl⟩
  | case5 c cs hline inner ih =>
    have hbody : ∀ {body text : List Char}, Quoted body text →
        Quoted ('\\' :: c :: body) (escaped c ++ text) := by
      intro body text h
      unfold escaped
      split
      next hc => exact .escape hc h
      next hc =>
        obtain ⟨hquote, hslash⟩ := not_or.mp hc
        exact .kept hquote hslash hline h
    rcases ih with ⟨body, text, rest, h, rfl, hread⟩ | ⟨body, text, rest, h, rfl, hbreaks, hread⟩
    · exact .inl ⟨_, _, rest, hbody h, rfl, by simp [inner, hread]⟩
    · exact .inr ⟨_, _, rest, hbody h, rfl, hbreaks, by simp [inner, hread]⟩
  | case6 c cs hquote hend _ hescape inner ih =>
    have hslash : c ≠ '\\' := by
      rintro rfl
      cases cs with
      | nil => exact hend rfl rfl
      | cons d cs => exact hescape d cs rfl rfl
    rcases ih with ⟨body, text, rest, h, rfl, hread⟩ | ⟨body, text, rest, h, rfl, hbreaks, hread⟩
    · exact .inl ⟨_, _, rest, .plain hquote hslash h, rfl, by simp [inner, hread]⟩
    · exact .inr ⟨_, _, rest, .plain hquote hslash h, rfl, hbreaks, by simp [inner, hread]⟩

theorem readSingle_unclosed {cs : List Char} (h : '\x27' ∉ cs) : readSingle cs = (none, []) := by
  induction cs with
  | nil => rfl
  | cons c cs ih =>
    obtain ⟨hquote, hcs⟩ := not_or.mp (mt List.mem_cons.mpr h)
    rw [readSingle, ih hcs]
    · rfl
    · exact fun hc => hquote hc.symm

/-- The text between single quotes is read up to the quote, or to the end. -/
theorem readSingle_sound (cs : List Char) :
    (∃ text rest, '\x27' ∉ text ∧ cs = text ++ '\x27' :: rest ∧ readSingle cs = (some text, rest)) ∨
      '\x27' ∉ cs ∧ readSingle cs = (none, []) := by
  by_cases h : '\x27' ∈ cs
  · left
    obtain ⟨text, rest, rfl, htext⟩ := List.eq_append_cons_of_mem h
    exact ⟨text, rest, htext, rfl, readSingle_append htext rest⟩
  · exact .inr ⟨h, readSingle_unclosed h⟩

/-! ## One lexeme -/

theorem readLexeme_double (cs : List Char) :
    readLexeme '\x22' cs = quotedLexeme (readDouble cs) := rfl

theorem readLexeme_single (cs : List Char) :
    readLexeme '\x27' cs = quotedLexeme (readSingle cs) := rfl

/-- An operator is read as far as it goes. -/
theorem lexemeWritten_redirect (cs : List Char) :
    ∃ written, '>' :: cs = written ++ (readLexeme '>' cs).2 ∧
      LexemeWritten (readLexeme '>' cs).1 written (readLexeme '>' cs).2 := by
  cases cs with
  | nil => exact ⟨['>'], rfl, .operator fun _ => by simp [readLexeme]⟩
  | cons d cs =>
    by_cases hd : d = '>'
    · subst hd
      have hread : readLexeme '>' ('>' :: cs) = (.operator .append, cs) := by simp [readLexeme]
      rw [hread]
      exact ⟨['>', '>'], rfl, .operator fun heq => absurd heq (by decide)⟩
    · have hread : readLexeme '>' (d :: cs) = (.operator .overwrite, d :: cs) := by
        simp [readLexeme, hd]
      rw [hread]
      exact ⟨['>'], rfl, .operator fun _ => by simpa using hd⟩

theorem lexemeWritten_double (cs : List Char) :
    ∃ written, '\x22' :: cs = written ++ (readLexeme '\x22' cs).2 ∧
      LexemeWritten (readLexeme '\x22' cs).1 written (readLexeme '\x22' cs).2 := by
  rw [readLexeme_double]
  rcases readDouble_sound cs with ⟨body, text, rest, h, rfl, hread⟩ |
    ⟨body, text, rest, h, rfl, hbreaks, hread⟩
  · rw [hread]
    exact ⟨'\x22' :: body ++ ['\x22'], by simp [quotedLexeme], .closed (.double h)⟩
  · rw [hread]
    exact ⟨'\x22' :: body, rfl, .unclosed (.double h hbreaks)⟩

theorem lexemeWritten_single (cs : List Char) :
    ∃ written, '\x27' :: cs = written ++ (readLexeme '\x27' cs).2 ∧
      LexemeWritten (readLexeme '\x27' cs).1 written (readLexeme '\x27' cs).2 := by
  rw [readLexeme_single]
  rcases readSingle_sound cs with ⟨text, rest, h, rfl, hread⟩ | ⟨h, hread⟩
  · rw [hread]
    exact ⟨'\x27' :: text ++ ['\x27'], by simp [quotedLexeme], .closed (.single h)⟩
  · rw [hread]
    exact ⟨'\x27' :: cs, by simp [quotedLexeme], .unclosed (.single h)⟩

theorem not_mem_specials_of_mem_takeWhile {c : Char} {cs : List Char}
    (h : c ∈ cs.takeWhile isBare) : c ∉ specials :=
  isBare_iff.mp (List.mem_takeWhile_imp h)

theorem mem_specials_of_head?_dropWhile {c : Char} {cs : List Char}
    (h : (cs.dropWhile isBare).head? = some c) : c ∈ specials := by
  have hstop := List.head?_dropWhile_not isBare cs
  rw [h] at hstop
  by_contra hbare
  exact Bool.false_ne_true (hstop.symm.trans (isBare_iff.mpr hbare))

theorem lexemeWritten_bare {c : Char} (hc : c ∉ specials) (cs : List Char) :
    ∃ written, c :: cs = written ++ (readLexeme c cs).2 ∧
      LexemeWritten (readLexeme c cs).1 written (readLexeme c cs).2 := by
  rw [readLexeme_of_not_special hc]
  refine ⟨c :: cs.takeWhile isBare, ?_, .bare (List.cons_ne_nil _ _)
    (List.forall_mem_cons.mpr ⟨hc, fun _ => not_mem_specials_of_mem_takeWhile⟩)
    fun _ => mem_specials_of_head?_dropWhile⟩
  rw [List.cons_append, List.takeWhile_append_dropWhile]

/-- The lexeme that is read is written at the front of the text. -/
theorem lexemeWritten_readLexeme {c : Char} (hc : c ∉ blanks) (cs : List Char) :
    ∃ written, c :: cs = written ++ (readLexeme c cs).2 ∧
      LexemeWritten (readLexeme c cs).1 written (readLexeme c cs).2 := by
  by_cases hspecial : c ∈ specials
  · have hmark := (List.mem_append.mp hspecial).resolve_left hc
    simp only [List.mem_cons, List.not_mem_nil, or_false] at hmark
    rcases hmark with rfl | rfl | rfl | rfl | rfl
    · exact ⟨['|'], rfl, .operator nofun⟩
    · exact lexemeWritten_redirect cs
    · exact ⟨['<'], rfl, .stray⟩
    · exact lexemeWritten_double cs
    · exact lexemeWritten_single cs
  · exact lexemeWritten_bare hspecial cs

theorem Closed.readLexeme_eq {written text : List Char} (h : Closed written text)
    (rest : List Char) :
    ∃ c cs, written ++ rest = c :: cs ∧ c ∉ blanks ∧ readLexeme c cs = (.piece text, rest) := by
  cases h with
  | single h =>
    refine ⟨'\x27', text ++ '\x27' :: rest, by simp, by decide, ?_⟩
    rw [readLexeme_single, readSingle_append h]
    rfl
  | @double body _ h =>
    refine ⟨'\x22', body ++ '\x22' :: rest, by simp, by decide, ?_⟩
    rw [readLexeme_double, h.readDouble_append]
    simp [readDouble, quotedLexeme]

theorem Unclosed.readLexeme_eq {written rest : List Char} (h : Unclosed written rest) :
    ∃ c cs, written ++ rest = c :: cs ∧ c ∉ blanks ∧
      readLexeme c cs = (.fault .unterminatedString, rest) := by
  cases h with
  | @single text h =>
    refine ⟨'\x27', text, by simp, by decide, ?_⟩
    rw [readLexeme_single, readSingle_unclosed h]
    rfl
  | @double body _ _ h hbreaks =>
    refine ⟨'\x22', body ++ rest, rfl, by decide, ?_⟩
    rw [readLexeme_double, h.readDouble_append, hbreaks.readDouble_eq]
    rfl

/-- What a lexeme looks like is read as that lexeme. -/
theorem LexemeWritten.readLexeme_eq {l : Lexeme} {written rest : List Char}
    (h : LexemeWritten l written rest) :
    ∃ c cs, written ++ rest = c :: cs ∧ c ∉ blanks ∧ readLexeme c cs = (l, rest) := by
  cases h with
  | @operator op _ h =>
    cases op with
    | pipe => exact ⟨'|', rest, rfl, by decide, rfl⟩
    | append => exact ⟨'>', '>' :: rest, rfl, by decide, by simp [readLexeme]⟩
    | overwrite =>
      refine ⟨'>', rest, rfl, by decide, ?_⟩
      cases rest with
      | nil => rfl
      | cons d rest =>
        have hd : d ≠ '>' := by simpa using h rfl
        simp [readLexeme, hd]
  | bare hne h hnext =>
    obtain ⟨c, cs, rfl⟩ := List.exists_cons_of_ne_nil hne
    obtain ⟨hc, hcs⟩ := List.forall_mem_cons.mp h
    exact ⟨c, cs ++ rest, rfl, fun hblank => hc (List.mem_append_left _ hblank),
      readLexeme_bare hc hcs hnext⟩
  | closed h => exact h.readLexeme_eq rest
  | stray => exact ⟨'<', rest, rfl, by decide, rfl⟩
  | unclosed h => exact h.readLexeme_eq

/-! ## The lexemes of a text -/

section

variable {l : Lexeme} {written rest : List Char} (h : LexemeWritten l written rest)
include h

/-- A lexeme at the front of the text is the first one, and it takes the bytes it is written with. -/
theorem LexemeWritten.lexemes_eq (pos : Nat) :
    lexemes pos (written ++ rest) =
      ⟨l, pos, pos + Text.size written⟩ :: lexemes (pos + Text.size written) rest := by
  obtain ⟨c, cs, hcons, hblank, hread⟩ := h.readLexeme_eq
  have hsize : Text.size (c :: cs) - Text.size rest = Text.size written := by
    rw [← hcons, Text.size_append]
    omega
  have hgap : ¬ isGap c = true := fun hgap => hblank (isGap_iff.mp hgap)
  rw [hcons, lexemes, if_neg hgap]
  simp only [hread, hsize]

theorem LexemeWritten.ne_nil : written ≠ [] := by
  cases h with
  | @operator op _ _ => cases op <;> exact List.cons_ne_nil _ _
  | bare hne _ _ => exact hne
  | closed h => cases h <;> exact List.cons_ne_nil _ _
  | stray => exact List.cons_ne_nil _ _
  | unclosed h => cases h <;> exact List.cons_ne_nil _ _

end

/-- A text is read lexeme by lexeme, each as it is written, with blanks between them. -/
theorem lexemes_written_induction {motive : Nat → List Char → Prop} (nil : ∀ pos, motive pos [])
    (blank : ∀ pos c cs, c ∈ blanks → motive (pos + c.utf8Size) cs → motive pos (c :: cs))
    (lexeme : ∀ pos l written rest, LexemeWritten l written rest →
      motive (pos + Text.size written) rest → motive pos (written ++ rest))
    (pos : Nat) (cs : List Char) : motive pos cs := by
  induction pos, cs using lexemes.induct with
  | case1 pos => exact nil pos
  | case2 pos c cs hgap ih => exact blank pos c cs (isGap_iff.mp hgap) ih
  | case3 pos c cs hgap next stop ih =>
    obtain ⟨written, hcons, hwritten⟩ :=
      lexemeWritten_readLexeme (fun hblank => hgap (isGap_iff.mpr hblank)) cs
    have hstop : stop = pos + Text.size written := by
      have hsize := congrArg Text.size hcons
      rw [Text.size_append] at hsize
      have hrest : Text.size next.2 = Text.size (readLexeme c cs).2 := rfl
      omega
    rw [hcons]
    exact lexeme pos _ written _ hwritten (hstop ▸ ih)

end DesktopTerminal.Line
