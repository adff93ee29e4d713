import DesktopTerminal.Proofs.Line.Blame

/-!
# Ways to write a pipeline

A word is spelled bare, between single quotes, or between double quotes with its backslashes and
double quotes escaped. Blanks separate neighbouring words and may stand around operators. However a
pipeline is written so, reading the line gives it back; and what `Pipeline.render` prints is one of
the ways, if every word can be spelled bare.
-/
namespace DesktopTerminal.Line

def blanks : List Char := [' ', '\t', '\r', '\n']

/-- The characters that no bare word has. -/
def specials : List Char := blanks ++ ['|', '>', '<', '\x22', '\x27']

def Bare (word : String) : Prop := word ≠ "" ∧ ∀ c ∈ word.toList, c ∉ specials

instance : DecidablePred Bare := fun word =>
  have : Decidable (∀ c ∈ word.toList, c ∉ specials) := List.decidableBAll (· ∉ specials) word.toList
  inferInstanceAs (Decidable (word ≠ "" ∧ ∀ c ∈ word.toList, c ∉ specials))

/-- Puts a backslash before each double quote and each backslash. -/
def escape : List Char → List Char
  | [] => []
  | c :: cs => if c = '\x22' ∨ c = '\\' then '\\' :: c :: escape cs else c :: escape cs

inductive Spelling (word : String) : List Char → Prop
  | bare (h : Bare word) : Spelling word word.toList
  | single (h : '\x27' ∉ word.toList) : Spelling word ('\x27' :: word.toList ++ ['\x27'])
  | double : Spelling word ('\x22' :: escape word.toList ++ ['\x22'])

def Gap (text : List Char) : Prop := ∀ c ∈ text, c ∈ blanks

instance : DecidablePred Gap := fun text => List.decidableBAll (· ∈ blanks) text

/-- Words with at least one blank between any two. -/
inductive WordsWritten : List String → List Char → Prop
  | last {w s} (hs : Spelling w s) : WordsWritten [w] s
  | cons {w s gap ws text} (hs : Spelling w s) (hgap : Gap gap) (hne : gap ≠ [])
      (hws : WordsWritten ws text) : WordsWritten (w :: ws) (s ++ gap ++ text)

/-- Segments with a pipe between any two, and blanks around it or none. -/
inductive SegmentsWritten : List Command → List Char → Prop
  | last {c : Command} {s} (hs : WordsWritten (c.name :: c.args) s) : SegmentsWritten [c] s
  | cons {c : Command} {s gap gap' cs text} (hs : WordsWritten (c.name :: c.args) s)
      (hgap : Gap gap) (hgap' : Gap gap') (hcs : SegmentsWritten cs text) :
      SegmentsWritten (c :: cs) (s ++ gap ++ '|' :: gap' ++ text)

inductive Written : Pipeline → List Char → Prop
  | plain {cs s gap gap'} (hs : SegmentsWritten cs s) (hgap : Gap gap) (hgap' : Gap gap') :
      Written ⟨cs, none⟩ (gap ++ s ++ gap')
  | redirected {cs s gap gap₁ gap₂ gap'} {r : Redirect} {target} (hs : SegmentsWritten cs s)
      (htarget : Spelling r.target target) (hgap : Gap gap) (hgap₁ : Gap gap₁) (hgap₂ : Gap gap₂)
      (hgap' : Gap gap') :
      Written ⟨cs, some r⟩ (gap ++ s ++ gap₁ ++ r.kind.text.toList ++ gap₂ ++ target ++ gap')

theorem gap_blank : Gap [' '] := by decide

/-! ## Quotes and escapes are undone -/

theorem isGap_iff {c : Char} : isGap c = true ↔ c ∈ blanks := by
  simp [isGap, blanks, or_assoc]

theorem isGap_eq_false {c : Char} (h : c ∉ blanks) : isGap c = false :=
  Bool.eq_false_iff.mpr fun hgap => h (isGap_iff.mp hgap)

theorem isBare_iff {c : Char} : isBare c = true ↔ c ∉ specials := by
  simp [isBare, isGap, specials, blanks, and_assoc]

theorem readSingle_append {w : List Char} (h : '\x27' ∉ w) (rest : List Char) :
    readSingle (w ++ '\x27' :: rest) = (some w, rest) := by
  induction w with
  | nil => rfl
  | cons c w ih =>
    have hc : c ≠ '\x27' := fun heq => h (heq ▸ List.mem_cons_self)
    have hw : '\x27' ∉ w := fun hmem => h (List.mem_cons_of_mem c hmem)
    simp [readSingle, ih hw]

theorem readDouble_escape (w rest : List Char) :
    readDouble (escape w ++ '\x22' :: rest) = (some w, rest) := by
  induction w with
  | nil => rfl
  | cons c w ih =>
    by_cases hc : c = '\x22' ∨ c = '\\'
    · have hread : readDouble ('\\' :: c :: (escape w ++ '\x22' :: rest)) = (some (c :: w), rest) := by
        rcases hc with rfl | rfl
        · simp [readDouble, ih, escaped]
        · simp [readDouble, ih, escaped]
      simpa [escape, hc] using hread
    · obtain ⟨hquote, hslash⟩ := not_or.mp hc
      simp [escape, readDouble, ih, hquote, hslash]

/-- What stands after a word so that the word goes no further. -/
def Detached (text : List Char) : Prop :=
  ∀ c, text.head? = some c → c ∈ blanks ∨ c = '|' ∨ c = '>'

theorem detached_nil : Detached [] := fun _ h => nomatch h

theorem detached_pipe (text : List Char) : Detached ('|' :: text) := by
  rintro c ⟨⟩
  exact .inr (.inl rfl)

theorem detached_redirect (kind : RedirectKind) (text : List Char) :
    Detached (kind.text.toList ++ text) := by
  cases kind <;>
  · rintro c ⟨⟩
    exact .inr (.inr rfl)

theorem Detached.gap {gap text : List Char} (h : Detached text) (hgap : Gap gap) :
    Detached (gap ++ text) := by
  cases gap with
  | nil => exact h
  | cons g gap =>
    rintro c ⟨⟩
    exact .inl (hgap g List.mem_cons_self)

theorem detached_of_gap {gap : List Char} (hgap : Gap gap) (hne : gap ≠ []) (text : List Char) :
    Detached (gap ++ text) := by
  obtain ⟨g, rest, rfl⟩ := List.exists_cons_of_ne_nil hne
  rintro c ⟨⟩
  exact .inl (hgap g List.mem_cons_self)

theorem Detached.mem_specials {text : List Char} (h : Detached text) :
    ∀ c, text.head? = some c → c ∈ specials := by
  intro c hc
  rcases h c hc with hblank | rfl | rfl
  · exact List.mem_append_left _ hblank
  · decide
  · decide

theorem readLexeme_of_not_special {c : Char} (hc : c ∉ specials) (cs : List Char) :
    readLexeme c cs = (.piece (c :: cs.takeWhile isBare), cs.dropWhile isBare) := by
  simp only [specials, blanks, List.mem_append, List.mem_cons, not_or] at hc
  simp [readLexeme, hc]

/-- Bare characters are one piece, up to the next character that is special. -/
theorem readLexeme_bare {c : Char} {w text : List Char} (hc : c ∉ specials)
    (hw : ∀ x ∈ w, x ∉ specials) (htext : ∀ x, text.head? = some x → x ∈ specials) :
    readLexeme c (w ++ text) = (.piece (c :: w), text) := by
  have hw' : ∀ x ∈ w, isBare x = true := fun x hx => isBare_iff.mpr (hw x hx)
  have hstop : text.takeWhile isBare = [] ∧ text.dropWhile isBare = text := by
    cases text with
    | nil => exact ⟨rfl, rfl⟩
    | cons t text =>
      have ht : isBare t = false :=
        Bool.eq_false_iff.mpr fun hbare => isBare_iff.mp hbare (htext t rfl)
      simp [ht]
  rw [readLexeme_of_not_special hc, List.takeWhile_append_of_pos hw',
    List.dropWhile_append_of_pos hw', hstop.1, hstop.2, List.append_nil]

/-- However a word is spelled, it is one piece. -/
theorem readLexeme_spelling {word : String} {s text : List Char} (hs : Spelling word s)
    (htext : Detached text) :
    ∃ c cs, s ++ text = c :: cs ∧ c ∉ blanks ∧ c ≠ '>' ∧
      readLexeme c cs = (.piece word.toList, text) := by
  cases hs with
  | bare h =>
    obtain ⟨hne, hspecial⟩ := h
    obtain ⟨c, w, hw⟩ := List.exists_cons_of_ne_nil (mt String.toList_eq_nil_iff.mp hne)
    rw [hw] at hspecial ⊢
    have hc : c ∉ specials := hspecial c List.mem_cons_self
    refine ⟨c, w ++ text, rfl, fun hblank => hc (List.mem_append_left _ hblank), ?_, ?_⟩
    · rintro rfl
      exact hc (by decide)
    · exact readLexeme_bare hc (fun x hx => hspecial x (List.mem_cons_of_mem c hx))
        htext.mem_specials
  | single h =>
    refine ⟨'\x27', word.toList ++ '\x27' :: text, by simp, by decide, by decide, ?_⟩
    simp [readLexeme, readSingle_append h, quotedLexeme]
  | double =>
    refine ⟨'\x22', escape word.toList ++ '\x22' :: text, by simp, by decide, by decide, ?_⟩
    simp [readLexeme, readDouble_escape, quotedLexeme]

/-! ## Texts and the tokens that they are read as -/

/-- Wherever the text stands, it has no fault and its tokens are these. -/
def Reads (text : List Char) (ts : List Token) : Prop :=
  ∀ pos, lexicalFaults (lexemes pos text) = [] ∧
    (assemble (lexemes pos text)).map (·.value) = ts

theorem reads_nil : Reads [] [] := fun pos => by simp [lexemes, lexicalFaults, assemble]

theorem Reads.gap {gap text : List Char} {ts : List Token} (h : Reads text ts) (hgap : Gap gap) :
    Reads (gap ++ text) ts := by
  induction gap with
  | nil => exact h
  | cons g gap ih =>
    intro pos
    rw [List.cons_append, lexemes_gap (isGap_iff.mpr (hgap g List.mem_cons_self))]
    exact ih (fun c hc => hgap c (List.mem_cons_of_mem g hc)) _

theorem Reads.operator {c : Char} {cs text : List Char} {ts : List Token} {op : Operator}
    (h : Reads text ts) (hc : c ∉ blanks) (hread : readLexeme c cs = (.operator op, text)) :
    Reads (c :: cs) (.operator op :: ts) := by
  intro pos
  obtain ⟨stop, hlexemes⟩ := lexemes_lexeme (isGap_eq_false hc) pos cs
  obtain ⟨hfaults, hvalues⟩ := h stop
  rw [hlexemes, hread]
  exact ⟨hfaults, by simp [assemble, hvalues]⟩

theorem Reads.pipe {text : List Char} {ts : List Token} (h : Reads text ts) :
    Reads ('|' :: text) (.operator .pipe :: ts) :=
  h.operator (by decide) rfl

theorem Reads.redirect {text : List Char} {ts : List Token} (h : Reads text ts)
    (kind : RedirectKind) (hnext : text.head? ≠ some '>') :
    Reads (kind.text.toList ++ text) (.operator kind.operator :: ts) := by
  cases kind with
  | overwrite =>
    refine h.operator (c := '>') (by decide) ?_
    cases text with
    | nil => rfl
    | cons t text =>
      have ht : t ≠ '>' := fun heq => hnext (heq ▸ rfl)
      simp [readLexeme, RedirectKind.operator, ht]
  | append => exact h.operator (by decide) rfl

theorem readLexeme_redirect (cs : List Char) : ∃ op, (readLexeme '>' cs).1 = .operator op := by
  cases cs with
  | nil => exact ⟨.overwrite, rfl⟩
  | cons d cs =>
    by_cases hd : d = '>'
    · exact ⟨.append, by simp [readLexeme, hd]⟩
    · exact ⟨.overwrite, by simp [readLexeme, hd]⟩

/-- After a detached text no word starts where the text does. -/
theorem Detached.apart {text : List Char} (h : Detached text) (stop : Nat) :
    ∀ t, (assemble (lexemes stop text)).head? = some t →
      stop < t.span.start ∨ ∃ op, t.value = .operator op := by
  cases text with
  | nil => simp [lexemes, assemble]
  | cons c cs =>
    intro t ht
    by_cases hblank : c ∈ blanks
    · rw [lexemes_gap (isGap_iff.mpr hblank)] at ht
      have hle := le_start_of_mem_assemble (fun _ hl => le_start_of_mem_lexemes hl)
        (List.mem_of_mem_head? ht)
      have hpos := c.utf8Size_pos
      exact .inl (by omega)
    · have hoperator : ∃ op, (readLexeme c cs).1 = .operator op := by
        rcases (h c rfl).resolve_left hblank with rfl | rfl
        · exact ⟨.pipe, rfl⟩
        · exact readLexeme_redirect cs
      obtain ⟨op, hop⟩ := hoperator
      obtain ⟨next, hlexemes⟩ := lexemes_lexeme (isGap_eq_false hblank) stop cs
      rw [hlexemes, hop, assemble] at ht
      obtain rfl := Option.some.inj ht
      exact .inr ⟨op, rfl⟩

theorem Reads.word {word : String} {s text : List Char} {ts : List Token} (h : Reads text ts)
    (hs : Spelling word s) (htext : Detached text) : Reads (s ++ text) (.word word :: ts) := by
  obtain ⟨c, cs, hcons, hblank, -, hread⟩ := readLexeme_spelling hs htext
  intro pos
  obtain ⟨stop, hlexemes⟩ := lexemes_lexeme (isGap_eq_false hblank) pos cs
  obtain ⟨hfaults, hvalues⟩ := h stop
  rw [hcons, hlexemes, hread, assemble_piece_apart (htext.apart stop)]
  exact ⟨hfaults, by simp [hvalues]⟩

theorem WordsWritten.reads {words : List String} {s : List Char} (hs : WordsWritten words s)
    {text : List Char} {ts : List Token} (h : Reads text ts) (htext : Detached text) :
    Reads (s ++ text) (words.map .word ++ ts) := by
  induction hs with
  | last hs => exact h.word hs htext
  | cons hs hgap hne _ ih =>
    rw [List.append_assoc, List.append_assoc]
    exact (ih.gap hgap).word hs (detached_of_gap hgap hne _)

theorem SegmentsWritten.ne_nil {cs : List Command} {s : List Char} (h : SegmentsWritten cs s) :
    cs ≠ [] := by
  cases h <;> exact List.cons_ne_nil _ _

theorem SegmentsWritten.reads {cs : List Command} {s : List Char} (hs : SegmentsWritten cs s)
    {text : List Char} {ts : List Token} (h : Reads text ts) (htext : Detached text) :
    Reads (s ++ text) (segmentTokens cs ++ ts) := by
  induction hs with
  | last hs => exact hs.reads h htext
  | @cons c s gap gap' cs rest hs hgap hgap' hcs ih =>
    have hlater : Reads ('|' :: (gap' ++ (rest ++ text))) (.operator .pipe :: (segmentTokens cs ++ ts)) :=
      (ih.gap hgap').pipe
    have hfirst := hs.reads (hlater.gap hgap) ((detached_pipe _).gap hgap)
    obtain ⟨d, ds, rfl⟩ := List.exists_cons_of_ne_nil hcs.ne_nil
    simpa [segmentTokens, Command.tokens] using hfirst

/-- No word runs into the redirect operator before it. -/
theorem head?_gap_spelling {gap s text : List Char} {word : String} (hgap : Gap gap)
    (hs : Spelling word s) (htext : Detached text) : (gap ++ (s ++ text)).head? ≠ some '>' := by
  cases gap with
  | nil =>
    obtain ⟨c, cs, hcons, -, hc, -⟩ := readLexeme_spelling hs htext
    rw [List.nil_append, hcons]
    exact fun heq => hc (Option.some.inj heq)
  | cons g gap =>
    have hg : g ≠ '>' := by
      rintro rfl
      exact absurd (hgap _ List.mem_cons_self) (by decide)
    exact fun heq => hg (Option.some.inj heq)

theorem Written.reads {p : Pipeline} {s : List Char} (h : Written p s) : Reads s p.tokens := by
  cases h with
  | @plain cs s gap gap' hs hgap hgap' =>
    have hend : Reads gap' [] := by simpa using reads_nil.gap hgap'
    have hend' : Detached gap' := by simpa using detached_nil.gap hgap'
    have hall := (hs.reads hend hend').gap hgap
    simpa [Pipeline.tokens] using hall
  | @redirected cs s gap gap₁ gap₂ gap' r target hs htarget hgap hgap₁ hgap₂ hgap' =>
    have hend : Reads gap' [] := by simpa using reads_nil.gap hgap'
    have hend' : Detached gap' := by simpa using detached_nil.gap hgap'
    have hredirect := ((hend.word htarget hend').gap hgap₂).redirect r.kind
      (head?_gap_spelling hgap₂ htarget hend')
    have hall := (hs.reads (hredirect.gap hgap₁) ((detached_redirect r.kind _).gap hgap₁)).gap hgap
    simpa [Pipeline.tokens, Redirect.tokens] using hall

theorem Written.ne_nil {p : Pipeline} {s : List Char} (h : Written p s) : p.commands ≠ [] := by
  cases h with
  | plain hs => exact hs.ne_nil
  | redirected hs => exact hs.ne_nil

theorem exists_wordsWritten (w : String) (ws : List String) : ∃ s, WordsWritten (w :: ws) s := by
  induction ws generalizing w with
  | nil => exact ⟨_, .last .double⟩
  | cons x ws ih =>
    obtain ⟨s, hs⟩ := ih x
    exact ⟨_, .cons .double gap_blank (List.cons_ne_nil _ _) hs⟩

theorem exists_segmentsWritten {cs : List Command} (hne : cs ≠ []) : ∃ s, SegmentsWritten cs s := by
  match cs with
  | [c] =>
    obtain ⟨s, hs⟩ := exists_wordsWritten c.name c.args
    exact ⟨s, .last hs⟩
  | c :: d :: rest =>
    obtain ⟨s, hs⟩ := exists_wordsWritten c.name c.args
    obtain ⟨text, htext⟩ := exists_segmentsWritten (List.cons_ne_nil d rest)
    exact ⟨_, .cons hs gap_blank gap_blank htext⟩

/-- With double quotes everything can be written. -/
theorem exists_written {p : Pipeline} (hne : p.commands ≠ []) :
    ∃ text : String, Written p text.toList := by
  obtain ⟨cs, redirect⟩ := p
  obtain ⟨s, hs⟩ := exists_segmentsWritten hne
  suffices h : ∃ text, Written ⟨cs, redirect⟩ text by
    obtain ⟨text, htext⟩ := h
    exact ⟨String.ofList text, by rwa [String.toList_ofList]⟩
  cases redirect with
  | none => exact ⟨_, .plain hs gap_blank gap_blank⟩
  | some r => exact ⟨_, .redirected hs .double gap_blank gap_blank gap_blank gap_blank⟩

theorem parse_of_written {p : Pipeline} {text : String} (h : Written p text.toList) :
    parse text = .ok p := by
  obtain ⟨hfaults, hvalues⟩ := h.reads 0
  have htokens : tokenize text = .ok (assemble (lexemes 0 text.toList)) := by
    simp only [tokenize, hfaults]
  exact (parse_eq_ok_iff htokens).mpr ⟨h.ne_nil, hvalues⟩

/-! ## The line that is printed -/

def Command.words (c : Command) : List String := c.name :: c.args

def Pipeline.words (p : Pipeline) : List String :=
  p.commands.flatMap Command.words ++ p.redirect.toList.map (·.target)

theorem toList_foldl_spaced (start : String) (args : List String) :
    (args.foldl (fun text arg => text ++ " " ++ arg) start).toList =
      start.toList ++ args.flatMap fun arg => ' ' :: arg.toList := by
  induction args generalizing start with
  | nil => simp
  | cons arg args ih => simp [ih]

theorem wordsWritten_spaced {w : String} {ws : List String} (h : ∀ x ∈ w :: ws, Bare x) :
    WordsWritten (w :: ws) (w.toList ++ ws.flatMap fun x => ' ' :: x.toList) := by
  induction ws generalizing w with
  | nil => simpa using WordsWritten.last (.bare (h w List.mem_cons_self))
  | cons x ws ih =>
    have hrest := ih fun y hy => h y (List.mem_cons_of_mem w hy)
    have hall := WordsWritten.cons (.bare (h w List.mem_cons_self)) gap_blank
      (List.cons_ne_nil _ _) hrest
    simpa using hall

theorem wordsWritten_render {c : Command} (h : ∀ w ∈ c.words, Bare w) :
    WordsWritten (c.name :: c.args) c.render.toList := by
  rw [Command.render, toList_foldl_spaced]
  exact wordsWritten_spaced h

theorem segmentsWritten_render {cs : List Command} (hne : cs ≠ [])
    (h : ∀ c ∈ cs, ∀ w ∈ c.words, Bare w) : SegmentsWritten cs (renderCommands cs).toList := by
  match cs with
  | [c] => exact .last (wordsWritten_render (h c List.mem_cons_self))
  | c :: d :: rest =>
    have hrest := segmentsWritten_render (List.cons_ne_nil d rest) fun x hx =>
      h x (List.mem_cons_of_mem c hx)
    have hall := SegmentsWritten.cons (wordsWritten_render (h c List.mem_cons_self)) gap_blank
      gap_blank hrest
    simpa [renderCommands] using hall

theorem written_render {p : Pipeline} (hne : p.commands ≠ []) (h : ∀ w ∈ p.words, Bare w) :
    Written p p.render.toList := by
  obtain ⟨cs, redirect⟩ := p
  have hsegments : SegmentsWritten cs (renderCommands cs).toList :=
    segmentsWritten_render hne fun c hc w hw =>
      h w (List.mem_append_left _ (List.mem_flatMap.mpr ⟨c, hc, hw⟩))
  have hnone : Gap [] := by decide
  cases redirect with
  | none => simpa [Pipeline.render] using Written.plain hsegments hnone hnone
  | some r =>
    have htarget : Bare r.target := h _ (List.mem_append_right _ (by simp))
    simpa [Pipeline.render] using
      Written.redirected hsegments (.bare htarget) hnone gap_blank gap_blank hnone

/-- Every pipeline can be written; however it is written, the line is read as that pipeline; and
printing is a way to write it, unless some word needs quotes. -/
theorem written_reads_back (p : Pipeline) :
    (p.commands ≠ [] → ∃ text : String, Written p text.toList) ∧
      (∀ text : String, Written p text.toList → parse text = .ok p) ∧
      (p.commands ≠ [] → (∀ w ∈ p.words, Bare w) → parse p.render = .ok p) :=
  ⟨exists_written, fun _ h => parse_of_written h,
    fun hne h => parse_of_written (written_render hne h)⟩

/-- Operators, quotes, a backslash and nothing at all as words, with blanks only where they must be. -/
theorem quoted_pipeline_reads_back :
    Written ⟨[⟨"echo", ["a | b", "", "it's \x22\\"]⟩, ⟨"cat", []⟩], some ⟨.append, ">out"⟩⟩
        "echo 'a | b'\t\x22\x22 \x22it's \\\x22\\\\\x22|cat>>'>out'".toList ∧
      parse "echo 'a | b'\t\x22\x22 \x22it's \\\x22\\\\\x22|cat>>'>out'" =
        .ok ⟨[⟨"echo", ["a | b", "", "it's \x22\\"]⟩, ⟨"cat", []⟩], some ⟨.append, ">out"⟩⟩ ∧
      parse (Pipeline.render ⟨[⟨"ls", ["-l"]⟩, ⟨"wc", []⟩], some ⟨.overwrite, "n"⟩⟩) =
        .ok ⟨[⟨"ls", ["-l"]⟩, ⟨"wc", []⟩], some ⟨.overwrite, "n"⟩⟩ := by
  have hblank : Gap [' '] := gap_blank
  have htab : Gap ['\t'] := by decide
  have hnone : Gap [] := by decide
  have hecho : WordsWritten ["echo", "a | b", "", "it's \x22\\"]
      "echo 'a | b'\t\x22\x22 \x22it's \\\x22\\\\\x22".toList :=
    .cons (.bare (by decide)) hblank (by decide) <|
    .cons (.single (by decide)) htab (by decide) <|
    .cons .double hblank (by decide) <| .last .double
  have hout : Spelling ">out" "'>out'".toList := .single (by decide)
  have hcat : WordsWritten ["cat"] "cat".toList := .last (.bare (by decide))
  have hsegments := SegmentsWritten.cons (c := ⟨"echo", ["a | b", "", "it's \x22\\"]⟩) hecho hnone
    hnone (.last (c := ⟨"cat", []⟩) hcat)
  have hwritten := Written.redirected (r := ⟨.append, ">out"⟩) hsegments hout hnone hnone hnone hnone
  refine ⟨hwritten, (written_reads_back _).2.1 _ hwritten, ?_⟩
  exact (written_reads_back _).2.2 (by decide) (by decide)

end DesktopTerminal.Line
