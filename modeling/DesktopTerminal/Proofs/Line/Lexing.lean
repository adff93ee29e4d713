import DesktopTerminal.Line.Lexeme

/-!
# Where lexemes and tokens stand

Lexemes stand in the order of the text and do not overlap, so of several faults the first in the list
is the first in the line. No token starts before the place where its text does. Words are made of
characters of the line only.
-/
namespace DesktopTerminal.Line

theorem lexemes_gap {c : Char} (h : isGap c = true) (pos : Nat) (cs : List Char) :
    lexemes pos (c :: cs) = lexemes (pos + c.utf8Size) cs := by
  rw [lexemes, if_pos h]

theorem lexemes_lexeme {c : Char} (h : isGap c = false) (pos : Nat) (cs : List Char) :
    ∃ stop, lexemes pos (c :: cs) =
      ⟨(readLexeme c cs).1, pos, stop⟩ :: lexemes stop (readLexeme c cs).2 := by
  rw [lexemes, if_neg (by simp [h])]
  exact ⟨_, rfl⟩

theorem le_start_of_mem_lexemes {pos : Nat} {cs : List Char} {l : Spanned Lexeme}
    (h : l ∈ lexemes pos cs) : pos ≤ l.span.start := by
  induction pos, cs using lexemes.induct with
  | case1 pos => simp [lexemes] at h
  | case2 pos c cs hgap ih =>
    rw [lexemes_gap hgap] at h
    exact Nat.le_of_add_right_le (ih h)
  | case3 pos c cs hgap next stop ih =>
    rw [lexemes, if_neg hgap] at h
    rcases List.mem_cons.mp h with rfl | hmem
    · exact Nat.le_refl _
    · exact Nat.le_of_add_right_le (ih hmem)

theorem lexemes_pairwise (pos : Nat) (cs : List Char) :
    (lexemes pos cs).Pairwise fun a b => a.span.stop ≤ b.span.start := by
  induction pos, cs using lexemes.induct with
  | case1 pos => simp [lexemes]
  | case2 pos c cs hgap ih => rwa [lexemes_gap hgap]
  | case3 pos c cs hgap next stop ih =>
    rw [lexemes, if_neg hgap]
    exact List.pairwise_cons.mpr ⟨fun l hl => le_start_of_mem_lexemes hl, ih⟩

theorem lexicalFaults_pairwise (pos : Nat) (cs : List Char) :
    (lexicalFaults (lexemes pos cs)).Pairwise fun a b => a.span.stop ≤ b.span.start := by
  refine (lexemes_pairwise pos cs).filterMap _ ?_
  rintro ⟨a, aSpan⟩ ⟨b, bSpan⟩ hab x hx y hy
  cases a with
  | fault _ =>
    cases b with
    | fault _ =>
      obtain rfl := Option.some.inj hx
      obtain rfl := Option.some.inj hy
      exact hab
    | operator _ => cases hy
    | piece _ => cases hy
  | operator _ => cases hx
  | piece _ => cases hx

/-- The faults of a line come in the order of the line, and there is one. -/
theorem tokenize_eq_error {source : String} {faults : List (Spanned LexicalFault)}
    (h : tokenize source = .error faults) :
    ∃ first others, faults = first :: others ∧ ∀ other ∈ others, first.span.stop ≤ other.span.start := by
  have hordered := lexicalFaults_pairwise 0 source.toList
  simp only [tokenize] at h
  split at h
  · cases h
  next hne =>
    obtain rfl := Except.error.inj h
    obtain ⟨first, others, hfaults⟩ := List.exists_cons_of_ne_nil hne
    rw [hfaults] at hordered ⊢
    exact ⟨first, others, rfl, (List.pairwise_cons.mp hordered).1⟩

/-- A piece starts a word; what it does not join stays as it is. -/
theorem assemble_piece (text : List Char) (span : Span) (ls : List (Spanned Lexeme)) :
    ∃ word stop tokens,
      assemble (⟨.piece text, span⟩ :: ls) = ⟨.word word, span.start, stop⟩ :: tokens ∧
        ∀ t ∈ tokens, t ∈ assemble ls := by
  rw [assemble]
  split
  next more next tokens htokens =>
    split
    · exact ⟨_, _, tokens, rfl, fun t ht => by simp [htokens, ht]⟩
    · exact ⟨_, _, _, rfl, fun t ht => by rw [htokens]; exact ht⟩
  next => exact ⟨_, _, _, rfl, fun t ht => ht⟩

/-- A piece that no word touches is a word by itself. -/
theorem assemble_piece_apart {text : List Char} {span : Span} {ls : List (Spanned Lexeme)}
    (h : ∀ t, (assemble ls).head? = some t →
      span.stop < t.span.start ∨ ∃ op, t.value = .operator op) :
    assemble (⟨.piece text, span⟩ :: ls) = ⟨.word (String.ofList text), span⟩ :: assemble ls := by
  rw [assemble]
  split
  next more next tokens htokens =>
    rcases h ⟨.word more, next⟩ (by simp [htokens]) with hlt | ⟨op, hop⟩
    · rw [if_neg (Nat.ne_of_lt hlt), htokens]
    · cases hop
  next => rfl

theorem le_start_of_mem_assemble {pos : Nat} {ls : List (Spanned Lexeme)}
    (h : ∀ l ∈ ls, pos ≤ l.span.start) {t : Spanned Token} (ht : t ∈ assemble ls) :
    pos ≤ t.span.start := by
  induction ls with
  | nil => cases ht
  | cons l ls ih =>
    have hhead := h l List.mem_cons_self
    have htail := ih fun l hl => h l (List.mem_cons_of_mem _ hl)
    obtain ⟨value, span⟩ := l
    cases value with
    | fault cause => exact htail ht
    | operator op =>
      rcases List.mem_cons.mp ht with rfl | hmem
      · exact hhead
      · exact htail hmem
    | piece text =>
      obtain ⟨word, stop, tokens, htokens, hkept⟩ := assemble_piece text span ls
      rw [htokens] at ht
      rcases List.mem_cons.mp ht with rfl | hmem
      · exact hhead
      · exact htail (hkept t hmem)

/-! ## Characters of words -/

theorem mem_escaped {c x : Char} (h : x ∈ escaped c) : x = '\\' ∨ x = c := by
  unfold escaped at h
  split at h
  · exact .inr (List.mem_singleton.mp h)
  · simpa using h

/-- The text of a quoted piece is made of what stands in the line. -/
theorem mem_of_readDouble {cs text : List Char} (h : (readDouble cs).1 = some text) {x : Char}
    (hx : x ∈ text) : x ∈ cs := by
  fun_induction readDouble cs generalizing text with
  | case1 => cases h
  | case2 cs =>
    obtain rfl := Option.some.inj h
    cases hx
  | case3 => cases h
  | case4 => cases h
  | case5 c cs =>
    rename_i ih
    obtain ⟨more, hmore, rfl⟩ := Option.map_eq_some_iff.mp h
    rcases List.mem_append.mp hx with hx | hx
    · rcases mem_escaped hx with rfl | rfl <;> simp
    · simp [ih hmore hx]
  | case6 c cs =>
    rename_i ih
    obtain ⟨more, hmore, rfl⟩ := Option.map_eq_some_iff.mp h
    rcases List.mem_cons.mp hx with rfl | hx
    · exact List.mem_cons_self
    · exact List.mem_cons_of_mem _ (ih hmore hx)

theorem mem_of_readSingle {cs text : List Char} (h : (readSingle cs).1 = some text) {x : Char}
    (hx : x ∈ text) : x ∈ cs := by
  fun_induction readSingle cs generalizing text with
  | case1 => cases h
  | case2 cs =>
    obtain rfl := Option.some.inj h
    cases hx
  | case3 c cs =>
    rename_i ih
    obtain ⟨more, hmore, rfl⟩ := Option.map_eq_some_iff.mp h
    rcases List.mem_cons.mp hx with rfl | hx
    · exact List.mem_cons_self
    · exact List.mem_cons_of_mem _ (ih hmore hx)

theorem suffix_readDouble (cs : List Char) : (readDouble cs).2 <:+ cs := by
  fun_induction readDouble cs with
  | case1 => exact List.suffix_rfl
  | case2 cs => exact List.suffix_cons _ _
  | case3 => exact List.suffix_rfl
  | case4 cs => exact List.suffix_rfl
  | case5 c cs =>
    rename_i ih
    exact ih.trans ((List.suffix_cons c cs).trans (List.suffix_cons _ _))
  | case6 c cs =>
    rename_i ih
    exact ih.trans (List.suffix_cons c cs)

theorem suffix_readSingle (cs : List Char) : (readSingle cs).2 <:+ cs := by
  fun_induction readSingle cs with
  | case1 => exact List.suffix_rfl
  | case2 cs => exact List.suffix_cons _ _
  | case3 c cs =>
    rename_i ih
    exact ih.trans (List.suffix_cons c cs)

theorem mem_of_quotedLexeme {r : Option (List Char) × List Char} {text : List Char}
    (h : (quotedLexeme r).1 = .piece text) : r.1 = some text := by
  obtain ⟨_ | found, rest⟩ := r
  · cases h
  · exact congrArg some (Lexeme.piece.inj h)

/-- A lexeme is read off the front of the text. -/
theorem suffix_readLexeme (c : Char) (cs : List Char) : (readLexeme c cs).2 <:+ cs := by
  unfold readLexeme
  split
  · exact List.suffix_rfl
  split
  · split
    · exact List.suffix_cons _ _
    · exact List.suffix_rfl
  split
  · exact List.suffix_rfl
  split
  · rw [quotedLexeme_snd]
    exact suffix_readDouble cs
  split
  · rw [quotedLexeme_snd]
    exact suffix_readSingle cs
  · exact List.dropWhile_suffix isBare

theorem mem_of_readLexeme {c : Char} {cs text : List Char}
    (h : (readLexeme c cs).1 = .piece text) {x : Char} (hx : x ∈ text) : x ∈ c :: cs := by
  unfold readLexeme at h
  split at h
  · cases h
  split at h
  · split at h <;> cases h
  split at h
  · cases h
  split at h
  · exact List.mem_cons_of_mem _ (mem_of_readDouble (mem_of_quotedLexeme h) hx)
  split at h
  · exact List.mem_cons_of_mem _ (mem_of_readSingle (mem_of_quotedLexeme h) hx)
  · obtain rfl := Lexeme.piece.inj h
    rcases List.mem_cons.mp hx with rfl | hx
    · exact List.mem_cons_self
    · exact List.mem_cons_of_mem _ ((List.takeWhile_sublist isBare).subset hx)

theorem mem_of_mem_lexemes {pos : Nat} {cs : List Char} {l : Spanned Lexeme}
    (h : l ∈ lexemes pos cs) {text : List Char} (hl : l.value = .piece text) {x : Char}
    (hx : x ∈ text) : x ∈ cs := by
  induction pos, cs using lexemes.induct with
  | case1 pos => simp [lexemes] at h
  | case2 pos c cs hgap ih =>
    rw [lexemes_gap hgap] at h
    exact List.mem_cons_of_mem _ (ih h)
  | case3 pos c cs hgap next stop ih =>
    rw [lexemes, if_neg hgap] at h
    rcases List.mem_cons.mp h with rfl | hmem
    · exact mem_of_readLexeme hl hx
    · exact List.mem_cons_of_mem _ ((suffix_readLexeme c cs).subset (ih hmem))

/-- A word is made of pieces. -/
theorem forall_mem_assemble {P : Char → Prop} {ls : List (Spanned Lexeme)}
    (h : ∀ l ∈ ls, ∀ text, l.value = .piece text → ∀ x ∈ text, P x) :
    ∀ t ∈ assemble ls, ∀ word, t.value = .word word → ∀ x ∈ word.toList, P x := by
  fun_induction assemble ls with
  | case1 => exact fun t ht => absurd ht List.not_mem_nil
  | case2 cause span rest ih => exact ih (List.forall_mem_cons.mp h).2
  | case3 op span rest ih =>
    refine List.forall_mem_cons.mpr ⟨fun word hword => ?_, ih (List.forall_mem_cons.mp h).2⟩
    cases hword
  | case4 text span rest more next tokens hrest _ ih =>
    obtain ⟨hpiece, hlater⟩ := List.forall_mem_cons.mp h
    have hwords := ih hlater
    rw [hrest] at hwords
    obtain ⟨hmore, htokens⟩ := List.forall_mem_cons.mp hwords
    refine List.forall_mem_cons.mpr ⟨fun word hword x hx => ?_, htokens⟩
    obtain rfl := Token.word.inj hword
    rw [String.toList_append, String.toList_ofList] at hx
    rcases List.mem_append.mp hx with hx | hx
    · exact hpiece text rfl x hx
    · exact hmore more rfl x hx
  | case5 text span rest more next tokens hrest _ ih =>
    obtain ⟨hpiece, hlater⟩ := List.forall_mem_cons.mp h
    refine List.forall_mem_cons.mpr ⟨fun word hword x hx => ?_, hrest ▸ ih hlater⟩
    obtain rfl := Token.word.inj hword
    rw [String.toList_ofList] at hx
    exact hpiece text rfl x hx
  | case6 text span rest _ ih =>
    obtain ⟨hpiece, hlater⟩ := List.forall_mem_cons.mp h
    refine List.forall_mem_cons.mpr ⟨fun word hword x hx => ?_, ih hlater⟩
    obtain rfl := Token.word.inj hword
    rw [String.toList_ofList] at hx
    exact hpiece text rfl x hx

/-- Every character of a word stands in the line. -/
theorem mem_of_mem_tokenize {source word : String} {tokens : List (Spanned Token)}
    (h : tokenize source = .ok tokens) (hword : .word word ∈ tokens.map (·.value)) {x : Char}
    (hx : x ∈ word.toList) : x ∈ source.toList := by
  obtain ⟨t, ht, hvalue⟩ := List.mem_map.mp hword
  rw [tokenize] at h
  split at h
  · obtain rfl := Except.ok.inj h
    exact forall_mem_assemble (fun l hl text htext x hx => mem_of_mem_lexemes hl htext hx) t ht
      word hvalue x hx
  · cases h

end DesktopTerminal.Line
