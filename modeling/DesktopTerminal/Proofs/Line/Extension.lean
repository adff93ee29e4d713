import DesktopTerminal.Proofs.Line.Layout

/-!
# Lines that are typed further

Characters without a meaning of their own at the end of a line make its last word longer, or are a new
word if a blank stands before them. What was read before stays as it was. So the longer line is read as
a pipeline too, unless the new word has no place: after a redirect there is one for a single word.
-/
namespace DesktopTerminal.Line

/-- The text ends in a blank that separates words. -/
def EndsInBlank (cs : List Char) : Prop := ∃ c, cs.getLast? = some c ∧ c ∈ blanks

instance : DecidablePred EndsInBlank := fun cs =>
  decidable_of_iff (cs.getLast?.any (· ∈ blanks) = true) (by simp [EndsInBlank, Option.any_eq_true])

/-- The text of a token that is a word. -/
def Token.word? : Token → Option String
  | .word text => some text
  | .operator _ => none

/-! ## The tokens of the longer line -/

theorem endsInBlank_append {front back : List Char} (hne : back ≠ []) :
    EndsInBlank (front ++ back) ↔ EndsInBlank back := by
  obtain ⟨c, hc⟩ := Option.ne_none_iff_exists'.mp (mt List.getLast?_eq_none_iff.mp hne)
  rw [EndsInBlank, EndsInBlank, List.getLast?_append, hc, Option.some_or]

theorem endsInBlank_cons {c : Char} {cs : List Char} (hne : cs ≠ []) :
    EndsInBlank (c :: cs) ↔ EndsInBlank cs :=
  @endsInBlank_append [c] cs hne

/-- The last character of a quoted piece is a quote. -/
theorem Closed.exists_last {written text : List Char} (h : Closed written text) :
    ∃ quote, written.getLast? = some quote ∧ quote ∈ specials ∧ quote ∉ blanks := by
  cases h with
  | single _ => exact ⟨'\x27', List.getLast?_concat, by decide, by decide⟩
  | double _ => exact ⟨'\x22', List.getLast?_concat, by decide, by decide⟩

theorem PieceWritten.not_endsInBlank {written text : List Char} (h : PieceWritten written text) :
    ¬ EndsInBlank written := by
  rintro ⟨c, hlast, hblank⟩
  cases h with
  | bare _ h => exact h c (List.mem_of_getLast? hlast) (List.mem_append_left _ hblank)
  | closed h =>
    obtain ⟨quote, hquote, -, hnot⟩ := h.exists_last
    obtain rfl := Option.some.inj (hlast.symm.trans hquote)
    exact hnot hblank

theorem WordWritten.not_endsInBlank {written text : List Char} (h : WordWritten written text) :
    ¬ EndsInBlank written := by
  induction h with
  | last h => exact h.not_endsInBlank
  | cons _ hmore ih => rwa [endsInBlank_append hmore.ne_nil]

/-- A word is made longer at its end by one more piece. -/
theorem WordWritten.snoc {written text more after : List Char} (h : WordWritten written text)
    (hmore : PieceWritten more after) : WordWritten (written ++ more) (text ++ after) := by
  induction h with
  | last h => exact .cons h (.last hmore)
  | cons h _ ih =>
    rw [List.append_assoc, List.append_assoc]
    exact .cons h ih

/-- Of what follows a token only the first character matters. -/
theorem TokenWritten.congr_head {t : Token} {written rest other : List Char}
    (h : TokenWritten t written rest) (hhead : other.head? = rest.head?) :
    TokenWritten t written other := by
  cases h with
  | operator hop => exact .operator fun heq => hhead ▸ hop heq
  | word hw hrest => exact .word hw fun c hc => hrest c (hhead ▸ hc)

theorem head?_append_of_ne_nil {front : List Char} (hne : front ≠ []) (back : List Char) :
    (front ++ back).head? = front.head? := by
  obtain ⟨c, cs, rfl⟩ := List.exists_cons_of_ne_nil hne
  rfl

theorem TokenWritten.not_endsInBlank {t : Token} {written rest : List Char}
    (h : TokenWritten t written rest) : ¬ EndsInBlank written := by
  cases h with
  | @operator op _ _ => cases op <;> decide
  | word h _ => exact h.not_endsInBlank

theorem LaidOut.eq_nil {pos : Nat} {ts : List (Spanned Token)} (h : LaidOut pos [] ts) : ts = [] := by
  obtain ⟨-, hts⟩ := h.assemble_eq
  rw [← hts, lexemes, assemble]

/-- Where there is no token there are blanks. -/
theorem LaidOut.endsInBlank {pos : Nat} {cs : List Char} (h : LaidOut pos cs []) (hne : cs ≠ []) :
    EndsInBlank cs := by
  generalize hts : ([] : List (Spanned Token)) = ts at h
  induction h with
  | done => exact absurd rfl hne
  | @blank _ c rest _ hc _ ih =>
    by_cases hrest : rest = []
    · exact ⟨c, by rw [hrest]; rfl, hc⟩
    · exact (endsInBlank_cons hrest).mpr (ih hrest hts)
  | token => cases hts

section

variable {added : String} (hadded : Bare added)
include hadded

theorem Bare.pieceWritten : PieceWritten added.toList added.toList :=
  .bare (mt String.toList_eq_nil_iff.mp hadded.1) hadded.2

theorem laidOut_bare (pos : Nat) : LaidOut pos added.toList
    [⟨.word added, pos, pos + Text.size added.toList⟩] := by
  have h : LaidOut pos (added.toList ++ []) [⟨.word added, pos, pos + Text.size added.toList⟩] :=
    .token (.word (.last hadded.pieceWritten) detached_nil) .done
  rwa [List.append_nil] at h

theorem LaidOut.append_after_blank {pos : Nat} {cs : List Char} {ts : List (Spanned Token)}
    (h : LaidOut pos cs ts) (hblank : EndsInBlank cs) :
    ∃ ts', LaidOut pos (cs ++ added.toList) ts' ∧
      ts'.map (·.value) = ts.map (·.value) ++ [.word added] := by
  induction h with
  | done => exact absurd hblank (by decide)
  | @blank pos c rest ts hc h ih =>
    by_cases hrest : rest = []
    · subst hrest
      obtain rfl := h.eq_nil
      exact ⟨_, .blank hc (laidOut_bare hadded _), rfl⟩
    · obtain ⟨ts', hts', hvalues⟩ := ih ((endsInBlank_cons hrest).mp hblank)
      exact ⟨ts', .blank hc hts', hvalues⟩
  | @token pos t written rest ts ht h ih =>
    by_cases hrest : rest = []
    · rw [hrest, List.append_nil] at hblank
      exact absurd hblank ht.not_endsInBlank
    · obtain ⟨ts', hts', hvalues⟩ := ih ((endsInBlank_append hrest).mp hblank)
      rw [List.append_assoc]
      exact ⟨_, .token (ht.congr_head (head?_append_of_ne_nil hrest _)) hts', congrArg (t :: ·) hvalues⟩

/-- A word at the end is the one that gets longer. -/
theorem TokenWritten.laidOut_append {text : String} {written rest : List Char}
    (h : TokenWritten (.word text) written rest) (pos : Nat) :
    LaidOut pos (written ++ added.toList)
      [⟨.word (text ++ added), pos, pos + Text.size (written ++ added.toList)⟩] := by
  cases h with
  | word hw _ =>
    have hlonger : WordWritten (written ++ added.toList) (text ++ added).toList := by
      rw [String.toList_append]
      exact hw.snoc hadded.pieceWritten
    have hlaid : LaidOut pos (written ++ added.toList ++ []) _ :=
      .token (.word hlonger detached_nil) .done
    rwa [List.append_nil] at hlaid

theorem LaidOut.append_in_word {pos : Nat} {cs : List Char} {ts : List (Spanned Token)}
    (h : LaidOut pos cs ts) (hblank : ¬ EndsInBlank cs) {front : List Token} {text : String}
    (hts : ts.map (·.value) = front ++ [.word text]) :
    ∃ ts', LaidOut pos (cs ++ added.toList) ts' ∧
      ts'.map (·.value) = front ++ [.word (text ++ added)] := by
  induction h generalizing front with
  | done => simp at hts
  | @blank pos c rest ts hc h ih =>
    by_cases hrest : rest = []
    · subst hrest
      obtain rfl := h.eq_nil
      simp at hts
    · obtain ⟨ts', hts', hvalues⟩ := ih (mt (endsInBlank_cons hrest).mpr hblank) hts
      exact ⟨ts', .blank hc hts', hvalues⟩
  | @token pos t written rest ts ht h ih =>
    by_cases hrest : rest = []
    · subst hrest
      obtain rfl := h.eq_nil
      obtain ⟨rfl, hword⟩ := List.append_inj' (show [] ++ [_] = front ++ [_] from hts) rfl
      obtain rfl := (List.cons.inj hword).1
      rw [List.append_nil]
      exact ⟨_, ht.laidOut_append hadded pos, rfl⟩
    · have hnext := mt (endsInBlank_append hrest).mpr hblank
      have hne : ts ≠ [] := by
        rintro rfl
        exact hnext (h.endsInBlank hrest)
      cases front with
      | nil => exact absurd (List.map_eq_nil_iff.mp (List.cons.inj hts).2) hne
      | cons first front =>
        obtain ⟨hfirst, hlater⟩ := List.cons.inj hts
        obtain ⟨ts', hts', hvalues⟩ := ih hnext hlater
        rw [List.append_assoc]
        refine ⟨_, .token (ht.congr_head (head?_append_of_ne_nil hrest _)) hts', ?_⟩
        rw [List.map_cons, hvalues, ← hfirst]
        rfl

end

/-! ## The longer line as a pipeline -/

theorem segmentTokens_eq_pipedTokens {cs : List Command} (hne : cs ≠ []) :
    ∃ before c, cs = before ++ [c] ∧ segmentTokens cs = pipedTokens before ++ c.tokens := by
  refine ⟨cs.dropLast, cs.getLast hne, (List.dropLast_concat_getLast hne).symm, ?_⟩
  rw [← segmentTokens_snoc, List.dropLast_concat_getLast hne]

/-- A line ends with a word. -/
theorem Derives.exists_last_word {ts : List Token} {p : Pipeline} (h : Derives ts p) :
    ∃ front text, ts = front ++ [.word text] := by
  obtain ⟨hne, rfl⟩ := h
  obtain ⟨commands, redirect⟩ := p
  cases redirect with
  | some r => exact ⟨segmentTokens commands ++ [.operator r.kind.operator], r.target,
      by simp [Pipeline.tokens, Redirect.tokens]⟩
  | none =>
    obtain ⟨before, c, -, htokens⟩ := segmentTokens_eq_pipedTokens hne
    have hlast : ∃ front text, c.tokens = front ++ [.word text] := by
      rcases List.eq_nil_or_concat c.args with hargs | ⟨args, text, hargs⟩
      · exact ⟨[], c.name, by simp [Command.tokens, hargs]⟩
      · exact ⟨.word c.name :: args.map .word, text, by simp [Command.tokens, hargs]⟩
    obtain ⟨front, text, hlast⟩ := hlast
    refine ⟨pipedTokens before ++ front, text, ?_⟩
    have hall : (⟨commands, none⟩ : Pipeline).tokens = segmentTokens commands := by
      simp [Pipeline.tokens]
    rw [hall, htokens, hlast, List.append_assoc]

/-- The words of a pipeline are those among its tokens. -/
theorem Pipeline.words_eq_filterMap (p : Pipeline) : p.words = p.tokens.filterMap Token.word? := by
  obtain ⟨commands, redirect⟩ := p
  have hcommand : ∀ c : Command, c.tokens.filterMap Token.word? = c.words := by
    intro c
    simp [Command.tokens, Command.words, Token.word?, List.filterMap_map, Function.comp_def]
  have hcommands : (segmentTokens commands).filterMap Token.word? = commands.flatMap Command.words := by
    induction commands with
    | nil => rfl
    | cons c cs ih =>
      cases cs with
      | nil => simp [segmentTokens, hcommand]
      | cons d rest =>
        rw [segmentTokens, List.filterMap_append, hcommand, List.filterMap_cons, ih]
        rfl
  rw [Pipeline.words, Pipeline.tokens, List.filterMap_append, hcommands]
  cases redirect <;> rfl

theorem Derives.getLast?_words {front : List Token} {text : String} {p : Pipeline}
    (h : Derives (front ++ [.word text]) p) : p.words.getLast? = some text := by
  rw [Pipeline.words_eq_filterMap, ← h.2, List.filterMap_append]
  exact List.getLast?_concat

/-- Where a word may stand any word may. -/
theorem Derives.change_last_word {front : List Token} {text : String} {p : Pipeline}
    (h : Derives (front ++ [.word text]) p) (other : String) :
    Grammatical (front ++ [.word other]) := by
  obtain ⟨last, hlast, -⟩ := Reading.feedAll_finish_iff.mpr h
  rw [Reading.feedAll_append] at hlast
  obtain ⟨r, hr, hfeed⟩ := Option.bind_eq_some_iff.mp hlast
  have hother : ∃ next q, r.feed (.word other) = some next ∧ next.finish? = some q := by
    cases r with
    | name before => exact ⟨_, _, rfl, rfl⟩
    | words before c => exact ⟨_, _, rfl, rfl⟩
    | target commands kind => exact ⟨_, _, rfl, rfl⟩
    | done p => cases hfeed
  obtain ⟨next, q, hnext, hq⟩ := hother
  refine ⟨q, Reading.feedAll_finish_iff.mp ⟨next, ?_, hq⟩⟩
  rw [Reading.feedAll_append, hr, Option.bind_some, Reading.feedAll, hnext]
  rfl

/-- A line goes on with one more word unless it has a redirect. -/
theorem Derives.grammatical_snoc_word_iff {ts : List Token} {p : Pipeline} (h : Derives ts p)
    (text : String) : Grammatical (ts ++ [.word text]) ↔ p.redirect = none := by
  constructor
  · rintro ⟨q, hq⟩
    obtain ⟨last, hlast, hp⟩ := Reading.feedAll_finish_iff.mpr h
    obtain ⟨longer, hlonger, -⟩ := Reading.feedAll_finish_iff.mpr hq
    rw [Reading.feedAll_append, hlast] at hlonger
    cases last with
    | name before => cases hp
    | words before c => exact congrArg Pipeline.redirect (Option.some.inj hp).symm
    | target commands kind => cases hp
    | done p => cases hlonger
  · intro hredirect
    obtain ⟨hne, rfl⟩ := h
    obtain ⟨commands, redirect⟩ := p
    obtain rfl : redirect = none := hredirect
    obtain ⟨before, c, -, htokens⟩ := @segmentTokens_eq_pipedTokens commands hne
    refine ⟨⟨before ++ [⟨c.name, c.args ++ [text]⟩], none⟩, by simp, ?_⟩
    have hall : ∀ cs, (⟨cs, none⟩ : Pipeline).tokens = segmentTokens cs := by simp [Pipeline.tokens]
    rw [hall, hall, segmentTokens_snoc, htokens]
    simp [Command.tokens]

theorem exists_tokens_of_parse {source : String} {p : Pipeline} (h : parse source = .ok p) :
    ∃ ts, tokenize source = .ok ts ∧ Derives (ts.map (·.value)) p := by
  cases htokens : tokenize source with
  | ok ts => exact ⟨ts, rfl, (parse_eq_ok_iff htokens).mp h⟩
  | error faults => cases faults <;> simp [parse, htokens] at h

/-- The word that goes on when the line is typed further: the last one, or a new one after a blank. -/
def openWord (source : String) (p : Pipeline) : String :=
  if EndsInBlank source.toList then "" else p.words.getLast?.getD ""

/-- A line that is typed further is read as a pipeline, unless a redirect has its word and a blank
after it; and its last word has what is added at its end. -/
theorem parse_append {source added : String} {p : Pipeline} (hp : parse source = .ok p)
    (hadded : Bare added) :
    ((∃ q, parse (source ++ added) = .ok q) ↔
      p.redirect = none ∨ ¬ EndsInBlank source.toList) ∧
    ∀ q, parse (source ++ added) = .ok q →
      q.words.getLast? = some (openWord source p ++ added) := by
  obtain ⟨ts, htokens, hderives⟩ := exists_tokens_of_parse hp
  obtain ⟨front, text, hlast⟩ := hderives.exists_last_word
  have hlaid := tokenize_eq_ok_iff.mp htokens
  have htext : p.words.getLast? = some text := (hlast ▸ hderives).getLast?_words
  by_cases hblank : EndsInBlank source.toList
  · obtain ⟨ts', hlaid', hvalues⟩ := hlaid.append_after_blank hadded hblank
    rw [← String.toList_append] at hlaid'
    have hparse : ∀ q, parse (source ++ added) = .ok q ↔
        Derives (ts.map (·.value) ++ [.word added]) q := fun q =>
      hvalues ▸ parse_eq_ok_iff (tokenize_eq_ok_iff.mpr hlaid')
    simp only [hparse]
    refine ⟨?_, fun q hq => ?_⟩
    · rw [← Grammatical, hderives.grammatical_snoc_word_iff]
      simp [hblank]
    · rw [hq.getLast?_words, openWord, if_pos hblank, String.empty_append]
  · obtain ⟨ts', hlaid', hvalues⟩ := hlaid.append_in_word hadded hblank hlast
    rw [← String.toList_append] at hlaid'
    have hparse : ∀ q, parse (source ++ added) = .ok q ↔
        Derives (front ++ [.word (text ++ added)]) q := fun q =>
      hvalues ▸ parse_eq_ok_iff (tokenize_eq_ok_iff.mpr hlaid')
    simp only [hparse]
    refine ⟨?_, fun q hq => ?_⟩
    · exact iff_of_true ((hlast ▸ hderives).change_last_word _) (.inr hblank)
    · rw [hq.getLast?_words, openWord, if_neg hblank, htext]
      rfl

/-! ## The last word of a line -/

/-- In a piece no blank has bare characters behind it up to the end. -/
theorem PieceWritten.not_blank_bare {written text front back : List Char}
    (h : PieceWritten written text) (hsplit : written = front ++ back) (hfront : EndsInBlank front)
    (hback : ∀ c ∈ back, c ∉ specials) : False := by
  by_cases hnone : back = []
  · rw [hnone, List.append_nil] at hsplit
    exact h.not_endsInBlank (hsplit ▸ hfront)
  · cases h with
    | bare _ h =>
      obtain ⟨b, hb, hblank⟩ := hfront
      have hmem : b ∈ written := hsplit ▸ List.mem_append_left _ (List.mem_of_getLast? hb)
      exact h b hmem (List.mem_append_left _ hblank)
    | closed h =>
      obtain ⟨quote, hquote, hspecial, -⟩ := h.exists_last
      obtain ⟨before, last, hlast⟩ := (List.eq_nil_or_concat back).resolve_left hnone
      obtain rfl : back = before ++ [last] := hlast.trans (List.concat_eq_append ..)
      rw [hsplit, ← List.append_assoc, List.getLast?_concat] at hquote
      obtain rfl := Option.some.inj hquote
      exact hback last (by simp) hspecial

theorem WordWritten.not_blank_bare {written text front back : List Char}
    (h : WordWritten written text) (hsplit : written = front ++ back) (hfront : EndsInBlank front)
    (hback : ∀ c ∈ back, c ∉ specials) : False := by
  induction h generalizing front with
  | last h => exact h.not_blank_bare hsplit hfront hback
  | @cons written text more after h _ ih =>
    rcases List.append_eq_append_iff.mp hsplit with ⟨middle, rfl, hmore⟩ | ⟨middle, hwritten, rfl⟩
    · by_cases hnone : middle = []
      · rw [hnone, List.append_nil] at hfront
        exact h.not_endsInBlank hfront
      · exact ih hmore ((endsInBlank_append hnone).mp hfront)
    · exact h.not_blank_bare hwritten hfront fun c hc => hback c (List.mem_append_left _ hc)

theorem TokenWritten.not_blank_bare {t : Token} {written rest front back : List Char}
    (h : TokenWritten t written rest) (hsplit : written = front ++ back) (hfront : EndsInBlank front)
    (hback : ∀ c ∈ back, c ∉ specials) : False := by
  cases h with
  | word h _ => exact h.not_blank_bare hsplit hfront hback
  | @operator op _ _ =>
    obtain ⟨b, hb, hblank⟩ := hfront
    have hmem : b ∈ op.text.toList := hsplit ▸ List.mem_append_left _ (List.mem_of_getLast? hb)
    rcases Operator.mem_text hmem with rfl | rfl
    · exact absurd hblank (by decide)
    · exact absurd hblank (by decide)

/-- What stands before a blank with bare characters behind it up to the end is a line of its own. -/
theorem LaidOut.of_append {pos : Nat} {cs front back : List Char} {ts : List (Spanned Token)}
    (h : LaidOut pos cs ts) (hsplit : cs = front ++ back) (hfront : EndsInBlank front)
    (hback : ∀ c ∈ back, c ∉ specials) : ∃ ts', LaidOut pos front ts' := by
  induction h generalizing front with
  | done =>
    obtain ⟨rfl, -⟩ := List.append_eq_nil_iff.mp hsplit.symm
    exact absurd hfront (by decide)
  | @blank pos c rest ts hc h ih =>
    cases front with
    | nil => exact absurd hfront (by decide)
    | cons d front =>
      obtain ⟨rfl, hrest⟩ := List.cons.inj hsplit
      by_cases hnone : front = []
      · exact ⟨[], hnone ▸ .blank hc .done⟩
      · obtain ⟨ts', hts'⟩ := ih hrest ((endsInBlank_cons hnone).mp hfront)
        exact ⟨ts', .blank hc hts'⟩
  | @token pos t written rest ts ht h ih =>
    rcases List.append_eq_append_iff.mp hsplit with ⟨middle, rfl, hrest⟩ | ⟨middle, hwritten, rfl⟩
    · by_cases hnone : middle = []
      · rw [hnone, List.append_nil] at hfront
        exact absurd hfront ht.not_endsInBlank
      · obtain ⟨ts', hts'⟩ := ih hrest ((endsInBlank_append hnone).mp hfront)
        have hhead := hrest ▸ head?_append_of_ne_nil hnone back
        exact ⟨_, .token (ht.congr_head hhead.symm) hts'⟩
    · exact (ht.not_blank_bare hwritten hfront fun c hc =>
        hback c (List.mem_append_left _ hc)).elim

/-- Bare characters behind a blank at the end of a line are its last word. -/
theorem openWord_eq_of_bare {source front back : String} {p : Pipeline}
    (hp : parse source = .ok p) (hsplit : source = front ++ back)
    (hfront : EndsInBlank front.toList) (hback : ∀ c ∈ back.toList, c ∉ specials) :
    openWord source p = back := by
  by_cases hempty : back = ""
  · rw [hempty, String.append_empty] at hsplit
    rw [openWord, hsplit, if_pos hfront, hempty]
  · obtain ⟨ts, htokens, hderives⟩ := exists_tokens_of_parse hp
    have hlaid := tokenize_eq_ok_iff.mp htokens
    have hlist : source.toList = front.toList ++ back.toList := by
      rw [hsplit, String.toList_append]
    obtain ⟨before, hbefore⟩ := hlaid.of_append hlist hfront hback
    obtain ⟨ts', hlaid', hvalues⟩ := hbefore.append_after_blank ⟨hempty, hback⟩ hfront
    rw [← hlist] at hlaid'
    have hsame : ts' = ts := Except.ok.inj ((tokenize_eq_ok_iff.mpr hlaid').symm.trans htokens)
    rw [← hsame, hvalues] at hderives
    have hopen : ¬ EndsInBlank source.toList := by
      have hne : back.toList ≠ [] := mt String.toList_eq_nil_iff.mp hempty
      rw [hlist, endsInBlank_append hne]
      rintro ⟨c, hc, hblank⟩
      exact hback c (List.mem_of_getLast? hc) (List.mem_append_left _ hblank)
    rw [openWord, if_neg hopen, hderives.getLast?_words]
    rfl

/-! ## The last argument -/

/-- An argument at the end of the line is made longer in its place. -/
theorem parse_append_argument {source added name text : String} {front : List Command}
    {args : List String} (hp : parse source = .ok ⟨front ++ [⟨name, args ++ [text]⟩], none⟩)
    (hopen : ¬ EndsInBlank source.toList) (hadded : Bare added) :
    parse (source ++ added) = .ok ⟨front ++ [⟨name, args ++ [text ++ added]⟩], none⟩ := by
  have htokens : ∀ last, (⟨front ++ [⟨name, args ++ [last]⟩], none⟩ : Pipeline).tokens =
      pipedTokens front ++ .word name :: args.map .word ++ [.word last] := by
    intro last
    rw [Pipeline.tokens, segmentTokens_snoc]
    simp [Command.tokens]
  obtain ⟨ts, hts, -, hvalues⟩ := exists_tokens_of_parse hp
  rw [htokens] at hvalues
  obtain ⟨ts', hlaid, hlonger⟩ :=
    (tokenize_eq_ok_iff.mp hts).append_in_word hadded hopen hvalues
  rw [← String.toList_append] at hlaid
  refine (parse_eq_ok_iff (tokenize_eq_ok_iff.mpr hlaid)).mpr ⟨by simp, ?_⟩
  rw [hlonger, htokens]

/-! ## The first word of a line -/

theorem lexemes_blanks {front : List Char} (hfront : ∀ c ∈ front, c ∈ blanks) (pos : Nat)
    (rest : List Char) : lexemes pos (front ++ rest) = lexemes (pos + Text.size front) rest := by
  induction front generalizing pos with
  | nil => rfl
  | cons c front ih =>
    obtain ⟨hc, hfront⟩ := List.forall_mem_cons.mp hfront
    rw [List.cons_append, lexemes_gap (isGap_iff.mpr hc), ih hfront, Text.size_cons, Nat.add_assoc]

/-- Bare characters up to a blank or an operator are the name of the first command. -/
theorem exists_first_command {source first : String} {p : Pipeline} {front rest : List Char}
    (hp : parse source = .ok p) (hsource : source.toList = front ++ (first.toList ++ rest))
    (hfront : ∀ c ∈ front, c ∈ blanks) (hfirst : Bare first) (hrest : Detached rest) :
    ∃ c, p.commands.head? = some c ∧ c.name = first := by
  obtain ⟨ts, hts, hne, hvalues⟩ := exists_tokens_of_parse hp
  obtain ⟨-, hassemble⟩ := (tokenize_eq_ok_iff.mp hts).assemble_eq
  obtain ⟨-, hword⟩ := (WordWritten.last hfirst.pieceWritten).lexemes_eq hrest (0 + Text.size front)
  rw [hsource, lexemes_blanks hfront, hword] at hassemble
  rw [← hassemble, String.ofList_toList, List.map_cons] at hvalues
  obtain ⟨commands, redirect⟩ := p
  obtain ⟨c, cs, rfl⟩ := List.exists_cons_of_ne_nil hne
  refine ⟨c, rfl, ?_⟩
  cases cs <;>
  · simp only [Pipeline.tokens, segmentTokens, Command.tokens, List.cons_append] at hvalues
    exact (Token.word.inj (List.cons.inj hvalues).1).symm

end DesktopTerminal.Line
