import DesktopTerminal.Line.Reading
import DesktopTerminal.Proofs.Line.Grammar
import DesktopTerminal.Proofs.Line.Lexing
import Mathlib.Control.Monad.Basic

/-!
# The token to blame

The readers of a line go back: a pipe that no segment follows is left to the redirect, and a redirect
operator that no word follows to the end of the line. A `Reading` goes on with one token after another
and stops at the first that it refuses. That is also the furthest refusal of the readers, so it is the
first token after which no line can go on.
-/
namespace DesktopTerminal.Line

/-- Reads on over the tokens of a line of `size` bytes, up to the first that is refused. -/
def Reading.run (size : Nat) :
    Reading → List (Spanned Token) → Except (Spanned Misreading) Pipeline
  | r, [] =>
    match r.finish? with
    | some pipeline => .ok pipeline
    | none => .error ⟨.endOfInput, size, size⟩
  | r, t :: rest =>
    match r.feed t.value with
    | some next => next.run size rest
    | none => .error ⟨.unexpected t.value, t.span⟩

/-! ## What the readers answer -/

variable {before : List Command} {c : Command} {span : Span} {ts : List (Spanned Token)}

theorem readWord_word (text : String) :
    readWord (⟨.word text, span⟩ :: ts) = ⟨some (text, ts), none⟩ := rfl

theorem readWord_operator (op : Operator) :
    readWord (⟨.operator op, span⟩ :: ts) = ⟨none, some (⟨.operator op, span⟩ :: ts)⟩ := rfl

theorem readPipe_pipe :
    readPipe (⟨.operator .pipe, span⟩ :: ts) = ⟨some ((), ts), none⟩ := rfl

theorem many_readWord_word (text : String) :
    readWord.many (⟨.word text, span⟩ :: ts) = (readWord.many ts).map (text :: ·) :=
  Reader.many_of_value (readWord_word text) (Nat.lt_succ_self _)

theorem many_readWord_operator (op : Operator) :
    readWord.many (⟨.operator op, span⟩ :: ts) =
      ⟨some ([], ⟨.operator op, span⟩ :: ts), some (⟨.operator op, span⟩ :: ts)⟩ :=
  Reader.many_of_refused (readWord_operator op)

theorem exists_many_readWord (ts : List (Spanned Token)) :
    ∃ args rest refused, readWord.many ts = ⟨some (args, rest), refused⟩ ∧
      rest.length ≤ ts.length := by
  induction ts with
  | nil => exact ⟨[], [], some [], Reader.many_of_refused rfl, Nat.le_refl _⟩
  | cons t ts ih =>
    obtain ⟨value, span⟩ := t
    cases value with
    | operator op => exact ⟨[], _, _, many_readWord_operator op, Nat.le_refl _⟩
    | word text =>
      obtain ⟨args, rest, refused, hmany, hle⟩ := ih
      exact ⟨text :: args, rest, refused, by rw [many_readWord_word, hmany]; rfl,
        Nat.le_succ_of_le hle⟩

/-- A pipe and the segment after it. -/
def readPiped : Reader Command := do
  let _ ← readPipe
  readCommand

/-- Reads the rest of a line when the segments `before` are complete and `c` may get more words. -/
def resume (before : List Command) (c : Command) : Reader Pipeline := do
  let args ← readWord.many
  let more ← readPiped.many
  let redirect ← readRedirect.optional
  Reader.finish
  pure ⟨before ++ ⟨c.name, c.args ++ args⟩ :: more, redirect⟩

theorem readPipeline_word (text : String) :
    readPipeline (⟨.word text, span⟩ :: ts) = resume [] ⟨text, []⟩ ts := by
  obtain ⟨args, rest, refused, hmany, -⟩ := exists_many_readWord ts
  have hcommand : readCommand (⟨.word text, span⟩ :: ts) = ⟨some (⟨text, args⟩, rest), refused⟩ := by
    simp [readCommand, readWord_word, hmany]
  simp only [readPipeline, Reader.separated, resume, Reader.bind_apply, Reader.pure_apply, hcommand,
    hmany, Reply.bind_value, Reply.bind_bind, Reply.after_bind, Reply.after_none, List.nil_append]
  rfl

theorem resume_word (text : String) :
    resume before c (⟨.word text, span⟩ :: ts) =
      resume before ⟨c.name, c.args ++ [text]⟩ ts := by
  simp [resume, many_readWord_word, Reply.map_bind]

theorem resume_pipe_word (pipeSpan : Span) (text : String) :
    resume before c (⟨.operator .pipe, pipeSpan⟩ :: ⟨.word text, span⟩ :: ts) =
      (resume (before ++ [c]) ⟨text, []⟩ ts).after
        (some (⟨.operator .pipe, pipeSpan⟩ :: ⟨.word text, span⟩ :: ts)) := by
  obtain ⟨args, rest, refused, hmany, hle⟩ := exists_many_readWord ts
  have hpiped : readPiped (⟨.operator .pipe, pipeSpan⟩ :: ⟨.word text, span⟩ :: ts) =
      ⟨some (⟨text, args⟩, rest), refused⟩ := by
    simp [readPiped, readPipe_pipe, readCommand, readWord_word, hmany]
  have hlt : rest.length < (ts.length + 1) + 1 := by omega
  simp [resume, many_readWord_operator, Reader.many_of_value hpiped hlt, hmany, Reply.map_bind,
    Reply.after_bind]

theorem resume_nil :
    resume before c [] = ⟨some (⟨before ++ [c], none⟩, []), some []⟩ := by
  have hwords : readWord.many [] = ⟨some ([], []), some []⟩ := Reader.many_of_refused rfl
  have hpiped : readPiped.many [] = ⟨some ([], []), some []⟩ := Reader.many_of_refused rfl
  have hredirect : readRedirect.optional [] = ⟨some (none, []), some []⟩ :=
    Reader.optional_of_refused rfl
  simp [resume, hwords, hpiped, hredirect, Reader.finish]

/-- A pipe without a segment is given back, and refused in the end; the furthest refusal is that of
the token after it. -/
theorem resume_pipe_refused (h : readWord ts = ⟨none, some ts⟩) :
    resume before c (⟨.operator .pipe, span⟩ :: ts) = ⟨none, some ts⟩ := by
  have hpiped : readPiped (⟨.operator .pipe, span⟩ :: ts) = ⟨none, some ts⟩ := by
    simp [readPiped, readPipe_pipe, readCommand, h]
  have hredirect : readRedirect (⟨.operator .pipe, span⟩ :: ts) =
      ⟨none, some (⟨.operator .pipe, span⟩ :: ts)⟩ := rfl
  simp [resume, many_readWord_operator, Reader.many_of_refused hpiped,
    Reader.optional_of_refused hredirect, Reader.finish]

theorem readPiped_redirect (kind : RedirectKind) :
    readPiped (⟨.operator kind.operator, span⟩ :: ts) =
      ⟨none, some (⟨.operator kind.operator, span⟩ :: ts)⟩ := by
  cases kind <;> rfl

theorem readRedirectKind_operator (kind : RedirectKind) :
    readRedirectKind (⟨.operator kind.operator, span⟩ :: ts) = ⟨some (kind, ts), none⟩ := by
  cases kind <;> rfl

theorem resume_redirect_refused (kind : RedirectKind) (h : readWord ts = ⟨none, some ts⟩) :
    resume before c (⟨.operator kind.operator, span⟩ :: ts) = ⟨none, some ts⟩ := by
  have hredirect : readRedirect (⟨.operator kind.operator, span⟩ :: ts) = ⟨none, some ts⟩ := by
    simp [readRedirect, readRedirectKind_operator, h]
  simp [resume, many_readWord_operator, Reader.many_of_refused (readPiped_redirect kind),
    Reader.optional_of_refused hredirect, Reader.finish]

theorem readRedirect_word (kind : RedirectKind) (opSpan : Span) (text : String) :
    readRedirect (⟨.operator kind.operator, opSpan⟩ :: ⟨.word text, span⟩ :: ts) =
      ⟨some (⟨kind, text⟩, ts), none⟩ := by
  simp [readRedirect, readRedirectKind_operator, readWord_word]

theorem resume_redirect (kind : RedirectKind) (opSpan : Span) (text : String) :
    resume before c [⟨.operator kind.operator, opSpan⟩, ⟨.word text, span⟩] =
      ⟨some (⟨before ++ [c], some ⟨kind, text⟩⟩, []),
        some [⟨.operator kind.operator, opSpan⟩, ⟨.word text, span⟩]⟩ := by
  simp [resume, many_readWord_operator, Reader.many_of_refused (readPiped_redirect kind),
    Reader.optional_of_value (readRedirect_word kind opSpan text), Reader.finish]

theorem resume_after_redirect (kind : RedirectKind) (opSpan : Span) (text : String)
    (t : Spanned Token) :
    resume before c (⟨.operator kind.operator, opSpan⟩ :: ⟨.word text, span⟩ :: t :: ts) =
      ⟨none, some (t :: ts)⟩ := by
  have hfurther : further (some (⟨.operator kind.operator, opSpan⟩ :: ⟨.word text, span⟩ :: t :: ts))
      (some (t :: ts)) = some (t :: ts) :=
    further_of_le (by simp only [List.length_cons]; omega)
  simp [resume, many_readWord_operator, Reader.many_of_refused (readPiped_redirect kind),
    Reader.optional_of_value (readRedirect_word kind opSpan text), Reader.finish, hfurther]

/-! ## The verdict -/

/-- An earlier refusal does not count. -/
theorem Reply.verdict_after {size : Nat} {reply : Reply Pipeline}
    {earlier left : List (Spanned Token)} (h : reply.refused = some left)
    (hle : left.length ≤ earlier.length) :
    (reply.after (some earlier)).verdict size = reply.verdict size := by
  rw [Reply.after, h, further_of_le hle, ← h]

theorem word_or_refused (ts : List (Spanned Token)) :
    (∃ text span rest, ts = ⟨.word text, span⟩ :: rest) ∨ readWord ts = ⟨none, some ts⟩ := by
  cases ts with
  | nil => exact .inr rfl
  | cons t rest =>
    obtain ⟨value, span⟩ := t
    cases value with
    | word text => exact .inl ⟨text, span, rest, rfl⟩
    | operator op => exact .inr rfl

/-- Where a word has to come and none does, the next token is to blame. -/
theorem Reading.run_of_refused {r : Reading} {size : Nat} (h : readWord ts = ⟨none, some ts⟩)
    (hfinish : r.finish? = none) (hfeed : ∀ op, r.feed (.operator op) = none) :
    r.run size ts = (⟨none, some ts⟩ : Reply Pipeline).verdict size := by
  cases ts with
  | nil => rw [Reading.run, hfinish]; rfl
  | cons t rest =>
    obtain ⟨value, span⟩ := t
    cases value with
    | word text => cases h
    | operator op => rw [Reading.run, hfeed]; rfl

/-- Something was refused, at the start of the tokens or further on. -/
def Reply.RefusedWithin (ts : List (Spanned Token)) (reply : Reply Pipeline) : Prop :=
  ∃ left, reply.refused = some left ∧ left.length ≤ ts.length

theorem resume_redirect_spec (size : Nat) (kind : RedirectKind) (span : Span)
    (ts : List (Spanned Token)) (before : List Command) (c : Command) :
    (resume before c (⟨.operator kind.operator, span⟩ :: ts)).RefusedWithin
        (⟨.operator kind.operator, span⟩ :: ts) ∧
      (resume before c (⟨.operator kind.operator, span⟩ :: ts)).verdict size =
        (Reading.target (before ++ [c]) kind).run size ts := by
  rcases word_or_refused ts with ⟨text, wordSpan, rest, rfl⟩ | hrefused
  · cases rest with
    | nil =>
      rw [resume_redirect]
      exact ⟨⟨_, rfl, Nat.le_refl _⟩, rfl⟩
    | cons t rest =>
      rw [resume_after_redirect]
      exact ⟨⟨_, rfl, by simp only [List.length_cons]; omega⟩, rfl⟩
  · rw [resume_redirect_refused kind hrefused]
    refine ⟨⟨_, rfl, Nat.le_succ _⟩, ?_⟩
    exact (Reading.run_of_refused hrefused rfl fun _ => rfl).symm

/-- The readers and the reading agree on what is left of a line. That something is always refused in
it is what makes an earlier refusal not count. -/
theorem resume_spec (size : Nat) (ts : List (Spanned Token)) (before : List Command) (c : Command) :
    (resume before c ts).RefusedWithin ts ∧
      (resume before c ts).verdict size = (Reading.words before c).run size ts := by
  match ts with
  | [] =>
    rw [resume_nil]
    exact ⟨⟨_, rfl, Nat.le_refl _⟩, rfl⟩
  | ⟨.word text, span⟩ :: ts =>
    rw [resume_word]
    obtain ⟨⟨left, hleft, hle⟩, hverdict⟩ :=
      resume_spec size ts before ⟨c.name, c.args ++ [text]⟩
    exact ⟨⟨left, hleft, Nat.le_succ_of_le hle⟩, hverdict⟩
  | ⟨.operator .pipe, span⟩ :: ts =>
    rcases word_or_refused ts with ⟨text, wordSpan, rest, rfl⟩ | hrefused
    · -- the pipe was refused as a word, which is earlier than all that follows
      rw [resume_pipe_word]
      obtain ⟨⟨left, hleft, hle⟩, hverdict⟩ := resume_spec size rest (before ++ [c]) ⟨text, []⟩
      have hle' : left.length ≤
          (⟨.operator .pipe, span⟩ :: ⟨.word text, wordSpan⟩ :: rest : List (Spanned Token)).length := by
        simp only [List.length_cons]
        omega
      refine ⟨⟨left, ?_, hle'⟩, ?_⟩
      · rw [Reply.after, hleft, further_of_le hle']
      · rw [Reply.verdict_after hleft hle', hverdict]
        rfl
    · rw [resume_pipe_refused hrefused]
      refine ⟨⟨_, rfl, Nat.le_succ _⟩, ?_⟩
      exact (Reading.run_of_refused hrefused rfl fun _ => rfl).symm
  | ⟨.operator .overwrite, span⟩ :: ts => exact resume_redirect_spec size .overwrite span ts before c
  | ⟨.operator .append, span⟩ :: ts => exact resume_redirect_spec size .append span ts before c
termination_by ts.length

/-- Going back changes nothing: the readers answer what the reading finds. -/
theorem verdict_readPipeline (size : Nat) (ts : List (Spanned Token)) :
    (readPipeline ts).verdict size = Reading.start.run size ts := by
  rcases word_or_refused ts with ⟨text, span, rest, rfl⟩ | hrefused
  · rw [readPipeline_word]
    exact (resume_spec size rest [] ⟨text, []⟩).2
  · have hrefusal : readPipeline ts = ⟨none, some ts⟩ := by
      simp [readPipeline, Reader.separated, readCommand, hrefused]
    rw [hrefusal]
    exact (Reading.run_of_refused hrefused rfl fun _ => rfl).symm

/-! ## What the reading finds -/

namespace Reading

variable {size : Nat} {r : Reading}

theorem run_eq_ok_iff {p : Pipeline} :
    r.run size ts = .ok p ↔
      ∃ last, r.feedAll (ts.map (·.value)) = some last ∧ last.finish? = some p := by
  induction ts generalizing r with
  | nil =>
    simp only [run, List.map_nil, feedAll, Option.some.injEq, exists_eq_left']
    cases r.finish? <;> simp
  | cons t ts ih =>
    simp only [run, List.map_cons, feedAll]
    cases r.feed t.value with
    | none => simp
    | some next => exact ih

theorem run_eq_error_iff {e : Spanned Misreading} :
    r.run size ts = .error e ↔
      (∃ front t rest last, ts = front ++ t :: rest ∧ r.feedAll (front.map (·.value)) = some last ∧
        last.feed t.value = none ∧ e = ⟨.unexpected t.value, t.span⟩) ∨
      (∃ last, r.feedAll (ts.map (·.value)) = some last ∧ last.finish? = none ∧
        e = ⟨.endOfInput, size, size⟩) := by
  induction ts generalizing r with
  | nil =>
    simp only [run, List.map_nil, feedAll, Option.some.injEq, exists_eq_left']
    cases r.finish? <;> simp [eq_comm]
  | cons t ts ih =>
    cases hfeed : r.feed t.value with
    | none =>
      simp only [run, List.map_cons, feedAll, hfeed]
      constructor
      · intro h
        refine .inl ⟨[], t, ts, r, rfl, rfl, hfeed, ?_⟩
        exact (Except.error.inj h).symm
      · rintro (⟨front, u, rest, last, hsplit, hfront, hu, rfl⟩ | ⟨last, hlast, -⟩)
        · cases front with
          | nil =>
            obtain ⟨rfl, rfl⟩ := List.cons.inj hsplit
            rfl
          | cons v front =>
            obtain ⟨rfl, rfl⟩ := List.cons.inj hsplit
            simp [feedAll, hfeed] at hfront
        · cases hlast
    | some next =>
      simp only [run, List.map_cons, feedAll, hfeed, Option.bind_some, ih]
      constructor
      · rintro (⟨front, u, rest, last, rfl, hfront, hu, rfl⟩ | hend)
        · exact .inl ⟨t :: front, u, rest, last, rfl, by simpa [feedAll, hfeed] using hfront, hu, rfl⟩
        · exact .inr hend
      · rintro (⟨front, u, rest, last, hsplit, hfront, hu, rfl⟩ | hend)
        · cases front with
          | nil =>
            obtain ⟨rfl, rfl⟩ := List.cons.inj hsplit
            obtain rfl := Option.some.inj hfront
            rw [hfeed] at hu
            cases hu
          | cons v front =>
            obtain ⟨rfl, rfl⟩ := List.cons.inj hsplit
            exact .inl ⟨front, u, rest, last, rfl, by simpa [feedAll, hfeed] using hfront, hu, rfl⟩
        · exact .inr hend

theorem viable_snoc_iff {ts : List Token} {last : Reading} (h : start.feedAll ts = some last)
    (t : Token) : Viable (ts ++ [t]) ↔ ∃ next, last.feed t = some next := by
  rw [← feedAll_isSome_iff, feedAll_append, h]
  show (∃ next, (last.feed t).bind some = some next) ↔ _
  rw [Option.bind_fun_some]

/-- The first token that is refused is the first after which no line can go on. -/
theorem run_start_eq_error_iff {tokens : List (Spanned Token)} {e : Spanned Misreading} :
    start.run size tokens = .error e ↔
      (∃ front t rest, tokens = front ++ t :: rest ∧ Viable (front.map (·.value)) ∧
        ¬ Viable (front.map (·.value) ++ [t.value]) ∧ e = ⟨.unexpected t.value, t.span⟩) ∨
      (Viable (tokens.map (·.value)) ∧ ¬ Grammatical (tokens.map (·.value)) ∧
        e = ⟨.endOfInput, size, size⟩) := by
  rw [run_eq_error_iff]
  constructor
  · rintro (⟨front, t, rest, last, hsplit, hfront, hrefused, he⟩ | ⟨last, hlast, hunfinished, he⟩)
    · refine .inl ⟨front, t, rest, hsplit, feedAll_isSome_iff.mp ⟨last, hfront⟩, ?_, he⟩
      rw [viable_snoc_iff hfront, hrefused]
      rintro ⟨next, hnext⟩
      cases hnext
    · refine .inr ⟨feedAll_isSome_iff.mp ⟨last, hlast⟩, ?_, he⟩
      rintro ⟨p, hp⟩
      obtain ⟨last', hlast', hfinished⟩ := feedAll_finish_iff.mpr hp
      obtain rfl := Option.some.inj (hlast.symm.trans hlast')
      rw [hunfinished] at hfinished
      cases hfinished
  · rintro (⟨front, t, rest, hsplit, hviable, hstuck, he⟩ | ⟨hviable, hunfinished, he⟩)
    · obtain ⟨last, hfront⟩ := feedAll_isSome_iff.mpr hviable
      refine .inl ⟨front, t, rest, last, hsplit, hfront, ?_, he⟩
      rw [viable_snoc_iff hfront] at hstuck
      exact Option.eq_none_iff_forall_ne_some.mpr fun next hnext => hstuck ⟨next, hnext⟩
    · obtain ⟨last, hlast⟩ := feedAll_isSome_iff.mpr hviable
      refine .inr ⟨last, hlast, ?_, he⟩
      refine Option.eq_none_iff_forall_ne_some.mpr fun p hp => hunfinished ⟨p, ?_⟩
      exact feedAll_finish_iff.mp ⟨last, hlast, hp⟩

end Reading

theorem parse_of_tokens {source : String} {tokens : List (Spanned Token)}
    (h : tokenize source = .ok tokens) :
    parse source = Reading.start.run source.utf8ByteSize tokens := by
  simp only [parse, h]
  exact verdict_readPipeline _ tokens

theorem parse_eq_ok_iff {source : String} {tokens : List (Spanned Token)}
    (h : tokenize source = .ok tokens) {p : Pipeline} :
    parse source = .ok p ↔ Derives (tokens.map (·.value)) p := by
  rw [parse_of_tokens h, Reading.run_eq_ok_iff, Reading.feedAll_finish_iff]

/-- A line is accepted if and only if its tokens are a line of the grammar, and as that line. Of
characters that make no tokens the first fault is reported; otherwise the first token after which no
line can go on is to blame, or, where more tokens would make a line, the end of the input. -/
theorem grammar_decides_verdict (source : String) :
    (∀ faults, tokenize source = .error faults →
      ∃ first others, faults = first :: others ∧
        (∀ other ∈ others, first.span.stop ≤ other.span.start) ∧
        parse source = .error ⟨.lexical first.value, first.span⟩) ∧
    (∀ tokens, tokenize source = .ok tokens →
      (∀ p, parse source = .ok p ↔ Derives (tokens.map (·.value)) p) ∧
      (∀ e, parse source = .error e ↔
        (∃ front t rest, tokens = front ++ t :: rest ∧ Viable (front.map (·.value)) ∧
          ¬ Viable (front.map (·.value) ++ [t.value]) ∧ e = ⟨.unexpected t.value, t.span⟩ ∧
          e.value.message = "unexpected '" ++ t.value.text ++ "'") ∨
        (Viable (tokens.map (·.value)) ∧ ¬ Grammatical (tokens.map (·.value)) ∧
          e = ⟨.endOfInput, source.utf8ByteSize, source.utf8ByteSize⟩ ∧
          e.value.message = "unexpected end of input"))) := by
  constructor
  · intro faults hfaults
    obtain ⟨first, others, rfl, hfirst⟩ := tokenize_eq_error hfaults
    exact ⟨first, others, rfl, hfirst, by simp only [parse, hfaults]⟩
  · intro tokens htokens
    refine ⟨fun p => parse_eq_ok_iff htokens, fun e => ?_⟩
    rw [parse_of_tokens htokens, Reading.run_start_eq_error_iff]
    constructor
    · rintro (⟨front, t, rest, hsplit, hviable, hstuck, rfl⟩ | ⟨hviable, hunfinished, rfl⟩)
      · exact .inl ⟨front, t, rest, hsplit, hviable, hstuck, rfl, rfl⟩
      · exact .inr ⟨hviable, hunfinished, rfl, rfl⟩
    · rintro (⟨front, t, rest, hsplit, hviable, hstuck, rfl, -⟩ | ⟨hviable, hunfinished, rfl, -⟩)
      · exact .inl ⟨front, t, rest, hsplit, hviable, hstuck, rfl⟩
      · exact .inr ⟨hviable, hunfinished, rfl⟩

/-- The readers end at the first pipe, which they gave back, and the second is to blame. -/
theorem second_pipe_blamed :
    tokenize "ls || cat" =
        .ok [⟨.word "ls", 0, 2⟩, ⟨.operator .pipe, 3, 4⟩, ⟨.operator .pipe, 4, 5⟩,
          ⟨.word "cat", 6, 9⟩] ∧
      parse "ls || cat" = .error ⟨.unexpected (.operator .pipe), 4, 5⟩ ∧
      tokenize "cat < \x22open" =
        .error [⟨.unexpectedCharacter, 4, 5⟩, ⟨.unterminatedString, 6, 11⟩] ∧
      parse "cat < \x22open" = .error ⟨.lexical .unexpectedCharacter, 4, 5⟩ := by
  have htokens : tokenize "ls || cat" =
      .ok [⟨.word "ls", 0, 2⟩, ⟨.operator .pipe, 3, 4⟩, ⟨.operator .pipe, 4, 5⟩,
        ⟨.word "cat", 6, 9⟩] := by
    decide +kernel
  have hfaults : tokenize "cat < \x22open" =
      .error [⟨.unexpectedCharacter, 4, 5⟩, ⟨.unterminatedString, 6, 11⟩] := by
    decide +kernel
  refine ⟨htokens, ?_, hfaults, ?_⟩
  · refine (((grammar_decides_verdict "ls || cat").2 _ htokens).2 _).mpr (.inl
      ⟨[⟨.word "ls", 0, 2⟩, ⟨.operator .pipe, 3, 4⟩], ⟨.operator .pipe, 4, 5⟩,
        [⟨.word "cat", 6, 9⟩], rfl, ?_, ?_, rfl, rfl⟩)
    · exact Reading.feedAll_isSome_iff.mp ⟨_, rfl⟩
    · rw [← Reading.feedAll_isSome_iff]
      rintro ⟨last, hlast⟩
      cases hlast
  · obtain ⟨first, others, hfirst, -, hparse⟩ :=
      (grammar_decides_verdict "cat < \x22open").1 _ hfaults
    obtain ⟨rfl, -⟩ := List.cons.inj hfirst
    exact hparse

end DesktopTerminal.Line
