import DesktopTerminal.Line.Reading

/-!
# The grammar of lines

    line     := segment ('|' segment)* redirect?
    segment  := WORD WORD*
    redirect := ('>' | '>>') WORD

A pipeline is written as the tokens of the line that stands for it, and a token list is grammatical if
it is some pipeline's. A `Reading` takes the tokens one at a time and never goes back. What it has
consumed is the beginning of a grammatical list, and every beginning of one is consumed by it; so the
first token that it refuses is the first after which no line can go on.
-/
namespace DesktopTerminal.Line

def Command.tokens (c : Command) : List Token := .word c.name :: c.args.map .word

def RedirectKind.operator : RedirectKind → Operator
  | .overwrite => .overwrite
  | .append => .append

def Redirect.tokens (r : Redirect) : List Token := [.operator r.kind.operator, .word r.target]

/-- The tokens of the segments with a pipe between any two. -/
def segmentTokens : List Command → List Token
  | [] => []
  | [c] => c.tokens
  | c :: d :: rest => c.tokens ++ .operator .pipe :: segmentTokens (d :: rest)

def Pipeline.tokens (p : Pipeline) : List Token :=
  segmentTokens p.commands ++ p.redirect.elim [] Redirect.tokens

/-- The tokens are the line that stands for the pipeline. -/
def Derives (ts : List Token) (p : Pipeline) : Prop := p.commands ≠ [] ∧ ts = p.tokens

def Grammatical (ts : List Token) : Prop := ∃ p, Derives ts p

/-- Some line starts with the tokens. -/
def Viable (ts : List Token) : Prop := ∃ more, Grammatical (ts ++ more)

/-- The tokens of segments, each with a pipe after it. -/
def pipedTokens (cs : List Command) : List Token :=
  cs.flatMap fun c => c.tokens ++ [.operator .pipe]

theorem pipedTokens_snoc (cs : List Command) (c : Command) :
    pipedTokens (cs ++ [c]) = pipedTokens cs ++ c.tokens ++ [.operator .pipe] := by
  simp [pipedTokens]

theorem segmentTokens_snoc (cs : List Command) (c : Command) :
    segmentTokens (cs ++ [c]) = pipedTokens cs ++ c.tokens := by
  induction cs with
  | nil => rfl
  | cons b cs ih =>
    cases cs with
    | nil => simp [segmentTokens, pipedTokens]
    | cons d rest =>
      simp only [List.cons_append, segmentTokens] at ih ⊢
      rw [ih]
      simp [pipedTokens]

/-- How far a line has been read. -/
inductive Reading where
  | name (before : List Command)
  | words (before : List Command) (current : Command)
  | target (commands : List Command) (kind : RedirectKind)
  | done (pipeline : Pipeline)

namespace Reading

/-- Nothing has been read. -/
def start : Reading := .name []

/-- Takes the next token, unless no line goes on with it. -/
def feed : Reading → Token → Option Reading
  | .name before, .word text => some (.words before ⟨text, []⟩)
  | .words before c, .word text => some (.words before ⟨c.name, c.args ++ [text]⟩)
  | .words before c, .operator .pipe => some (.name (before ++ [c]))
  | .words before c, .operator .overwrite => some (.target (before ++ [c]) .overwrite)
  | .words before c, .operator .append => some (.target (before ++ [c]) .append)
  | .target commands kind, .word text => some (.done ⟨commands, some ⟨kind, text⟩⟩)
  | _, _ => none

/-- The pipeline read, if the line may end here. -/
def finish? : Reading → Option Pipeline
  | .words before c => some ⟨before ++ [c], none⟩
  | .done pipeline => some pipeline
  | _ => none

/-- The tokens that have been consumed. -/
def tokens : Reading → List Token
  | .name before => pipedTokens before
  | .words before c => pipedTokens before ++ c.tokens
  | .target commands kind => segmentTokens commands ++ [.operator kind.operator]
  | .done p => p.tokens

/-- A redirect comes after at least one segment. -/
def Sound : Reading → Prop
  | .target commands _ => commands ≠ []
  | .done p => p.commands ≠ []
  | _ => True

/-- What one token does: it is consumed. -/
theorem tokens_of_feed {r next : Reading} {t : Token} (hr : r.Sound)
    (h : r.feed t = some next) : next.Sound ∧ next.tokens = r.tokens ++ [t] := by
  cases r with
  | name before =>
    cases t with
    | word text =>
      obtain rfl := Option.some.inj h
      exact ⟨trivial, rfl⟩
    | operator op => cases h
  | words before c =>
    cases t with
    | word text =>
      obtain rfl := Option.some.inj h
      exact ⟨trivial, by simp [tokens, Command.tokens]⟩
    | operator op =>
      cases op with
      | pipe =>
        obtain rfl := Option.some.inj h
        exact ⟨trivial, pipedTokens_snoc before c⟩
      | overwrite =>
        obtain rfl := Option.some.inj h
        exact ⟨by simp [Sound], by simp [tokens, segmentTokens_snoc, RedirectKind.operator]⟩
      | append =>
        obtain rfl := Option.some.inj h
        exact ⟨by simp [Sound], by simp [tokens, segmentTokens_snoc, RedirectKind.operator]⟩
  | target commands kind =>
    cases t with
    | word text =>
      obtain rfl := Option.some.inj h
      exact ⟨hr, by simp [tokens, Pipeline.tokens, Redirect.tokens]⟩
    | operator op => cases h
  | done p => cases h

theorem derives_of_finish {r : Reading} {p : Pipeline} (hr : r.Sound)
    (h : r.finish? = some p) : Derives r.tokens p := by
  cases r with
  | name before => cases h
  | words before c =>
    obtain rfl := Option.some.inj h
    exact ⟨by simp, by simp [tokens, Pipeline.tokens, segmentTokens_snoc]⟩
  | target commands kind => cases h
  | done q =>
    obtain rfl := Option.some.inj h
    exact ⟨hr, rfl⟩

/-- A word at most is missing to a whole line. -/
theorem viable_tokens {r : Reading} (hr : r.Sound) : Viable r.tokens := by
  cases r with
  | name before =>
    refine ⟨[.word ""], ⟨before ++ [⟨"", []⟩], none⟩, by simp, ?_⟩
    simp [tokens, Pipeline.tokens, segmentTokens_snoc, Command.tokens]
  | words before c =>
    refine ⟨[], ⟨before ++ [c], none⟩, ?_⟩
    rw [List.append_nil]
    exact derives_of_finish hr rfl
  | target commands kind =>
    refine ⟨[.word ""], ⟨commands, some ⟨kind, ""⟩⟩, hr, ?_⟩
    simp [tokens, Pipeline.tokens, Redirect.tokens]
  | done p =>
    refine ⟨[], p, ?_⟩
    rw [List.append_nil]
    exact derives_of_finish hr rfl

/-- Feeds one token after another. -/
def feedAll (r : Reading) : List Token → Option Reading
  | [] => some r
  | t :: ts => (r.feed t).bind (feedAll · ts)

theorem feedAll_append (r : Reading) (ts us : List Token) :
    r.feedAll (ts ++ us) = (r.feedAll ts).bind (feedAll · us) := by
  induction ts generalizing r with
  | nil => rfl
  | cons t ts ih =>
    rw [List.cons_append, feedAll, feedAll]
    cases r.feed t with
    | none => rfl
    | some next => exact ih next

theorem tokens_of_feedAll {r last : Reading} {ts : List Token} (hr : r.Sound)
    (h : r.feedAll ts = some last) : last.Sound ∧ last.tokens = r.tokens ++ ts := by
  induction ts generalizing r with
  | nil =>
    obtain rfl := Option.some.inj h
    exact ⟨hr, (List.append_nil _).symm⟩
  | cons t ts ih =>
    obtain ⟨next, hnext, hlast⟩ := Option.bind_eq_some_iff.mp h
    obtain ⟨hsound, htokens⟩ := tokens_of_feed hr hnext
    obtain ⟨hlastSound, hlastTokens⟩ := ih hsound hlast
    refine ⟨hlastSound, ?_⟩
    rw [hlastTokens, htokens, List.append_assoc]
    rfl

/-! ## Every line is read -/

theorem feedAll_words (before : List Command) (c : Command) (args : List String) :
    feedAll (.words before c) (args.map .word) =
      some (.words before ⟨c.name, c.args ++ args⟩) := by
  induction args generalizing c with
  | nil => simp [feedAll]
  | cons arg args ih => simp [feedAll, feed, ih]

theorem feedAll_command (before : List Command) (c : Command) :
    feedAll (.name before) c.tokens = some (.words before c) := by
  simp [Command.tokens, feedAll, feed, feedAll_words]

theorem feedAll_piped (before cs : List Command) :
    feedAll (.name before) (pipedTokens cs) = some (.name (before ++ cs)) := by
  induction cs generalizing before with
  | nil => simp [pipedTokens, feedAll]
  | cons c cs ih =>
    have htokens : pipedTokens (c :: cs) = c.tokens ++ (.operator .pipe :: pipedTokens cs) := by
      simp [pipedTokens]
    rw [htokens, feedAll_append, feedAll_command]
    simp [feedAll, feed, ih]

theorem feedAll_tokens {p : Pipeline} (hp : p.commands ≠ []) :
    ∃ last, start.feedAll p.tokens = some last ∧ last.finish? = some p := by
  obtain ⟨commands, redirect⟩ := p
  obtain ⟨front, c, rfl⟩ := (List.eq_nil_or_concat commands).resolve_left hp
  rw [List.concat_eq_append]
  have hsegments : start.feedAll (segmentTokens (front ++ [c])) = some (.words front c) := by
    rw [segmentTokens_snoc, feedAll_append, start, feedAll_piped]
    exact feedAll_command front c
  cases redirect with
  | none => exact ⟨.words front c, by simpa [Pipeline.tokens] using hsegments, rfl⟩
  | some r =>
    obtain ⟨kind, target⟩ := r
    refine ⟨.done ⟨front ++ [c], some ⟨kind, target⟩⟩, ?_, rfl⟩
    rw [Pipeline.tokens, feedAll_append, hsegments]
    cases kind <;> rfl

/-- What is read to the end is the line of the pipeline read. -/
theorem feedAll_finish_iff {ts : List Token} {p : Pipeline} :
    (∃ last, start.feedAll ts = some last ∧ last.finish? = some p) ↔ Derives ts p := by
  constructor
  · rintro ⟨last, hlast, hp⟩
    obtain ⟨hsound, htokens⟩ := tokens_of_feedAll (r := start) trivial hlast
    have hts : last.tokens = ts := by simpa [start, tokens, pipedTokens] using htokens
    exact hts ▸ derives_of_finish hsound hp
  · rintro ⟨hp, rfl⟩
    exact feedAll_tokens hp

/-- What is consumed are the beginnings of lines. -/
theorem feedAll_isSome_iff {ts : List Token} :
    (∃ last, start.feedAll ts = some last) ↔ Viable ts := by
  constructor
  · rintro ⟨last, hlast⟩
    obtain ⟨hsound, htokens⟩ := tokens_of_feedAll (r := start) trivial hlast
    have hts : last.tokens = ts := by simpa [start, tokens, pipedTokens] using htokens
    exact hts ▸ viable_tokens hsound
  · rintro ⟨more, p, hp, hts⟩
    obtain ⟨last, hlast, -⟩ := feedAll_tokens hp
    rw [← hts, feedAll_append] at hlast
    obtain ⟨middle, hmiddle, -⟩ := Option.bind_eq_some_iff.mp hlast
    exact ⟨middle, hmiddle⟩

end Reading

end DesktopTerminal.Line
