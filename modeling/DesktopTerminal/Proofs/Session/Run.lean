import DesktopTerminal.Proofs.Session.Delegation
import DesktopTerminal.Proofs.Session.History
import DesktopTerminal.Proofs.Session.System

/-!
# Runs of a session

Whatever is asked of a session, one call after another, it comes to rest idle or waiting for the
gateway. What it is waiting for and what is in its history can be told from the calls and the replies
alone: `Consistent` relates the two, every call preserves it, and so does every run. The desktop is
shared with other terminals, so each call of a run finds a desktop of its own.
-/
namespace DesktopTerminal

/-- What is asked of a session: an action, or a line with the wait for its answer. -/
inductive Call where
  | act (action : Action)
  | execute (gateway : Gateway) (line : String)

namespace Session

def call (now : Instant) (c : Call) (d : Desktop) (s : Session) : Reply × Desktop × Session :=
  match c with
  | .act action => s.act now action d
  | .execute gateway line =>
    let r := s.execute gateway now line d
    (.turn r.1, r.2)

/-- The line that a call submits. -/
def lineOf? (c : Call) (s : Session) : Option String :=
  match c with
  | .act (.submit line) => some line
  | .act .submitInput => some s.input
  | .execute _ line => some line
  | _ => none

/-- A call with the time and the desktop that it finds. -/
structure Moment where
  call : Call
  now : Instant
  desktop : Desktop

def reply (m : Moment) (s : Session) : Reply := (s.call m.now m.call m.desktop).1

def after (m : Moment) (s : Session) : Session := (s.call m.now m.call m.desktop).2.2

/-- What a run tells of a call. -/
structure Exchange where
  call : Call
  line? : Option String
  reply : Reply

namespace Exchange

/-- The exchange is an accepted submission. -/
def Accepted (e : Exchange) : Prop := ∃ turn, e.reply = .turn (.ok turn)

/-- The line went to the gateway. -/
def Delegates (e : Exchange) : Prop := ∃ request, e.reply = .turn (.ok (.delegated request))

/-- The answer of the gateway has been taken in. -/
def Finishes (e : Exchange) : Prop :=
  match e.call with
  | .act (.finish _) => True
  | .execute _ _ => e.Delegates
  | _ => False

/-- The accepted line. -/
def acceptedLine? (e : Exchange) : Option String :=
  match e.reply with
  | .turn (.ok _) => e.line?
  | _ => none

end Exchange

def exchange (m : Moment) (s : Session) : Exchange := ⟨m.call, lineOf? m.call s, s.reply m⟩

/-- The exchanges of a run, and the session after it. -/
def run : List Moment → Session → List Exchange × Session
  | [], s => ([], s)
  | m :: rest, s =>
    let later := run rest (s.after m)
    (s.exchange m :: later.1, later.2)

/-- The last accepted line was delegated, and no answer has come since. -/
def Waiting (es : List Exchange) : Prop :=
  ∃ front e back, es = front ++ e :: back ∧ e.Delegates ∧ ¬ e.Finishes ∧
    ∀ f ∈ back, ¬ f.Accepted ∧ ¬ f.Finishes

/-- The accepted lines that are not blank. -/
def acceptedLines (es : List Exchange) : List String :=
  (es.filterMap Exchange.acceptedLine?).filter fun line => !Text.isBlankText line

theorem waiting_snoc_iff {es : List Exchange} {e : Exchange} :
    Waiting (es ++ [e]) ↔
      (e.Delegates ∧ ¬ e.Finishes) ∨ (Waiting es ∧ ¬ e.Accepted ∧ ¬ e.Finishes) := by
  constructor
  · rintro ⟨front, f, back, hes, hf, hunfinished, hback⟩
    rcases List.eq_nil_or_concat back with rfl | ⟨back, g, rfl⟩
    · obtain ⟨-, hlast⟩ := List.append_inj' hes rfl
      obtain rfl := List.singleton_inj.mp hlast
      exact .inl ⟨hf, hunfinished⟩
    · have hes' : es ++ [e] = (front ++ f :: back) ++ [g] := by simpa using hes
      obtain ⟨hfront, hlast⟩ := List.append_inj' hes' rfl
      obtain rfl := List.singleton_inj.mp hlast
      refine .inr ⟨⟨front, f, back, hfront, hf, hunfinished, fun h hh => ?_⟩, hback e (by simp)⟩
      exact hback h (by simp [hh])
  · rintro (⟨he, hunfinished⟩ | ⟨⟨front, f, back, rfl, hf, hunfinished, hback⟩, he⟩)
    · exact ⟨es, e, [], rfl, he, hunfinished, fun f hf => absurd hf List.not_mem_nil⟩
    · refine ⟨front, f, back ++ [e], by simp, hf, hunfinished, fun g hg => ?_⟩
      rcases List.mem_append.mp hg with hg | hg
      · exact hback g hg
      · exact List.mem_singleton.mp hg ▸ he

/-! ## What one call does -/

/-- The phase in which a turn leaves the session until an answer comes. -/
def restOf : Turn → Phase
  | .delegated _ => .delegated
  | _ => .idle

/-- What a turn does to the log: it wipes it or adds to it. -/
def Logs (before after : List LogEntry) : Turn → Prop
  | .cleared => after = []
  | _ => before <+: after

theorem Logs.grows {before after : List LogEntry} {turn : Turn} (h : Logs before after turn)
    (hkept : turn ≠ .cleared) : before <+: after := by
  cases turn with
  | cleared => exact absurd rfl hkept
  | rendered => exact h
  | delegated request => exact h

/-- A line is refused by a busy session. Any other session takes it into the history and into the log,
unless it wipes the log. -/
theorem submit_cases (now : Instant) (line : String) (d : Desktop) (s : Session) :
    (s.isBusy = true ∧ s.submit now line d = (.error .busy, d, s)) ∨
    (s.isBusy = false ∧ ∃ turn d' s', s.submit now line d = (.ok turn, d', s') ∧
      s'.phase = restOf turn ∧ s'.history = s.history.push line ∧ Logs s.log s'.log turn) := by
  rw [submit_eq]
  cases hbusy : s.isBusy with
  | true => exact .inl ⟨rfl, rfl⟩
  | false =>
    refine .inr ⟨rfl, ?_⟩
    have hlog : s.log <+: s.log ++ [.command (s.prompt d) line] := List.prefix_append _ _
    cases hblank : Text.isBlankText line with
    | true => exact ⟨.rendered, _, _, rfl, rfl, rfl, hlog⟩
    | false =>
      cases runLine line ((s.entered line d).workspace now d) with
      | completed o w =>
        simp only [Bool.false_eq_true, ite_false, settle]
        split
        · exact ⟨.cleared, _, _, rfl, rfl, rfl, rfl⟩
        · exact ⟨.rendered, _, _, rfl, rfl, rfl, hlog.trans (List.prefix_append _ _)⟩
      | malformed cause =>
        exact ⟨.rendered, _, _, rfl, rfl, rfl, hlog.trans (List.prefix_append _ _)⟩
      | delegate command => exact ⟨.delegated _, _, _, rfl, rfl, rfl, hlog⟩

/-- The same of a line whose answer is waited for: it leaves the session idle. -/
theorem execute_cases (gateway : Gateway) (now : Instant) (line : String) (d : Desktop)
    (s : Session) :
    (s.isBusy = true ∧ s.execute gateway now line d = (.error .busy, d, s)) ∨
    (s.isBusy = false ∧ ∃ turn d' s', s.execute gateway now line d = (.ok turn, d', s') ∧
      s'.phase = .idle ∧ s'.history = s.history.push line ∧ Logs s.log s'.log turn) := by
  rw [execute, executeWith]
  rcases submit_cases now line d s with ⟨hbusy, h⟩ | ⟨hbusy, turn, d', s', h, hphase, hpush, hlog⟩
  · rw [h]
    exact .inl ⟨hbusy, rfl⟩
  · rw [h]
    refine .inr ⟨hbusy, ?_⟩
    cases turn with
    | rendered => exact ⟨_, _, _, rfl, hphase, hpush, hlog⟩
    | cleared => exact ⟨_, _, _, rfl, hphase, hpush, hlog⟩
    | delegated request =>
      have hgrown : s.log <+: s'.log := hlog
      exact ⟨.delegated request, _, _, rfl, rfl, hpush, hgrown.trans (List.prefix_append _ _)⟩

/-! ## What a run preserves -/

/-- What the exchanges of a run tell of the session after it. -/
structure Consistent (es : List Exchange) (s : Session) : Prop where
  rests : s.phase = .idle ∨ s.phase = .delegated
  waits : s.phase = .delegated ↔ Waiting es
  entries : s.history.entries = acceptedLines es
  cursor : s.history.InRange

theorem isBusy_iff_of_rests {s : Session} (h : s.phase = .idle ∨ s.phase = .delegated) :
    s.isBusy = true ↔ s.phase = .delegated := by
  rw [isBusy]
  rcases h with h | h <;> rw [h] <;> simp [Phase.isProcessing]

section Step

variable {es : List Exchange} {e : Exchange} {s s' : Session}

theorem Exchange.Delegates.accepted (h : e.Delegates) : e.Accepted :=
  h.elim fun request hrequest => ⟨.delegated request, hrequest⟩

theorem acceptedLines_snoc_of_not_accepted (h : ¬ e.Accepted) :
    acceptedLines (es ++ [e]) = acceptedLines es := by
  have hnone : e.acceptedLine? = none := by
    rw [Exchange.acceptedLine?]
    split
    · rename_i turn hturn
      exact absurd ⟨turn, hturn⟩ h
    · rfl
  simp [acceptedLines, hnone]

theorem acceptedLines_snoc_of_accepted {line : String} (h : e.Accepted) (hline : e.line? = some line) :
    acceptedLines (es ++ [e]) =
      acceptedLines es ++ [line].filter (fun line => !Text.isBlankText line) := by
  obtain ⟨turn, hturn⟩ := h
  have hsome : e.acceptedLine? = some line := by
    rw [Exchange.acceptedLine?, hturn]
    exact hline
  simp [acceptedLines, hsome]

/-- A call that neither submits nor answers leaves the turn and the entries alone. -/
theorem Consistent.aside (h : Consistent es s) (haccepted : ¬ e.Accepted) (hfinishes : ¬ e.Finishes)
    (hphase : s'.phase = s.phase) (hentries : s'.history.entries = s.history.entries)
    (hcursor : s'.history.InRange) : Consistent (es ++ [e]) s' := by
  have hdelegates : ¬ e.Delegates := fun hd => haccepted hd.accepted
  refine ⟨hphase ▸ h.rests, ?_, ?_, hcursor⟩
  · rw [hphase, waiting_snoc_iff, h.waits]
    simp [haccepted, hfinishes, hdelegates]
  · rw [hentries, acceptedLines_snoc_of_not_accepted haccepted, h.entries]

/-- An accepted line goes into the history, and the session waits if it was delegated. -/
theorem Consistent.submitted (h : Consistent es s) {line : String} {turn : Turn}
    (hreply : e.reply = .turn (.ok turn)) (hline : e.line? = some line)
    (hphase : s'.phase = .idle ∨ s'.phase = .delegated)
    (hwaits : s'.phase = .delegated ↔ e.Delegates ∧ ¬ e.Finishes)
    (hpush : s'.history = s.history.push line) : Consistent (es ++ [e]) s' := by
  have haccepted : e.Accepted := ⟨turn, hreply⟩
  refine ⟨hphase, ?_, ?_, hpush ▸ History.inRange_push line s.history⟩
  · rw [hwaits, waiting_snoc_iff]
    simp [haccepted]
  · rw [hpush, History.entries_push, h.entries, acceptedLines_snoc_of_accepted haccepted hline]

/-- An answer ends the wait. -/
theorem Consistent.answered (h : Consistent es s) (haccepted : ¬ e.Accepted)
    (hfinishes : e.Finishes) (hphase : s'.phase = .idle) (hhistory : s'.history = s.history) :
    Consistent (es ++ [e]) s' := by
  refine ⟨.inl hphase, ?_, ?_, hhistory ▸ h.cursor⟩
  · rw [hphase, waiting_snoc_iff]
    simp [hfinishes]
  · rw [hhistory, acceptedLines_snoc_of_not_accepted haccepted, h.entries]

/-- A line that is refused changes at most the input. -/
theorem Consistent.refused (h : Consistent es s) (hreply : e.reply = .turn (.error .busy))
    (hcall : ∀ answer, e.call ≠ .act (.finish answer)) (hphase : s'.phase = s.phase)
    (hhistory : s'.history = s.history) : Consistent (es ++ [e]) s' := by
  have haccepted : ¬ e.Accepted := by
    rintro ⟨turn, hturn⟩
    rw [hreply] at hturn
    cases hturn
  have hfinishes : ¬ e.Finishes := by
    rw [Exchange.Finishes]
    split
    · rename_i answer hanswer
      exact absurd hanswer (hcall answer)
    · exact fun hd => haccepted hd.accepted
    · exact id
  exact h.aside haccepted hfinishes hphase (hhistory ▸ rfl) (hhistory ▸ h.cursor)

end Step

theorem withRecall_keeps (r : Recall × History) (s : Session) :
    (s.withRecall r).history = r.2 ∧ (s.withRecall r).phase = s.phase ∧
      (s.withRecall r).log = s.log := by
  rw [withRecall]
  split <;> exact ⟨rfl, rfl, rfl⟩

theorem complete_keeps (d : Desktop) (s : Session) :
    (s.complete d).2.history = s.history ∧ (s.complete d).2.phase = s.phase ∧
      (s.complete d).2.log = s.log := by
  rw [complete]
  split <;> exact ⟨rfl, rfl, rfl⟩

theorem copy_keeps (text : String) (d : Desktop) (s : Session) :
    (s.copy text d).2.history = s.history ∧ (s.copy text d).2.phase = s.phase ∧
      (s.copy text d).2.log = s.log := by
  rw [copy]
  split <;> exact ⟨rfl, rfl, rfl⟩

theorem paste_keeps (d : Desktop) (s : Session) :
    (s.paste d).2.history = s.history ∧ (s.paste d).2.phase = s.phase ∧
      (s.paste d).2.log = s.log := by
  rw [paste]
  split <;> exact ⟨rfl, rfl, rfl⟩

/-- A submission with `line` that leaves the answer for later. -/
theorem consistent_submit {es : List Exchange} {s : Session} (h : Consistent es s) {c : Call}
    (hcall : c = .act (.submit line) ∨ c = .act .submitInput) (now : Instant) (d : Desktop)
    (input : String) :
    let r := ({ s with input := input } : Session).submit now line d
    Consistent (es ++ [⟨c, some line, .turn r.1⟩]) r.2.2 := by
  intro r
  have hfinish : ∀ answer, c ≠ .act (.finish answer) := by
    rintro answer rfl
    rcases hcall with hcall | hcall <;> cases hcall
  rcases submit_cases now line d { s with input := input } with
    ⟨_, hr⟩ | ⟨_, turn, d', s', hr, hphase, hpush, _⟩
  · rw [show r = _ from hr]
    exact h.refused rfl hfinish rfl rfl
  · rw [show r = _ from hr]
    have hunfinished : ¬ Exchange.Finishes ⟨c, some line, .turn (.ok turn)⟩ := by
      rcases hcall with rfl | rfl <;> exact id
    refine h.submitted rfl rfl ?_ ?_ hpush
    · rw [hphase]
      cases turn <;> simp [restOf]
    · rw [hphase]
      cases turn <;> simp [restOf, Exchange.Delegates, hunfinished]

theorem consistent_execute {es : List Exchange} {s : Session} (h : Consistent es s)
    (gateway : Gateway) (line : String) (now : Instant) (d : Desktop) :
    let r := s.execute gateway now line d
    Consistent (es ++ [⟨.execute gateway line, some line, .turn r.1⟩]) r.2.2 := by
  intro r
  rcases execute_cases gateway now line d s with ⟨_, hr⟩ | ⟨_, turn, d', s', hr, hphase, hpush, _⟩
  · rw [show r = _ from hr]
    exact h.refused rfl (fun answer hcall => by cases hcall) rfl rfl
  · rw [show r = _ from hr]
    -- an answer that was waited for has been taken in
    have hfinishes : Exchange.Delegates ⟨.execute gateway line, some line, .turn (.ok turn)⟩ →
        Exchange.Finishes ⟨.execute gateway line, some line, .turn (.ok turn)⟩ := id
    refine h.submitted rfl rfl (.inl hphase) ⟨fun hdelegated => ?_, fun hwaits => ?_⟩ hpush
    · rw [hphase] at hdelegated
      cases hdelegated
    · exact absurd (hfinishes hwaits.1) hwaits.2

/-- One call keeps the session in step with what the exchanges tell. -/
theorem consistent_step {es : List Exchange} {s : Session} (h : Consistent es s) (m : Moment) :
    Consistent (es ++ [s.exchange m]) (s.after m) := by
  have hquiet : ∀ {e : Exchange}, (∀ result, e.reply ≠ .turn result) → ¬ e.Accepted := by
    rintro e hreply ⟨turn, hturn⟩
    exact hreply _ hturn
  obtain ⟨c, now, d⟩ := m
  cases c with
  | execute gateway line => exact consistent_execute h gateway line now d
  | act action =>
    cases action with
    | submit line => exact consistent_submit h (.inl rfl) now d s.input
    | submitInput => exact consistent_submit h (.inr rfl) now d ""
    | setInput text => exact h.aside (hquiet nofun) id rfl rfl h.cursor
    | historyPrevious =>
      obtain ⟨hhistory, hphase, _⟩ := withRecall_keeps s.history.previous s
      obtain ⟨hentries, hcursor⟩ := s.history.previous_snd
      exact h.aside (hquiet nofun) id hphase (hhistory ▸ hentries) (hhistory ▸ hcursor h.cursor)
    | historyNext =>
      obtain ⟨hhistory, hphase, _⟩ := withRecall_keeps s.history.next s
      obtain ⟨hentries, hcursor⟩ := s.history.next_snd
      exact h.aside (hquiet nofun) id hphase (hhistory ▸ hentries) (hhistory ▸ hcursor h.cursor)
    | complete =>
      obtain ⟨hhistory, hphase, _⟩ := complete_keeps d s
      exact h.aside (hquiet nofun) id hphase (congrArg _ hhistory) (hhistory ▸ h.cursor)
    | copy text =>
      obtain ⟨hhistory, hphase, _⟩ := copy_keeps text d s
      exact h.aside (hquiet nofun) id hphase (congrArg _ hhistory) (hhistory ▸ h.cursor)
    | paste =>
      obtain ⟨hhistory, hphase, _⟩ := paste_keeps d s
      exact h.aside (hquiet nofun) id hphase (congrArg _ hhistory) (hhistory ▸ h.cursor)
    | interrupt => exact h.aside (hquiet nofun) id rfl rfl History.inRange_of_none
    | finish answer => exact h.answered (hquiet nofun) trivial rfl rfl

theorem consistent_run {es : List Exchange} {s : Session} (h : Consistent es s)
    (ms : List Moment) : Consistent (es ++ (run ms s).1) (run ms s).2 := by
  induction ms generalizing es s with
  | nil => simpa [run] using h
  | cons m rest ih =>
    have hrest := ih (consistent_step h m)
    rwa [List.append_assoc] at hrest

theorem consistent_start (d : Desktop) : Consistent [] (start d) := by
  refine ⟨.inl rfl, ?_, rfl, History.inRange_of_none⟩
  constructor
  · intro h
    cases h
  · rintro ⟨front, e, back, hes, _⟩
    simp at hes

/-! ## Refusals and the log -/

/-- A line is refused exactly by a busy session. -/
theorem reply_eq_busy_iff {m : Moment} {s : Session} (hline : (lineOf? m.call s).isSome) :
    s.reply m = .turn (.error .busy) ↔ s.isBusy = true := by
  obtain ⟨c, now, d⟩ := m
  have hsubmit : ∀ (line : String) (t : Session), t.isBusy = s.isBusy →
      (Reply.turn (t.submit now line d).1 = .turn (.error .busy) ↔ s.isBusy = true) := by
    intro line t ht
    rcases submit_cases now line d t with ⟨hbusy, hr⟩ | ⟨hbusy, turn, d', s', hr, _⟩
    · simp [hr, ← ht, hbusy]
    · simp [hr, ← ht, hbusy]
  cases c with
  | execute gateway line =>
    change Reply.turn (s.execute gateway now line d).1 = _ ↔ _
    rcases execute_cases gateway now line d s with ⟨hbusy, hr⟩ | ⟨hbusy, turn, d', s', hr, _⟩
    · simp [hr, hbusy]
    · simp [hr, hbusy]
  | act action =>
    cases action with
    | submit line => exact hsubmit line s rfl
    | submitInput => exact hsubmit s.input { s with input := "" } rfl
    | _ => cases hline

/-- Only a line that wipes the log does not add to it. -/
theorem log_prefix {m : Moment} {s : Session} (h : s.reply m ≠ .turn (.ok .cleared)) :
    s.log <+: (s.after m).log := by
  obtain ⟨c, now, d⟩ := m
  have hsubmit : ∀ (line : String) (t : Session),
      Reply.turn (t.submit now line d).1 ≠ .turn (.ok .cleared) →
        t.log <+: (t.submit now line d).2.2.log := by
    intro line t ht
    rcases submit_cases now line d t with ⟨_, hr⟩ | ⟨_, turn, d', s', hr, _, _, hlog⟩
    · simp only [hr, List.prefix_refl]
    · rw [hr] at ht ⊢
      exact hlog.grows fun hcleared => ht (by rw [hcleared])
  cases c with
  | execute gateway line =>
    change Reply.turn (s.execute gateway now line d).1 ≠ _ at h
    change s.log <+: (s.execute gateway now line d).2.2.log
    rcases execute_cases gateway now line d s with ⟨_, hr⟩ | ⟨_, turn, d', s', hr, _, _, hlog⟩
    · simp only [hr, List.prefix_refl]
    · rw [hr] at h ⊢
      exact hlog.grows fun hcleared => h (by rw [hcleared])
  | act action =>
    cases action with
    | submit line => exact hsubmit line s h
    | submitInput => exact hsubmit s.input { s with input := "" } h
    | setInput text => exact List.prefix_refl _
    | historyPrevious => exact (withRecall_keeps s.history.previous s).2.2 ▸ List.prefix_refl _
    | historyNext => exact (withRecall_keeps s.history.next s).2.2 ▸ List.prefix_refl _
    | complete => exact (complete_keeps d s).2.2 ▸ List.prefix_refl _
    | copy text => exact (copy_keeps text d s).2.2 ▸ List.prefix_refl _
    | paste => exact (paste_keeps d s).2.2 ▸ List.prefix_refl _
    | interrupt => exact List.prefix_append _ _
    | finish answer => exact List.prefix_append _ _

/-- After every run of a new session: it is idle or waits for the gateway; it waits exactly if the last
accepted line was delegated and no answer has come since, and exactly then the next line is refused;
its history is the accepted lines; the cursor is on one of them; and the next call adds to the log
unless it wipes it. -/
theorem run_in_step (d : Desktop) (ms : List Moment) :
    let es := (run ms (start d)).1
    let s := (run ms (start d)).2
    (s.phase = .idle ∨ s.phase = .delegated) ∧
    (s.phase = .delegated ↔ Waiting es) ∧
    (∀ m : Moment, (lineOf? m.call s).isSome →
      (s.reply m = .turn (.error .busy) ↔ s.phase = .delegated)) ∧
    s.history.entries = acceptedLines es ∧
    (∀ i, s.history.cursor = some i → i < s.history.entries.length) ∧
    ∀ m : Moment, s.reply m ≠ .turn (.ok .cleared) → s.log <+: (s.after m).log := by
  have h := consistent_run (consistent_start d) ms
  refine ⟨h.rests, h.waits, fun m hline => ?_, h.entries, h.cursor, fun m => log_prefix⟩
  rw [reply_eq_busy_iff hline, isBusy_iff_of_rests h.rests]

/-- While the gateway is asked about one line the next is refused, and the log stays. -/
theorem next_line_refused_while_waiting :
    let d := Desktop.ofStore "desktop" (Desktop.newStore Config.standard ⟨0, 0⟩)
    let s := (run [⟨.act (.submit "frobnicate"), ⟨1, 0⟩, d⟩] (start d)).2
    let next : Moment := ⟨.act (.submit "ls"), ⟨2, 0⟩, d⟩
    s.reply next = .turn (.error .busy) ∧ s.log <+: (s.after next).log := by
  intro d s next
  obtain ⟨_, _, hrefused, _, _, hlog⟩ :=
    run_in_step d [⟨.act (.submit "frobnicate"), ⟨1, 0⟩, d⟩]
  have hforeign : foreignName? "frobnicate" = some "frobnicate" := by decide +kernel
  have hsubmit : (submit ⟨1, 0⟩ "frobnicate" d (start d)).1 = .ok (.delegated _) :=
    submit_eq_delegated_iff.mpr ⟨rfl, by decide, _, hforeign, rfl⟩
  have hphase : s.phase = .delegated :=
    congrArg (fun r : Desktop × Session => r.2.phase) (submit_of_delegated hsubmit)
  have hreply : s.reply next = .turn (.error .busy) := (hrefused next rfl).mpr hphase
  refine ⟨hreply, hlog next ?_⟩
  rw [hreply]
  simp

end Session

end DesktopTerminal
