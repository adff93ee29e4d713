import DesktopTerminal.Proofs.Command.Piping
import DesktopTerminal.Proofs.Line.Lexing

/-!
# What a line leaves in the log

The commands of a line run one after another, and what each reports is kept until all have run; a
redirect that fails reports last. The log gets the output of the last command and all reports, in
their order. If one of the commands has cleared the screen the log gets neither, whatever the others
have shown or reported.
-/
namespace DesktopTerminal

/-! ## Outcomes of the commands -/

/-- The outcomes of commands, each of which is fed with the output of the one before. -/
def outcomes : List Invocation → Option String → Workspace → List Outcome
  | [], _, _ => []
  | i :: rest, input, w =>
    let r := i.run input w
    r.1 :: outcomes rest (some r.1.out) r.2

theorem runSegments_fst (is : List Invocation) (input : Option String) (p : Progress)
    (w : Workspace) :
    (runSegments is input p w).1 = (outcomes is input w).foldl (fun p o => p.add o) p := by
  induction is generalizing input p w with
  | nil => rfl
  | cons i rest ih => exact ih _ _ _

/-- The texts that are not empty. -/
def nonemptyTexts (texts : List String) : List String := texts.filter (· ≠ "")

namespace Progress

/-- Errors are kept in their order, and one wish for a clean screen is enough. -/
theorem foldl_add (os : List Outcome) (p : Progress) :
    (os.foldl (fun p o => p.add o) p).errors = p.errors ++ nonemptyTexts (os.map (·.err)) ∧
      (os.foldl (fun p o => p.add o) p).clear = (p.clear || os.any (·.clear)) := by
  induction os generalizing p with
  | nil => simp [nonemptyTexts]
  | cons o rest ih =>
    obtain ⟨herrors, hclear⟩ := ih (p.add o)
    rw [List.foldl_cons, herrors, hclear]
    refine ⟨?_, by simp [add, Bool.or_assoc]⟩
    by_cases ho : o.err = "" <;> simp [add, nonemptyTexts, ho]

/-- What a redirect reports. -/
def redirectReport (target : String) : Except Fault Unit → List String
  | .ok () => []
  | .error fault => ["deskshell: " ++ target ++ ": " ++ fault.reason]

theorem errors_redirected (p : Progress) (target : String) (result : Except Fault Unit) :
    (p.redirected target result).errors = p.errors ++ redirectReport target result := by
  cases result with
  | ok => exact (List.append_nil _).symm
  | error fault => rfl

theorem clear_redirected (p : Progress) (target : String) (result : Except Fault Unit) :
    (p.redirected target result).clear = p.clear := by
  cases result <;> rfl

end Progress

/-- What a line reports: the commands in their order, and then the redirect. -/
def reports (is : List Invocation) (redirect : Option Line.Redirect) (w : Workspace) :
    List String :=
  nonemptyTexts ((outcomes is none w).map (·.err)) ++
    match redirect with
    | none => []
    | some r =>
      let ran := runSegments is none .start w
      Progress.redirectReport r.target
        (ran.2.store.apply (r.operation (ran.2.resolve r.target) ran.1.last.out) ran.2.now).1

/-- A line that has run has run all its commands, and its outcome holds all their reports. -/
theorem runPipeline_completed {p : Line.Pipeline} {o : Outcome} {w v : Workspace}
    (h : runPipeline p w = (.completed o, v)) :
    ∃ is, resolveAll p.commands = .ok is ∧
      o.err = Text.joinWith "\n" (reports is p.redirect w) ∧
      (o.clear = true ↔ ∃ x ∈ outcomes is none w, x.clear = true) := by
  obtain ⟨cs, redirect⟩ := p
  cases hcs : resolveAll cs with
  | error name =>
    rw [runPipeline, hcs] at h
    cases h
  | ok is =>
    obtain ⟨herrors, hclear⟩ := Progress.foldl_add (outcomes is none w) .start
    rw [← runSegments_fst is none .start w] at herrors hclear
    refine ⟨is, rfl, ?_⟩
    rw [← List.any_eq_true]
    cases redirect with
    | none =>
      rw [runPipeline_plain hcs] at h
      obtain rfl := RunResult.completed.inj (Prod.mk.inj h).1
      simp only [Progress.finish, herrors, hclear]
      simp [Progress.start, reports]
    | some r =>
      rw [runPipeline_redirected hcs] at h
      obtain rfl := RunResult.completed.inj (Prod.mk.inj h).1
      simp only [Progress.finish, applyRedirect_fst, Progress.errors_redirected,
        Progress.clear_redirected, herrors, hclear]
      simp [Progress.start, reports]

/-! ## Blank lines -/

theorem Builtin.name_not_blank (b : Builtin) : Text.isBlankText b.name = false := by
  cases b <;> rfl

/-- A line has a first command, and the characters of its name stand in the line. -/
theorem Line.exists_of_parse {line : String} {p : Line.Pipeline} (h : Line.parse line = .ok p) :
    ∃ c cs, p.commands = c :: cs ∧ ∀ x ∈ c.name.toList, x ∈ line.toList := by
  cases htokens : tokenize line with
  | error faults =>
    rw [parse, htokens] at h
    cases faults <;> cases h
  | ok tokens =>
    obtain ⟨hne, hp⟩ := (parse_eq_ok_iff htokens).mp h
    obtain ⟨c, cs, hcs⟩ := List.exists_cons_of_ne_nil hne
    refine ⟨c, cs, hcs, fun x hx => mem_of_mem_tokenize htokens ?_ hx⟩
    rw [hp, Pipeline.tokens, hcs]
    refine List.mem_append_left _ ?_
    cases cs <;> simp [segmentTokens, Command.tokens]

/-- A line whose commands are known is not blank. -/
theorem not_blank_of_parse {line : String} {p : Line.Pipeline} {is : List Invocation}
    (hparse : Line.parse line = .ok p) (his : resolveAll p.commands = .ok is) :
    Text.isBlankText line = false := by
  obtain ⟨c, cs, hcs, hchars⟩ := Line.exists_of_parse hparse
  rw [hcs, resolveAll] at his
  cases hb : Builtin.ofName? c.name with
  | none =>
    rw [hb] at his
    cases his
  | some b =>
    obtain ⟨b, hname⟩ := Builtin.known_of_ofName? hb
    obtain ⟨x, hx, hblank⟩ := List.all_eq_false.mp b.name_not_blank
    exact List.all_eq_false.mpr ⟨x, hchars x (hname ▸ hx), hblank⟩

/-! ## The log -/

namespace Session

theorem outcomeEntries_eq_nil_iff {o : Outcome} :
    outcomeEntries o = [] ↔ o.display = "" ∧ o.err = "" := by
  rw [outcomeEntries, List.append_eq_nil_iff]
  split <;> split <;> simp [*]

theorem log_settle_completed (line : String) (o : Outcome) (w : Workspace) (d : Desktop)
    (s : Session) :
    (s.settle line d (.completed o w)).2.2.log =
      if o.clear then [] else s.log ++ outcomeEntries o := by
  rw [settle]
  split <;> rfl

/-- After a line that has run the log has its output and all reports, unless one of the commands has
cleared the screen. Then it has neither, and so it misses whatever the line has shown or reported. -/
theorem cleared_line_drops_reports (now : Instant) (line : String) (d : Desktop) (s : Session)
    (p : Line.Pipeline) (o : Outcome) (w : Workspace) (hidle : s.isBusy = false)
    (hparse : Line.parse line = .ok p)
    (hran : runPipeline p ((s.entered line d).workspace now d) = (.completed o, w)) :
    let v := (s.entered line d).workspace now d
    let log := (s.submit now line d).2.2.log
    let kept := if o.clear then [] else s.log ++ [.command (s.prompt d) line]
    (∃ is, resolveAll p.commands = .ok is ∧
      o.err = Text.joinWith "\n" (reports is p.redirect v) ∧
      (o.clear = true ↔ ∃ x ∈ outcomes is none v, x.clear = true)) ∧
    log = (if o.clear then [] else kept ++ outcomeEntries o) ∧
    (log = kept ++ outcomeEntries o ↔ o.clear = false ∨ o.display = "" ∧ o.err = "") := by
  intro v log kept
  obtain ⟨is, his, hreports⟩ := runPipeline_completed hran
  have hblank := not_blank_of_parse hparse his
  have hlog : log = if o.clear then [] else kept ++ outcomeEntries o := by
    change (s.submit now line d).2.2.log = _
    rw [submit_of_completed hidle hblank hparse hran, log_settle_completed]
    cases hclear : o.clear with
    | true => rfl
    | false =>
      simp only [kept, hclear]
      rfl
  refine ⟨⟨is, his, hreports⟩, hlog, ?_⟩
  rw [hlog, ← outcomeEntries_eq_nil_iff]
  cases hclear : o.clear with
  | false => simp
  | true => simp [kept, hclear]

/-- What the first command reports stands in the log after what the second shows. -/
theorem report_behind_pipe_logged :
    let d := Desktop.ofStore "desktop" (Desktop.newStore Config.standard ⟨0, 0⟩)
    let s := Session.start d
    let line := "cat nofile | pwd"
    (s.submit ⟨1, 0⟩ line d).2.2.log =
      [.command (s.prompt d) line, .output "/home/user",
        .error "cat: nofile: No such file or directory"] := by
  intro d s line
  let p : Line.Pipeline := ⟨[⟨"cat", ["nofile"]⟩, ⟨"pwd", []⟩], none⟩
  let o : Outcome := ⟨0, "/home/user", "cat: nofile: No such file or directory", none, false⟩
  have hparse : Line.parse line = .ok p := by decide +kernel
  have hran : (runPipeline p ((s.entered line d).workspace ⟨1, 0⟩ d)).1 = .completed o := by
    decide +kernel
  obtain ⟨_, hlog, _⟩ := cleared_line_drops_reports ⟨1, 0⟩ line d s p o _ rfl hparse
    (Prod.ext hran rfl)
  exact hlog

/-- The screen is cleared behind a pipe, and what stands before the pipe has reported is lost. -/
theorem report_before_clear_lost :
    let d := Desktop.ofStore "desktop" (Desktop.newStore Config.standard ⟨0, 0⟩)
    let s := Session.start d
    let line := "cat nofile | clear"
    let p : Line.Pipeline := ⟨[⟨"cat", ["nofile"]⟩, ⟨"clear", []⟩], none⟩
    let o : Outcome := ⟨0, "", "cat: nofile: No such file or directory", none, true⟩
    Line.parse line = .ok p ∧
      (runPipeline p ((s.entered line d).workspace ⟨1, 0⟩ d)).1 = .completed o ∧
      outcomeEntries o = [.error "cat: nofile: No such file or directory"] ∧
      (s.submit ⟨1, 0⟩ line d).2.2.log = [] := by
  intro d s line p o
  have hparse : Line.parse line = .ok p := by decide +kernel
  have hran : (runPipeline p ((s.entered line d).workspace ⟨1, 0⟩ d)).1 = .completed o := by
    decide +kernel
  have hblank : Text.isBlankText line = false := by decide
  refine ⟨hparse, hran, rfl, ?_⟩
  rw [submit_of_completed rfl hblank hparse (Prod.ext hran rfl), log_settle_completed]
  rfl

end Session

end DesktopTerminal
