import DesktopTerminal.Proofs.Line.Spelling
import DesktopTerminal.Proofs.Secrecy.Line
import DesktopTerminal.Proofs.Session.Turn
import DesktopTerminal.Proofs.Text
import DesktopTerminal.Proofs.Tree.Reading
import Mathlib.Data.List.Forall2

/-!
# Texts in files, by way of command lines

Words are put into a file with `echo` and a redirect, and `cat` shows the file. However the lines are
written, each comes down to one operation of the store, and what `cat` shows is put together from the
words of the lines before.
-/
namespace DesktopTerminal

/-! ## A written line is not blank -/

namespace Line

theorem Spelling.mem {word : String} {s : List Char} (h : Spelling word s) {c : Char}
    (hc : c ∈ word.toList) : c ∈ s := by
  have hescape : ∀ cs : List Char, c ∈ cs → c ∈ escape cs := by
    intro cs hcs
    induction cs with
    | nil => exact hcs
    | cons d cs ih =>
      rw [escape]
      rcases List.mem_cons.mp hcs with rfl | hcs
      · split <;> simp
      · have := ih hcs
        split <;> simp [this]
  cases h with
  | bare => exact hc
  | single => simp [hc]
  | double => simp [hescape _ hc]

theorem WordsWritten.mem {w : String} {ws : List String} {s : List Char}
    (h : WordsWritten (w :: ws) s) {c : Char} (hc : c ∈ w.toList) : c ∈ s := by
  cases h with
  | last hs => exact hs.mem hc
  | cons hs => simp [hs.mem hc]

theorem SegmentsWritten.mem {cmd : Command} {cs : List Command} {s : List Char}
    (h : SegmentsWritten (cmd :: cs) s) {c : Char} (hc : c ∈ cmd.name.toList) : c ∈ s := by
  cases h with
  | last hs => exact hs.mem hc
  | cons hs => simp [hs.mem hc]

/-- The characters of the first command name stand in the line. -/
theorem Written.mem {cmd : Command} {cs : List Command} {r : Option Redirect} {s : List Char}
    (h : Written ⟨cmd :: cs, r⟩ s) {c : Char} (hc : c ∈ cmd.name.toList) : c ∈ s := by
  cases h with
  | plain hs => simp [hs.mem hc]
  | redirected hs => simp [hs.mem hc]

theorem Written.isBlankText {cmd : Command} {cs : List Command} {r : Option Redirect}
    {line : String} (h : Written ⟨cmd :: cs, r⟩ line.toList) {c : Char}
    (hc : c ∈ cmd.name.toList) (hblank : Text.isBlank c = false) :
    Text.isBlankText line = false :=
  List.all_eq_false.mpr ⟨c, h.mem hc, by simp [hblank]⟩

end Line

/-! ## What is done with a file -/

/-- What a user does with a file by one line. -/
inductive Errand where
  /-- Puts words into the file, in the place of what it held. -/
  | overwrite (words : List String)
  /-- Puts words at the end of the file. -/
  | append (words : List String)
  /-- Looks at the file. -/
  | show
deriving DecidableEq, Repr

namespace Errand

/-- The pipeline that the line spells, for the file that goes by the name `f`. -/
def pipeline (f : String) : Errand → Line.Pipeline
  | .overwrite ws => ⟨[⟨"echo", ws⟩], some ⟨.overwrite, f⟩⟩
  | .append ws => ⟨[⟨"echo", ws⟩], some ⟨.append, f⟩⟩
  | .show => ⟨[⟨"cat", [f]⟩], none⟩

/-- The text of the file after the errand, if it was `text` before. -/
def after (text : String) : Errand → String
  | .overwrite ws => " ".intercalate ws
  | .append ws =>
    if text = "" then " ".intercalate ws else text ++ "\n" ++ " ".intercalate ws
  | .show => text

/-- What the errand comes to in the store: the text that is shown or a fault, and the store after. -/
def perform (p : Path) (now : Instant) (e : Errand) (s : Store) : Except Fault String × Store :=
  match e with
  | .overwrite ws =>
    let r := s.write p (" ".intercalate ws) now
    (r.1.map fun _ => "", r.2)
  | .append ws =>
    let r := s.append p (" ".intercalate ws) now
    (r.1.map fun _ => "", r.2)
  | .show => (s.read p, s)

/-- Who reports a fault. -/
def reporter : Errand → String
  | .overwrite _ | .append _ => "deskshell"
  | .show => "cat"

/-- What the errand leaves in the log after its line. -/
def entries (f : String) (e : Errand) : Except Fault String → List LogEntry
  | .ok text => if text = "" then [] else [.output text]
  | .error fault => [.error (e.reporter ++ ": " ++ f ++ ": " ++ fault.reason)]

theorem home_perform (p : Path) (now : Instant) (e : Errand) (s : Store) :
    (e.perform p now s).2.home = s.home := by
  cases e with
  | overwrite ws => exact Store.home_commit _ s
  | append ws => exact Store.home_commit _ s
  | «show» => rfl

/-- An overwrite that succeeds leaves its words in the file, whatever was there. -/
theorem read_overwrite {p : Path} {now : Instant} {ws : List String} {s : Store} {shown : String}
    (h : ((Errand.overwrite ws).perform p now s).1 = .ok shown) :
    ((Errand.overwrite ws).perform p now s).2.read p = .ok (" ".intercalate ws) := by
  have hwritten : (s.write p (" ".intercalate ws) now).1 = .ok () := by
    simp only [perform] at h
    cases hr : (s.write p (" ".intercalate ws) now).1 with
    | error fault => simp [hr, Except.map] at h
    | ok => rfl
  exact Store.read_write hwritten

/-- An errand that succeeds turns the text of the file into the text after it. -/
theorem read_perform {p : Path} {now : Instant} {e : Errand} {s : Store} {text shown : String}
    (hread : s.read p = .ok text) (h : (e.perform p now s).1 = .ok shown) :
    (e.perform p now s).2.read p = .ok (e.after text) := by
  cases e with
  | overwrite ws => exact read_overwrite h
  | append ws =>
    have hwritten : (s.append p (" ".intercalate ws) now).1 = .ok () := by
      simp only [perform] at h
      cases hr : (s.append p (" ".intercalate ws) now).1 with
      | error fault => simp [hr, Except.map] at h
      | ok => rfl
    exact Store.read_append hread hwritten
  | «show» => exact hread

theorem entries_clean_iff {f : String} {e : Errand} {r : Except Fault String} :
    (∀ message, LogEntry.error message ∉ e.entries f r) ↔ ∃ shown, r = .ok shown := by
  cases r with
  | ok shown =>
    have hclean : ∀ message, LogEntry.error message ∉ e.entries f (.ok shown) := by
      intro message
      rw [entries]
      split <;> simp
    exact iff_of_true hclean ⟨shown, rfl⟩
  | error fault => exact iff_of_false (fun h => h _ List.mem_cons_self) (by simp)

/-- The errands succeed in the store, one after another. -/
def AllSucceed (p : Path) : List (Errand × Instant) → Store → Prop
  | [], _ => True
  | (e, now) :: rest, s =>
    (∃ shown, (e.perform p now s).1 = .ok shown) ∧ AllSucceed p rest (e.perform p now s).2

end Errand

/-! ## What a line comes to -/

open Line (Written)

theorem resolveAll_builtin (b : Builtin) (words : List String) :
    resolveAll [⟨b.name, words⟩] = .ok [⟨b, words⟩] := by
  rw [resolveAll, Builtin.ofName?_name]
  rfl

/-- A word without a dash in front is no option. -/
theorem isOption_of_not_dash {word : String} (h : startsWithDash word = false) :
    isOption word = false := by
  have hhead : word.toList.head? ≠ some '-' := by
    simpa [startsWithDash] using h
  rw [isOption]
  split
  · rename_i c cs hword
    rw [hword] at hhead
    exact absurd rfl hhead
  · rfl

/-- What has come of a pipeline when its output has gone to a file, or could not go there. -/
def Progress.redirected (target : String) (p : Progress) : Except Fault Unit → Progress
  | .ok () => { p with last := { p.last with out := "", rendered := none } }
  | .error fault =>
    ⟨{ p.last with out := "", rendered := none, code := 1 },
      p.errors ++ ["deskshell: " ++ target ++ ": " ++ fault.reason], p.clear⟩

theorem applyRedirect_fst (r : Line.Redirect) (p : Progress) (w : Workspace) :
    (applyRedirect r p w).1 =
      p.redirected r.target (w.store.apply (r.operation (w.resolve r.target) p.last.out) w.now).1 := by
  obtain ⟨kind, target⟩ := r
  cases kind with
  | overwrite =>
    simp only [applyRedirect, Workspace.onStore, Line.Redirect.operation, Store.apply]
    cases (w.store.write (w.resolve target) p.last.out w.now).1 <;> rfl
  | append =>
    simp only [applyRedirect, Workspace.onStore, Line.Redirect.operation, Store.apply]
    cases (w.store.append (w.resolve target) p.last.out w.now).1 <;> rfl

/-- The output of `echo`, on its way to a file. -/
def Progress.echoed (text : String) : Progress := ⟨Outcome.success text, [], false⟩

/-- Nothing is shown of what has gone to a file, and a file that cannot be written is reported. -/
theorem entries_redirected (target text : String) (result : Except Fault Unit) :
    Session.outcomeEntries ((Progress.echoed text).redirected target result).finish =
      match result with
      | .ok () => []
      | .error fault => [.error ("deskshell" ++ ": " ++ target ++ ": " ++ fault.reason)] := by
  cases result with
  | ok => rfl
  | error fault =>
    have hreporter : "deskshell" ++ ": " = "deskshell: " := rfl
    rw [hreporter]
    simp [Session.outcomeEntries, Progress.redirected, Progress.echoed, Progress.finish,
      Outcome.display, Outcome.success, Text.joinWith]

/-- Words that go to a file: what the line does is one operation of the store. -/
theorem runPipeline_echo (ws : List String) (r : Line.Redirect) {w : Workspace}
    (hw : w.stdin = none) :
    let stored := w.store.apply (r.operation (w.resolve r.target) (" ".intercalate ws)) w.now
    ∃ o, runPipeline ⟨[⟨"echo", ws⟩], some r⟩ w = (.completed o, { w with store := stored.2 }) ∧
      o.clear = false ∧ Session.outcomeEntries o = match stored.1 with
        | .ok () => []
        | .error fault => [.error ("deskshell" ++ ": " ++ r.target ++ ": " ++ fault.reason)] := by
  intro stored
  have hsame : ({ w with stdin := none } : Workspace) = w := by rw [← hw]
  have hname : resolveAll [⟨"echo", ws⟩] = .ok [⟨.echo, ws⟩] := resolveAll_builtin .echo ws
  have hran : runSegments [⟨.echo, ws⟩] none Progress.start w =
      (.echoed (Text.joinWith " " ws), { w with stdin := none }) := rfl
  rw [hsame, Text.joinWith_eq_intercalate] at hran
  obtain ⟨hclear, hstore⟩ := applyRedirect_eq r (.echoed (" ".intercalate ws)) w
  refine ⟨(applyRedirect r (.echoed (" ".intercalate ws)) w).1.finish, ?_, hclear, ?_⟩
  · simp only [runPipeline, hname, hran]
    rw [hstore]
    rfl
  · rw [applyRedirect_fst]
    exact entries_redirected r.target _ stored.1

/-- The outcome of a single command is that of the line. -/
theorem finish_add_start (o : Outcome) : (Progress.start.add o).finish = o := by
  obtain ⟨code, out, err, rendered, clear⟩ := o
  by_cases herr : err = ""
  · simp [Progress.finish, Progress.add, Progress.start, herr, Text.joinWith]
  · simp [Progress.finish, Progress.add, Progress.start, herr, Text.joinWith]

theorem cat_operand (f : String) (w : Workspace) :
    Command.cat ⟨[f], [], []⟩ w =
      (match w.store.read (w.resolve f) with
      | .ok text => Outcome.success text
      | .error fault => Outcome.failure 1 ("cat: " ++ f ++ ": " ++ fault.reason), w) := by
  rw [Command.cat]
  simp only [Command.readOperands]
  cases w.store.read (w.resolve f) <;> rfl

theorem runPipeline_cat {f : String} (hf : startsWithDash f = false) {w : Workspace}
    (hw : w.stdin = none) :
    runPipeline ⟨[⟨"cat", [f]⟩], none⟩ w =
      (.completed (match w.store.read (w.resolve f) with
      | .ok text => Outcome.success text
      | .error fault => Outcome.failure 1 ("cat: " ++ f ++ ": " ++ fault.reason)), w) := by
  have hsame : ({ w with stdin := none } : Workspace) = w := by rw [← hw]
  have hname : resolveAll [⟨"cat", [f]⟩] = .ok [⟨.cat, [f]⟩] := resolveAll_builtin .cat [f]
  have hwords : readArguments Builtin.cat.schema [f] = .ok ⟨[f], [], []⟩ := by
    have hoption : isOption f = false := isOption_of_not_dash hf
    change readWords Builtin.cat.schema [f] Arguments.empty = _
    rw [readWords, hoption]
    rfl
  have hrun : Invocation.run ⟨.cat, [f]⟩ none w = ((Command.cat ⟨[f], [], []⟩ w).1, w) := by
    rw [Invocation.run]
    simp only [hwords, hsame]
    change ((Command.cat ⟨[f], [], []⟩ w).1, ({ w with stdin := none } : Workspace)) = _
    rw [hsame]
  have hran : runSegments [⟨.cat, [f]⟩] none Progress.start w =
      (Progress.start.add (Command.cat ⟨[f], [], []⟩ w).1, w) := by
    rw [runSegments, hrun]
    rfl
  simp only [runPipeline, hname, hran, finish_add_start, cat_operand]

/-- What is left of the workspace after an errand. -/
def Workspace.afterErrand (f : String) (e : Errand) (w : Workspace) : Workspace :=
  { w with store := (e.perform (w.resolve f) w.now w.store).2 }

/-- The pipeline of an errand does to the store what the errand comes to, and its outcome tells so. -/
theorem runPipeline_errand {f : String} (hf : startsWithDash f = false) (e : Errand) {w : Workspace}
    (hw : w.stdin = none) :
    ∃ o, runPipeline (e.pipeline f) w = (.completed o, w.afterErrand f e) ∧ o.clear = false ∧
      Session.outcomeEntries o = e.entries f (e.perform (w.resolve f) w.now w.store).1 := by
  cases e with
  | overwrite ws =>
    obtain ⟨o, hrun, hclear, hentries⟩ := runPipeline_echo ws ⟨.overwrite, f⟩ hw
    refine ⟨o, hrun, hclear, hentries.trans ?_⟩
    change _ = (Errand.overwrite ws).entries f ((w.store.write (w.resolve f) _ w.now).1.map _)
    simp only [Line.Redirect.operation, Store.apply]
    cases (w.store.write (w.resolve f) (" ".intercalate ws) w.now).1 <;> rfl
  | append ws =>
    obtain ⟨o, hrun, hclear, hentries⟩ := runPipeline_echo ws ⟨.append, f⟩ hw
    refine ⟨o, hrun, hclear, hentries.trans ?_⟩
    change _ = (Errand.append ws).entries f ((w.store.append (w.resolve f) _ w.now).1.map _)
    simp only [Line.Redirect.operation, Store.apply]
    cases (w.store.append (w.resolve f) (" ".intercalate ws) w.now).1 <;> rfl
  | «show» =>
    refine ⟨_, runPipeline_cat hf hw, ?_, ?_⟩
    · cases w.store.read (w.resolve f) <;> rfl
    · change _ = Errand.show.entries f (w.store.read (w.resolve f))
      cases w.store.read (w.resolve f) with
      | ok text =>
        by_cases htext : text = ""
        · simp [Session.outcomeEntries, Outcome.display, Outcome.success, Errand.entries, htext]
        · simp [Session.outcomeEntries, Outcome.display, Outcome.success, Errand.entries, htext]
      | error fault =>
        simp [Session.outcomeEntries, Outcome.display, Outcome.failure, Errand.entries,
          Errand.reporter]

namespace Session

/-- The line of an errand runs here and at once. It leaves the terminal idle where it was, the desktop
with another store, and in the log the line with what there is to tell. -/
theorem submit_errand {f : String} (hf : startsWithDash f = false) {e : Errand} {line : String}
    (hline : Written (e.pipeline f) line.toList) (now : Instant) (d : Desktop) {s : Session}
    (hidle : s.isBusy = false) :
    let r := e.perform (d.store.resolve s.cwd f) now d.store
    ∃ s', s.submit now line d = (.ok .rendered, { d with store := r.2 }, s') ∧
      s'.isBusy = false ∧ s'.cwd = s.cwd ∧
      s'.log = s.log ++ .command (s.prompt d) line :: e.entries f r.1 := by
  intro r
  have hblank : Text.isBlankText line = false := by
    have he : 'e' ∈ "echo".toList := by decide
    have hc : 'c' ∈ "cat".toList := by decide
    cases e with
    | overwrite ws => exact hline.isBlankText he (by decide)
    | append ws => exact hline.isBlankText he (by decide)
    | «show» => exact hline.isBlankText hc (by decide)
  let w := (s.entered line d).workspace now d
  obtain ⟨o, hrun, hclear, hentries⟩ := runPipeline_errand hf e (w := w) rfl
  rw [submit_of_completed hidle hblank (Line.parse_of_written hline) hrun, settle]
  simp only [hclear, Bool.false_eq_true, ite_false]
  let moved := ((s.entered line d).moveTo .processing).follow (w.afterErrand f e)
  refine ⟨(moved.note (outcomeEntries o)).endTurn .rendered, rfl, rfl, ?_, ?_⟩
  · simp only [endTurn, moveTo, note, moved, follow, Workspace.afterErrand, w, workspace, entered]
  · change (s.log ++ [.command (s.prompt d) line]) ++ outcomeEntries o = _
    rw [hentries, List.append_assoc]
    rfl

/-! ## Runs of lines -/

/-- Submits lines one after another, each at its own time. -/
def submitAll : List (String × Instant) → Desktop → Session → Desktop × Session
  | [], d, s => (d, s)
  | (line, now) :: rest, d, s => submitAll rest (s.submit now line d).2.1 (s.submit now line d).2.2

/-- No error has come into the log from the first session to the second. -/
def Quiet (s s' : Session) : Prop := ∀ message, LogEntry.error message ∉ s'.log.drop s.log.length

/-- The lines spell the errands. -/
def Spelled (f : String) (es : List Errand) (lines : List (String × Instant)) : Prop :=
  List.Forall₂ (fun e l => Written (Errand.pipeline f e) l.1.toList) es lines

/-- An idle terminal at which the name `f` finds a file with this text. -/
structure Shows (f text : String) (d : Desktop) (s : Session) : Prop where
  idle : s.isBusy = false
  read : d.store.read (d.store.resolve s.cwd f) = .ok text

theorem quiet_append {s₁ s₂ s₃ : Session} (h₁₂ : s₁.log <+: s₂.log) (h₂₃ : s₂.log <+: s₃.log) :
    Quiet s₁ s₃ ↔ Quiet s₁ s₂ ∧ Quiet s₂ s₃ := by
  obtain ⟨new, hnew⟩ := h₁₂
  obtain ⟨newer, hnewer⟩ := h₂₃
  have hlog : s₃.log = s₁.log ++ (new ++ newer) := by rw [← hnewer, ← hnew, List.append_assoc]
  have h₁ : s₂.log.drop s₁.log.length = new := by rw [← hnew, List.drop_left]
  have h₂ : s₃.log.drop s₂.log.length = newer := by rw [← hnewer, List.drop_left]
  have h₃ : s₃.log.drop s₁.log.length = new ++ newer := by rw [hlog, List.drop_left]
  simp only [Quiet, h₁, h₂, h₃, List.mem_append, not_or]
  exact forall_and

section Errands

variable {f : String} (hf : startsWithDash f = false)
include hf

/-- The lines of errands only add to the log. -/
theorem submitAll_log {es : List Errand} {lines : List (String × Instant)}
    (hlines : Spelled f es lines) {d : Desktop} {s : Session} (hidle : s.isBusy = false) :
    s.log <+: (submitAll lines d s).2.log := by
  induction hlines generalizing d s with
  | nil => exact List.prefix_refl _
  | @cons e l es lines hline _ ih =>
    obtain ⟨line, now⟩ := l
    obtain ⟨s', hsubmit, hidle', _, hlog⟩ := submit_errand hf hline now d hidle
    rw [submitAll, hsubmit]
    have hstep : s.log <+: s'.log := hlog ▸ List.prefix_append _ _
    exact hstep.trans (ih hidle')

/-- The file is where it was, and reading it gives what it gives in the store after the errand. -/
theorem shows_of_read {e : Errand} {line : String} (hline : Written (e.pipeline f) line.toList)
    {now : Instant} {d : Desktop} {s : Session} (hidle : s.isBusy = false) {text : String}
    (hread : (e.perform (d.store.resolve s.cwd f) now d.store).2.read (d.store.resolve s.cwd f) =
      .ok text) :
    Shows f text (s.submit now line d).2.1 (s.submit now line d).2.2 := by
  obtain ⟨s', hsubmit, hidle', hcwd, _⟩ := submit_errand hf hline now d hidle
  rw [hsubmit]
  have hp : (e.perform (d.store.resolve s.cwd f) now d.store).2.resolve s'.cwd f =
      d.store.resolve s.cwd f := by
    rw [Store.resolve, Errand.home_perform, hcwd]
    rfl
  exact ⟨hidle', by rw [hp]; exact hread⟩

/-- The first line brings no error if the store accepts its errand; the others come after it. -/
theorem quiet_cons_iff {e : Errand} {line : String} {now : Instant} {es : List Errand}
    {lines : List (String × Instant)} (hline : Written (e.pipeline f) line.toList)
    (hlines : Spelled f es lines) {d : Desktop} {s : Session} (hidle : s.isBusy = false) :
    Quiet s (submitAll ((line, now) :: lines) d s).2 ↔
      (∃ shown, (e.perform (d.store.resolve s.cwd f) now d.store).1 = .ok shown) ∧
        Quiet (s.submit now line d).2.2
          (submitAll lines (s.submit now line d).2.1 (s.submit now line d).2.2).2 := by
  let r := (s.submit now line d).2
  obtain ⟨s', hsubmit, hidle', _, hlog⟩ := submit_errand hf hline now d hidle
  have hr : r.2 = s' := by
    change (s.submit now line d).2.2 = s'
    rw [hsubmit]
  have hfirst : s.log <+: r.2.log := by
    rw [hr, hlog]
    exact List.prefix_append _ _
  have hlater : r.2.log <+: (submitAll lines r.1 r.2).2.log :=
    submitAll_log hf hlines (hr ▸ hidle')
  have hstep : Quiet s r.2 ↔
      ∃ shown, (e.perform (d.store.resolve s.cwd f) now d.store).1 = .ok shown := by
    rw [← Errand.entries_clean_iff (f := f) (e := e), Quiet, hr, hlog, List.drop_left]
    simp
  rw [← hstep]
  exact quiet_append hfirst hlater

/-- The lines bring no error exactly if the store accepts every errand. -/
theorem quiet_submitAll_iff {es : List Errand} {lines : List (String × Instant)}
    (hlines : Spelled f es lines) {d : Desktop} {s : Session} (hidle : s.isBusy = false) :
    Quiet s (submitAll lines d s).2 ↔
      Errand.AllSucceed (d.store.resolve s.cwd f) (es.zip (lines.map (·.2))) d.store := by
  induction hlines generalizing d s with
  | nil => exact iff_of_true (by simp [Quiet, submitAll]) trivial
  | @cons e l es lines hline hrest ih =>
    obtain ⟨line, now⟩ := l
    rw [quiet_cons_iff hf hline hrest hidle]
    obtain ⟨s', hsubmit, hidle', hcwd, _⟩ := submit_errand hf hline now d hidle
    have hlater := ih (d := (s.submit now line d).2.1) (s := (s.submit now line d).2.2)
      (by rw [hsubmit]; exact hidle')
    rw [hlater, hsubmit, List.map_cons, List.zip_cons_cons, Errand.AllSucceed]
    have hp : (e.perform (d.store.resolve s.cwd f) now d.store).2.resolve s'.cwd f =
        d.store.resolve s.cwd f := by
      rw [Store.resolve, Errand.home_perform, hcwd]
      rfl
    rw [hp]

/-- Step: after an errand that the store accepts the file has the text after the errand. -/
theorem shows_submit {text : String} {e : Errand} {line : String} {now : Instant} {d : Desktop}
    {s : Session} (h : Shows f text d s) (hline : Written (e.pipeline f) line.toList)
    (hdone : ∃ shown, (e.perform (d.store.resolve s.cwd f) now d.store).1 = .ok shown) :
    Shows f (e.after text) (s.submit now line d).2.1 (s.submit now line d).2.2 := by
  obtain ⟨shown, hdone⟩ := hdone
  exact shows_of_read hf hline h.idle (Errand.read_perform h.read hdone)

/-- Run: after the lines of errands the file has the text that the errands have made of it. -/
theorem shows_submitAll {es : List Errand} {lines : List (String × Instant)}
    (hlines : Spelled f es lines) {text : String} {d : Desktop} {s : Session} (h : Shows f text d s)
    (hquiet : Quiet s (submitAll lines d s).2) :
    Shows f (es.foldl Errand.after text) (submitAll lines d s).1 (submitAll lines d s).2 := by
  induction hlines generalizing text d s with
  | nil => exact h
  | @cons e l es lines hline hrest ih =>
    obtain ⟨hdone, hlater⟩ := (quiet_cons_iff hf hline hrest h.idle).mp hquiet
    have hstep : Shows f (e.after text) (s.submit l.2 l.1 d).2.1 (s.submit l.2 l.1 d).2.2 :=
      shows_submit hf h hline hdone
    exact ih hstep hlater

end Errands

/-- The text of a file into which `first` was put, after more errands. -/
def textAfter (first : List String) (later : List Errand) : String :=
  later.foldl Errand.after (" ".intercalate first)

/-- At an idle terminal words are put into a file, and more lines put more words into it or look at it.
If none of the lines brings an error, then looking at the file shows one output, which is the text put
together from the words of the lines, or nothing if that text is empty. -/
theorem written_is_read {f : String} (hf : startsWithDash f = false) {d : Desktop} {s : Session}
    (hidle : s.isBusy = false) {first : List String} {later : List Errand}
    {lines : List (String × Instant)} (hlines : Spelled f (.overwrite first :: later) lines)
    (hquiet : Quiet s (submitAll lines d s).2) {line : String}
    (hline : Written (Errand.show.pipeline f) line.toList) (now : Instant) :
    let d' := (submitAll lines d s).1
    let s' := (submitAll lines d s).2
    let text := textAfter first later
    (s'.submit now line d').1 = .ok .rendered ∧
      (s'.submit now line d').2.2.log =
        s'.log ++ .command (s'.prompt d') line :: if text = "" then [] else [.output text] := by
  intro d' s' text
  have hshows : Shows f text d' s' := by
    cases hlines with
    | @cons e l es lines hwrite hlater =>
      obtain ⟨⟨shown, hdone⟩, hrest⟩ := (quiet_cons_iff hf hwrite hlater hidle).mp hquiet
      have hwritten := shows_of_read hf hwrite hidle (Errand.read_overwrite hdone)
      exact shows_submitAll hf hlater hwritten hrest
  obtain ⟨t, hsubmit, _, _, hlog⟩ := submit_errand hf hline now d' hshows.idle
  rw [hsubmit]
  refine ⟨rfl, hlog.trans ?_⟩
  rw [Errand.perform, hshows.read]
  rfl

/-- Quotes, an operator, nothing at all as a word and a name with a blank, with a look in between. -/
theorem notes_written_and_read :
    let d := Desktop.ofStore "desktop" (Desktop.newStore Config.standard ⟨0, 0⟩)
    let lines := [("echo 'a > b' \x22\x22> 'my notes'", ⟨1, 0⟩), ("cat 'my notes'", ⟨2, 0⟩),
      ("echo \x22it's\x22>>\x22my notes\x22", ⟨3, 0⟩)]
    let d' := (submitAll lines d (start d)).1
    let s' := (submitAll lines d (start d)).2
    (s'.submit ⟨4, 0⟩ "cat \x22my notes\x22" d').2.2.log =
      s'.log ++ [.command (s'.prompt d') "cat \x22my notes\x22", .output "a > b \nit's"] := by
  intro d lines d' s'
  have hblank : Line.Gap [' '] := Line.gap_blank
  have hnone : Line.Gap [] := by decide
  have hecho : Line.Spelling "echo" "echo".toList := .bare (by decide)
  have hcat : Line.Spelling "cat" "cat".toList := .bare (by decide)
  have hsingle : Line.Spelling "my notes" "'my notes'".toList := .single (by decide)
  have hdouble : Line.Spelling "my notes" "\x22my notes\x22".toList := .double
  have hoverwrite : Written ((Errand.overwrite ["a > b", ""]).pipeline "my notes")
      "echo 'a > b' \x22\x22> 'my notes'".toList := by
    have hwords : Line.WordsWritten ["echo", "a > b", ""] "echo 'a > b' \x22\x22".toList :=
      .cons hecho hblank (by decide) <| .cons (.single (by decide)) hblank (by decide) <| .last .double
    exact .redirected (r := ⟨.overwrite, "my notes"⟩) (.last (c := ⟨"echo", ["a > b", ""]⟩) hwords)
      hsingle hnone hnone hblank hnone
  have happend : Written ((Errand.append ["it's"]).pipeline "my notes")
      "echo \x22it's\x22>>\x22my notes\x22".toList := by
    have hwords : Line.WordsWritten ["echo", "it's"] "echo \x22it's\x22".toList :=
      .cons hecho hblank (by decide) <| .last .double
    exact .redirected (r := ⟨.append, "my notes"⟩) (.last (c := ⟨"echo", ["it's"]⟩) hwords)
      hdouble hnone hnone hnone hnone
  have hlook : Written (Errand.show.pipeline "my notes") "cat 'my notes'".toList :=
    .plain (.last (c := ⟨"cat", ["my notes"]⟩) (.cons hcat hblank (by decide) (.last hsingle)))
      hnone hnone
  have hlook' : Written (Errand.show.pipeline "my notes") "cat \x22my notes\x22".toList :=
    .plain (.last (c := ⟨"cat", ["my notes"]⟩) (.cons hcat hblank (by decide) (.last hdouble)))
      hnone hnone
  have hf : startsWithDash "my notes" = false := by decide
  have hlines : Spelled "my notes" [.overwrite ["a > b", ""], .show, .append ["it's"]] lines :=
    .cons hoverwrite (.cons hlook (.cons happend .nil))
  have hquiet : Quiet (start d) (submitAll lines d (start d)).2 :=
    (quiet_submitAll_iff hf hlines rfl).mpr ⟨⟨_, rfl⟩, ⟨_, rfl⟩, ⟨_, rfl⟩, trivial⟩
  have htext : textAfter ["a > b", ""] [.show, .append ["it's"]] = "a > b \nit's" := by decide
  have hlog := (written_is_read hf rfl hlines hquiet hlook' ⟨4, 0⟩).2
  rw [htext] at hlog
  exact hlog

end Session

end DesktopTerminal
