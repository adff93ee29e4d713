import DesktopTerminal.Proofs.Command.Getopt
import DesktopTerminal.Proofs.Session.Delegation
import DesktopTerminal.Proofs.Session.FileText

/-!
# Pipes and files

A filter reads what is piped in, or a file if it is given one. The output of some commands can be
handed to it in both ways: through a pipe, or through a file that a redirect has written. The two go
through different code, once inside one line and once over two, and come to the same.
-/
namespace DesktopTerminal

/-! ## Lines of commands -/

theorem resolveAll_append {before after : List Line.Command} {is js : List Invocation}
    (hbefore : resolveAll before = .ok is) (hafter : resolveAll after = .ok js) :
    resolveAll (before ++ after) = .ok (is ++ js) := by
  induction before generalizing is with
  | nil =>
    obtain rfl := Except.ok.inj hbefore
    exact hafter
  | cons c rest ih =>
    rw [resolveAll] at hbefore
    split at hbefore
    · cases hbefore
    · rename_i b hb
      cases hrest : resolveAll rest with
      | error name =>
        rw [hrest] at hbefore
        cases hbefore
      | ok ks =>
        rw [hrest] at hbefore
        obtain rfl := Except.ok.inj hbefore
        rw [List.cons_append, resolveAll, hb]
        simp only [ih hrest]
        rfl

/-- Names that are all known are all resolved. -/
theorem exists_resolveAll {cs : List Line.Command} (h : ∀ c ∈ cs, Builtin.Known c.name) :
    ∃ is, resolveAll cs = .ok is := by
  cases hcs : resolveAll cs with
  | ok is => exact ⟨is, rfl⟩
  | error name =>
    have hfound := resolveAll_eq_error_iff.mp hcs
    obtain ⟨c, hc, rfl⟩ := List.mem_map.mp (List.mem_of_find?_eq_some hfound)
    exact absurd (h c hc) (by simpa using List.find?_some hfound)

/-- What goes into the pipe behind some commands: their output, unless there are none. -/
def handedOn (is : List Invocation) (input : Option String) (p : Progress) : Option String :=
  if is.isEmpty then input else some p.last.out

theorem runSegments_append (is js : List Invocation) (input : Option String) (p : Progress)
    (w : Workspace) :
    runSegments (is ++ js) input p w =
      let r := runSegments is input p w
      runSegments js (handedOn is input r.1) r.1 r.2 := by
  induction is generalizing input p w with
  | nil => rfl
  | cons i rest ih =>
    rw [List.cons_append, runSegments, runSegments]
    simp only [ih]
    cases rest with
    | nil => rfl
    | cons j rest => rfl

/-! ## Filters -/

/-- With these arguments the command is a filter that reads what is piped in: it has no operand that
it takes for a file. -/
def Builtin.Filters (b : Builtin) (a : Arguments) : Prop :=
  match b with
  | .cat => a.positional = []
  | .grep => ∃ pattern, a.positional = [pattern]
  | .head | .tail => (Command.countAndPath a.positional (none, none)).2 = none
  | _ => False

namespace Command

theorem countAndPath_append (words more : List String) (found : Option String × Option String) :
    countAndPath (words ++ more) found = countAndPath more (countAndPath words found) := by
  induction words generalizing found with
  | nil => rfl
  | cons word rest ih =>
    obtain ⟨count, path⟩ := found
    simp only [List.cons_append, countAndPath]
    split <;> exact ih _

/-- A word without a dash in front is no count. -/
theorem dashCount?_of_not_dash {word : String} (h : startsWithDash word = false) :
    dashCount? word = none := by
  have hhead : word.toList.head? ≠ some '-' := by
    simpa [startsWithDash] using h
  rw [dashCount?]
  split
  · rename_i c cs hword
    rw [hword] at hhead
    exact absurd rfl hhead
  · rfl

/-- It becomes the file, if there is none before it. -/
theorem countAndPath_snoc {words : List String} {file : String}
    (hfile : startsWithDash file = false) (h : (countAndPath words (none, none)).2 = none) :
    countAndPath (words ++ [file]) (none, none) =
      ((countAndPath words (none, none)).1, some file) := by
  rw [countAndPath_append]
  cases hfound : countAndPath words (none, none) with
  | mk count path =>
    rw [hfound] at h
    obtain rfl : path = none := h
    cases count <;> simp [countAndPath, dashCount?_of_not_dash hfile]

variable {a : Arguments} {w v : Workspace} {file : String}

theorem selectCounted_file (tool : String) (select : Nat → String → String)
    (ha : (countAndPath a.positional (none, none)).2 = none) (hfile : startsWithDash file = false)
    (hread : v.store.read (v.resolve file) = .ok (w.stdin.getD "")) :
    (selectCounted tool select (a.addPositional file) v).1 = (selectCounted tool select a w).1 := by
  have hpath : countAndPath (a.addPositional file).positional (none, none) =
      ((countAndPath a.positional (none, none)).1, some file) := countAndPath_snoc hfile ha
  have hnamed : (a.addPositional file).named? "lines" = a.named? "lines" := rfl
  rw [selectCounted, selectCounted, lineInput, lineInput, hpath, hnamed]
  cases hfound : countAndPath a.positional (none, none) with
  | mk count path =>
    rw [hfound] at ha
    obtain rfl : path = none := ha
    simp only
    cases lineCount tool ((a.named? "lines").or count) with
    | error o => rfl
    | ok n => simp only [hread, Workspace.takeInput]

end Command

/-- A filter that is given a file does with its text what it does with the same text piped in. -/
theorem Builtin.Filters.run_file {b : Builtin} {a : Arguments} (h : b.Filters a)
    {w v : Workspace} {file : String} (hfile : startsWithDash file = false)
    (hread : v.store.read (v.resolve file) = .ok (w.stdin.getD "")) :
    (b.run (a.addPositional file) v).1 = (b.run a w).1 := by
  cases b with
  | cat =>
    have ha : a.positional = [] := h
    have hpositional : (a.addPositional file).positional = [file] := by
      simp [Arguments.addPositional, ha]
    simp only [Builtin.run, Command.cat, hpositional, ha, Command.readOperands, hread]
    rfl
  | grep =>
    obtain ⟨pattern, ha⟩ : ∃ pattern, a.positional = [pattern] := h
    have hpositional : (a.addPositional file).positional = [pattern, file] := by
      simp [Arguments.addPositional, ha]
    simp only [Builtin.run, Command.grep, hpositional, ha, hread]
    rfl
  | head => exact Command.selectCounted_file "head" Command.firstLines h hfile hread
  | tail => exact Command.selectCounted_file "tail" Command.lastLines h hfile hread
  | _ => exact h.elim

/-! ## Redirects -/

/-- The errors that a line has reported. -/
def RunResult.err : RunResult → String
  | .completed o => o.err
  | .delegate _ => ""

/-- Output that has been accepted is in the file. -/
theorem read_applyRedirect {file : String} {p : Progress} {w : Workspace}
    (h : (w.store.write (w.resolve file) p.last.out w.now).1 = .ok ()) :
    let after := (applyRedirect ⟨.overwrite, file⟩ p w).2
    after.store.read (after.resolve file) = .ok p.last.out := by
  intro after
  have hafter : after = { w with
      store := (w.store.write (w.resolve file) p.last.out w.now).2 } :=
    (applyRedirect_eq ⟨.overwrite, file⟩ p w).2
  have hplace : after.resolve file = w.resolve file := by
    rw [hafter, Workspace.resolve, Workspace.resolve, Store.resolve, Store.resolve, Store.write,
      Store.home_commit]
  rw [hplace, hafter]
  exact Store.read_write h

section Lines

variable {cs : List Line.Command} {is : List Invocation} (hcs : resolveAll cs = .ok is)
include hcs

theorem runPipeline_plain (w : Workspace) :
    runPipeline ⟨cs, none⟩ w =
      (.completed (runSegments is none .start w).1.finish, (runSegments is none .start w).2) := by
  simp only [runPipeline, hcs]

theorem runPipeline_redirected (r : Line.Redirect) (w : Workspace) :
    runPipeline ⟨cs, some r⟩ w =
      let ran := runSegments is none .start w
      (.completed (applyRedirect r ran.1 ran.2).1.finish, (applyRedirect r ran.1 ran.2).2) := by
  simp only [runPipeline, hcs]

/-- A redirect reports nothing exactly if the store has accepted the output. -/
theorem redirect_silent_iff (r : Line.Redirect) (w : Workspace) :
    (runPipeline ⟨cs, some r⟩ w).1.err = (runPipeline ⟨cs, none⟩ w).1.err ↔
      let ran := runSegments is none .start w
      (ran.2.store.apply (r.operation (ran.2.resolve r.target) ran.1.last.out) ran.2.now).1 =
        .ok () := by
  rw [runPipeline_plain hcs, runPipeline_redirected hcs]
  simp only [RunResult.err, applyRedirect_fst, Progress.finish]
  cases (runSegments is none .start w).2.store.apply _ _ |>.1 with
  | ok => exact iff_of_true rfl rfl
  | error fault =>
    refine iff_of_false (fun h => ?_) (by simp)
    have hmessage : "deskshell: " ++ r.target ++ ": " ++ fault.reason ≠ "" := by simp
    have hlonger := Text.length_joinWith_lt_snoc "\n"
      (runSegments is none .start w).1.errors hmessage
    exact absurd (congrArg String.length h) (Nat.ne_of_gt hlonger)

end Lines

/-! ## One text, two ways -/

/-- The outcome of one command is that of its line. -/
theorem runPipeline_single (b : Builtin) {words : List String} {a : Arguments}
    (hwords : readArguments b.schema words = .ok a) (w : Workspace) :
    (runPipeline ⟨[⟨b.name, words⟩], none⟩ w).1 =
      .completed (b.run a { w with stdin := none }).1 := by
  rw [runPipeline_plain (resolveAll_builtin b words)]
  have hrun : (Invocation.run ⟨b, words⟩ none w).1 = (b.run a { w with stdin := none }).1 := by
    rw [Invocation.run, hwords]
  rw [← hrun]
  exact congrArg RunResult.completed (finish_add_start _)

/-- The output, the rendered text and the code of a line are those of its last command. -/
theorem runPipeline_last {cs : List Line.Command} {is : List Invocation}
    (hcs : resolveAll cs = .ok is) (b : Builtin) {words : List String} {a : Arguments}
    (hwords : readArguments b.schema words = .ok a) (w : Workspace) :
    let ran := runSegments is none .start w
    let o := (b.run a { ran.2 with stdin := handedOn is none ran.1 }).1
    ∃ piped, (runPipeline ⟨cs ++ [⟨b.name, words⟩], none⟩ w).1 = .completed piped ∧
      piped.out = o.out ∧ piped.rendered = o.rendered ∧ piped.code = o.code := by
  intro ran o
  have hrun : (Invocation.run ⟨b, words⟩ (handedOn is none ran.1) ran.2).1 = o := by
    rw [Invocation.run, hwords]
  rw [runPipeline_plain (resolveAll_append hcs (resolveAll_builtin b words)), runSegments_append]
  refine ⟨_, rfl, ?_⟩
  rw [← hrun]
  exact ⟨rfl, rfl, rfl⟩

/-- What is handed on is the output of the commands; of no commands it is empty. -/
theorem handedOn_getD (is : List Invocation) (w : Workspace) :
    (handedOn is none (runSegments is none .start w).1).getD "" =
      (runSegments is none .start w).1.last.out := by
  cases is with
  | nil => rfl
  | cons i rest => rfl

/-- The output of known commands goes into a file, and the redirect reports nothing. Then the filter
with the file as its last word gives what it gives behind a pipe. -/
theorem file_carries_what_pipe_carries {before : List Line.Command}
    (hbefore : ∀ c ∈ before, Builtin.Known c.name) {b : Builtin} {words : List String}
    {a : Arguments} (hwords : readArguments b.schema words = .ok a) (hfilter : b.Filters a)
    {file : String} (hfile : startsWithDash file = false) {w : Workspace}
    (hsilent : (runPipeline ⟨before, some ⟨.overwrite, file⟩⟩ w).1.err =
      (runPipeline ⟨before, none⟩ w).1.err) :
    let after := (runPipeline ⟨before, some ⟨.overwrite, file⟩⟩ w).2
    ∃ filed piped, (runPipeline ⟨[⟨b.name, words ++ [file]⟩], none⟩ after).1 = .completed filed ∧
      (runPipeline ⟨before ++ [⟨b.name, words⟩], none⟩ w).1 = .completed piped ∧
      filed.out = piped.out ∧ filed.rendered = piped.rendered ∧ filed.code = piped.code := by
  intro after
  obtain ⟨is, his⟩ := exists_resolveAll hbefore
  have hraw : b.schema.raw = false := by
    cases b <;> first | rfl | exact hfilter.elim
  have hfileWords : readArguments b.schema (words ++ [file]) = .ok (a.addPositional file) :=
    readArguments_snoc hraw hwords (.inl hfile)
  obtain ⟨piped, hpiped, hout, hrendered, hcode⟩ := runPipeline_last his b hwords w
  have hread : after.store.read (after.resolve file) =
      .ok (runSegments is none .start w).1.last.out := by
    have hafter := congrArg Prod.snd (runPipeline_redirected his ⟨.overwrite, file⟩ w)
    rw [show after = _ from hafter]
    exact read_applyRedirect ((redirect_silent_iff his ⟨.overwrite, file⟩ w).mp hsilent)
  rw [← handedOn_getD] at hread
  have hsame := hfilter.run_file (w := { (runSegments is none .start w).2 with
      stdin := handedOn is none (runSegments is none .start w).1 })
    (v := { after with stdin := none }) hfile hread
  refine ⟨_, piped, runPipeline_single b hfileWords after, hpiped, ?_⟩
  rw [hsame]
  exact ⟨hout.symm, hrendered.symm, hcode.symm⟩

/-- The commands go into another directory and fail in part, and the count is written like an option. -/
theorem last_line_through_file_and_pipe :
    let d := Desktop.ofStore "desktop" (Desktop.newStore Config.standard ⟨0, 0⟩)
    let w := (Session.start d).workspace ⟨1, 0⟩ d
    let before : List Line.Command := [⟨"cd", ["Documents"]⟩, ⟨"cat", ["readme.txt", "missing"]⟩]
    let after := (runPipeline ⟨before, some ⟨.overwrite, "copy"⟩⟩ w).2
    ∃ filed piped, (runPipeline ⟨[⟨"tail", ["-1", "copy"]⟩], none⟩ after).1 = .completed filed ∧
      (runPipeline ⟨before ++ [⟨"tail", ["-1"]⟩], none⟩ w).1 = .completed piped ∧
      filed.out = piped.out ∧ piped.out = "Type 'help' in the terminal to list commands." := by
  intro d w before after
  have hbefore : ∀ c ∈ before, Builtin.Known c.name := by decide
  have hwords : readArguments Builtin.tail.schema ["-1"] = .ok ⟨["-1"], [], []⟩ := rfl
  have hfilter : Builtin.tail.Filters ⟨["-1"], [], []⟩ := rfl
  have hfile : startsWithDash "copy" = false := by decide
  have hsilent : (runPipeline ⟨before, some ⟨.overwrite, "copy"⟩⟩ w).1.err =
      (runPipeline ⟨before, none⟩ w).1.err := rfl
  obtain ⟨filed, piped, hfiled, hpiped, hout, -, -⟩ :=
    file_carries_what_pipe_carries hbefore hwords hfilter hfile hsilent
  have hran : (runPipeline ⟨before ++ [⟨"tail", ["-1"]⟩], none⟩ w).1 = .completed
      ⟨0, "Type 'help' in the terminal to list commands.",
        "cat: missing: No such file or directory", none, false⟩ := by decide +kernel
  refine ⟨filed, piped, hfiled, hpiped, hout, ?_⟩
  obtain rfl := RunResult.completed.inj (hran.symm.trans hpiped)
  rfl

end DesktopTerminal
