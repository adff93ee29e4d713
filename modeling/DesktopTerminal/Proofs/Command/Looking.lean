import DesktopTerminal.Command.Execution

/-!
# Commands that only look

Most commands show something and change nothing. They leave the screen alone, and the workspace they
leave is the one they found, except that reading the piped input takes it away. There is one lemma a
command; what else is true of such commands follows from it without looking at the command again.
-/
namespace DesktopTerminal

/-- The second workspace is the first one, whatever has become of the piped input. -/
def Workspace.SameButInput (w w' : Workspace) : Prop := ∃ input, w' = { w with stdin := input }

theorem Workspace.SameButInput.refl (w : Workspace) : w.SameButInput w := ⟨w.stdin, rfl⟩

theorem Workspace.sameButInput_takeInput (w : Workspace) : w.SameButInput w.takeInput.2 :=
  ⟨none, rfl⟩

/-- The command takes its input at most, and leaves the screen alone. -/
def Looks (f : Workspace → Outcome × Workspace) : Prop :=
  ∀ w, (f w).1.clear = false ∧ w.SameButInput (f w).2

namespace Command

open Workspace (SameButInput)

theorem clear_ofDiagnostics (out : String) (diagnostics : List String) :
    (Outcome.ofDiagnostics out diagnostics).clear = false := by
  rw [Outcome.ofDiagnostics]
  split <;> rfl

theorem looks_cat (a : Arguments) : Looks (cat a) := by
  intro w
  rw [cat]
  split
  · exact ⟨rfl, w.sameButInput_takeInput⟩
  · exact ⟨clear_ofDiagnostics _ _, .refl w⟩

theorem clear_formatNow (pattern : String) (a : Arguments) (w : Workspace) :
    (formatNow pattern a w).clear = false := by
  rw [formatNow]
  split <;> rfl

theorem looks_date (a : Arguments) : Looks (date a) := by
  intro w
  rw [date]
  split
  · exact ⟨clear_formatNow _ a w, .refl w⟩
  · split
    · exact ⟨clear_formatNow _ a w, .refl w⟩
    · exact ⟨rfl, .refl w⟩

theorem looks_echo (a : Arguments) : Looks (echo a) := fun w => ⟨rfl, .refl w⟩

theorem clear_grepOutcome (count : Bool) (selected : List Selected) :
    (grepOutcome count selected).clear = false := by
  rw [grepOutcome]
  split <;> rfl

theorem looks_grep (a : Arguments) : Looks (grep a) := by
  intro w
  rw [grep]
  split
  · exact ⟨rfl, .refl w⟩
  · exact ⟨clear_grepOutcome _ _, w.sameButInput_takeInput⟩
  · split
    · exact ⟨clear_grepOutcome _ _, .refl w⟩
    · exact ⟨rfl, .refl w⟩

theorem looks_help (a : Arguments) : Looks (help a) := by
  intro w
  rw [help]
  split <;> exact ⟨rfl, .refl w⟩

theorem looks_history : Looks history := fun w => ⟨rfl, .refl w⟩

theorem looks_hostname : Looks hostname := fun w => ⟨rfl, .refl w⟩

theorem looks_whoami : Looks whoami := fun w => ⟨rfl, .refl w⟩

theorem looks_uname (a : Arguments) : Looks (uname a) := by
  intro w
  rw [uname]
  split
  · exact ⟨rfl, .refl w⟩
  · split <;> exact ⟨rfl, .refl w⟩

theorem looks_ps : Looks ps := fun w => ⟨rfl, .refl w⟩

theorem looks_pwd : Looks pwd := fun w => ⟨rfl, .refl w⟩

theorem looks_ls (a : Arguments) : Looks (ls a) := by
  intro w
  rw [ls]
  split
  · exact ⟨rfl, .refl w⟩
  · split
    · exact ⟨rfl, .refl w⟩
    · split <;> exact ⟨rfl, .refl w⟩

theorem clear_lineCount {tool : String} {numeral : Option String} {o : Outcome}
    (h : lineCount tool numeral = .error o) : o.clear = false := by
  cases numeral with
  | none => cases h
  | some numeral =>
    rw [lineCount] at h
    split at h
    · cases h
    · obtain rfl := Except.error.inj h
      rfl

/-- The count and the text that are asked for are looked up only. -/
theorem sameButInput_lineInput (tool : String) (a : Arguments) (w : Workspace) :
    w.SameButInput (lineInput tool a w).2 ∧
      ∀ o, (lineInput tool a w).1 = .error o → o.clear = false := by
  rw [lineInput]
  split
  rename_i dashed path _
  cases hcount : lineCount tool ((a.named? "lines").or dashed) with
  | error o =>
    refine ⟨.refl w, fun o' ho => ?_⟩
    obtain rfl := Except.error.inj ho
    exact clear_lineCount hcount
  | ok n =>
    cases path with
    | none => exact ⟨w.sameButInput_takeInput, fun o ho => by cases ho⟩
    | some operand =>
      simp only
      split
      · exact ⟨.refl w, fun o ho => by cases ho⟩
      · refine ⟨.refl w, fun o ho => ?_⟩
        obtain rfl := Except.error.inj ho
        rfl

theorem looks_selectCounted (tool : String) (select : Nat → String → String) (a : Arguments) :
    Looks (selectCounted tool select a) := by
  intro w
  obtain ⟨hsame, hclear⟩ := sameButInput_lineInput tool a w
  rw [selectCounted]
  split
  · rename_i o w' h
    rw [h] at hsame hclear
    exact ⟨hclear o rfl, hsame⟩
  · rename_i n text w' h
    rw [h] at hsame
    exact ⟨rfl, hsame⟩

end Command

end DesktopTerminal
