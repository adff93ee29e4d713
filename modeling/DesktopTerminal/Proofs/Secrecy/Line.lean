import DesktopTerminal.Proofs.Secrecy.Command
import DesktopTerminal.Session.Basic

/-!
# Lines and contents

Pipes carry contents from one command to the next, and a redirect carries them into a file. Two runs
of a line on workspaces that differ in contents still leave workspaces that differ in contents only,
and the line is delegated in both or in neither.
-/
namespace DesktopTerminal

theorem Blind.alike {f : Workspace → Outcome × Workspace} (h : Blind f) {w v : Workspace}
    (hwv : w.bare = v.bare) :
    (f w).1.clear = (f v).1.clear ∧ (f w).2.bare = (f v).2.bare := by
  obtain ⟨hcw, hw⟩ := h w
  obtain ⟨hcv, hv⟩ := h v
  rw [← hcw, ← hw, ← hcv, ← hv, hwv]
  exact ⟨rfl, rfl⟩

/-- Whatever is piped in, a command does the same to what is not contents. -/
theorem Invocation.run_alike (i : Invocation) (x y : Option String) {w v : Workspace}
    (hwv : w.bare = v.bare) :
    (i.run x w).1.clear = (i.run y v).1.clear ∧ (i.run x w).2.bare = (i.run y v).2.bare := by
  rw [run, run]
  cases readArguments i.builtin.schema i.words with
  | error fault => exact ⟨rfl, hwv⟩
  | ok a =>
    have hinput :
        ({ w with stdin := x } : Workspace).bare = ({ v with stdin := y } : Workspace).bare := hwv
    exact (i.builtin.blind_run a).alike hinput

theorem runSegments_alike (is : List Invocation) (x y : Option String) {p q : Progress}
    {w v : Workspace} (hpq : p.clear = q.clear) (hwv : w.bare = v.bare) :
    (runSegments is x p w).1.clear = (runSegments is y q v).1.clear ∧
      (runSegments is x p w).2.bare = (runSegments is y q v).2.bare := by
  induction is generalizing x y p q w v with
  | nil => exact ⟨hpq, hwv⟩
  | cons i rest ih =>
    obtain ⟨hclear, hbare⟩ := i.run_alike x y hwv
    refine ih _ _ ?_ hbare
    change (p.clear || (i.run x w).1.clear) = (q.clear || (i.run y v).1.clear)
    rw [hpq, hclear]

/-- The operation by which a redirect puts output into a file. -/
def Line.Redirect.operation (r : Line.Redirect) (target : Path) (out : String) : Store.Operation :=
  match r.kind with
  | .overwrite => .write target out
  | .append => .append target out

theorem applyRedirect_eq (r : Line.Redirect) (p : Progress) (w : Workspace) :
    (applyRedirect r p w).1.clear = p.clear ∧
      (applyRedirect r p w).2 = { w with
        store := (w.store.apply (r.operation (w.resolve r.target) p.last.out) w.now).2 } := by
  rw [applyRedirect, Line.Redirect.operation]
  cases r.kind with
  | overwrite =>
    simp only [Workspace.onStore]
    split <;> exact ⟨rfl, rfl⟩
  | append =>
    simp only [Workspace.onStore]
    split <;> exact ⟨rfl, rfl⟩

/-- What goes into the file is content; that it goes there is not. -/
theorem applyRedirect_alike (r : Line.Redirect) {p q : Progress} {w v : Workspace}
    (hpq : p.clear = q.clear) (hwv : w.bare = v.bare) :
    (applyRedirect r p w).1.clear = (applyRedirect r q v).1.clear ∧
      (applyRedirect r p w).2.bare = (applyRedirect r q v).2.bare := by
  have hbare : ∀ (p : Progress) (w : Workspace), (applyRedirect r p w).2.bare = { w.bare with
      store := (w.bare.store.apply (r.operation (w.bare.resolve r.target) "") w.bare.now).2 } := by
    intro p w
    have hop : (r.operation (w.resolve r.target) p.last.out).bare =
        r.operation (w.bare.resolve r.target) "" := by
      rw [Line.Redirect.operation, Line.Redirect.operation]
      cases r.kind <;> rfl
    have hstore := Store.apply_bare (r.operation (w.resolve r.target) p.last.out) w.now w.store
    rw [hop] at hstore
    rw [(applyRedirect_eq r p w).2]
    exact congrArg (fun result => ({ w.bare with store := result.2 } : Workspace)) hstore.symm
  constructor
  · rw [(applyRedirect_eq r p w).1, (applyRedirect_eq r q v).1, hpq]
  · rw [hbare, hbare, hwv]

/-- Two lines have gone the same way. -/
def RunResult.Alike : RunResult → RunResult → Prop
  | .completed o, .completed o' => o.clear = o'.clear
  | .delegate command, .delegate command' => command = command'
  | _, _ => False

theorem runPipeline_alike (line : Line.Pipeline) {w v : Workspace} (hwv : w.bare = v.bare) :
    (runPipeline line w).1.Alike (runPipeline line v).1 ∧
      (runPipeline line w).2.bare = (runPipeline line v).2.bare := by
  rw [runPipeline, runPipeline]
  cases resolveAll line.commands with
  | error name => exact ⟨rfl, hwv⟩
  | ok invocations =>
    have hran := @runSegments_alike invocations none none Progress.start Progress.start w v rfl hwv
    cases line.redirect with
    | none => exact hran
    | some r => exact applyRedirect_alike r hran.1 hran.2

namespace Session

/-- Two lines have gone the same way, and left workspaces that differ in contents only. -/
def LineResult.Alike : LineResult → LineResult → Prop
  | .completed o w, .completed o' v => o.clear = o'.clear ∧ w.bare = v.bare
  | .delegate command, .delegate command' => command = command'
  | .malformed cause, .malformed cause' => cause = cause'
  | _, _ => False

theorem runLine_alike (line : String) {w v : Workspace} (hwv : w.bare = v.bare) :
    (runLine line w).Alike (runLine line v) := by
  rw [runLine, runLine]
  cases Line.parse line with
  | error m =>
    simp only
    split
    · rfl
    · split <;> rfl
  | ok pipeline =>
    obtain ⟨hresult, hbare⟩ := runPipeline_alike pipeline hwv
    cases hw : runPipeline pipeline w with
    | mk result w' =>
      cases hv : runPipeline pipeline v with
      | mk result' v' =>
        rw [hw, hv] at hresult hbare
        simp only [hw, hv]
        cases result with
        | completed o =>
          cases result' with
          | completed o' => exact ⟨hresult, hbare⟩
          | delegate command => exact hresult.elim
        | delegate command =>
          cases result' with
          | completed o' => exact hresult.elim
          | delegate command' => exact hresult

end Session

end DesktopTerminal
