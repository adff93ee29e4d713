import DesktopTerminal.Proofs.Command.Looking
import DesktopTerminal.Proofs.Secrecy.Store

/-!
# Commands and contents

A command may show contents, and what it shows may go through pipes and into files. It goes nowhere
else: apart from its output, what a command does to the bare workspace is what it does to the
workspace. Of a command that only looks there is nothing more to say; the others hand each operand to
one operation of the store.
-/
namespace DesktopTerminal

namespace Workspace

/-- The workspace without contents, and without the piped input and the name of the host, which are
good for output only. -/
def bare (w : Workspace) : Workspace :=
  { w with store := w.store.bare, hostname := "", stdin := none }

@[simp] theorem bare_bare (w : Workspace) : w.bare.bare = w.bare := by
  simp only [bare, Store.bare_bare]

@[simp] theorem resolve_bare (target : String) (w : Workspace) :
    w.bare.resolve target = w.resolve target := rfl

/-- An operation that is the same on the bare store is the same on the bare workspace. -/
theorem onStore_bare {f g : Store → Except Fault Unit × Store}
    (h : ∀ s, g s.bare = ((f s).1, (f s).2.bare)) (w : Workspace) :
    w.bare.onStore g = ((w.onStore f).1, (w.onStore f).2.bare) := by
  simp only [onStore, bare, h]

theorem forEach_bare {handle : String → Workspace → Option String × Workspace}
    (h : ∀ operand w, handle operand w.bare = ((handle operand w).1, (handle operand w).2.bare))
    (operands : List String) (w : Workspace) :
    forEach handle operands w.bare =
      ((forEach handle operands w).1, (forEach handle operands w).2.bare) := by
  induction operands generalizing w with
  | nil => rfl
  | cons operand rest ih => simp only [forEach, h, ih]

/-- The bare workspace has no piped input. -/
theorem SameButInput.bare_eq {w w' : Workspace} (h : SameButInput w w') : w'.bare = w.bare := by
  obtain ⟨input, rfl⟩ := h
  rfl

end Workspace

/-- Apart from its output, the command does the same to the bare workspace. -/
def Blind (f : Workspace → Outcome × Workspace) : Prop :=
  ∀ w, (f w.bare).1.clear = (f w).1.clear ∧ (f w.bare).2.bare = (f w).2.bare

/-- The command comes to the same in the bare workspace, its output included. -/
def Unaffected (f : Workspace → Outcome × Workspace) : Prop :=
  ∀ w, f w.bare = ((f w).1, (f w).2.bare)

theorem Unaffected.blind {f : Workspace → Outcome × Workspace} (h : Unaffected f) : Blind f := by
  intro w
  rw [h w]
  exact ⟨rfl, Workspace.bare_bare _⟩

theorem Looks.blind {f : Workspace → Outcome × Workspace} (h : Looks f) : Blind f := by
  intro w
  obtain ⟨hclear, hlooked⟩ := h w
  obtain ⟨hclear', hlooked'⟩ := h w.bare
  exact ⟨hclear'.trans hclear.symm, hlooked'.bare_eq.trans (w.bare_bare.trans hlooked.bare_eq.symm)⟩

namespace Command

open Workspace (forEach forEach_bare onStore_bare)

/-! ## Commands that change something -/

theorem kind_bare (p : Path) (w : Workspace) : w.bare.store.kind p = w.store.kind p :=
  Store.kind_bare p w.store

theorem unaffected_cdTo (operand : String) : Unaffected (cdTo operand) := by
  intro w
  have htarget : cdTarget operand w.bare = cdTarget operand w := rfl
  rw [cdTo, cdTo, htarget]
  cases cdTarget operand w with
  | none => rfl
  | some p =>
    simp only [kind_bare]
    cases w.store.kind p with
    | error fault => rfl
    | ok kind => cases kind <;> rfl

theorem unaffected_cd (a : Arguments) : Unaffected (cd a) := by
  intro w
  rw [cd, cd]
  split
  · exact unaffected_cdTo "~" w
  · exact unaffected_cdTo _ w
  · rfl

theorem unaffected_clear : Unaffected fun w => (Outcome.wiped, w) := fun _ => rfl

theorem unaffected_killNumber (number : Nat) : Unaffected (killNumber number) := by
  intro w
  have hwindows : w.bare.windows = w.windows := rfl
  rw [killNumber, killNumber, hwindows]
  split
  · rfl
  · cases w.windows.windows.find? fun v => processNumber v.id = number with
    | none => rfl
    | some v =>
      cases hclose : w.windows.close v.id with
      | mk closed windows => cases closed <;> simp only [hclose] <;> rfl

theorem unaffected_kill (a : Arguments) : Unaffected (kill a) := by
  intro w
  rw [kill, kill]
  split
  · rfl
  · split
    · rfl
    · exact unaffected_killNumber _ w

/-! ### Operands handed to the store -/

/-- A report on one operand that is the same in the bare workspace. -/
def UnaffectedOn (handle : String → Workspace → Option String × Workspace) : Prop :=
  ∀ operand w, handle operand w.bare = ((handle operand w).1, (handle operand w).2.bare)

theorem finishSilently_bare {handle : String → Workspace → Option String × Workspace}
    (h : UnaffectedOn handle) (operands : List String) :
    Unaffected fun w => finishSilently (forEach handle operands w) := by
  intro w
  simp only [forEach_bare h]
  rfl

/-- An operation of the store that brings no content, and its report. -/
theorem report_bare {f : Store → Except Fault Unit × Store}
    (h : ∀ s, f s.bare = ((f s).1, (f s).2.bare)) (report : Except Fault Unit → Option String)
    (w : Workspace) :
    (report (w.bare.onStore f).1, (w.bare.onStore f).2) =
      (report (w.onStore f).1, (w.onStore f).2.bare) := by
  rw [onStore_bare h]

theorem unaffectedOn_touchOne : UnaffectedOn touchOne := by
  intro operand w
  have hcontains : w.bare.store.contains (w.bare.resolve operand) =
      w.store.contains (w.resolve operand) := Store.contains_bare _ _
  rw [touchOne, touchOne]
  simp only [hcontains]
  split
  · rfl
  · exact report_bare (fun s => Store.apply_bare (.write (w.resolve operand) "") w.now s) _ w

theorem unaffected_touch (a : Arguments) : Unaffected (touch a) := by
  intro w
  rw [touch, touch]
  split
  · rfl
  · exact finishSilently_bare unaffectedOn_touchOne a.positional w

theorem unaffectedOn_chmodOne (mode : String) : UnaffectedOn (chmodOne mode) := by
  intro operand w
  exact report_bare (fun s => Store.apply_bare (.changeMode (w.resolve operand) mode) w.now s) _ w

theorem unaffected_chmod (a : Arguments) : Unaffected (chmod a) := by
  intro w
  rw [chmod, chmod]
  split
  · rfl
  · rfl
  · split
    · rfl
    · exact finishSilently_bare (unaffectedOn_chmodOne _) _ w

theorem makeParents_bare (now : Instant) (above : Path) (segments : List String) (s : Store) :
    makeParents now above segments s.bare =
      ((makeParents now above segments s).1, (makeParents now above segments s).2.bare) := by
  induction segments generalizing above s with
  | nil => rfl
  | cons segment rest ih =>
    have hmake : s.bare.makeDirectory (above.join segment) now =
        ((s.makeDirectory (above.join segment) now).1,
          (s.makeDirectory (above.join segment) now).2.bare) :=
      Store.apply_bare (.makeDirectory (above.join segment)) now s
    rw [makeParents, makeParents]
    simp only [Store.kind_bare, hmake]
    cases s.kind (above.join segment) with
    | ok kind =>
      cases kind with
      | directory => exact ih _ s
      | file => rfl
    | error fault =>
      simp only
      split
      · cases s.makeDirectory (above.join segment) now with
        | mk result made =>
          cases result with
          | ok => exact ih _ made
          | error fault => rfl
      · rfl

theorem unaffectedOn_mkdirOne (parents : Bool) : UnaffectedOn (mkdirOne parents) := by
  intro operand w
  rw [mkdirOne, mkdirOne]
  cases parents with
  | true => exact report_bare (makeParents_bare w.now Path.root _) _ w
  | false =>
    exact report_bare (fun s => Store.apply_bare (.makeDirectory (w.resolve operand)) w.now s) _ w

theorem unaffected_mkdir (a : Arguments) : Unaffected (mkdir a) := by
  intro w
  rw [mkdir, mkdir]
  split
  · rfl
  · exact finishSilently_bare (unaffectedOn_mkdirOne _) a.positional w

theorem unaffectedOn_rmOne (recursive force : Bool) : UnaffectedOn (rmOne recursive force) := by
  intro operand w
  rw [rmOne, rmOne]
  split
  · rfl
  · simp only [kind_bare, Workspace.resolve_bare]
    cases w.store.kind (w.resolve operand) with
    | error fault =>
      simp only
      split <;> rfl
    | ok kind =>
      simp only
      split
      · rfl
      · exact report_bare (fun s => Store.apply_bare (.delete (w.resolve operand)) w.now s) _ w

theorem unaffected_rm (a : Arguments) : Unaffected (rm a) := by
  intro w
  rw [rm, rm]
  split
  · rfl
  · exact finishSilently_bare (unaffectedOn_rmOne _ _) a.positional w

theorem destinationOf_bare (operand : String) (w : Workspace) :
    destinationOf operand w.bare = destinationOf operand w := by
  simp only [destinationOf, kind_bare, Workspace.resolve_bare]

theorem unaffected_transfer (tool : String)
    {one : Destination → String → Workspace → Option String × Workspace}
    (h : ∀ d, UnaffectedOn (one d)) (a : Arguments) : Unaffected (transfer tool one a) := by
  intro w
  rw [transfer, transfer]
  split
  · rfl
  · simp only [destinationOf_bare]
    split
    · rfl
    · exact finishSilently_bare (h _) _ w

theorem unaffectedOn_cpOne (recursive : Bool) (d : Destination) :
    UnaffectedOn (cpOne recursive d) := by
  intro operand w
  rw [cpOne, cpOne, Workspace.resolve_bare]
  simp only [kind_bare]
  cases w.store.kind (w.resolve operand) with
  | error fault => rfl
  | ok kind =>
    simp only
    split
    · rfl
    · split
      · rfl
      · exact report_bare (fun s => Store.apply_bare (.copy (w.resolve operand) _) w.now s) _ w

theorem unaffectedOn_mvOne (d : Destination) : UnaffectedOn (mvOne d) := by
  intro operand w
  rw [mvOne, mvOne, Workspace.resolve_bare]
  simp only [kind_bare]
  cases w.store.kind (w.resolve operand) with
  | error fault => rfl
  | ok kind =>
    simp only
    split
    · rfl
    · exact report_bare (fun s => Store.apply_bare (.move (w.resolve operand) _) w.now s) _ w

end Command

/-- What a command does, besides its output, does not depend on contents. -/
theorem Builtin.blind_run (b : Builtin) (a : Arguments) : Blind (b.run a) := by
  cases b with
  | cat => exact (Command.looks_cat a).blind
  | cd => exact (Command.unaffected_cd a).blind
  | chmod => exact (Command.unaffected_chmod a).blind
  | clear => exact Command.unaffected_clear.blind
  | cp => exact (Command.unaffected_transfer "cp" (Command.unaffectedOn_cpOne _) a).blind
  | date => exact (Command.looks_date a).blind
  | echo => exact (Command.looks_echo a).blind
  | grep => exact (Command.looks_grep a).blind
  | head => exact (Command.looks_selectCounted _ _ a).blind
  | help => exact (Command.looks_help a).blind
  | history => exact Command.looks_history.blind
  | hostname => exact Command.looks_hostname.blind
  | kill => exact (Command.unaffected_kill a).blind
  | ls => exact (Command.looks_ls a).blind
  | mkdir => exact (Command.unaffected_mkdir a).blind
  | mv => exact (Command.unaffected_transfer "mv" Command.unaffectedOn_mvOne a).blind
  | ps => exact Command.looks_ps.blind
  | pwd => exact Command.looks_pwd.blind
  | rm => exact (Command.unaffected_rm a).blind
  | tail => exact (Command.looks_selectCounted _ _ a).blind
  | touch => exact (Command.unaffected_touch a).blind
  | uname => exact (Command.looks_uname a).blind
  | whoami => exact Command.looks_whoami.blind

end DesktopTerminal
