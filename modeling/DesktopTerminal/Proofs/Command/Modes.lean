import DesktopTerminal.Command.Files
import DesktopTerminal.Desktop
import DesktopTerminal.Proofs.Permissions.ModeText
import DesktopTerminal.Proofs.Tree.Refinement

/-!
# Changing modes

A mode that is read changes the mode of every operand that is there, and nothing else in the tree; the
others are reported as missing. A mode that is not read is refused before the first operand.
-/
namespace DesktopTerminal

namespace ModeChange

/-- A change does what the mode text says, does no more the second time, and sets none of the upper bits
in a wider word. -/
structure Means (change : ModeChange) (t : ModeText) : Prop where
  has_apply : ∀ (m : Mode) (who : UserClass) (access : Access),
    (change.apply m).has who access = t.bitAfter who access (m.has who access)
  apply_apply : ∀ m : Mode, change.apply (change.apply m) = change.apply m
  applyWide : ∀ m : Mode, (change.applyWide (m.setWidth 16)).toNat = (change.apply m).toNat ∧
    (change.applyWide (m.setWidth 16)).toNat ≤ 0o777

theorem exists_means (t : ModeText) : ∃ change, parse? t.text = some change ∧ change.Means t := by
  obtain ⟨change, hchange, happly⟩ := exists_parse?_text t
  refine ⟨change, hchange, happly, fun m => ?_, fun m => ?_⟩
  · refine Mode.ext_has fun who access => ?_
    rw [happly, happly]
    exact (t.keepsOrSets who access).twice _
  · have hwide : (change.applyWide (m.setWidth 16)).toNat = (change.apply m).toNat := by
      rw [change.applyWide_setWidth]
      exact BitVec.toNat_setWidth_of_le (by decide)
    have hlt := (change.apply m).isLt
    exact ⟨hwide, by omega⟩

/-- Changes the mode in the data of a node. -/
def onInfo (change : ModeChange) (info : Info) : Info :=
  { info with mode := change.apply info.mode }

/-- Changes the modes of what is at some paths of a map. -/
def onPaths (change : ModeChange) (ps : List (List String)) (m : PathMap) : PathMap :=
  { m with entry := fun q =>
      if q ∈ ps then (m.entry q).map (Item.withInfo change.onInfo) else m.entry q }

variable {change : ModeChange}

theorem onPaths_nil (m : PathMap) : change.onPaths [] m = m := by
  simp [onPaths]

/-- Where a change is made twice it is as if it had been made once. -/
theorem onPaths_onPaths (h : ∀ m, change.apply (change.apply m) = change.apply m)
    (ps qs : List (List String)) (m : PathMap) :
    change.onPaths qs (change.onPaths ps m) = change.onPaths (ps ++ qs) m := by
  have htwice : Item.withInfo change.onInfo ∘ Item.withInfo change.onInfo =
      Item.withInfo change.onInfo := by
    funext item
    cases item <;> simp [Item.withInfo, onInfo, h]
  ext1
  · funext q
    by_cases hp : q ∈ ps <;> by_cases hq : q ∈ qs <;> simp [onPaths, hp, hq, htwice]
  · rfl

end ModeChange

namespace Store

variable {text : String} {change : ModeChange}

theorem changeMode_eq (hread : ModeChange.parse? text = some change) (p : Path) (s : Store) :
    s.changeMode p text =
      if s.contains p then
        (.ok (), { s with root := s.root.update (Node.withInfo change.onInfo) p.segments })
      else (.error (.notFound p), s) := by
  rw [changeMode, Node.changeMode, Node.lookup, contains]
  cases s.root.descend? p.segments with
  | none => rfl
  | some n =>
    simp only [bind, Except.bind, hread]
    rfl

/-- The mode of what is at the path is changed, and nothing else. -/
theorem paths_changeMode (hread : ModeChange.parse? text = some change) (p : Path) (s : Store) :
    (s.changeMode p text).2.root.paths = change.onPaths [p.segments] s.root.paths := by
  rw [changeMode_eq hread, contains]
  cases hn : s.root.descend? p.segments with
  | none =>
    ext1
    · funext q
      by_cases hq : q = p.segments
      · simp [ModeChange.onPaths, hq, Node.entry_paths, hn]
      · simp [ModeChange.onPaths, hq]
    · rfl
  | some n =>
    simp only [Option.isSome_some, if_true, Node.paths_update_withInfo _ hn]
    ext1
    · funext q
      by_cases hq : q = p.segments
      · simp [ModeChange.onPaths, PathMap.set, hq, Node.entry_paths, hn]
      · simp [ModeChange.onPaths, PathMap.set, hq]
    · rfl

/-- The entry at the path keeps its kind and all else but the mode. -/
theorem stat_changeMode (hread : ModeChange.parse? text = some change) (p : Path) (s : Store) :
    (s.changeMode p text).2.stat p = (s.stat p).map fun e =>
      { e with permissions := ⟨e.permissions.kind, change.apply e.permissions.mode⟩ } := by
  rw [changeMode_eq hread, contains, stat, stat, Node.lookup, Node.lookup]
  cases hn : s.root.descend? p.segments with
  | none => simp [hn, Except.map, bind, Except.bind]
  | some n =>
    have hself := Node.descend?_update_self (Node.keepsName_withInfo change.onInfo) p.segments s.root
    rw [hn] at hself
    simp only [Option.isSome_some, if_true, hself, Option.map_some, bind, Except.bind, Except.map]
    cases p.isRoot <;> cases n <;> rfl

theorem contains_eq (s : Store) (p : Path) :
    s.contains p = (s.root.paths.entry p.segments).isSome := by
  rw [contains, Node.entry_paths, Option.isSome_map]

end Store

namespace Command

open Workspace (forEach)

variable {mode : String} {change : ModeChange}

/-- What is reported of an operand that is not there. -/
def missingOperand (operand : String) : String :=
  "chmod: cannot access '" ++ operand ++ "': No such file or directory"

theorem diagnostic_notFound (operand : String) (p : Path) :
    diagnostic "chmod: cannot access" operand (.notFound p) = missingOperand operand := by
  unfold missingOperand
  simp [diagnostic, Fault.reason, String.append_assoc]

/-- A workspace after the change of modes at some paths. -/
structure Rechanged (change : ModeChange) (ps : List (List String)) (w w' : Workspace) : Prop where
  paths : w'.store.root.paths = change.onPaths ps w.store.root.paths
  rest : w' = { w with store := { w.store with root := w'.store.root } }

theorem Rechanged.resolve_eq {ps : List (List String)} {w w' : Workspace}
    (h : Rechanged change ps w w') (operand : String) : w'.resolve operand = w.resolve operand := by
  rw [h.rest]
  rfl

theorem Rechanged.contains_eq {ps : List (List String)} {w w' : Workspace}
    (h : Rechanged change ps w w') (p : Path) : w'.store.contains p = w.store.contains p := by
  rw [Store.contains_eq, Store.contains_eq, h.paths, ModeChange.onPaths]
  simp only
  split <;> simp

theorem chmodOne_eq (hread : ModeChange.parse? mode = some change) (operand : String)
    (w : Workspace) :
    (chmodOne mode operand w).1 =
      (if w.store.contains (w.resolve operand) then none else some (missingOperand operand)) ∧
    Rechanged change [(w.resolve operand).segments] w (chmodOne mode operand w).2 := by
  refine ⟨?_, Store.paths_changeMode hread _ _, ?_⟩
  · simp only [chmodOne, Workspace.onStore, Store.changeMode_eq hread]
    split
    · rfl
    · exact congrArg some (diagnostic_notFound operand _)
  · simp only [chmodOne, Workspace.onStore, Store.changeMode_eq hread]
    split <;> rfl

/-- Each operand that is not there is reported, and the modes of the others are changed. -/
theorem forEach_chmodOne (hread : ModeChange.parse? mode = some change)
    (htwice : ∀ m, change.apply (change.apply m) = change.apply m) (operands : List String)
    (w : Workspace) :
    (forEach (chmodOne mode) operands w).1 =
      (operands.filter fun operand => !w.store.contains (w.resolve operand)).map missingOperand ∧
    Rechanged change (operands.map fun operand => (w.resolve operand).segments) w
      (forEach (chmodOne mode) operands w).2 := by
  induction operands generalizing w with
  | nil => exact ⟨rfl, (change.onPaths_nil _).symm, rfl⟩
  | cons operand operands ih =>
    obtain ⟨hreport, hone⟩ := chmodOne_eq hread operand w
    obtain ⟨hreports, hall⟩ := ih (chmodOne mode operand w).2
    rw [forEach, hreport, hreports]
    refine ⟨?_, ?_, ?_⟩
    · simp only [hone.resolve_eq, hone.contains_eq, List.filter_cons]
      cases w.store.contains (w.resolve operand) <;> rfl
    · simp only [hone.resolve_eq] at hall
      rw [hall.paths, hone.paths, ModeChange.onPaths_onPaths htwice]
      rfl
    · rw [hall.rest, hone.rest]

/-- The mode texts are exactly the texts that are read as a change of modes, and each is read as what it
means, whatever mode it is applied to. On a node that is there such a change never fails, and it keeps
the kind and all else but the mode. `chmod` refuses any other text before it touches an operand; with a
mode text it reports just the operands that are not there, and changes the modes of the others. -/
theorem mode_texts_read_and_meant (mode : String) :
    ((ModeChange.parse? mode).isSome ↔ ∃ t : ModeText, t.text = mode) ∧
    (∀ t : ModeText, t.text = mode → ∃ change, ModeChange.parse? mode = some change ∧
      change.Means t ∧
      (∀ (s : Store) (p : Path),
        (s.changeMode p mode).1 = (if s.contains p then .ok () else .error (.notFound p)) ∧
        (s.changeMode p mode).2.stat p = (s.stat p).map fun e =>
          { e with permissions := ⟨e.permissions.kind, change.apply e.permissions.mode⟩ }) ∧
      ∀ (operand : String) (rest : List String) (named : List (String × String))
        (flags : List String) (w : Workspace),
        let operands := operand :: rest
        let r := chmod ⟨mode :: operands, named, flags⟩ w
        r.1 = Outcome.ofDiagnostics "" ((operands.filter fun operand =>
          !w.store.contains (w.resolve operand)).map missingOperand) ∧
        Rechanged change (operands.map fun operand => (w.resolve operand).segments) w r.2) ∧
    ((∀ t : ModeText, t.text ≠ mode) →
      ∀ (operand : String) (rest : List String) (named : List (String × String))
        (flags : List String) (w : Workspace),
        chmod ⟨mode :: operand :: rest, named, flags⟩ w =
          (Outcome.failure 1 ("chmod: invalid mode: '" ++ mode ++ "'"), w)) := by
  refine ⟨ModeChange.parse?_isSome_iff, ?_, ?_⟩
  · rintro t rfl
    obtain ⟨change, hread, hmeans⟩ := ModeChange.exists_means t
    refine ⟨change, hread, hmeans, fun s p => ⟨?_, Store.stat_changeMode hread p s⟩, ?_⟩
    · rw [Store.changeMode_eq hread]
      split <;> rfl
    · intro operand rest named flags w operands r
      have hr : r = finishSilently (forEach (chmodOne t.text) operands w) := by
        simp only [r, chmod, operands, hread]
      obtain ⟨hreports, hchanged⟩ := forEach_chmodOne hread hmeans.apply_apply operands w
      rw [hr, finishSilently, hreports]
      exact ⟨rfl, hchanged⟩
  · intro hnone operand rest named flags w
    have hunread : ModeChange.parse? mode = none := by
      refine Option.eq_none_iff_forall_ne_some.mpr fun change hread => ?_
      obtain ⟨t, ht⟩ := ModeChange.exists_text_of_parse? hread
      exact hnone t ht
    simp only [chmod, hunread]

/-- Clauses act one after another on the same bits, and the operand that is named twice is changed as if
it had been named once. -/
theorem modes_of_folder_changed_twice :
    let s := Desktop.newStore Config.standard ⟨0, 0⟩
    let w : Workspace := ⟨s, Windows.empty, "desktop", s.home, none, none, [], ⟨0, 0⟩⟩
    let t : ModeText := .symbolic ⟨['u', 'g'], .assign, ['w'], by simp, by simp⟩
      [⟨['g', 'o'], .remove, ['r'], by simp, by simp⟩, ⟨[], .add, ['x'], by simp, by simp⟩]
    let r := chmod ⟨["ug=w,go-r,+x", "Documents", "nofile", "./Documents"], [], []⟩ w
    t.text = "ug=w,go-r,+x" ∧
      (∃ change, ModeChange.parse? "ug=w,go-r,+x" = some change ∧ ∀ m : Mode,
        (change.apply m).has .user .read = false ∧ (change.apply m).has .group .write = true ∧
        (change.apply m).has .others .write = m.has .others .write) ∧
      r.1.err = "chmod: cannot access 'nofile': No such file or directory" ∧ r.1.code = 1 ∧
      ((r.2.store.stat (w.resolve "Documents")).map fun e => e.permissions.render) =
        .ok "d-wx-wx--x" := by
  intro s w t r
  have ht : t.text = "ug=w,go-r,+x" := by decide +kernel
  obtain ⟨change, hread, hmeans, _, hchmod⟩ :=
    (mode_texts_read_and_meant "ug=w,go-r,+x").2.1 t ht
  obtain ⟨houtcome, _⟩ := hchmod "Documents" ["nofile", "./Documents"] [] [] w
  have hr : r.1 = Outcome.ofDiagnostics "" [missingOperand "nofile"] :=
    houtcome.trans (by decide +kernel)
  refine ⟨ht, ⟨change, hread, fun m => ⟨?_, ?_, ?_⟩⟩, ?_, ?_, by decide +kernel⟩
  · exact hmeans.has_apply m .user .read
  · exact hmeans.has_apply m .group .write
  · exact hmeans.has_apply m .others .write
  · rw [hr]
    decide +kernel
  · rw [hr]
    rfl

end Command
end DesktopTerminal
