import DesktopTerminal.Desktop
import DesktopTerminal.Command.Builtin
import DesktopTerminal.Proofs.Command.Parents
import DesktopTerminal.Proofs.Tree.Atomicity
import DesktopTerminal.Proofs.Tree.Transplant

/-!
# Operands that name nothing

An operand that consists of slashes, `.` and `..` names no entry, and `rm` is to remove nothing through
it. If it ends in a step it is refused for its text, and if it has slashes only it is the root, which is
never removed. The empty operand is neither: it resolves to where one is, and that is taken out.
-/
namespace DesktopTerminal

/-- All pieces of the operand are steps: it names no entry. -/
def Nameless (operand : String) : Prop :=
  ∀ piece ∈ Text.splitAt '/' operand, piece = "" ∨ piece = "." ∨ piece = ".."

instance (operand : String) : Decidable (Nameless operand) :=
  inferInstanceAs (Decidable (∀ _ ∈ _, _))

namespace Nameless

variable {operand : String}

/-- There is no way down from the root without names. -/
theorem foldl_step_root {pieces : List String}
    (h : ∀ piece ∈ pieces, piece = "" ∨ piece = "." ∨ piece = "..") :
    pieces.foldl Path.step [] = [] := by
  induction pieces with
  | nil => rfl
  | cons piece pieces ih =>
    obtain ⟨hpiece, hpieces⟩ := List.forall_mem_cons.mp h
    have hstep : Path.step [] piece = [] := by
      rcases hpiece with rfl | rfl | rfl <;> rfl
    rw [List.foldl_cons, hstep]
    exact ih hpieces

/-- With a slash in front such an operand is the root. -/
theorem resolve_slash (h : Nameless operand) (hslash : operand.toList.head? = some '/')
    (base home : Path) : Path.resolve base operand home = Path.root := by
  simp [Path.resolve, hslash, foldl_step_root h, Path.root]

/-- The guard knows such an operand by its last piece, unless there are slashes only. -/
theorem isDotOperand_or_slashes (h : Nameless operand) :
    Command.isDotOperand operand = true ∨ ∀ c ∈ operand.toList, c = '/' := by
  let kept := Text.dropEndWhile (· == '/') operand.toList
  rcases List.eq_nil_or_concat kept with hkept | ⟨front, c, hkept⟩
  · right
    intro c hc
    have hslash := List.rdropWhile_eq_nil_iff.mp hkept c hc
    exact eq_of_beq hslash
  · left
    have hne : kept ≠ [] := by simp [hkept]
    have hc : (c == '/') = false := by
      have hlast := List.rdropWhile_last_not (· == '/') operand.toList hne
      have hget : kept.getLast hne = c := by simp [hkept]
      rw [← Bool.not_eq_true, ← hget]
      exact hlast
    obtain ⟨last, hlast⟩ := Text.getLast?_cut_concat (p := (· == '/')) hc front
    have hmem : last ++ [c] ∈ Text.cut (· == '/') operand.toList := by
      refine Text.cut_dropEndWhile_subset _ _ (List.mem_of_getLast? ?_)
      rw [← hlast, ← List.concat_eq_append, ← hkept]
    have hsteps := h _ (List.mem_map_of_mem hmem)
    have hpiece : last ++ [c] = ['.'] ∨ last ++ [c] = ['.', '.'] := by
      rcases hsteps with hempty | hdot | hup
      · simp at hempty
      · exact .inl (by simpa using congrArg String.toList hdot)
      · exact .inr (by simpa using congrArg String.toList hup)
    have hguard : Command.isDotOperand operand =
        (some (last ++ [c]) == some ['.'] || some (last ++ [c]) == some ['.', '.']) := by
      rw [Command.isDotOperand, ← hlast, ← List.concat_eq_append, ← hkept]
    rw [hguard]
    rcases hpiece with hpiece | hpiece <;> rw [hpiece] <;> rfl

end Nameless

/-! ## Taking out makes smaller -/

namespace Node

theorem sizeOf_remove_lt {name : String} {ns : List Node} {n : Node} (h : find? name ns = some n) :
    sizeOf (remove name ns) < sizeOf ns := by
  induction ns with
  | nil => cases h
  | cons m ns ih =>
    rw [find?] at h
    rw [remove]
    split at h
    next hname =>
      rw [if_pos hname, List.cons.sizeOf_spec]
      omega
    next hname =>
      have hlt := ih h
      rw [if_neg hname, List.cons.sizeOf_spec, List.cons.sizeOf_spec]
      omega

theorem sizeOf_change_lt {name : String} {f : Node → Node} {ns : List Node} {n : Node}
    (h : find? name ns = some n) (hf : sizeOf (f n) < sizeOf n) :
    sizeOf (change name f ns) < sizeOf ns := by
  induction ns with
  | nil => cases h
  | cons m ns ih =>
    rw [find?] at h
    rw [change]
    split at h
    next hname =>
      obtain rfl := Option.some.inj h
      rw [if_pos hname, List.cons.sizeOf_spec, List.cons.sizeOf_spec]
      omega
    next hname =>
      have hlt := ih h
      rw [if_neg hname, List.cons.sizeOf_spec, List.cons.sizeOf_spec]
      omega

/-- Who changes children for smaller ones is smaller. -/
theorem sizeOf_withChildren_lt {g : List Node → List Node} {n : Node}
    (h : sizeOf (g n.children) < sizeOf n.children) : sizeOf (n.withChildren g) < sizeOf n := by
  cases n with
  | file name info content =>
    simp only [children, List.nil.sizeOf_spec] at h
    cases hg : g [] <;> simp [hg] at h
  | directory name info children =>
    simp only [withChildren, directory.sizeOf_spec]
    have hlt : sizeOf (g children) < sizeOf children := h
    omega

theorem sizeOf_update_lt {f : Node → Node} {p : List String} {n m : Node}
    (h : n.descend? p = some m) (hf : sizeOf (f m) < sizeOf m) : sizeOf (n.update f p) < sizeOf n := by
  induction p generalizing n with
  | nil =>
    obtain rfl := Option.some.inj h
    exact hf
  | cons name p ih =>
    rw [descend?_cons] at h
    obtain ⟨c, hc, hm⟩ := Option.bind_eq_some_iff.mp h
    exact sizeOf_withChildren_lt (sizeOf_change_lt hc (ih hm))

theorem sizeOf_without_lt {root n : Node} {p : Path} (hne : p.segments ≠ [])
    (h : root.descend? p.segments = some n) : sizeOf (root.without p) < sizeOf root := by
  obtain ⟨spot, hs, hn, hrest⟩ := detach_eq_ok (exists_detach hne h)
  obtain ⟨name, info, hdir⟩ := hs.held
  have hfound : find? spot.name spot.siblings = some n := hs.descend?_eq.symm.trans hn
  rw [hrest]
  exact sizeOf_update_lt hdir (sizeOf_withChildren_lt (sizeOf_remove_lt hfound))

theorem sizeOf_without_le (root : Node) (p : Path) : sizeOf (root.without p) ≤ sizeOf root := by
  cases hd : root.detach p with
  | error fault =>
    rw [without, hd]
  | ok r =>
    obtain ⟨spot, hs, hn, _⟩ := detach_eq_ok hd
    have hne : p.segments ≠ [] := by simp [hs.segments]
    exact (sizeOf_without_lt hne hn).le

end Node

namespace Command

open Workspace (forEach)

/-- Where one is can be removed: it is there and not the root, and a directory may be removed. -/
def Removable (recursive : Bool) (w : Workspace) : Prop :=
  w.cwd.segments ≠ [] ∧
    ∃ kind, w.store.kind w.cwd = .ok kind ∧ (kind = .directory → recursive = true)

/-- The workspace with the directory one is in taken out of its tree. -/
def withoutCwd (w : Workspace) : Workspace :=
  { w with store := { w.store with root := w.store.root.without (w.resolve "") } }

variable {recursive force : Bool} {operand : String} {w : Workspace}

theorem kind_resolve_empty_iff {kind : Kind} :
    w.store.kind (w.resolve "") = .ok kind ↔ w.store.kind w.cwd = .ok kind := by
  rw [Store.kind_eq_ok_iff, Store.kind_eq_ok_iff]
  rfl

/-! ## One operand -/

/-- The root is never removed. -/
theorem rmOne_root (h : w.resolve operand = Path.root) : (rmOne recursive force operand w).2 = w := by
  unfold rmOne
  split
  · rfl
  · simp only [h]
    split
    · split <;> rfl
    · split <;> rfl

theorem rmOne_nameless (h : Nameless operand) (hne : operand ≠ "") :
    (rmOne recursive force operand w).2 = w := by
  rcases h.isDotOperand_or_slashes with hguard | hslashes
  · rw [rmOne, if_pos hguard]
  · obtain ⟨c, cs, hcs⟩ := List.exists_cons_of_ne_nil (mt String.toList_eq_nil_iff.mp hne)
    have hslash : operand.toList.head? = some '/' := by
      rw [hcs, List.head?_cons, hslashes c (hcs ▸ List.mem_cons_self)]
    exact rmOne_root (h.resolve_slash hslash w.cwd w.store.home)

/-- The empty operand takes out where one is, if that can be removed. -/
theorem rmOne_empty_of_removable (h : Removable recursive w) :
    (rmOne recursive force "" w).2 = withoutCwd w := by
  obtain ⟨hne, kind, hkind, hrecursive⟩ := h
  have hplace : w.resolve "" = ⟨true, w.cwd.segments⟩ := rfl
  have hthere : w.store.kind (w.resolve "") = .ok kind := kind_resolve_empty_iff.mpr hkind
  obtain ⟨n, hn, _⟩ := Option.map_eq_some_iff.mp (Store.kind_eq_ok_iff.mp hkind)
  have hroot : (w.resolve "").isRoot = false := by simp [hplace, Path.isRoot, hne]
  have hdelete : w.store.root.delete (w.resolve "") = .ok (w.store.root.without (w.resolve "")) := by
    rw [Node.delete, hroot, Node.exists_detach (p := w.resolve "") hne hn]
    rfl
  have hdot : isDotOperand "" = false := by decide +kernel
  have hmay : ¬(kind = .directory ∧ (!recursive) = true) := by simpa using hrecursive
  simp only [rmOne, hdot, Bool.false_eq_true, if_false, hthere, hmay, Workspace.onStore,
    Store.delete, hdelete, Store.commit]
  rfl

theorem rmOne_empty_of_not_removable (h : ¬ Removable recursive w) :
    (rmOne recursive force "" w).2 = w := by
  by_cases hroot : w.cwd.segments = []
  · exact rmOne_root (congrArg (Path.mk true) hroot)
  · have hdot : isDotOperand "" = false := by decide +kernel
    rw [rmOne, if_neg (by simp [hdot])]
    simp only
    split
    · split <;> rfl
    next kind hthere =>
      have hkind : w.store.kind w.cwd = .ok kind := kind_resolve_empty_iff.mp hthere
      have hrefused : kind = .directory ∧ (!recursive) = true := by
        by_contra hmay
        exact h ⟨hroot, kind, hkind, by simpa using hmay⟩
      rw [if_pos hrefused]

/-! ## All operands -/

/-- Nothing is removed but, perhaps more than once, where one is. -/
theorem forEach_rmOne_nameless {operands : List String} (h : ∀ operand ∈ operands, Nameless operand)
    (w : Workspace) :
    ∃ n ≤ operands.count "", (forEach (rmOne recursive force) operands w).2 = withoutCwd^[n] w ∧
      (0 < n ↔ "" ∈ operands ∧ Removable recursive w) := by
  induction operands generalizing w with
  | nil => exact ⟨0, Nat.le_refl _, rfl, by simp⟩
  | cons operand rest ih =>
    obtain ⟨hoperand, hrest⟩ := List.forall_mem_cons.mp h
    by_cases hempty : operand = ""
    · subst hempty
      by_cases hremovable : Removable recursive w
      · obtain ⟨n, hn, hrun, _⟩ := ih hrest (withoutCwd w)
        refine ⟨n + 1, ?_, ?_, by simp [hremovable]⟩
        · rw [List.count_cons_self]
          omega
        · rw [forEach, rmOne_empty_of_removable hremovable]
          exact hrun
      · obtain ⟨n, hn, hrun, hpos⟩ := ih hrest w
        refine ⟨n, ?_, ?_, by simp [hpos, hremovable]⟩
        · rw [List.count_cons_self]
          omega
        · rw [forEach, rmOne_empty_of_not_removable hremovable]
          exact hrun
    · obtain ⟨n, hn, hrun, hpos⟩ := ih hrest w
      refine ⟨n, ?_, ?_, ?_⟩
      · rw [List.count_cons_of_ne hempty]
        exact hn
      · rw [forEach, rmOne_nameless hoperand hempty]
        exact hrun
      · rw [hpos, List.mem_cons]
        simp [Ne.symm hempty]

theorem sizeOf_iterate_withoutCwd_le (n : Nat) (w : Workspace) :
    sizeOf (withoutCwd^[n] w).store.root ≤ sizeOf w.store.root := by
  induction n generalizing w with
  | zero => exact Nat.le_refl _
  | succ n ih => exact (ih (withoutCwd w)).trans (Node.sizeOf_without_le _ _)

/-- What can be removed is missing afterwards, however often one removes. -/
theorem exported_iterate_withoutCwd_ne {n : Nat} (hn : 0 < n) (h : Removable recursive w) :
    (withoutCwd^[n] w).store.exported ≠ w.store.exported := by
  obtain ⟨n, rfl⟩ := Nat.exists_eq_add_one.mpr hn
  obtain ⟨hne, kind, hkind, _⟩ := h
  obtain ⟨m, hm, _⟩ := Option.map_eq_some_iff.mp (Store.kind_eq_ok_iff.mp hkind)
  have hlt : sizeOf (withoutCwd w).store.root < sizeOf w.store.root :=
    Node.sizeOf_without_lt (p := w.resolve "") hne hm
  intro hsame
  have hroot : (withoutCwd^[n] (withoutCwd w)).store.root = w.store.root :=
    Store.exported_eq_iff.mp hsame
  have hle := sizeOf_iterate_withoutCwd_le n (withoutCwd w)
  rw [hroot] at hle
  omega

/-- `rm` with operands that name no entry changes the tree if and only if one of them is empty and
where one is can be removed. Nothing else goes then, and otherwise nothing at all changes. -/
theorem nameless_operands_remove_iff (a : Arguments) (w : Workspace)
    (h : ∀ operand ∈ a.positional, Nameless operand) :
    ((rm a w).2.store.exported ≠ w.store.exported ↔
      "" ∈ a.positional ∧ Removable (a.hasFlag "recursive") w) ∧
    ∃ n ≤ a.positional.count "", (rm a w).2 = withoutCwd^[n] w ∧
      (0 < n ↔ "" ∈ a.positional ∧ Removable (a.hasFlag "recursive") w) := by
  have hrm : (rm a w).2 = (forEach (rmOne (a.hasFlag "recursive") (a.hasFlag "force"))
      a.positional w).2 := by
    unfold rm
    split
    next hnone => rw [List.isEmpty_iff.mp hnone]; rfl
    next => rfl
  obtain ⟨n, hn, hrun, hpos⟩ :=
    @forEach_rmOne_nameless (a.hasFlag "recursive") (a.hasFlag "force") a.positional h w
  rw [hrm, hrun]
  refine ⟨⟨fun hchanged => ?_, fun hremovable => ?_⟩, n, hn, rfl, hpos⟩
  · refine hpos.mp (Nat.pos_of_ne_zero fun hzero => ?_)
    rw [hzero] at hchanged
    exact hchanged rfl
  · exact exported_iterate_withoutCwd_ne (hpos.mpr hremovable) hremovable.2

/-- Slashes and steps of all sorts, with every flag, remove nothing. -/
theorem slashes_and_steps_remove_nothing :
    let s := Desktop.newStore Config.standard ⟨0, 0⟩
    let w : Workspace := ⟨s, Windows.empty, "desktop", s.home, none, none, [], ⟨0, 0⟩⟩
    let a : Arguments := ⟨["/", "//", "/.././", "./..//", "../../..", "///."], [],
      ["recursive", "force"]⟩
    (∀ operand ∈ a.positional, Nameless operand) ∧ (rm a w).2 = w := by
  intro s w a
  have hnameless : ∀ operand ∈ a.positional, Nameless operand := by decide +kernel
  obtain ⟨_, n, hn, hrun, _⟩ := nameless_operands_remove_iff a w hnameless
  have hzero : n = 0 := Nat.le_zero.mp hn
  rw [hzero] at hrun
  exact ⟨hnameless, hrun⟩

/-- `rm -rf ''` takes the home directory out from under the user. -/
theorem empty_operand_removes_home :
    let s := Desktop.newStore Config.standard ⟨0, 0⟩
    let w : Workspace := ⟨s, Windows.empty, "desktop", s.home, none, none, [], ⟨0, 0⟩⟩
    let a : Arguments := ⟨[""], [], ["force", "recursive"]⟩
    readArguments (Builtin.schema .rm) ["-rf", ""] = .ok a ∧
      (∀ operand ∈ a.positional, Nameless operand) ∧
      s.kind s.home = .ok .directory ∧
      (rm a w).1 = Outcome.success "" ∧
      (rm a w).2.store.kind s.home = .error (.notFound s.home) ∧
      (rm a w).2.store.exported ≠ s.exported := by
  intro s w a
  refine ⟨by decide +kernel, by decide +kernel, by decide +kernel, by decide +kernel,
    by decide +kernel, fun hsame => ?_⟩
  have hgone : (rm a w).2.store.kind s.home = s.kind s.home := by
    rw [Store.kind, Store.kind, Store.exported_eq_iff.mp hsame]
  revert hgone
  decide +kernel

end Command

end DesktopTerminal
