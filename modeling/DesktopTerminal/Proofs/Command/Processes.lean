import DesktopTerminal.Command.Execution
import DesktopTerminal.Desktop
import DesktopTerminal.Proofs.Text
import DesktopTerminal.Proofs.Windows
import Mathlib.Data.List.Perm.Basic

/-!
# Processes

`ps` lists a process for each window, and `kill` closes the first window whose process has the number
that it is given. Windows may share a number. Then the number is listed as often as there are such
windows, and each `kill` closes one more of them.
-/
namespace DesktopTerminal

theorem processNumber_bounds (id : String) : 1000 ≤ processNumber id ∧ processNumber id < 10000 := by
  rw [processNumber]
  omega

namespace Command

/-! ## Rows -/

/-- The process number of a window, as it is written. -/
def pidOf (v : Window) : String := Text.numeral (processNumber v.id)

/-- The heading and the rows of the processes that are always there. -/
def fixedRows (w : Workspace) : List String :=
  processRow "PID" "USER" "COMMAND" :: systemProcesses.map fun p =>
    processRow (Text.numeral p.number) (if p.ofRoot then "root" else w.user) p.command

def windowRows (w : Workspace) : List String :=
  w.windows.windows.map fun v => processRow (pidOf v) w.user v.app

/-- The process number that a row shows. -/
def shownPid (row : String) : Option String := (Text.words row).head?

theorem ps_eq (w : Workspace) :
    ps w = (Outcome.success (Text.joinWith "\n" (fixedRows w ++ windowRows w)), w) := rfl

theorem isDigit_of_mem_pidOf {v : Window} {c : Char} (h : c ∈ (pidOf v).toList) :
    c.isDigit = true :=
  Text.isDigit_of_mem_zeroPadded h

theorem shownPid_processRow (v : Window) (user command : String) :
    shownPid (processRow (pidOf v) user command) = some (pidOf v) := by
  have hrow : (processRow (pidOf v) user command).toList =
      List.replicate (5 - (pidOf v).length) ' ' ++ ((pidOf v).toList ++
        ' ' :: (Text.padRight 8 user ++ " " ++ command).toList) := by
    simp [processRow, Text.padLeft, Text.spaces]
  refine Text.head?_words_of_blanks hrow (fun c hc => ?_) ?_ (fun c hc => ?_) (fun c hc => ?_)
  · obtain rfl := List.eq_of_mem_replicate hc
    decide
  · intro hempty
    have hnone := congrArg String.toList hempty
    rw [pidOf, Text.toList_numeral] at hnone
    exact Nat.toDigits_ne_nil hnone
  · exact Text.not_isBlank_of_isDigit (isDigit_of_mem_pidOf hc)
  · obtain rfl := Option.some.inj hc
    decide

theorem map_shownPid_windowRows (w : Workspace) :
    (windowRows w).map shownPid = w.windows.windows.map fun v => some (pidOf v) := by
  simp only [windowRows, List.map_map, Function.comp_def, shownPid_processRow]

/-! ## Killing -/

/-- `kill` with this number succeeds. It closes one window whose process has the number, and changes
nothing else but the piped input. -/
def ClosesOne (pid : String) (w w' : Workspace) : Prop :=
  ∃ before v after, w.windows.windows = before ++ v :: after ∧ pidOf v = pid ∧
    Invocation.run ⟨.kill, [pid]⟩ none w = (Outcome.success "", w') ∧
    w' = { w with windows := ⟨before ++ after, w.windows.opened⟩, stdin := none }

/-- The processes killed one after another. -/
def killEach : List String → Workspace → Workspace
  | [], w => w
  | pid :: pids, w => killEach pids (Invocation.run ⟨.kill, [pid]⟩ none w).2

theorem not_startsWithDash_pidOf (v : Window) : startsWithDash (pidOf v) = false := by
  rw [startsWithDash]
  cases hhead : (pidOf v).toList.head? with
  | none => rfl
  | some c =>
    have hdigit := isDigit_of_mem_pidOf (List.mem_of_head? hhead)
    have hdash : c ≠ '-' := fun heq => absurd (heq ▸ hdigit) (by decide)
    simpa using hdash

theorem kill_pidOf (v : Window) (w : Workspace) :
    kill ⟨[pidOf v], [], []⟩ w = killNumber (processNumber v.id) w := by
  have hlast : ([pidOf v].filter fun word => !startsWithDash word).getLast? = some (pidOf v) := by
    simp [not_startsWithDash_pidOf]
  have hbound : processNumber v.id < Nat.pow 2 32 :=
    (processNumber_bounds v.id).2.trans (by decide)
  have hread : Text.readUnsigned (Nat.pow 2 32) (pidOf v) = some (processNumber v.id) :=
    Text.readUnsigned_numeral hbound
  simp only [kill, hlast, hread]

/-- `kill` takes its words as they are. -/
theorem run_kill (pid : String) (w : Workspace) :
    Invocation.run ⟨.kill, [pid]⟩ none w =
      ((kill ⟨[pid], [], []⟩ { w with stdin := none }).1,
        { (kill ⟨[pid], [], []⟩ { w with stdin := none }).2 with stdin := none }) := by
  have hread : readArguments Builtin.kill.schema [pid] = .ok ⟨[pid], [], []⟩ := rfl
  simp only [Invocation.run, hread, Builtin.run]

/-- The number of a window is none of those of the system. -/
theorem not_systemProcess (id : String) :
    systemProcesses.any (·.number = processNumber id) = false := by
  have hbelow : ∀ p ∈ systemProcesses, p.number < 1000 := by decide
  rw [List.any_eq_false]
  intro p hp
  have hp := hbelow p hp
  have hid := (processNumber_bounds id).1
  simp only [decide_eq_true_eq]
  omega

/-- The number of a window that is open is that of a first window, and this one is closed. -/
theorem exists_closesOne {w : Workspace} (hids : w.windows.ids.Nodup) {pid : String}
    (hpid : pid ∈ w.windows.windows.map pidOf) : ∃ w', ClosesOne pid w w' := by
  obtain ⟨listed, hmem, rfl⟩ := List.mem_map.mp hpid
  have hsome : (w.windows.windows.find? fun v =>
      processNumber v.id = processNumber listed.id).isSome :=
    List.find?_isSome.mpr ⟨listed, hmem, decide_eq_true rfl⟩
  obtain ⟨v, hv⟩ := Option.isSome_iff_exists.mp hsome
  obtain ⟨hnumber, before, after, hw, -⟩ := List.find?_eq_some_iff_append.mp hv
  have hclose := Windows.close_of_nodup hids hw
  refine ⟨_, before, v, after, hw, congrArg Text.numeral (of_decide_eq_true hnumber), ?_, rfl⟩
  rw [run_kill, kill_pidOf]
  simp [killNumber, not_systemProcess, hv, hclose]

/-- The window that is closed is the only one that goes, and the only one no longer listed. -/
theorem ClosesOne.left {pid : String} {w w' : Workspace} (h : ClosesOne pid w w') :
    w'.windows.windows.Sublist w.windows.windows ∧
      (w.windows.windows.map pidOf).Perm (pid :: w'.windows.windows.map pidOf) := by
  obtain ⟨before, v, after, hw, rfl, -, rfl⟩ := h
  rw [hw]
  exact ⟨(List.sublist_cons_self v after).append_left before, List.perm_middle.map pidOf⟩

/-! ## A run of kills -/

theorem ClosesOne.killEach_cons {pid : String} {w w' : Workspace} (h : ClosesOne pid w w')
    (pids : List String) : killEach (pid :: pids) w = killEach pids w' := by
  obtain ⟨before, v, after, -, -, hrun, -⟩ := h
  rw [killEach, hrun]

theorem killEach_closes {w : Workspace} (hids : w.windows.ids.Nodup) {pids : List String}
    (hpids : pids.Perm (w.windows.windows.map pidOf)) :
    (∀ front pid back, pids = front ++ pid :: back →
      ClosesOne pid (killEach front w) (killEach (front ++ [pid]) w)) ∧
    (killEach pids w).windows.windows = [] := by
  induction pids generalizing w with
  | nil =>
    refine ⟨fun front pid back h => ?_, List.map_eq_nil_iff.mp hpids.nil_eq.symm⟩
    exact absurd h.symm (List.append_ne_nil_of_right_ne_nil _ (List.cons_ne_nil _ _))
  | cons pid pids ih =>
    obtain ⟨w', hclosed⟩ := exists_closesOne hids (hpids.subset List.mem_cons_self)
    obtain ⟨hsublist, hlisted⟩ := hclosed.left
    have hleft : w'.windows.ids.Nodup := hids.sublist (hsublist.map Window.id)
    have hrest : pids.Perm (w'.windows.windows.map pidOf) :=
      (List.perm_cons pid).mp (hpids.trans hlisted)
    obtain ⟨heach, hend⟩ := ih hleft hrest
    refine ⟨fun front other back h => ?_, ?_⟩
    · cases front with
      | nil =>
        obtain ⟨rfl, rfl⟩ := List.cons.inj h
        rw [List.nil_append, hclosed.killEach_cons]
        exact hclosed
      | cons first front =>
        obtain ⟨rfl, hpids⟩ := List.cons.inj h
        rw [List.cons_append, hclosed.killEach_cons, hclosed.killEach_cons]
        exact heach front other back hpids
    · rw [hclosed.killEach_cons]
      exact hend

/-- The process numbers that `ps` shows for the windows can be killed in any order, whichever of them
are the same. Each time one window of that number is closed, and the others stay as they were; in the
end there is none. -/
theorem every_listed_window_killed (w : Workspace) (hids : w.windows.ids.Nodup)
    (pids : List String) (hpids : (pids.map some).Perm ((windowRows w).map shownPid)) :
    (ps w).1 = Outcome.success (Text.joinWith "\n" (fixedRows w ++ windowRows w)) ∧
    ((windowRows w).map shownPid = w.windows.windows.map fun v => some (pidOf v)) ∧
    (∀ front pid back, pids = front ++ pid :: back →
      ClosesOne pid (killEach front w) (killEach (front ++ [pid]) w)) ∧
    (killEach pids w).windows.windows = [] := by
  have hshown := map_shownPid_windowRows w
  have hlisted : pids.Perm (w.windows.windows.map pidOf) := by
    rw [hshown, ← Function.comp_def, ← List.map_map] at hpids
    exact (List.map_perm_map_iff fun _ _ => Option.some.inj).mp hpids
  exact ⟨congrArg Prod.fst (ps_eq w), hshown, killEach_closes hids hlisted⟩

/-- Two of three windows share a number. The second kill of that number closes the later one. -/
theorem windows_of_one_number_killed :
    let s := Desktop.newStore Config.standard ⟨0, 0⟩
    let chat : Window := ⟨"chat-2", "chat", "Chat"⟩
    let mail : Window := ⟨"mail-1", "mail", "Mail"⟩
    let draw : Window := ⟨"d-11", "draw", ""⟩
    let w : Workspace :=
      ⟨s, Windows.ofList [chat, mail, draw], "desktop", s.home, none, none, [], ⟨0, 0⟩⟩
    pidOf chat = "4880" ∧ pidOf draw = "4880" ∧
      (killEach ["4880"] w).windows.windows = [mail, draw] ∧
      ClosesOne "4880" (killEach ["4880", pidOf mail] w) (killEach ["4880", pidOf mail, "4880"] w) ∧
      (killEach ["4880", pidOf mail, "4880"] w).windows.windows = [] := by
  intro s chat mail draw w
  have hchat : pidOf chat = "4880" := by decide +kernel
  have hdraw : pidOf draw = "4880" := by decide +kernel
  have hids : w.windows.ids.Nodup := by decide
  have hpids : (["4880", pidOf mail, "4880"].map some).Perm ((windowRows w).map shownPid) := by
    decide +kernel
  obtain ⟨-, -, heach, hend⟩ := every_listed_window_killed w hids _ hpids
  refine ⟨hchat, hdraw, by decide +kernel, heach ["4880", pidOf mail] "4880" [] rfl, hend⟩

end Command

end DesktopTerminal
