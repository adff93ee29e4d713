import DesktopTerminal.Command.Execution
import DesktopTerminal.Proofs.Path
import DesktopTerminal.Proofs.Secrecy.Line
import Mathlib.Logic.Relation

/-!
# Where commands work

A command makes paths in four ways only: it resolves what the user has typed, goes up, goes into a
directory under the name of a source, or goes home. A property of paths that these ways keep is
therefore a property of every path at which a command works on the store, and of every directory in
which it leaves the terminal. Most commands leave both alone.
-/
namespace DesktopTerminal

/-- The property is kept by all that makes paths of paths. -/
structure Path.Closed (home : Path) (Q : Path → Prop) : Prop where
  atHome : Q home
  resolve {base : Path} (text : String) : Q base → Q (Path.resolve base text home)
  above {p : Path} {front : List String} : Q p → front <+: p.segments → Q ⟨true, front⟩
  join {p q : Path} {name : String} : Q p → Q q → q.fileName? = some name → Q (p.join name)

theorem Path.mem_of_fileName? {p : Path} {name : String} (h : p.fileName? = some name) :
    name ∈ p.segments := by
  rw [fileName?_eq_getLast?] at h
  exact List.mem_of_getLast? h

/-- A path that goes on under the name of another has the segments of both only. -/
theorem Path.mem_join {p q : Path} {name other : String} (hname : q.fileName? = some name)
    (h : other ∈ (p.join name).segments) : other ∈ p.segments ∨ other ∈ q.segments := by
  rcases List.mem_append.mp h with h | h
  · exact .inl h
  · exact .inr (List.mem_singleton.mp h ▸ mem_of_fileName? hname)

theorem Path.closed_legible {home : Path} (hhome : home.Legible) : Closed home Path.Legible where
  atHome := hhome
  resolve text hbase := legible_resolve text hbase hhome
  above hp hfront := fun name hname => hp name (hfront.subset hname)
  join hp hq hname := fun other hother => (mem_join hname hother).elim (hp other) (hq other)

/-! ## Work on the store -/

namespace Store

variable {Q : Path → Prop}

/-- One operation at paths with the property. -/
inductive StepAt (Q : Path → Prop) : Store → Store → Prop
  | apply (op : Operation) (now : Instant) (s : Store) (hop : ∀ p ∈ op.paths, Q p) :
    StepAt Q s (s.apply op now).2

/-- Any number of operations at paths with the property. -/
def WorkedAt (Q : Path → Prop) : Store → Store → Prop := Relation.ReflTransGen (StepAt Q)

theorem WorkedAt.refl (s : Store) : WorkedAt Q s s := Relation.ReflTransGen.refl

theorem WorkedAt.trans {s t u : Store} (h : WorkedAt Q s t) (h' : WorkedAt Q t u) : WorkedAt Q s u :=
  Relation.ReflTransGen.trans h h'

theorem workedAt_apply (op : Operation) (hop : ∀ p ∈ op.paths, Q p) (now : Instant) (s : Store) :
    WorkedAt Q s (s.apply op now).2 :=
  .single (.apply op now s hop)

theorem WorkedAt.home_eq {s t : Store} (h : WorkedAt Q s t) : t.home = s.home := by
  induction h with
  | refl => rfl
  | tail _ hstep ih =>
    cases hstep with
    | apply op now => exact (home_apply op now _).trans ih

end Store

/-! ## Terminals in their directories -/

namespace Workspace

variable {Q : Path → Prop} {w w' w'' : Workspace}

/-- The current directory and the one before have the property, which commands keep. -/
structure Dwells (Q : Path → Prop) (w : Workspace) : Prop where
  closed : Path.Closed w.store.home Q
  cwd : Q w.cwd
  previous : ∀ p, w.previous = some p → Q p

/-- From the first workspace to the second there was work at paths with the property only. -/
structure Leads (Q : Path → Prop) (w w' : Workspace) : Prop where
  dwells : Dwells Q w'
  worked : Store.WorkedAt Q w.store w'.store

theorem Dwells.resolve (h : Dwells Q w) (target : String) : Q (w.resolve target) :=
  h.closed.resolve target h.cwd

theorem Leads.refl (h : Dwells Q w) : Leads Q w w := ⟨h, .refl _⟩

theorem Leads.trans (h : Leads Q w w') (h' : Leads Q w' w'') : Leads Q w w'' :=
  ⟨h'.dwells, h.worked.trans h'.worked⟩

/-- Work on the store leaves the terminal where it is. -/
theorem Dwells.onStore (h : Dwells Q w) {op : Store → Except Fault Unit × Store}
    (hop : Store.WorkedAt Q w.store (op w.store).2) : Leads Q w (w.onStore op).2 where
  dwells := ⟨hop.home_eq ▸ h.closed, h.cwd, h.previous⟩
  worked := hop

/-- The second workspace has the store, the directory and the directory before of the first. -/
structure SamePlace (w w' : Workspace) : Prop where
  store : w'.store = w.store
  cwd : w'.cwd = w.cwd
  previous : w'.previous = w.previous

theorem SamePlace.refl (w : Workspace) : SamePlace w w := ⟨rfl, rfl, rfl⟩

theorem SameButInput.samePlace (h : SameButInput w w') : SamePlace w w' := by
  obtain ⟨input, rfl⟩ := h
  exact ⟨rfl, rfl, rfl⟩

theorem SamePlace.leads (h : SamePlace w w') (hw : Dwells Q w) : Leads Q w w' where
  dwells := ⟨h.store ▸ hw.closed, h.cwd ▸ hw.cwd, h.previous ▸ hw.previous⟩
  worked := h.store ▸ .refl _

end Workspace

open Workspace (Dwells Leads SamePlace)

/-- The command works only at paths with the property, and stays in directories with it. -/
def Confined {α : Type} (Q : Path → Prop) (f : Workspace → α × Workspace) : Prop :=
  ∀ w, Dwells Q w → Leads Q w (f w).2

/-- The command changes neither the store nor the directory. -/
def Still {α : Type} (f : Workspace → α × Workspace) : Prop := ∀ w, SamePlace w (f w).2

theorem Still.confined {α : Type} {Q : Path → Prop} {f : Workspace → α × Workspace} (h : Still f) :
    Confined Q f :=
  fun w hw => (h w).leads hw

/-- A command that only looks stays where it is. -/
theorem Looks.still {f : Workspace → Outcome × Workspace} (h : Looks f) : Still f :=
  fun w => (h w).2.samePlace

namespace Command

open Workspace (forEach)

/-! ## Commands that go nowhere -/

theorem still_killNumber (number : Nat) : Still (killNumber number) := by
  intro w
  rw [killNumber]
  split
  · exact .refl w
  · split
    · exact .refl w
    · split <;> exact ⟨rfl, rfl, rfl⟩

theorem still_kill (a : Arguments) : Still (kill a) := by
  intro w
  rw [kill]
  split
  · exact .refl w
  · split
    · exact .refl w
    · exact still_killNumber _ w

/-! ## Commands that go somewhere -/

variable {Q : Path → Prop}

theorem confined_cdTo (operand : String) : Confined Q (cdTo operand) := by
  intro w hw
  rw [cdTo]
  cases htarget : cdTarget operand w with
  | none => exact .refl hw
  | some p =>
    have hp : Q p := by
      rw [cdTarget] at htarget
      split at htarget
      · exact hw.previous p htarget
      · exact Option.some.inj htarget ▸ hw.resolve operand
    simp only
    split
    · have hprevious : ∀ q, (w.enter p).previous = some q → Q q := by
        intro q hq
        exact Option.some.inj hq ▸ hw.cwd
      exact ⟨⟨hw.closed, hp, hprevious⟩, .refl _⟩
    · exact .refl hw
    · exact .refl hw

theorem confined_cd (a : Arguments) : Confined Q (cd a) := by
  intro w hw
  rw [cd]
  split
  · exact confined_cdTo "~" w hw
  · exact confined_cdTo _ w hw
  · exact .refl hw

/-! ## Commands that work on the store -/

theorem confined_forEach {handle : String → Workspace → Option String × Workspace}
    (h : ∀ operand, Confined Q (handle operand)) (operands : List String) :
    Confined Q (forEach handle operands) := by
  intro w hw
  induction operands generalizing w with
  | nil => exact .refl hw
  | cons operand rest ih =>
    have hfirst : Leads Q w (handle operand w).2 := h operand w hw
    exact hfirst.trans (ih _ hfirst.dwells)

theorem confined_finishSilently {handle : String → Workspace → Option String × Workspace}
    (h : ∀ operand, Confined Q (handle operand)) (operands : List String) :
    Confined Q fun w => finishSilently (forEach handle operands w) :=
  confined_forEach h operands

/-- An operation of the store at paths with the property. -/
theorem leads_apply {w : Workspace} (hw : Dwells Q w) (op : Store.Operation) (now : Instant)
    (hop : ∀ p ∈ op.paths, Q p) : Leads Q w (w.onStore fun s => s.apply op now).2 :=
  hw.onStore (Store.workedAt_apply op hop now w.store)

/-- An operation at what an operand names. -/
theorem leads_operand {w : Workspace} (hw : Dwells Q w) (op : Store.Operation) (now : Instant)
    {operand : String} (hop : op.paths = [w.resolve operand]) :
    Leads Q w (w.onStore fun s => s.apply op now).2 := by
  refine leads_apply hw op now fun p hp => ?_
  rw [hop] at hp
  exact List.mem_singleton.mp hp ▸ hw.resolve operand

theorem confined_touchOne (operand : String) : Confined Q (touchOne operand) := by
  intro w hw
  rw [touchOne]
  split
  · exact .refl hw
  · exact leads_operand hw (.write (w.resolve operand) "") w.now rfl

theorem confined_touch (a : Arguments) : Confined Q (touch a) := by
  intro w hw
  rw [touch]
  split
  · exact .refl hw
  · exact confined_finishSilently confined_touchOne _ w hw

theorem confined_chmodOne (mode operand : String) : Confined Q (chmodOne mode operand) := by
  intro w hw
  exact leads_operand hw (.changeMode (w.resolve operand) mode) w.now rfl

theorem confined_chmod (a : Arguments) : Confined Q (chmod a) := by
  intro w hw
  rw [chmod]
  split
  · exact .refl hw
  · exact .refl hw
  · split
    · exact .refl hw
    · exact confined_finishSilently (confined_chmodOne _) _ w hw

/-- Missing directories are made only on the way to the end of the path. -/
theorem workedAt_makeParents {now : Instant} {above segments : List String} {s : Store}
    (h : ∀ front, front <+: segments → Q ⟨true, above ++ front⟩) :
    Store.WorkedAt Q s (makeParents now ⟨true, above⟩ segments s).2 := by
  induction segments generalizing above s with
  | nil => exact .refl s
  | cons segment rest ih =>
    have hnext : ∀ front, front <+: rest → Q ⟨true, (above ++ [segment]) ++ front⟩ := by
      intro front hfront
      rw [List.append_assoc]
      exact h _ (List.cons_prefix_cons.mpr ⟨rfl, hfront⟩)
    have hp : Q ⟨true, above ++ [segment]⟩ :=
      h [segment] (List.cons_prefix_cons.mpr ⟨rfl, List.nil_prefix⟩)
    have hmake : Store.WorkedAt Q s (s.makeDirectory ⟨true, above ++ [segment]⟩ now).2 :=
      Store.workedAt_apply (.makeDirectory ⟨true, above ++ [segment]⟩)
        (fun p hmem => List.mem_singleton.mp hmem ▸ hp) now s
    rw [makeParents]
    simp only [Path.join]
    split
    · exact ih hnext
    · exact .refl s
    · split
      · split
        · rename_i made hmade
          rw [hmade] at hmake
          exact hmake.trans (ih hnext)
        · rename_i fault made hmade
          rwa [hmade] at hmake
      · exact .refl s

theorem confined_mkdirOne (parents : Bool) (operand : String) :
    Confined Q (mkdirOne parents operand) := by
  intro w hw
  cases parents with
  | true =>
    refine hw.onStore (workedAt_makeParents fun front hfront => ?_)
    exact hw.closed.above (hw.resolve operand) hfront
  | false => exact leads_operand hw (.makeDirectory (w.resolve operand)) w.now rfl

theorem confined_mkdir (a : Arguments) : Confined Q (mkdir a) := by
  intro w hw
  rw [mkdir]
  split
  · exact .refl hw
  · exact confined_finishSilently (confined_mkdirOne _) _ w hw

theorem confined_rmOne (recursive force : Bool) (operand : String) :
    Confined Q (rmOne recursive force operand) := by
  intro w hw
  rw [rmOne]
  split
  · exact .refl hw
  · simp only
    split
    · split <;> exact .refl hw
    · split
      · exact .refl hw
      · exact leads_operand hw (.delete (w.resolve operand)) w.now rfl

theorem confined_rm (a : Arguments) : Confined Q (rm a) := by
  intro w hw
  rw [rm]
  split
  · exact .refl hw
  · exact confined_finishSilently (confined_rmOne _ _) _ w hw

theorem target_of_closed {w : Workspace} (hw : Dwells Q w) {source destination : Path}
    (hs : Q source) (hd : Q destination) (into : Bool) : Q (targetOf source destination into) := by
  unfold targetOf
  split
  · rename_i name hname
    exact hw.closed.join hd hs hname
  · exact hd

/-- Copying and moving are operations at the source and at the target. -/
theorem leads_transfer {w : Workspace} (hw : Dwells Q w) {d : Destination} (hd : Q d.path)
    {operand : String} (op : Store.Operation) (now : Instant)
    (hop : op.paths =
      [w.resolve operand, targetOf (w.resolve operand) d.path d.isDirectory]) :
    Leads Q w (w.onStore fun s => s.apply op now).2 := by
  have hsource : Q (w.resolve operand) := hw.resolve operand
  have htarget := target_of_closed hw hsource hd d.isDirectory
  refine leads_apply hw op now fun p hp => ?_
  rw [hop] at hp
  rcases List.mem_cons.mp hp with rfl | hp
  · exact hsource
  · exact List.mem_singleton.mp hp ▸ htarget

theorem confined_cpOne {d : Destination} (hd : Q d.path) (recursive : Bool) (operand : String) :
    Confined Q (cpOne recursive d operand) := by
  intro w hw
  rw [cpOne]
  simp only
  split
  · exact .refl hw
  · split
    · exact .refl hw
    · split
      · exact .refl hw
      · exact leads_transfer hw hd (.copy (w.resolve operand) _) w.now rfl

theorem confined_mvOne {d : Destination} (hd : Q d.path) (operand : String) :
    Confined Q (mvOne d operand) := by
  intro w hw
  rw [mvOne]
  simp only
  split
  · exact .refl hw
  · split
    · exact .refl hw
    · exact leads_transfer hw hd (.move (w.resolve operand) _) w.now rfl

theorem confined_transfer (tool : String)
    {one : Destination → String → Workspace → Option String × Workspace}
    (h : ∀ d : Destination, Q d.path → ∀ operand, Confined Q (one d operand)) (a : Arguments) :
    Confined Q (transfer tool one a) := by
  intro w hw
  rw [transfer]
  split
  · exact .refl hw
  · rename_i sources operand _
    simp only
    split
    · exact .refl hw
    · have hd : Q (destinationOf operand w).path := hw.resolve operand
      exact confined_finishSilently (h _ hd) sources w hw

end Command

/-! ## Lines -/

variable {Q : Path → Prop}

theorem Builtin.confined_run (b : Builtin) (a : Arguments) : Confined Q (b.run a) := by
  cases b with
  | cat => exact (Command.looks_cat a).still.confined
  | cd => exact Command.confined_cd a
  | chmod => exact Command.confined_chmod a
  | clear => exact Still.confined Workspace.SamePlace.refl
  | cp => exact Command.confined_transfer "cp" (fun _ hd => Command.confined_cpOne hd _) a
  | date => exact (Command.looks_date a).still.confined
  | echo => exact (Command.looks_echo a).still.confined
  | grep => exact (Command.looks_grep a).still.confined
  | head => exact (Command.looks_selectCounted _ _ a).still.confined
  | help => exact (Command.looks_help a).still.confined
  | history => exact Command.looks_history.still.confined
  | hostname => exact Command.looks_hostname.still.confined
  | kill => exact (Command.still_kill a).confined
  | ls => exact (Command.looks_ls a).still.confined
  | mkdir => exact Command.confined_mkdir a
  | mv => exact Command.confined_transfer "mv" (fun _ hd => Command.confined_mvOne hd) a
  | ps => exact Command.looks_ps.still.confined
  | pwd => exact Command.looks_pwd.still.confined
  | rm => exact Command.confined_rm a
  | tail => exact (Command.looks_selectCounted _ _ a).still.confined
  | touch => exact Command.confined_touch a
  | uname => exact (Command.looks_uname a).still.confined
  | whoami => exact Command.looks_whoami.still.confined

theorem Invocation.confined_run (i : Invocation) (input : Option String) :
    Confined Q (i.run input) := by
  intro w hw
  have hin : Dwells Q { w with stdin := input } := ⟨hw.closed, hw.cwd, hw.previous⟩
  rw [run]
  cases readArguments i.builtin.schema i.words with
  | error fault => exact ⟨⟨hw.closed, hw.cwd, hw.previous⟩, .refl _⟩
  | ok a =>
    obtain ⟨hdwells, hworked⟩ := i.builtin.confined_run a _ hin
    exact ⟨⟨hdwells.closed, hdwells.cwd, hdwells.previous⟩, hworked⟩

theorem confined_runSegments (is : List Invocation) (input : Option String) (p : Progress) :
    Confined Q (runSegments is input p) := by
  induction is generalizing input p with
  | nil => exact fun w hw => .refl hw
  | cons i rest ih =>
    intro w hw
    have hfirst : Leads Q w (i.run input w).2 := i.confined_run input w hw
    exact hfirst.trans (ih _ _ _ hfirst.dwells)

theorem confined_applyRedirect (r : Line.Redirect) (p : Progress) :
    Confined Q (applyRedirect r p) := by
  intro w hw
  have htarget : ∀ q ∈ (r.operation (w.resolve r.target) p.last.out).paths, Q q := by
    intro q hq
    have hq' : q = w.resolve r.target := by
      revert hq
      unfold Line.Redirect.operation
      cases r.kind <;> simp [Store.Operation.paths]
    exact hq' ▸ hw.resolve r.target
  rw [(applyRedirect_eq r p w).2]
  exact Command.leads_apply hw _ w.now htarget

theorem confined_runPipeline (line : Line.Pipeline) : Confined Q (runPipeline line) := by
  intro w hw
  rw [runPipeline]
  cases resolveAll line.commands with
  | error name => exact .refl hw
  | ok invocations =>
    have hran := confined_runSegments invocations none Progress.start w hw
    cases line.redirect with
    | none => exact hran
    | some r => exact hran.trans (confined_applyRedirect r _ _ hran.dwells)

end DesktopTerminal
