import DesktopTerminal.Proofs.Session.Turn
import DesktopTerminal.Proofs.Tree.Export
import Mathlib.Control.Monad.Basic

/-!
# Delegation

A line belongs to the gateway if a command name in it is unknown, or if it is no pipeline and its
first word is unknown. Names are looked up before anything runs, so wherever the unknown name stands,
the line leaves nothing behind but its entry in the log and in the history. The gateway is asked
once about such a line and never about any other.
-/
namespace DesktopTerminal

namespace Builtin

/-- A command of this name runs in the terminal itself. -/
def Known (name : String) : Prop := ∃ b : Builtin, b.name = name

theorem known_of_ofName? {name : String} {b : Builtin} (h : ofName? name = some b) :
    Known name := by
  have hname := List.find?_some h
  exact ⟨b, of_decide_eq_true hname⟩

theorem not_known_of_ofName? {name : String} (h : ofName? name = none) : ¬ Known name := by
  rintro ⟨b, rfl⟩
  rw [ofName?_name] at h
  cases h

instance : DecidablePred Known := fun name =>
  match h : ofName? name with
  | some _ => .isTrue (known_of_ofName? h)
  | none => .isFalse (not_known_of_ofName? h)

end Builtin

open Builtin (Known known_of_ofName? not_known_of_ofName?)

/-- The first command name of the pipeline that is unknown. -/
def Line.Pipeline.unknown? (p : Line.Pipeline) : Option String :=
  (p.commands.map (·.name)).find? fun name => ¬ Known name

/-- The name on account of which a line belongs to the gateway. -/
def foreignName? (line : String) : Option String :=
  match Line.parse line with
  | .ok p => p.unknown?
  | .error _ => (Text.words line).head?.filter fun first => ¬ Known first

theorem resolveAll_eq_error_iff {cs : List Line.Command} {name : String} :
    resolveAll cs = .error name ↔
      (cs.map (·.name)).find? (fun name => ¬ Known name) = some name := by
  induction cs with
  | nil => simp [resolveAll]
  | cons c rest ih =>
    rw [resolveAll, List.map_cons]
    cases hc : Builtin.ofName? c.name with
    | none => simp [not_known_of_ofName? hc]
    | some b =>
      rw [List.find?_cons_of_neg (by simpa using known_of_ofName? hc), ← ih]
      cases resolveAll rest <;> simp [Except.map]

theorem runPipeline_eq_delegate_iff {p : Line.Pipeline} {w : Workspace} {name : String} :
    (runPipeline p w).1 = .delegate name ↔ p.unknown? = some name := by
  rw [Line.Pipeline.unknown?, ← resolveAll_eq_error_iff, runPipeline]
  cases resolveAll p.commands <;> simp

namespace Session

theorem runLine_eq_delegate_iff {line : String} {w : Workspace} {name : String} :
    runLine line w = .delegate name ↔ foreignName? line = some name := by
  rw [runLine, foreignName?]
  cases Line.parse line with
  | ok p =>
    simp only
    rw [← runPipeline_eq_delegate_iff (w := w)]
    rcases runPipeline p w with ⟨_ | _, _⟩ <;> simp
  | error e =>
    simp only
    cases (Text.words line).head? with
    | none => simp
    | some first =>
      simp only
      cases hfirst : Builtin.ofName? first with
      | none => simp [not_known_of_ofName? hfirst, Option.filter]
      | some b => simp [known_of_ofName? hfirst, Option.filter]

theorem foreignName?_isSome_iff {line : String} :
    (∃ name, foreignName? line = some name) ↔
      (∃ p, Line.parse line = .ok p ∧ ∃ c ∈ p.commands, ¬ Known c.name) ∨
      (∃ e, Line.parse line = .error e ∧
        ∃ first, (Text.words line).head? = some first ∧ ¬ Known first) := by
  rw [foreignName?]
  cases Line.parse line with
  | ok p =>
    have hnames : (∃ name, p.unknown? = some name) ↔ ∃ c ∈ p.commands, ¬ Known c.name := by
      rw [← Option.isSome_iff_exists, Line.Pipeline.unknown?, List.find?_isSome]
      simp only [List.mem_map, decide_eq_true_eq]
      constructor
      · rintro ⟨_, ⟨c, hc, rfl⟩, hunknown⟩
        exact ⟨c, hc, hunknown⟩
      · rintro ⟨c, hc, hunknown⟩
        exact ⟨c.name, ⟨c, hc, rfl⟩, hunknown⟩
    simp [hnames]
  | error e =>
    cases (Text.words line).head? with
    | none => simp
    | some first => simp [Option.filter]

/-- The requests that come out of a turn. -/
def requestsOf : Except Refusal Turn → List GatewayRequest
  | .ok (.delegated request) => [request]
  | _ => []

/-- A gateway that keeps the requests put to it. Its answers may depend on those before. -/
def recording (gateway : List GatewayRequest → Gateway) (request : GatewayRequest) :
    StateM (List GatewayRequest) GatewayAnswer := do
  let asked ← get
  set (asked ++ [request])
  return gateway asked request

section Submit

variable {now : Instant} {line : String} {d : Desktop} {s : Session} {request : GatewayRequest}

theorem settle_eq_delegated_iff {r : LineResult} :
    (s.settle line d r).1 = .ok (.delegated request) ↔
      ∃ command, r = .delegate command ∧
        request = ⟨line, command, s.cwd.render, d.store.outline⟩ := by
  cases r with
  | completed o w =>
    rw [settle]
    split <;> simp
  | malformed cause => simp [settle]
  | delegate command => simp [settle, eq_comm]

/-- When a line is delegated. -/
theorem submit_eq_delegated_iff :
    (s.submit now line d).1 = .ok (.delegated request) ↔
      s.isBusy = false ∧ Text.isBlankText line = false ∧
        ∃ command, foreignName? line = some command ∧
          request = ⟨line, command, s.cwd.render, d.store.outline⟩ := by
  rw [submit_eq]
  cases s.isBusy with
  | true => simp
  | false =>
    cases Text.isBlankText line with
    | true => simp
    | false =>
      simp only [Bool.false_eq_true, ite_false, settle_eq_delegated_iff, runLine_eq_delegate_iff,
        true_and]
      rfl

/-- What a delegated line leaves behind. -/
theorem submit_of_delegated (h : (s.submit now line d).1 = .ok (.delegated request)) :
    (s.submit now line d).2 = (d, (s.entered line d).moveTo .delegated) := by
  obtain ⟨hbusy, hblank, command, hcommand, _⟩ := submit_eq_delegated_iff.mp h
  have hrun := runLine_eq_delegate_iff (w := (s.entered line d).workspace now d).mpr hcommand
  rw [submit_eq, hbusy, hblank, hrun]
  rfl

/-- Only a delegated line is put to the gateway, and once. -/
theorem executeWith_recording (gateway : List GatewayRequest → Gateway)
    (asked : List GatewayRequest) :
    ((s.executeWith (recording gateway) now line d).run asked).2 =
      asked ++ requestsOf (s.submit now line d).1 := by
  rw [executeWith]
  split
  · rename_i request d' s' h
    rw [h]
    rfl
  · rename_i h
    have hnone : requestsOf (s.submit now line d).1 = [] := by
      rw [requestsOf]
      intro request hrequest
      exact h request _ _ (Prod.ext hrequest rfl)
    rw [hnone, List.append_nil]
    rfl

/-- A line is delegated exactly if it belongs to the gateway. It leaves the desktop as it was, and the
session but for its own entries; the request tells the line, the first unknown name, the directory
and the exported tree without contents. The gateway is asked once about such a line, and about no
other. -/
theorem delegation_exact (now : Instant) (line : String) (d : Desktop) (s : Session) :
    ((∃ request, (s.submit now line d).1 = .ok (.delegated request)) ↔
      s.isBusy = false ∧ Text.isBlankText line = false ∧
        ((∃ p, Line.parse line = .ok p ∧ ∃ c ∈ p.commands, ¬ Known c.name) ∨
          (∃ e, Line.parse line = .error e ∧
            ∃ first, (Text.words line).head? = some first ∧ ¬ Known first))) ∧
    (∀ request, (s.submit now line d).1 = .ok (.delegated request) →
      (s.submit now line d).2 = (d, { s with
        log := s.log ++ [.command (s.prompt d) line]
        history := ⟨s.history.entries ++ [line], none⟩
        input := ""
        phase := .delegated }) ∧
      request.line = line ∧
      (∀ p, Line.parse line = .ok p →
        (p.commands.map (·.name)).find? (fun name => ¬ Known name) = some request.command) ∧
      (∀ e, Line.parse line = .error e → (Text.words line).head? = some request.command) ∧
      request.cwd = s.cwd.render ∧
      request.outline = d.store.exported.withoutContents) ∧
    ∀ gateway asked, ((s.executeWith (recording gateway) now line d).run asked).2 =
      asked ++ requestsOf (s.submit now line d).1 := by
  refine ⟨?_, fun request h => ?_, executeWith_recording⟩
  · rw [← foreignName?_isSome_iff]
    simp only [submit_eq_delegated_iff]
    constructor
    · rintro ⟨_, hbusy, hblank, command, hcommand, _⟩
      exact ⟨hbusy, hblank, command, hcommand⟩
    · rintro ⟨hbusy, hblank, command, hcommand⟩
      exact ⟨_, hbusy, hblank, command, hcommand, rfl⟩
  · obtain ⟨_, hblank, command, hcommand, rfl⟩ := submit_eq_delegated_iff.mp h
    have hpush : s.history.push line = ⟨s.history.entries ++ [line], none⟩ := by
      rw [History.push, hblank]
      rfl
    refine ⟨?_, rfl, fun p hp => ?_, fun e he => ?_, rfl, ?_⟩
    · rw [submit_of_delegated h, entered, hpush]
      rfl
    · rw [foreignName?, hp] at hcommand
      exact hcommand
    · rw [foreignName?, he] at hcommand
      exact (Option.filter_eq_some_iff.mp hcommand).1
    · exact (Node.withoutContents_toDocument true d.store.root).symm

/-- The unknown name may stand behind a command that would have made a directory. -/
theorem nothing_made_before_unknown_name :
    let d := Desktop.ofStore "desktop" (Desktop.newStore Config.standard ⟨0, 0⟩)
    let s := Session.start d
    let line := "mkdir made | frobnicate > out.txt"
    ∃ request, (s.submit ⟨1, 0⟩ line d).1 = .ok (.delegated request) ∧
      (s.submit ⟨1, 0⟩ line d).2.1 = d ∧ request.command = "frobnicate" := by
  intro d s line
  have hparse : Line.parse line = .ok
      ⟨[⟨"mkdir", ["made"]⟩, ⟨"frobnicate", []⟩], some ⟨.overwrite, "out.txt"⟩⟩ := by
    decide +kernel
  have hunknown : ¬ Known "frobnicate" := by decide
  obtain ⟨hiff, hleft, _⟩ := delegation_exact ⟨1, 0⟩ line d s
  obtain ⟨request, h⟩ := hiff.mpr ⟨rfl, by decide,
    .inl ⟨_, hparse, ⟨"frobnicate", []⟩, by decide, hunknown⟩⟩
  obtain ⟨hstate, _, hcommand, _⟩ := hleft request h
  refine ⟨request, h, congrArg Prod.fst hstate, ?_⟩
  have hfirst := hcommand _ hparse
  have hmkdir : Known "mkdir" := by decide
  simpa [hmkdir, hunknown, eq_comm] using hfirst

end Submit

end Session

end DesktopTerminal
