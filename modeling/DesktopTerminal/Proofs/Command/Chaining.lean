import DesktopTerminal.Proofs.Command.Piping
import DesktopTerminal.Proofs.Text.Lines

/-!
# Selecting lines twice

`head` and `tail` put the lines they have selected together, and a command behind them reads lines
again. Two counts come to the smaller of them, as long as the lines that the second command reads are
those that the first has selected. Here is exactly when they are.
-/
namespace DesktopTerminal.Command

open Text (lines joinWith reread beforeBreak Returned)

/-! ## What is selected -/

/-- The commands that select lines by a count, and which lines these are. -/
inductive Selects : Builtin → (Nat → List String → List String) → Prop
  | head : Selects .head fun n ls => ls.take n
  | tail : Selects .tail fun n ls => ls.rtake n

/-- The command with a count that is written as an option. -/
def counted (b : Builtin) (n : Nat) (operands : List String) : Invocation :=
  ⟨b, ["-n", Text.numeral n] ++ operands⟩

/-- The text that a command with these operands reads. -/
inductive Source (input : Option String) (w : Workspace) : List String → String → Prop
  | piped : Source input w [] (input.getD "")
  | file {operand text : String} (hoperand : startsWithDash operand = false)
      (htext : w.store.read (w.resolve operand) = .ok text) : Source input w [operand] text

/-- What the commands put out in the end. -/
def outOf (is : List Invocation) (input : Option String) (p : Progress) (w : Workspace) : String :=
  (runSegments is input p w).1.last.out

theorem lineCount_numeral {n : Nat} (h : n < Nat.pow 2 64) (tool : String) :
    lineCount tool (some (Text.numeral n)) = .ok n := by
  have hread : Text.readUnsigned (Nat.pow 2 64) (Text.numeral n) = some n :=
    Text.readUnsigned_numeral h
  simp only [lineCount, hread]

namespace Selects

variable {b : Builtin} {select : Nat → List String → List String} (h : Selects b select)
include h

theorem sublist (n : Nat) (ls : List String) : (select n ls).Sublist ls := by
  cases h with
  | head => exact List.take_sublist n ls
  | tail => exact List.drop_sublist _ ls

theorem unbroken (n : Nat) (text : String) :
    ∀ line ∈ select n (lines text), '\n' ∉ line.toList := fun _ hline =>
  Text.not_mem_of_mem_lines ((h.sublist n _).subset hline)

theorem none_or_some (n : Nat) :
    (∀ ls, select n ls = []) ∨ ∀ ls, select n ls = [] → ls = [] := by
  cases n with
  | zero =>
    refine .inl fun ls => ?_
    cases h with
    | head => exact List.take_zero
    | tail => exact List.rtake_zero ls
  | succ n =>
    refine .inr fun ls hnone => ?_
    cases h with
    | head => simpa using hnone
    | tail => simpa [List.rtake_eq_reverse_take_reverse] using hnone

/-- Of lines that are left as they are, two counts select what the smaller one does. -/
theorem select_select (m n : Nat) (ls : List String) :
    select n (select m ls) = select (min m n) ls := by
  cases h with
  | head => simp only [List.take_take, Nat.min_comm]
  | tail =>
    simp only [List.rtake_eq_reverse_take_reverse, List.reverse_reverse, List.take_take,
      Nat.min_comm]

end Selects

section Select

variable {input : Option String} {w : Workspace} {operands : List String} {text : String}

/-- The count and the text are found, the text in a file or behind the pipe. -/
theorem lineInput_counted {n : Nat} (hn : n < Nat.pow 2 64) (h : Source input w operands text)
    (tool : String) :
    (lineInput tool ⟨operands, [("lines", Text.numeral n)], []⟩ { w with stdin := input }).1 =
      .ok (n, text) := by
  have hcount := lineCount_numeral hn tool
  have hnamed : ∀ dashed : Option String,
      ((Arguments.mk operands [("lines", Text.numeral n)] []).named? "lines").or dashed =
        some (Text.numeral n) := fun _ => rfl
  cases h with
  | piped =>
    simp only [lineInput, hnamed, countAndPath, hcount]
    rfl
  | @file operand text hoperand htext =>
    have hpath : countAndPath [operand] (none, none) = (none, some operand) :=
      @countAndPath_snoc [] operand hoperand rfl
    have hread : { w with stdin := input : Workspace }.store.read
        ({ w with stdin := input : Workspace }.resolve operand) = .ok text := htext
    simp only [lineInput, hnamed, hpath, hcount, hread]

variable {b : Builtin} {select : Nat → List String → List String} (hselects : Selects b select)
include hselects

theorem readArguments_counted {n : Nat} (h : Source input w operands text) :
    readArguments b.schema (counted b n operands).words =
      .ok ⟨operands, [("lines", Text.numeral n)], []⟩ := by
  have hoption : readArguments b.schema ["-n", Text.numeral n] =
      .ok ⟨[], [("lines", Text.numeral n)], []⟩ := by
    cases hselects <;> rfl
  cases h with
  | piped => exact hoption
  | file hoperand _ =>
    have hraw : b.schema.raw = false := by cases hselects <;> rfl
    exact readArguments_snoc hraw hoption (.inl hoperand)

/-- A command with a count puts out the lines that it selects of its text. -/
theorem run_counted {n : Nat} (hn : n < Nat.pow 2 64) (h : Source input w operands text) :
    ((counted b n operands).run input w).1 =
      Outcome.success (joinWith "\n" (select n (lines text))) := by
  have hwords := readArguments_counted (n := n) hselects h
  have hrun : ∀ tool chosen,
      (selectCounted tool chosen ⟨operands, [("lines", Text.numeral n)], []⟩
        { w with stdin := input }).1 = Outcome.success (chosen n text) := by
    intro tool chosen
    have hinput := lineInput_counted hn h tool
    rw [selectCounted]
    split
    next o v hresult =>
      rw [hresult] at hinput
      cases hinput
    next k s v hresult =>
      rw [hresult] at hinput
      obtain ⟨rfl, rfl⟩ := Prod.mk.inj (Except.ok.inj hinput)
      rfl
  simp only [Invocation.run, show (counted b n operands).builtin = b from rfl, hwords]
  cases hselects with
  | head => exact hrun "head" firstLines
  | tail => exact hrun "tail" lastLines

theorem outOf_counted {n : Nat} (hn : n < Nat.pow 2 64) (h : Source input w operands text)
    (p : Progress) :
    outOf [counted b n operands] input p w = joinWith "\n" (select n (lines text)) := by
  have hrun := congrArg Outcome.out (run_counted hselects hn h)
  exact hrun

/-- Behind it, such a command puts out what it selects of the lines that are read again. -/
theorem outOf_counted_twice {m n : Nat} (hm : m < Nat.pow 2 64) (hn : n < Nat.pow 2 64)
    (h : Source input w operands text) (p : Progress) :
    outOf [counted b m operands, counted b n []] input p w =
      joinWith "\n" (select n (reread (select m (lines text)))) := by
  have hfirst := run_counted hselects hm h
  have hsecond := run_counted hselects hn
    (.piped : Source (some ((counted b m operands).run input w).1.out)
      ((counted b m operands).run input w).2 [] _)
  rw [hfirst] at hsecond
  have hout : outOf [counted b m operands, counted b n []] input p w =
      joinWith "\n" (select n (lines (joinWith "\n" (select m (lines text))))) := by
    simp only [outOf, runSegments, hfirst]
    exact congrArg Outcome.out hsecond
  rw [hout, Text.lines_joinWith (hselects.unbroken m text)]

/-- What is read of the output is what was selected only if that is intact. -/
theorem lines_outOf_counted_iff {m : Nat} (hm : m < Nat.pow 2 64) (h : Source input w operands text)
    (p : Progress) :
    lines (outOf [counted b m operands] input p w) = select m (lines text) ↔
      Text.Intact (select m (lines text)) := by
  rw [outOf_counted hselects hm h, Text.lines_joinWith (hselects.unbroken m text),
    Text.reread_eq_self_iff]

/-- The two counts come to the smaller one if the second command selects the same of the lines that it
reads. One empty line is as good as none. -/
theorem counted_twice_iff {m n : Nat} (hm : m < Nat.pow 2 64) (hn : n < Nat.pow 2 64)
    (h : Source input w operands text) (p : Progress) :
    outOf [counted b m operands, counted b n []] input p w =
        outOf [counted b (min m n) operands] input p w ↔
      select m (lines text) = [""] ∨
        select n (reread (select m (lines text))) = select n (select m (lines text)) := by
  have hmin : min m n < Nat.pow 2 64 := by omega
  rw [outOf_counted_twice hselects hm hn h, outOf_counted hselects hmin h,
    ← hselects.select_select]
  exact Text.joinWith_select_reread_iff (hselects.sublist n) (hselects.none_or_some n)
    (hselects.unbroken m text)

end Select

/-- Two counts in a row, for `head` and for `tail`, of a piped text or of a file. They come to the
smaller of the two exactly if the lines that the second command selects are, before the pipe and behind
it, the same: no line feed follows a carriage return in them, and no empty line that is asked for is
lost at the end. For `tail`, which counts from the end, a lost line moves the others; they are then to
be equal to those before them. All the lines that were selected are read behind the pipe exactly if
they are intact. -/
theorem line_counts_compose_iff {m n : Nat} (hm : m < Nat.pow 2 64) (hn : n < Nat.pow 2 64)
    {input : Option String} {w : Workspace} {operands : List String} {text : String}
    (h : Source input w operands text) (p : Progress) :
    let out (is : List Invocation) := outOf is input p w
    let first := (lines text).take m
    let last := (lines text).rtake m
    (out [counted .head m operands, counted .head n []] = out [counted .head (min m n) operands] ↔
      first = [""] ∨ ((∀ line ∈ first.dropLast.take n, ¬Returned line) ∧
        (first.length ≤ n → first.getLast? ≠ some ""))) ∧
    (out [counted .tail m operands, counted .tail n []] = out [counted .tail (min m n) operands] ↔
      last = [""] ∨
        (last.getLast? ≠ some "" ∧ ∀ line ∈ (last.rtake n).dropLast, ¬Returned line) ∨
        (last.getLast? = some "" ∧ (last.dropLast.rtake n).map beforeBreak = last.rtake n)) ∧
    (lines (out [counted .head m operands]) = first ↔ Text.Intact first) ∧
    (lines (out [counted .tail m operands]) = last ↔ Text.Intact last) := by
  intro out first last
  have hfirst : (reread first).take n = first.take n ↔ _ := Text.take_reread_eq_iff
  have hlast : (reread last).rtake n = last.rtake n ↔ _ := Text.rtake_reread_eq_iff
  exact ⟨(counted_twice_iff .head hm hn h p).trans (or_congr_right hfirst),
    (counted_twice_iff .tail hm hn h p).trans (or_congr_right hlast),
    lines_outOf_counted_iff .head hm h p, lines_outOf_counted_iff .tail hm h p⟩

/-- The empty line is not at the end of what is selected, and a carriage return at the end of the text
comes before no line feed. -/
theorem empty_line_and_return_kept :
    let s := Desktop.newStore Config.standard ⟨0, 0⟩
    let w : Workspace := ⟨s, Windows.empty, "desktop", s.home, none, none, [], ⟨0, 0⟩⟩
    let out (is : List Invocation) := outOf is (some "a\r\n\nb\r\nc\r") .start w
    out [counted .head 3 [], counted .head 2 []] = out [counted .head 2 []] ∧
      out [counted .head 2 []] = "a\n" ∧
      out [counted .tail 3 [], counted .tail 2 []] = out [counted .tail 2 []] ∧
      out [counted .tail 2 []] = "b\nc\r" := by
  intro s w out
  obtain ⟨hhead, htail, -, -⟩ := @line_counts_compose_iff 3 2 (by decide) (by decide)
    (some "a\r\n\nb\r\nc\r") w [] _ .piped .start
  have hhead' := hhead.mpr (.inr (by decide +kernel))
  have htail' := htail.mpr (.inr (.inl (by decide +kernel)))
  exact ⟨hhead', by decide +kernel, htail', by decide +kernel⟩

/-- The empty line is among the first two lines, but the second command does not read it. It is the last
line, and behind the pipe another line is. A carriage return is taken for a part of a line ending. -/
theorem empty_line_and_return_lost :
    let s := Desktop.newStore Config.standard ⟨0, 0⟩
    let w : Workspace := ⟨s, Windows.empty, "desktop", s.home, none, none, [], ⟨0, 0⟩⟩
    let out (text : String) (is : List Invocation) := outOf is (some text) .start w
    out "a\n\nb" [counted .head 2 []] = "a\n" ∧
      out "a\n\nb" [counted .head 2 [], counted .head 2 []] = "a" ∧
      out "x\na\n\n" [counted .tail 1 []] = "" ∧
      out "x\na\n\n" [counted .tail 2 [], counted .tail 1 []] = "a" ∧
      out "a\r\r\nb" [counted .head 2 []] = "a\r\nb" ∧
      out "a\r\r\nb" [counted .head 2 [], counted .head 2 []] = "a\nb" := by
  decide +kernel

end DesktopTerminal.Command
