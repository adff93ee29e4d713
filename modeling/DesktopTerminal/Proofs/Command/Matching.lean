import DesktopTerminal.Proofs.Command.Display
import DesktopTerminal.Proofs.Text.Occurrence

/-!
# The lines that a search selects

`grep` goes over the lines of a text with their numbers. It selects those that contain the pattern, or
all the others; so a search and its inversion share out the lines between them. What it prints and the
code it ends with depend on the selected lines only.
-/
namespace DesktopTerminal.Command

/-- The lines of a text, each with its number, which starts from one. -/
def numberedLines (text : String) : List (String × Nat) := (Text.lines text).zipIdx 1

/-- The lines that contain the pattern. -/
def matchingLines (ignoreCase : Bool) (pattern text : String) : List (String × Nat) :=
  (numberedLines text).filter fun l => Text.Contains ignoreCase pattern l.1

/-- The lines that do not contain it. -/
def otherLines (ignoreCase : Bool) (pattern text : String) : List (String × Nat) :=
  (numberedLines text).filter fun l => ¬Text.Contains ignoreCase pattern l.1

/-- How a selected line is printed. -/
def printed (lineNumber : Bool) (l : String × Nat) : String :=
  (if lineNumber then Text.numeral l.2 ++ ":" else "") ++ l.1

/-- No line is lost and none is in both. -/
theorem matchingLines_append_otherLines (ignoreCase : Bool) (pattern text : String) :
    (matchingLines ignoreCase pattern text ++ otherLines ignoreCase pattern text).Perm
      (numberedLines text) := by
  have hall := List.filter_append_perm (fun l => Text.Contains ignoreCase pattern l.1)
    (numberedLines text)
  simpa only [matchingLines, otherLines, decide_not] using hall

/-- A line is selected if it contains the pattern and the search is not inverted, or the other way
round. -/
theorem map_plain_selectLines (o : GrepOptions) (pattern : String) (lines : List String)
    (number : Nat) :
    (selectLines o pattern number lines).map (·.plain) =
      ((lines.zipIdx number).filter fun l =>
        decide (Text.Contains o.ignoreCase pattern l.1) != o.invert).map (printed o.lineNumber) := by
  induction lines generalizing number with
  | nil => rfl
  | cons line lines ih =>
    have hfound : (Text.find? line pattern o.ignoreCase).isSome =
        decide (Text.Contains o.ignoreCase pattern line) :=
      Bool.eq_iff_iff.mpr (Text.isSome_find?_iff.trans decide_eq_true_iff.symm)
    rw [selectLines, List.zipIdx_cons, hfound]
    by_cases hskip : decide (Text.Contains o.ignoreCase pattern line) = o.invert
    · rw [if_pos (beq_iff_eq.mpr hskip), List.filter_cons_of_neg (by simp [hskip]), ih]
    · rw [if_neg (by simpa using hskip), List.filter_cons_of_pos (by simpa using hskip),
        List.map_cons, List.map_cons, ih]
      rfl

theorem map_plain_grepLines (o : GrepOptions) (pattern text : String) :
    (grepLines o pattern text).map (·.plain) =
      (if o.invert then otherLines o.ignoreCase pattern text
        else matchingLines o.ignoreCase pattern text).map (printed o.lineNumber) := by
  rw [grepLines, map_plain_selectLines]
  cases o.invert with
  | true => simp [otherLines, numberedLines]
  | false => simp [matchingLines, numberedLines]

/-- A search that has a pattern and a text ends with what it has selected. -/
theorem grep_searched {a : Arguments} {w : Workspace} {pattern : String} {operands : List String}
    (hpattern : a.positional = pattern :: operands) {text : String} (htext : Searched a w text) :
    (grep a w).1 = grepOutcome (a.hasFlag "count") (grepLines
      ⟨a.hasFlag "ignore_case", a.hasFlag "invert", a.hasFlag "line_number"⟩ pattern text) := by
  rcases htext with hinput | ⟨hfile, hread⟩
  · obtain ⟨rfl, rfl⟩ := List.cons.inj (hpattern.symm.trans hinput)
    simp only [grep, hpattern]
  · obtain ⟨rfl, rfl⟩ := List.cons.inj (hpattern.symm.trans hfile)
    simp only [grep, hpattern, hread]

/-- With a pattern and a text, `grep` chooses the lines that contain the pattern, or all the others if
it is inverted, and the two share out the lines. It prints them in their order, each with its number if
asked to, or how many they are; it fails exactly if there are none. A line contains the pattern exactly
if its bytes have a window between characters that agrees with the bytes of the pattern. -/
theorem grep_selects_matching_lines {a : Arguments} {w : Workspace} {pattern : String}
    {operands : List String} (hpattern : a.positional = pattern :: operands) {text : String}
    (htext : Searched a w text) :
    let matching := matchingLines (a.hasFlag "ignore_case") pattern text
    let others := otherLines (a.hasFlag "ignore_case") pattern text
    let chosen := if a.hasFlag "invert" then others else matching
    let o := (grep a w).1
    (matching ++ others).Perm (numberedLines text) ∧
    o.out = (if a.hasFlag "count" then Text.numeral chosen.length
      else Text.joinWith "\n" (chosen.map (printed (a.hasFlag "line_number")))) ∧
    o.err = "" ∧ o.code = (if chosen = [] then 1 else 0) ∧
    ∀ line, Text.Contains (a.hasFlag "ignore_case") pattern line ↔
      ∃ i, Text.ByteMatch (a.hasFlag "ignore_case") pattern line i := by
  intro matching others chosen o
  let options : GrepOptions :=
    ⟨a.hasFlag "ignore_case", a.hasFlag "invert", a.hasFlag "line_number"⟩
  have hplain : (grepLines options pattern text).map (·.plain) =
      chosen.map (printed (a.hasFlag "line_number")) := map_plain_grepLines options pattern text
  have hlength : (grepLines options pattern text).length = chosen.length := by
    simpa using congrArg List.length hplain
  have hnone : (grepLines options pattern text).isEmpty = true ↔ chosen = [] := by
    rw [List.isEmpty_iff_length_eq_zero, hlength, List.length_eq_zero_iff]
  have ho : o = grepOutcome (a.hasFlag "count") (grepLines options pattern text) :=
    grep_searched hpattern htext
  refine ⟨matchingLines_append_otherLines _ _ _, ?_, ?_, ?_, fun line =>
    Text.contains_iff_exists_byteMatch⟩
  · rw [ho, grepOutcome, hlength, hplain]
    split <;> rfl
  · rw [ho, grepOutcome]
    split <;> rfl
  · have hcode : o.code = if (grepLines options pattern text).isEmpty then 1 else 0 := by
      rw [ho, grepOutcome]
      split <;> rfl
    rw [hcode]
    exact if_congr hnone rfl rfl

/-- An accent is no ASCII letter, so its case is not overlooked. The carriage return belongs to the end
of its line, and the empty line is counted. -/
theorem accented_capital_not_matched :
    let s := Desktop.newStore Config.standard ⟨0, 0⟩
    let text := "Ärger\nNAÏVE\r\n\nnaïve x"
    let w : Workspace := ⟨s, Windows.empty, "desktop", s.home, none, some text, [], ⟨0, 0⟩⟩
    let search : Arguments := ⟨["Aï"], [], ["ignore_case", "invert", "line_number"]⟩
    otherLines true "Aï" text = [("Ärger", 1), ("NAÏVE", 2), ("", 3)] ∧
      (matchingLines true "Aï" text ++ otherLines true "Aï" text).Perm (numberedLines text) ∧
      (grep search w).1.out = "1:Ärger\n2:NAÏVE\n3:" ∧ (grep search w).1.code = 0 := by
  intro s text w search
  have htext : Searched search w text := .input rfl
  have hothers : otherLines true "Aï" text = [("Ärger", 1), ("NAÏVE", 2), ("", 3)] := by
    decide +kernel
  obtain ⟨hall, hout, -, hcode, -⟩ := grep_selects_matching_lines (rfl : _ = "Aï" :: []) htext
  have hflags : search.hasFlag "ignore_case" = true ∧ search.hasFlag "invert" = true ∧
      search.hasFlag "count" = false ∧ search.hasFlag "line_number" = true := by decide
  obtain ⟨hignore, hinvert, hcount, hnumber⟩ := hflags
  simp only [hignore, hinvert, hcount, hnumber, if_pos] at hall hout hcode
  rw [hothers] at hout hcode
  exact ⟨hothers, hall, hout.trans (by decide +kernel), hcode⟩

end DesktopTerminal.Command
