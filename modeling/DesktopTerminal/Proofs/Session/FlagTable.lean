import DesktopTerminal.Proofs.Command.Flags
import DesktopTerminal.Proofs.Session.Offer

/-!
# Whose flags are offered

Flags are offered from the table of the command that the first word of the line names, whichever
command of the pipeline the token belongs to. Behind a pipe that is another one, and what is offered
there need not be among its own flags: then the completed line is refused for the flag.
-/
namespace DesktopTerminal.Completion

/-- The rule for flags is to complete the token. -/
structure FlagRule (input : String) (before token : List Char) : Prop where
  split : splitToken input.toList = (before, token)
  later : before.all Text.isBlank = false
  dash : token.head? = some '-'

/-- The command has an option of this spelling. -/
def KnowsFlag (command flag : String) : Prop :=
  ∃ schema, Builtin.schemas.find? (·.name = command) = some schema ∧
    (schema.param? flag).isSome = true

/-- All blanks are blanks to the shell. -/
def PlainBlanks (text : List Char) : Prop := ∀ c ∈ text, Text.isBlank c = true → c ∈ Line.blanks

instance (text : List Char) : Decidable (PlainBlanks text) :=
  List.decidableBAll (fun c => Text.isBlank c = true → c ∈ Line.blanks) text

variable {schemas : List Schema} {store : Store} {cwd : Path} {input line : String}
  {before token : List Char}

namespace FlagRule

variable (h : FlagRule input before token)
include h

theorem behind : Behind Text.isBlank input.toList before token := by
  have hbehind := behind_splitToken input.toList
  rwa [h.split] at hbehind

theorem token_ne_nil : token ≠ [] := by
  rintro rfl
  cases h.dash

theorem not_endsInBlank : ¬ Line.EndsInBlank input.toList := by
  rw [← h.behind.whole, Line.endsInBlank_append h.token_ne_nil]
  rintro ⟨c, hc, hblank⟩
  have hall : Line.blanks.all Text.isBlank = true := by decide
  have hclear := h.behind.clear c (List.mem_of_getLast? hc)
  rw [List.all_eq_true.mp hall c hblank] at hclear
  cases hclear

/-- A blank stands before the token. -/
theorem exists_blank : ∃ more c, before = more ++ [c] ∧ Text.isBlank c = true := by
  refine h.behind.mark.resolve_left ?_
  rintro rfl
  cases h.later

/-- What is offered is from the table of the command that the first word names. -/
theorem exists_flag (hline : completeLine schemas store cwd input = some line) :
    ∃ first owner flag added, (Text.words (String.ofList before)).head? = some first ∧
      schemas.find? (·.name = first) = some owner ∧ flag ∈ owner.flags ∧
      line = String.ofList before ++ flag ∧ flag = String.ofList token ++ added ∧ added ≠ "" := by
  obtain ⟨text, hoffers, hne, rfl⟩ := (completeLine_eq_some_iff h.behind).mp hline
  obtain ⟨added, hadded, htext⟩ := hoffers.exists_added hne
  cases hoffers with
  | command hfirst => cases hfirst.symm.trans h.later
  | path _ hnodash => exact absurd h.dash hnodash
  | @flag first _ owner front back _ _ hfirst howner hflags _ _ =>
    exact ⟨first, owner, text, added, hfirst, howner, by simp [hflags], rfl, htext, hadded⟩

section

variable {p : Line.Pipeline} (hparse : Line.parse input = .ok p) (hblanks : PlainBlanks before)
include hparse hblanks

/-- If the shell sees the same blanks, the first word is the name of the first command. -/
theorem first_command {first : String} (hbare : Line.Bare first)
    (hfirst : (Text.words (String.ofList before)).head? = some first) :
    ∃ c, p.commands.head? = some c ∧ c.name = first := by
  obtain ⟨front, rest, hbefore, hfront, -, hclear, hstop⟩ := Text.exists_of_head?_words hfirst
  rw [String.toList_ofList] at hbefore
  have hrest : rest ≠ [] := by
    rintro rfl
    obtain ⟨more, c, hlast, hblank⟩ := h.exists_blank
    have hmem : c ∈ first.toList := by
      have hne : first.toList ≠ [] := mt String.toList_eq_nil_iff.mp hbare.1
      refine List.mem_of_getLast? ?_
      rw [List.append_nil] at hbefore
      rw [← List.getLast?_append_of_ne_nil front hne, ← hbefore, hlast, List.getLast?_concat]
    rw [hclear c hmem] at hblank
    cases hblank
  have hin : ∀ c, c ∈ front ∨ c ∈ rest → c ∈ before := by
    rw [hbefore]
    simp only [List.mem_append]
    rintro c (hc | hc)
    · exact .inl hc
    · exact .inr (.inr hc)
  have hinput : input.toList = front ++ (first.toList ++ (rest ++ token)) := by
    rw [← h.behind.whole, hbefore, List.append_assoc, List.append_assoc]
  refine Line.exists_first_command hparse hinput
    (fun c hc => hblanks c (hin c (.inl hc)) (hfront c hc)) hbare fun c hc => .inl ?_
  rw [Line.head?_append_of_ne_nil hrest] at hc
  exact hblanks c (hin c (.inr (List.mem_of_mem_head? hc))) (hstop c hc)

theorem openWord_eq (hbare : ∀ c ∈ token, c ∉ Line.specials) :
    Line.openWord input p = String.ofList token := by
  refine Line.openWord_eq_of_bare hparse h.behind.ofList_append ?_ (by rwa [String.toList_ofList])
  obtain ⟨more, c, rfl, hblank⟩ := h.exists_blank
  rw [String.toList_ofList]
  exact ⟨c, List.getLast?_concat, hblanks c (by simp) hblank⟩

end

end FlagRule

/-- A flag is offered from the table of the first word. Between plain blanks that is the first command
of the pipeline, while the flag becomes the last argument of the last one, which has it if it bears the
same name, and else only if its own table lists it too. If not, it refuses it where an option may
stand. -/
theorem offered_flag_known_iff {front : List Line.Command} {c : Line.Command} {args : List String}
    {word : String} (hrule : FlagRule input before token)
    (hparse : Line.parse input = .ok ⟨front ++ [c], none⟩) (hargs : c.args = args ++ [word])
    (hline : completeLine Builtin.schemas store cwd input = some line) :
    ∃ first owner flag, (Text.words (String.ofList before)).head? = some first ∧
      Builtin.schemas.find? (·.name = first) = some owner ∧ flag ∈ owner.flags ∧
      line = String.ofList before ++ flag ∧
      (PlainBlanks before →
        (∃ b, (front ++ [c]).head? = some b ∧ b.name = first) ∧
        Line.parse line = .ok ⟨front ++ [⟨c.name, args ++ [flag]⟩], none⟩) ∧
      (c.name = first → KnowsFlag c.name flag) ∧
      (KnowsFlag c.name flag ↔
        ∃ schema, Builtin.schemas.find? (·.name = c.name) = some schema ∧ flag ∈ schema.flags) ∧
      ∀ schema items, Builtin.schemas.find? (·.name = c.name) = some schema → schema.raw = false →
        schema.Reads args items →
          ((∃ fault, readArguments schema (args ++ [flag]) = .error fault ∧
            fault.isUnknown = true) ↔ ¬ KnowsFlag c.name flag) := by
  obtain ⟨name, words⟩ := c
  obtain rfl : words = args ++ [word] := hargs
  obtain ⟨first, owner, flag, added, hfirst, howner, hflag, rfl, hadded, hne⟩ := hrule.exists_flag hline
  have hmem := List.mem_of_find?_eq_some howner
  obtain ⟨hisFlag, hbare⟩ := Builtin.isFlag_of_mem_flags hmem hflag
  have hdash : startsWithDash flag = true := (List.mem_filter.mp hflag).2
  have hknown : ∀ schema ∈ Builtin.schemas,
      ((schema.param? flag).isSome = true ↔ flag ∈ schema.flags) := by
    intro schema hschema
    rw [← not_iff_not, Option.not_isSome_iff_eq_none]
    exact Builtin.param?_eq_none_iff hschema hdash
  have hknows : KnowsFlag name flag ↔
      ∃ schema, Builtin.schemas.find? (·.name = name) = some schema ∧ flag ∈ schema.flags :=
    exists_congr fun schema => and_congr_right fun hschema =>
      hknown schema (List.mem_of_find?_eq_some hschema)
  refine ⟨first, owner, flag, hfirst, howner, hflag, rfl, fun hblanks => ?_, ?_, hknows, ?_⟩
  · have howned : owner.name = first := by simpa using List.find?_some howner
    have hfirstBare : Line.Bare first := howned ▸ Builtin.bare_name hmem
    refine ⟨hrule.first_command hparse hblanks hfirstBare hfirst, ?_⟩
    have htoken : ∀ a ∈ token, a ∉ Line.specials := fun a ha => hbare.2 a (by simp [hadded, ha])
    have haddedBare : Line.Bare added := ⟨hne, fun a ha => hbare.2 a (by simp [hadded, ha])⟩
    have hword : word = String.ofList token := by
      have hwords : (⟨front ++ [⟨name, args ++ [word]⟩], none⟩ : Line.Pipeline).words =
          front.flatMap Line.Command.words ++ name :: args ++ [word] := by
        simp [Line.Pipeline.words, Line.Command.words]
      have hopen := hrule.openWord_eq hparse hblanks htoken
      rwa [Line.openWord, if_neg hrule.not_endsInBlank, hwords, List.getLast?_concat] at hopen
    have hlonger := Line.parse_append_argument hparse hrule.not_endsInBlank haddedBare
    rwa [hrule.behind.ofList_append, String.append_assoc, hword, ← hadded] at hlonger
  · rintro rfl
    exact hknows.mpr ⟨owner, howner, hflag⟩
  · intro schema items hschema hraw hreads
    have hparam : schema.param? flag = none ↔ ¬ KnowsFlag name flag := by
      rw [← Option.not_isSome_iff_eq_none, not_iff_not, KnowsFlag, hschema]
      simp
    rw [readArguments, hraw, if_neg Bool.false_ne_true, readWords_reads hreads, ← hparam]
    exact hisFlag.unknown_iff schema _

/-- The flag of `head` that is offered to `tail` is one of its own. -/
theorem flag_of_both_commands :
    let s := Desktop.newStore Config.standard ⟨0, 0⟩
    let input := "head -n3 notes.txt | tail -"
    let line := "head -n3 notes.txt | tail -n"
    completeLine Builtin.schemas s s.home input = some line ∧
      Line.parse line = .ok ⟨[⟨"head", ["-n3", "notes.txt"]⟩, ⟨"tail", ["-n"]⟩], none⟩ ∧
      KnowsFlag "tail" "-n" ∧
      ¬ ∃ fault, readArguments (Builtin.schema .tail) ["-n"] = .error fault ∧
        fault.isUnknown = true := by
  intro s input line
  have hrule : FlagRule input "head -n3 notes.txt | tail ".toList "-".toList :=
    ⟨by decide +kernel, by decide +kernel, by decide +kernel⟩
  have hparse : Line.parse input =
      .ok ⟨[⟨"head", ["-n3", "notes.txt"]⟩] ++ [⟨"tail", ["-"]⟩], none⟩ := by decide +kernel
  have hargs : ["-"] = [] ++ ["-"] := rfl
  have hline : completeLine Builtin.schemas s s.home input = some line := by decide +kernel
  obtain ⟨first, owner, flag, -, -, -, hflag, hplain, -, hknows, hrefused⟩ :=
    offered_flag_known_iff hrule hparse hargs hline
  obtain rfl : "-n" = flag := by
    have hsame : String.ofList "head -n3 notes.txt | tail ".toList ++ "-n" = line := by decide +kernel
    exact (String.append_right_inj _).mp (hsame.trans hflag)
  have htail : Builtin.schemas.find? (·.name = "tail") = some (Builtin.schema .tail) := by
    decide +kernel
  have hknown : KnowsFlag "tail" "-n" := hknows.mpr ⟨_, htail, by decide +kernel⟩
  have hplaced := (hplain (by decide +kernel)).2
  exact ⟨hline, hplaced, hknown, fun hunknown =>
    (hrefused _ [] htail rfl .nil).mp hunknown hknown⟩

/-- The flag that is offered to `grep` is one of `ls`, and `grep` refuses it. -/
theorem flag_of_first_command_offered :
    let s := Desktop.newStore Config.standard ⟨0, 0⟩
    Line.parse "ls | grep -" = .ok ⟨[⟨"ls", []⟩, ⟨"grep", ["-"]⟩], none⟩ ∧
      FlagRule "ls | grep -" "ls | grep ".toList "-".toList ∧
      completeLine Builtin.schemas s s.home "ls | grep -" = some "ls | grep -a" ∧
      Line.parse "ls | grep -a" = .ok ⟨[⟨"ls", []⟩, ⟨"grep", ["-a"]⟩], none⟩ ∧
      ¬ KnowsFlag "grep" "-a" ∧
      readArguments (Builtin.schema .grep) ["-a"] = .error (.invalidLetter 'a') := by
  intro s
  have hgrep : Builtin.schemas.find? (·.name = "grep") = some (Builtin.schema .grep) := by
    decide +kernel
  have hunknown : ¬ KnowsFlag "grep" "-a" := by
    rintro ⟨schema, hschema, hparam⟩
    obtain rfl := Option.some.inj (hgrep.symm.trans hschema)
    exact absurd hparam (by decide +kernel)
  exact ⟨by decide +kernel, ⟨by decide +kernel, by decide +kernel, by decide +kernel⟩,
    by decide +kernel, by decide +kernel, hunknown, by decide +kernel⟩

end DesktopTerminal.Completion
