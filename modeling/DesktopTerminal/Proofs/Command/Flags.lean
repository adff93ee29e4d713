import DesktopTerminal.Command.Builtin
import DesktopTerminal.Proofs.Command.Getopt
import DesktopTerminal.Proofs.Line.Spelling

/-!
# Flags

A flag is one letter behind a dash or a name behind two, so it is looked up as it stands. Behind words
that are read to their end it is refused as unknown just if the table of the command does not list it.
-/
namespace DesktopTerminal

/-- The command does not know the option. -/
def UsageFault.isUnknown : UsageFault → Bool
  | .unrecognized _ => true
  | .invalidLetter _ => true
  | _ => false

/-- One letter behind a dash or a name behind two. -/
inductive IsFlag : String → Prop
  | letter {c : Char} (h : IsLetter c) : IsFlag (letterFlag c)
  | long {cs : List Char} (hname : cs ≠ []) (hplain : '=' ∉ cs) :
    IsFlag (String.ofList ('-' :: '-' :: cs))

/-- Whether the characters are a flag. -/
def flagChars : List Char → Bool
  | '-' :: '-' :: cs => !cs.isEmpty && !cs.contains '='
  | ['-', c] => decide (IsLetter c)
  | _ => false

theorem isFlag_of_flagChars {flag : String} (h : flagChars flag.toList = true) : IsFlag flag := by
  rw [← String.ofList_toList (s := flag)]
  rw [flagChars.eq_def] at h
  split at h
  next cs hcs =>
    obtain ⟨hname, hplain⟩ := Bool.and_eq_true_iff.mp h
    exact hcs ▸ .long (by simpa using hname) (by simpa using hplain)
  next c _ hc => exact hc ▸ .letter (of_decide_eq_true h)
  next => cases h

namespace Schema

variable {s : Schema} {flag : String}

theorem param?_eq_none_iff (hdash : startsWithDash flag = true)
    (hnames : ∀ p ∈ s.params, startsWithDash p.name = false) :
    s.param? flag = none ↔ flag ∉ s.flags := by
  have hname : ∀ p ∈ s.params, p.name ≠ flag := by
    rintro p hp rfl
    exact absurd hdash (by rw [hnames p hp]; decide)
  simp only [param?, List.find?_eq_none, flags, List.mem_filter, List.mem_flatMap, hdash, and_true,
    not_exists, not_and]
  refine forall₂_congr fun p hp => ?_
  simp [Param.answersTo, hname p hp]

end Schema

namespace IsFlag

variable {flag : String} (h : IsFlag flag)
include h

theorem isOption : isOption flag = true ∧ flag ≠ "--" := by
  cases h with
  | letter hc => exact isOption_cluster ⟨_, rfl, hc⟩
  | long hname _ => exact isOption_long hname

/-- A flag is looked up as it stands. -/
theorem readOption_eq (s : Schema) : ∃ unknown missing, unknown.isUnknown = true ∧
    missing.isUnknown = false ∧
    readOption s flag = (s.param? flag).elim (.error unknown) fun p =>
      .ok (if p.isSwitch then ⟨[p.name], none⟩ else ⟨[], some ⟨p.name, none, missing⟩⟩) := by
  cases h with
  | @letter c hc =>
    refine ⟨.invalidLetter c, .missingLetterValue c, rfl, rfl, ?_⟩
    have hread : readOption s (letterFlag c) = readCluster s [c] := readOption_cluster ⟨c, rfl, hc⟩
    rw [hread, readCluster, readCluster, ← letterFlag]
    cases s.param? (letterFlag c) with
    | none => rfl
    | some p => by_cases hswitch : p.isSwitch <;> simp [hswitch, Except.map]
  | @long cs hname hplain =>
    have htext : "--" ++ String.ofList cs = String.ofList ('-' :: '-' :: cs) :=
      (@String.ofList_append ['-', '-'] cs).symm
    obtain ⟨htake, hdrop⟩ := span_all hplain
    refine ⟨.unrecognized (String.ofList ('-' :: '-' :: cs)),
      .missingLongValue (String.ofList ('-' :: '-' :: cs)), rfl, rfl, ?_⟩
    rw [readOption_long, readLong, htake, hdrop, htext]
    cases s.param? (String.ofList ('-' :: '-' :: cs)) with
    | none => rfl
    | some p => by_cases hswitch : p.isSwitch <;> simp [hswitch]

/-- At the end of the words a flag is refused as unknown just if the schema has no such option. It may
also be refused because it lacks a value. -/
theorem unknown_iff (s : Schema) (a : Arguments) :
    (∃ fault, readWords s [flag] a = .error fault ∧ fault.isUnknown = true) ↔
      s.param? flag = none := by
  obtain ⟨unknown, missing, hunknown, hmissing, hread⟩ := h.readOption_eq s
  cases hp : s.param? flag with
  | none =>
    rw [hp] at hread
    exact iff_of_true ⟨unknown, readWords_fault h.isOption hread [] a, hunknown⟩ rfl
  | some p =>
    rw [hp, Option.elim_some] at hread
    refine iff_of_false ?_ (Option.some_ne_none p)
    rintro ⟨fault, hfault, hisUnknown⟩
    by_cases hswitch : p.isSwitch = true
    · rw [if_pos hswitch] at hread
      rw [readWords_of_switches h.isOption hread rfl, readWords] at hfault
      cases hfault
    · rw [if_neg hswitch] at hread
      rw [readWords, h.isOption.1, if_neg (by simp), if_neg h.isOption.2, hread] at hfault
      obtain rfl : missing = fault := Except.error.inj hfault
      rw [hmissing] at hisUnknown
      cases hisUnknown

end IsFlag

namespace Builtin

/-- What the table of a command lists are flags, and no word has to be quoted for them. -/
theorem isFlag_of_mem_flags {schema : Schema} (hschema : schema ∈ schemas) {flag : String}
    (hflag : flag ∈ schema.flags) : IsFlag flag ∧ Line.Bare flag := by
  have hall : ∀ schema ∈ schemas, ∀ flag ∈ schema.flags,
      flagChars flag.toList = true ∧ Line.Bare flag := by decide +kernel
  exact ⟨isFlag_of_flagChars (hall schema hschema flag hflag).1, (hall schema hschema flag hflag).2⟩

theorem bare_name {schema : Schema} (h : schema ∈ schemas) : Line.Bare schema.name := by
  have hall : ∀ schema ∈ schemas, Line.Bare schema.name := by decide +kernel
  exact hall schema h

theorem param?_eq_none_iff {schema : Schema} (h : schema ∈ schemas) {flag : String}
    (hflag : startsWithDash flag = true) : schema.param? flag = none ↔ flag ∉ schema.flags := by
  have hall : ∀ schema ∈ schemas, ∀ p ∈ schema.params, startsWithDash p.name = false := by
    decide +kernel
  exact Schema.param?_eq_none_iff hflag (hall schema h)

end Builtin

end DesktopTerminal
