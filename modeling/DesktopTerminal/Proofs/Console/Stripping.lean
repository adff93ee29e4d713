import DesktopTerminal.Console.Format
import DesktopTerminal.Proofs.Markup

/-!
# Sequences that stripping makes

Stripping goes over a text once and takes out every escape sequence it meets. What stood on the two
sides of a sequence then stands together, and an ESC that opened nothing may so come to stand before
a `[`. This is the only way in which a stripped text can open a sequence.
-/
namespace DesktopTerminal.Markup

/-- An ESC with a `[` right behind it. -/
def opening : List Char := ['\x1b', '[']

/-- The text opens an escape sequence somewhere. -/
def Opens (cs : List Char) : Prop := opening <:+: cs

instance (cs : List Char) : Decidable (Opens cs) := inferInstanceAs (Decidable (_ <:+: _))

/-- A whole escape sequence, from its opening to its first letter. -/
inductive IsSequence : List Char → Prop
  | mk {body : List Char} {letter : Char} (hbody : body.any Char.isAlpha = false)
      (hletter : letter.isAlpha = true) : IsSequence (opening ++ (body ++ [letter]))

/-- How a text is read: as characters, which are kept, and sequences, which are not. The last
sequence may have no end. -/
inductive Reads : List Char → List Char → Prop
  | nil : Reads [] []
  | char {c : Char} {rest plain : List Char} (hc : ¬opening <+: c :: rest)
      (hrest : Reads rest plain) : Reads (c :: rest) (c :: plain)
  | sequence {s rest plain : List Char} (hs : IsSequence s) (hrest : Reads rest plain) :
      Reads (s ++ rest) plain
  | unfinished {body : List Char} (hbody : body.any Char.isAlpha = false) :
      Reads (opening ++ body) []

/-- A beginning of a text that is read as characters and whole sequences. -/
inductive Settled : List Char → Prop
  | nil : Settled []
  | char {c : Char} {front : List Char} (hc : ¬opening <+: c :: front) (hfront : Settled front) :
      Settled (c :: front)
  | sequence {s front : List Char} (hs : IsSequence s) (hfront : Settled front) :
      Settled (s ++ front)

/-- Somewhere an ESC that is a character is parted from a `[` by sequences only. -/
def Parted (cs : List Char) : Prop :=
  ∃ front sequences rest, cs = front ++ '\x1b' :: (sequences.flatten ++ '[' :: rest) ∧
    Settled front ∧ sequences ≠ [] ∧ ∀ s ∈ sequences, IsSequence s

/-! ## Reading -/

theorem IsSequence.marks {s : List Char} (h : IsSequence s) : Marks s [] := by
  obtain ⟨hbody, hletter⟩ := h
  exact marks_sequence _ _ hbody hletter

theorem IsSequence.starts {s : List Char} (h : IsSequence s) : opening <+: s := by
  obtain ⟨hbody, hletter⟩ := h
  exact List.prefix_append _ _

/-- A character that opens nothing is kept. -/
theorem stripFrom_char {c : Char} {rest : List Char} (h : ¬opening <+: c :: rest) :
    stripFrom false (c :: rest) = c :: stripFrom false rest := by
  rw [stripFrom]
  intro rest' hc hrest
  subst hc hrest
  exact h (List.prefix_append opening rest')

/-- How the rest of a text is read; `true` is inside a sequence, some of which has been read. -/
def ReadsOn : Bool → List Char → List Char → Prop
  | false, cs, plain => Reads cs plain
  | true, cs, plain => ∀ body : List Char, body.any Char.isAlpha = false →
      Reads (opening ++ (body ++ cs)) plain

theorem readsOn_stripFrom (inside : Bool) (cs : List Char) :
    ReadsOn inside cs (stripFrom inside cs) := by
  fun_induction stripFrom inside cs with
  | case1 inside =>
    cases inside with
    | false => exact .nil
    | true =>
      intro body hbody
      rw [List.append_nil]
      exact .unfinished hbody
  | case2 c cs ih =>
    intro body hbody
    have hmove : opening ++ (body ++ c :: cs) = opening ++ (body ++ [c]) ++ cs := by simp
    cases hc : c.isAlpha with
    | true =>
      rw [hc] at ih
      rw [hmove]
      exact .sequence (.mk hbody hc) ih
    | false =>
      rw [hc] at ih
      rw [hmove, List.append_assoc]
      exact ih (body ++ [c]) (by simp [hbody, hc])
  | case3 cs ih => exact ih [] rfl
  | case4 c cs hc ih =>
    refine .char (fun hopens => ?_) ih
    obtain ⟨rest, hrest⟩ := hopens
    obtain ⟨rfl, rfl⟩ := List.cons.inj hrest
    exact hc rest rfl rfl

/-- Every text is read in this way, and stripping keeps the characters. -/
theorem reads_stripFrom (cs : List Char) : Reads cs (stripFrom false cs) :=
  readsOn_stripFrom false cs

namespace Reads

variable {cs plain : List Char}

/-- What comes first of what is kept stands behind sequences only. -/
theorem exists_sequences {c : Char} (h : Reads cs (c :: plain)) :
    ∃ (sequences : List (List Char)) (rest : List Char),
      cs = sequences.flatten ++ c :: rest ∧ ∀ s ∈ sequences, IsSequence s := by
  generalize hkept : c :: plain = kept at h
  induction h with
  | nil => cases hkept
  | @char d rest _ _ _ _ =>
    obtain ⟨rfl, -⟩ := List.cons.inj hkept
    exact ⟨[], rest, rfl, fun s hs => absurd hs List.not_mem_nil⟩
  | @sequence s rest _ hs _ ih =>
    obtain ⟨sequences, after, rfl, hall⟩ := ih hkept
    exact ⟨s :: sequences, after, by simp, List.forall_mem_cons.mpr ⟨hs, hall⟩⟩
  | unfinished => cases hkept

/-- Where what is kept opens a sequence, the text has its two characters apart. -/
theorem parted (h : Reads cs plain) (hopens : Opens plain) : Parted cs := by
  induction h with
  | nil => exact absurd hopens (by decide)
  | @char c rest plain hc hrest ih =>
    rcases List.infix_cons_iff.mp hopens with hhere | hlater
    · obtain ⟨rfl, hbracket⟩ := List.cons_prefix_cons.mp hhere
      obtain ⟨more, rfl⟩ := hbracket
      obtain ⟨sequences, after, rfl, hall⟩ := hrest.exists_sequences
      refine ⟨[], sequences, after, rfl, .nil, ?_, hall⟩
      -- without a sequence the two characters stand together, and the first is no character
      rintro rfl
      exact hc (List.prefix_append opening after)
    · obtain ⟨front, sequences, after, rfl, hfront, hsequences⟩ := ih hlater
      have hchar : ¬opening <+: c :: front := fun hopening =>
        hc (hopening.trans (List.prefix_append (c :: front) _))
      exact ⟨c :: front, sequences, after, rfl, .char hchar hfront, hsequences⟩
  | @sequence s rest plain hs hrest ih =>
    obtain ⟨front, sequences, after, rfl, hfront, hsequences⟩ := ih hopens
    exact ⟨s ++ front, sequences, after, by simp, .sequence hs hfront, hsequences⟩
  | unfinished => exact absurd hopens (by decide)

theorem length_le (h : Reads cs plain) : plain.length ≤ cs.length := by
  induction h with
  | nil => exact Nat.le_refl _
  | char _ _ ih => exact Nat.succ_le_succ ih
  | sequence _ _ ih =>
    rw [List.length_append]
    omega
  | unfinished => exact Nat.zero_le _

/-- All of a text is kept exactly if it opens no sequence. -/
theorem eq_iff (h : Reads cs plain) : plain = cs ↔ ¬Opens cs := by
  induction h with
  | nil => decide
  | @char c rest plain hc hrest ih =>
    have hopens : Opens (c :: rest) ↔ Opens rest := List.infix_cons_iff.trans (or_iff_right hc)
    rw [hopens, ← ih, List.cons.injEq, and_iff_right rfl]
  | @sequence s rest plain hs hrest ih =>
    have hopens : Opens (s ++ rest) :=
      (hs.starts.trans (List.prefix_append s rest)).isInfix
    refine iff_of_false (fun heq => ?_) (not_not_intro hopens)
    have hlength := congrArg List.length heq
    have hkept := hrest.length_le
    have htaken := hs.starts.length_le
    simp only [List.length_append, opening, List.length_cons, List.length_nil] at hlength htaken
    omega
  | @unfinished body _ =>
    have hopens : Opens (opening ++ body) := (List.prefix_append opening body).isInfix
    exact iff_of_false (fun heq => by cases heq) (not_not_intro hopens)

end Reads

/-! ## What is left -/

/-- A character before a text that does not go on with `[` opens nothing there. -/
theorem not_opening_of_append {c : Char} {front rest : List Char}
    (hc : ¬opening <+: c :: front) (hrest : rest.head? ≠ some '[') :
    ¬opening <+: c :: (front ++ rest) := by
  cases front with
  | nil =>
    intro h
    obtain ⟨more, hmore⟩ := (List.cons_prefix_cons.mp h).2
    rw [List.nil_append] at hmore
    exact hrest (by rw [← hmore]; rfl)
  | cons d front =>
    intro h
    obtain ⟨rfl, hd⟩ := List.cons_prefix_cons.mp h
    obtain ⟨rfl, -⟩ := List.cons_prefix_cons.mp hd
    exact hc (List.prefix_append opening front)

/-- Behind a settled beginning stripping starts anew. -/
theorem Settled.exists_kept {front : List Char} (h : Settled front) :
    ∃ kept, ∀ rest : List Char, rest.head? ≠ some '[' →
      stripFrom false (front ++ rest) = kept ++ stripFrom false rest := by
  induction h with
  | nil => exact ⟨[], fun _ _ => rfl⟩
  | @char c front hc _ ih =>
    obtain ⟨kept, hkept⟩ := ih
    refine ⟨c :: kept, fun rest hrest => ?_⟩
    rw [List.cons_append, stripFrom_char (not_opening_of_append hc hrest), hkept rest hrest,
      List.cons_append]
  | @sequence s front hs _ ih =>
    obtain ⟨kept, hkept⟩ := ih
    refine ⟨kept, fun rest hrest => ?_⟩
    rw [List.append_assoc, hs.marks, hkept rest hrest, List.nil_append]

theorem marks_flatten {sequences : List (List Char)} (h : ∀ s ∈ sequences, IsSequence s) :
    Marks sequences.flatten [] := by
  induction sequences with
  | nil => exact marks_nil
  | cons s sequences ih =>
    obtain ⟨hs, hsequences⟩ := List.forall_mem_cons.mp h
    exact hs.marks.append (ih hsequences)

theorem opens_of_parted {cs : List Char} (h : Parted cs) : Opens (stripFrom false cs) := by
  obtain ⟨front, sequences, rest, rfl, hfront, hne, hall⟩ := h
  obtain ⟨kept, hkept⟩ := hfront.exists_kept
  have hescape : ¬opening <+: '\x1b' :: (sequences.flatten ++ '[' :: rest) := by
    obtain ⟨s, more, rfl⟩ := List.exists_cons_of_ne_nil hne
    obtain ⟨after, hs⟩ := (hall s List.mem_cons_self).starts
    rw [List.flatten_cons, ← hs]
    intro hopening
    have hbracket := (List.cons_prefix_cons.mp (List.cons_prefix_cons.mp hopening).2).1
    exact absurd hbracket (by decide)
  have hplain : stripFrom false ('[' :: rest) = '[' :: stripFrom false rest :=
    stripFrom_of_ne (by decide) rest
  rw [hkept _ (by simp), stripFrom_char hescape, marks_flatten hall, hplain]
  exact ⟨kept, stripFrom false rest, by simp [opening]⟩

theorem opens_stripFrom_iff {cs : List Char} : Opens (stripFrom false cs) ↔ Parted cs :=
  ⟨(reads_stripFrom cs).parted, opens_of_parted⟩

theorem strip_eq_self_iff {text : String} : strip text = text ↔ ¬Opens text.toList := by
  rw [← (reads_stripFrom text.toList).eq_iff, strip, ← String.toList_inj, String.toList_ofList]

/-- A stripped text, which is what a pipe gets of an output entry, opens a sequence exactly if the
text has an ESC and a `[` that are parted by sequences only. Stripping it again takes something out
in just these cases. -/
theorem stripped_opens_iff (text : String) :
    (Opens (strip text).toList ↔ Parted text.toList) ∧
    (strip (strip text) = strip text ↔ ¬Parted text.toList) ∧
    ∃ shown, Console.formatEntry .piped (.output text) = some shown ∧
      (Opens shown.toList ↔ Parted text.toList) := by
  have hopens : Opens (strip text).toList ↔ Parted text.toList := by
    rw [strip, String.toList_ofList]
    exact opens_stripFrom_iff
  exact ⟨hopens, strip_eq_self_iff.trans (not_congr hopens), strip text, rfl, hopens⟩

/-- The sequence in the middle is taken out, and the red colour around it shows. -/
theorem colour_put_together :
    let text := "\x1b\x1b[m[31mred"
    strip text = "\x1b[31mred" ∧ Opens (strip text).toList ∧ strip (strip text) = "red" ∧
      Console.formatEntry .piped (.output text) = some "\x1b[31mred" := by
  decide +kernel

end DesktopTerminal.Markup
