import DesktopTerminal.Console.Format
import DesktopTerminal.Proofs.Markup
import DesktopTerminal.Proofs.Tree.Edit

/-!
# What is shown and what is passed on

`grep` and `ls` give their output twice, plain for pipes and files and marked for the eye. The two are
put together apart from each other, line by line; that they are the same text up to escape sequences
holds as long as what is searched or listed has none of its own.
-/
namespace DesktopTerminal.Command

open Markup

/-- What is shown is the output with markup. So a console that prints for a pipe prints the output
itself, which is what a pipe of the command line or a redirect takes. -/
structure OnlyMarkup (o : Outcome) : Prop where
  stripped : Markup.strip o.display = o.out
  printed : o.display ≠ "" → o.err = "" →
    Console.formatEntries .piped (Session.outcomeEntries o) = some o.out

theorem onlyMarkup_of_stripped {o : Outcome} (h : Markup.strip o.display = o.out) :
    OnlyMarkup o where
  stripped := h
  printed hshown hsilent := by
    rw [Session.outcomeEntries, if_neg hshown, if_pos hsilent]
    exact congrArg some h

theorem onlyMarkup_of_plain {o : Outcome} (hrendered : o.rendered = none) (h : Unescaped o.out) :
    OnlyMarkup o := by
  refine onlyMarkup_of_stripped (Marks.strip_eq ?_)
  rw [Outcome.display, hrendered]
  exact marks_plain h

/-! ## Searching -/

/-- The text that `grep` searches. -/
inductive Searched (a : Arguments) (w : Workspace) : String → Prop
  | input {pattern : String} (h : a.positional = [pattern]) : Searched a w w.takeInput.1
  | file {pattern operand text : String} {rest : List String}
      (h : a.positional = pattern :: operand :: rest)
      (htext : w.store.read (w.resolve operand) = .ok text) : Searched a w text

theorem marks_selectLines (o : GrepOptions) (pattern : String) {lines : List String}
    (h : ∀ line ∈ lines, Unescaped line) (number : Nat) :
    ∀ s ∈ selectLines o pattern number lines, Marks s.marked.toList s.plain.toList := by
  induction lines generalizing number with
  | nil => exact fun s hs => absurd hs List.not_mem_nil
  | cons line lines ih =>
    obtain ⟨hline, hlines⟩ := List.forall_mem_cons.mp h
    have hlater := ih hlines (number + 1)
    have hlabel : Unescaped (if o.lineNumber then Text.numeral number ++ ":" else "") := by
      split
      · exact unescaped_append.mpr ⟨unescaped_numeral number, by decide⟩
      · decide
    have hmarked : Marks
        (if o.invert then line else Markup.highlight line pattern o.ignoreCase).toList
        line.toList := by
      split
      · exact marks_plain hline
      · exact marks_highlight hline pattern o.ignoreCase
    rw [selectLines]
    split
    · exact hlater
    · refine List.forall_mem_cons.mpr ⟨?_, hlater⟩
      simp only [String.toList_append]
      exact (marks_plain hlabel).append hmarked

theorem onlyMarkup_grepOutcome (count : Bool) (o : GrepOptions) (pattern : String) {text : String}
    (h : Unescaped text) : OnlyMarkup (grepOutcome count (grepLines o pattern text)) := by
  have hlines : ∀ line ∈ Text.lines text, Unescaped line := fun line hline hc =>
    h (Text.mem_of_mem_lines hline hc)
  rw [grepOutcome]
  cases count with
  | true => exact onlyMarkup_of_plain rfl (unescaped_numeral _)
  | false =>
    exact onlyMarkup_of_stripped
      (marks_joinWith (by decide) (marks_selectLines o pattern hlines 1)).strip_eq

theorem grepOutcome_rendered (count : Bool) (selected : List Selected) :
    (grepOutcome count selected).rendered.isSome = !count := by
  cases count <;> rfl

/-! ## Listing -/

/-- What `ls` is asked to list. -/
def operandOf (a : Arguments) : String := a.positional.head?.getD "."

/-- What `ls` lists: a file by the name that was given for it, or what may be seen of a directory. -/
inductive Listed (a : Arguments) (w : Workspace) : Entry → Prop
  | file {e : Entry} (h : w.store.stat (w.resolve (operandOf a)) = .ok e) (hkind : e.kind = .file) :
    Listed a w { e with name := operandOf a }
  | inside {es : List Entry} {e : Entry} (h : w.store.entries (w.resolve (operandOf a)) = .ok es)
      (hmem : e ∈ es) (hseen : a.hasFlag "all" = true ∨ e.isHidden = false) : Listed a w e

/-- Nothing that a listing shows of the entry opens an escape sequence. -/
structure EntryUnescaped (e : Entry) : Prop where
  name : Unescaped e.name
  owner : Unescaped e.owner
  group : Unescaped e.group

theorem unescaped_permissions (p : Permissions) : Unescaped p.render := by
  intro h
  rw [Permissions.render, String.toList_ofList] at h
  rcases List.mem_cons.mp h with h | h
  · cases hk : p.kind <;> rw [hk] at h <;> exact absurd h (by decide)
  · obtain ⟨⟨letter, i⟩, hletter, hc⟩ := List.mem_map.mp h
    have hmem : letter ∈ Mode.letters := List.fst_mem_of_mem_zipIdx hletter
    simp only at hc
    split at hc
    · subst hc
      exact absurd hmem (by decide)
    · exact absurd hc (by decide)

theorem unescaped_listingTime (t : Instant) : Unescaped (listingTime t) := by
  have hmonths : ∀ name ∈ "" :: Clock.monthNames, Unescaped (Clock.abbreviate name) := by decide
  have hmonth : Clock.monthName t.date ∈ "" :: Clock.monthNames := by
    rw [Clock.monthName, List.getD_eq_getElem?_getD]
    cases hget : Clock.monthNames[t.date.month - 1]? with
    | none => exact List.mem_cons_self
    | some name => exact List.mem_cons_of_mem _ (List.mem_of_getElem? hget)
  simp only [listingTime, unescaped_append, Text.padLeft]
  exact ⟨⟨⟨⟨⟨⟨hmonths _ hmonth, by decide⟩, unescaped_spaces _, unescaped_numeral _⟩, by decide⟩,
    unescaped_zeroPadded _ _⟩, by decide⟩, unescaped_zeroPadded _ _⟩

theorem unescaped_label (ws : Widths) {e : Entry} (h : EntryUnescaped e) : Unescaped (ws.label e) := by
  simp only [Widths.label, unescaped_append, Text.padLeft, Text.padRight]
  exact ⟨⟨⟨⟨⟨⟨⟨⟨⟨unescaped_permissions _, by decide⟩, h.owner, unescaped_spaces _⟩, by decide⟩,
    h.group, unescaped_spaces _⟩, by decide⟩, unescaped_spaces _, unescaped_numeral _⟩, by decide⟩,
    unescaped_listingTime _⟩, by decide⟩

theorem marks_styledName {e : Entry} (h : Unescaped e.name) :
    Marks (styledName e).toList e.name.toList := by
  rw [styledName]
  split
  · exact marks_directory h
  · exact marks_plain h

theorem onlyMarkup_listEntries (long : Bool) {es : List Entry} (h : ∀ e ∈ es, EntryUnescaped e) :
    OnlyMarkup (listEntries long es) := by
  refine onlyMarkup_of_stripped (Marks.strip_eq (marks_joinWith (by decide) fun e he => ?_))
  have hentry := h e (List.mem_mergeSort.mp he)
  have hlabel : Unescaped
      (if long then (Widths.of (es.mergeSort fun a b => a.name ≤ b.name)).label e else "") := by
    split
    · exact unescaped_label _ hentry
    · decide
  simp only [String.toList_append]
  exact (marks_plain hlabel).append (marks_styledName hentry.name)

/-! ## Both commands -/

theorem onlyMarkup_failure (code : Nat) (err : String) : OnlyMarkup (Outcome.failure code err) :=
  onlyMarkup_of_plain rfl (by decide : Unescaped "")

theorem onlyMarkup_grep {a : Arguments} {w : Workspace}
    (h : ∀ text, Searched a w text → Unescaped text) : OnlyMarkup (grep a w).1 := by
  rw [grep]
  split
  · exact onlyMarkup_failure 2 _
  next pattern hwords => exact onlyMarkup_grepOutcome _ _ pattern (h _ (.input hwords))
  next pattern operand rest hwords =>
    split
    next text htext => exact onlyMarkup_grepOutcome _ _ pattern (h text (.file hwords htext))
    next => exact onlyMarkup_failure 2 _

theorem onlyMarkup_ls {a : Arguments} {w : Workspace} (h : ∀ e, Listed a w e → EntryUnescaped e) :
    OnlyMarkup (ls a w).1 := by
  simp only [ls]
  split
  · exact onlyMarkup_failure 2 _
  next target hstat =>
    split
    next hkind =>
      exact onlyMarkup_listEntries _ (List.forall_mem_singleton.mpr (h _ (.file hstat hkind)))
    next =>
      split
      · exact onlyMarkup_failure 2 _
      next es hes =>
        refine onlyMarkup_listEntries _ fun e he => ?_
        obtain ⟨hmem, hseen⟩ := List.mem_filter.mp he
        exact h e (.inside hes hmem (by simpa using hseen))

theorem rendered_grep_iff {a : Arguments} {w : Workspace} :
    (grep a w).1.rendered.isSome = true ↔
      (∃ text, Searched a w text) ∧ a.hasFlag "count" = false := by
  rw [grep]
  split
  next hwords =>
    refine iff_of_false Bool.false_ne_true ?_
    rintro ⟨⟨text, h | ⟨h, -⟩⟩, -⟩ <;> simp [hwords] at h
  next pattern hwords =>
    have hsearched : ∃ text, Searched a w text := ⟨_, .input hwords⟩
    simp [grepOutcome_rendered, hsearched]
  next pattern operand rest hwords =>
    split
    next text htext =>
      have hsearched : ∃ text, Searched a w text := ⟨text, .file hwords htext⟩
      simp [grepOutcome_rendered, hsearched]
    next fault hfault =>
      refine iff_of_false Bool.false_ne_true ?_
      rintro ⟨⟨text, h | ⟨h, htext⟩⟩, -⟩
      · simp [hwords] at h
      · obtain ⟨rfl, rfl, rfl⟩ : _ = pattern ∧ _ = operand ∧ _ = rest := by simpa [hwords] using h.symm
        rw [hfault] at htext
        cases htext

theorem exists_entries_of_stat {s : Store} {p : Path} {e : Entry} (h : s.stat p = .ok e)
    (hkind : e.kind = .directory) : ∃ es, s.entries p = .ok es := by
  obtain ⟨n, hn, he⟩ := exists_ok_of_bind_eq_ok h
  have hentry : n.kind = .directory := by
    have he := Except.ok.inj he
    subst he
    split at hkind <;> exact hkind
  cases n with
  | file => cases hentry
  | directory name info children => exact ⟨children.map Node.entry, by rw [Store.entries, hn]; rfl⟩

theorem rendered_ls_iff {a : Arguments} {w : Workspace} :
    (ls a w).1.rendered.isSome = true ↔ ∃ e, w.store.stat (w.resolve (operandOf a)) = .ok e := by
  simp only [ls]
  split
  next fault hfault =>
    refine iff_of_false Bool.false_ne_true ?_
    rintro ⟨e, he⟩
    cases hfault.symm.trans he
  next target hstat =>
    have hfound : ∃ e, w.store.stat (w.resolve (operandOf a)) = .ok e := ⟨target, hstat⟩
    split
    · exact iff_of_true rfl hfound
    next hkind =>
      obtain ⟨es, hes⟩ := exists_entries_of_stat hstat hkind
      rw [hes]
      exact iff_of_true rfl hfound

/-- What `grep` shows of the text it searches, and `ls` of what it lists, is its output with escape
sequences in it, if there are none in the text and in the names. There is a text for display whenever
`grep` has a text to search and is not to count, and whenever what `ls` is to list exists. -/
theorem display_is_output_with_markup (a : Arguments) (w : Workspace) :
    ((∀ text, Searched a w text → Unescaped text) →
      OnlyMarkup (grep a w).1 ∧
        ((grep a w).1.rendered.isSome = true ↔
          (∃ text, Searched a w text) ∧ a.hasFlag "count" = false)) ∧
    ((∀ e, Listed a w e → EntryUnescaped e) →
      OnlyMarkup (ls a w).1 ∧
        ((ls a w).1.rendered.isSome = true ↔
          ∃ e, w.store.stat (w.resolve (operandOf a)) = .ok e)) :=
  ⟨fun h => ⟨onlyMarkup_grep h, rendered_grep_iff⟩, fun h => ⟨onlyMarkup_ls h, rendered_ls_iff⟩⟩

/-- Brackets and letters in the text are no part of a sequence, and a colour goes up to its letter. -/
theorem brackets_and_folders_with_markup :
    let s := Desktop.newStore Config.standard ⟨0, 0⟩
    let w : Workspace := ⟨s, Windows.empty, "desktop", s.home, none, some "Ab[0m]\nxyz\n[31mBab", [],
      ⟨0, 0⟩⟩
    let search : Arguments := ⟨["b"], [], ["ignore_case", "line_number"]⟩
    let list : Arguments := ⟨["Documents/.."], [], ["long", "all"]⟩
    (grep search w).1.display = "1:A\x1b[1;31mb\x1b[0m[0m]\n" ++
        "3:[31m\x1b[1;31mB\x1b[0ma\x1b[1;31mb\x1b[0m" ∧
      (grep search w).1.out = "1:Ab[0m]\n3:[31mBab" ∧
      OnlyMarkup (grep search w).1 ∧ OnlyMarkup (ls list w).1 ∧
      (ls list w).1.rendered.isSome = true := by
  intro s w search list
  have hsearched : ∀ text, Searched search w text → Unescaped text := by
    rintro text (h | ⟨h, -⟩)
    · exact (by decide : Unescaped "Ab[0m]\nxyz\n[31mBab")
    · simp [search] at h
  let home : Entry := ⟨"user", .directory, 4096, ⟨.directory, Mode.initial .directory⟩,
    s.identity.user, s.identity.group, ⟨0, 0⟩⟩
  have hhome : w.store.stat (w.resolve (operandOf list)) = .ok home := by decide +kernel
  let inside := (((s.root.descend? s.home.segments).map Node.children).getD []).map Node.entry
  have hpath : w.resolve (operandOf list) = s.home := by decide +kernel
  have hinside : w.store.entries (w.resolve (operandOf list)) = .ok inside := by
    rw [hpath]
    rfl
  have hlisted : ∀ e, Listed list w e → EntryUnescaped e := by
    rintro e (⟨h, hkind⟩ | ⟨h, hmem, -⟩)
    · obtain rfl := Except.ok.inj (hhome.symm.trans h)
      cases hkind
    · obtain rfl := Except.ok.inj (hinside.symm.trans h)
      have hall : ∀ e ∈ inside, Unescaped e.name ∧ Unescaped e.owner ∧ Unescaped e.group := by
        decide +kernel
      exact ⟨(hall e hmem).1, (hall e hmem).2.1, (hall e hmem).2.2⟩
  obtain ⟨hgrep, -⟩ := (display_is_output_with_markup search w).1 hsearched
  obtain ⟨hls, hrendered⟩ := (display_is_output_with_markup list w).2 hlisted
  exact ⟨by decide +kernel, by decide +kernel, hgrep, hls, hrendered.mpr ⟨home, hhome⟩⟩

end DesktopTerminal.Command
