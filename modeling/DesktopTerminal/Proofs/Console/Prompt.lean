import DesktopTerminal.Console.Format
import DesktopTerminal.Proofs.Markup
import DesktopTerminal.Proofs.Path
import DesktopTerminal.Proofs.Session.System

/-!
# The prompt in colour

For a screen the prompt is taken apart, at its end and at its first colon, and put together again with
colours. A colon or a blank in a name survives this. The dollar signs at the end are all taken for the
end of the prompt, so those of a directory whose name ends in one are lost.
-/
namespace DesktopTerminal

/-! ## How the directory is shown -/

theorem getLast?_joinWith_slash {names : List String} :
    (Text.joinWith "/" names).toList.getLast? = some '$' ↔
      ∃ name, names.getLast? = some name ∧ name.toList.getLast? = some '$' := by
  induction names using List.reverseRecOn with
  | nil => simp [Text.joinWith]
  | append_singleton names name _ =>
    by_cases hnames : names = []
    · subst hnames
      simp [Text.joinWith]
    · rw [Text.joinWith_append "/" hnames (List.cons_ne_nil name []), String.toList_append,
        Text.getLast?_append_eq_some_iff (by simp)]
      simp [Text.joinWith]

namespace Session

variable {d : Desktop} {s : Session}

/-- What the prompt shows of the directory ends in a dollar sign exactly if the name of the directory
does and is shown. -/
theorem getLast?_displayCwd :
    (s.displayCwd d).toList.getLast? = some '$' ↔
      s.cwd ≠ d.store.home ∧
        ∃ name, s.cwd.fileName? = some name ∧ name.toList.getLast? = some '$' := by
  rw [displayCwd, Path.fileName?_eq_getLast?]
  split
  next hhome => simp [hhome]
  next hhome =>
    rw [and_iff_right hhome]
    split
    next hunder =>
      obtain ⟨hstarts, -⟩ := Bool.and_eq_true_iff.mp hunder
      obtain ⟨habsolute, rest, hrest⟩ := Path.startsWith_iff.mp hstarts
      have hne : rest ≠ [] := by
        rintro rfl
        rw [List.append_nil] at hrest
        exact hhome (by cases hs : s.cwd; cases hd : d.store.home; simp_all)
      have hlast : (d.store.home.segments ++ rest).getLast? = rest.getLast? :=
        List.getLast?_append_of_ne_nil _ hne
      rw [← hrest, List.drop_left, hlast, String.toList_append,
        Text.getLast?_append_eq_some_iff (by simp), getLast?_joinWith_slash]
    next =>
      rw [Path.render, String.toList_append, Text.getLast?_append_eq_some_iff,
        getLast?_joinWith_slash]
      split <;> simp

/-- The prompt has the characters of the user, of the host and of the directory, and its own. -/
theorem unescaped_displayCwd (hcwd : ∀ name ∈ s.cwd.segments, Markup.Unescaped name) :
    Markup.Unescaped (s.displayCwd d) := by
  rw [displayCwd]
  split
  · decide
  · split
    next =>
      refine Markup.unescaped_append.mpr ⟨by decide, Markup.unescaped_joinWith (by decide) ?_⟩
      exact fun name hname => hcwd name (List.mem_of_mem_drop hname)
    next =>
      refine Markup.unescaped_append.mpr ⟨?_, Markup.unescaped_joinWith (by decide) hcwd⟩
      split <;> decide

end Session

namespace Console

open Markup

theorem marks_bold {colour text : String} (hcolour : colour.toList.any Char.isAlpha = false)
    (htext : Unescaped text) : Marks (bold colour text).toList text.toList := by
  have hstrong : Marks "\x1b[1m".toList [] := marks_sequence "1".toList 'm' (by decide) (by decide)
  have hcolour : Marks ("\x1b[" ++ colour ++ "m").toList [] := by
    simpa using marks_sequence colour.toList 'm' hcolour (by decide)
  have hplain : Marks "\x1b[39m".toList [] :=
    marks_sequence "39".toList 'm' (by decide) (by decide)
  have hall := (((hstrong.append hcolour).append (marks_plain htext)).append hplain).append marks_reset
  simpa [bold, reset] using hall

/-- What is left of the prompt without its blank and its dollar signs. -/
theorem dropEndWhile_prompt (d : Desktop) (s : Session) :
    Text.dropEndWhile (· == '$') (Text.trimEndChars (s.prompt d).toList) =
      (d.store.identity.user ++ "@" ++ d.hostname).toList ++
        ':' :: Text.dropEndWhile (· == '$') (s.displayCwd d).toList := by
  have hprompt : (s.prompt d).toList =
      ((d.store.identity.user ++ "@" ++ d.hostname).toList ++
        ':' :: (s.displayCwd d).toList) ++ '$' :: [' '] := by
    simp [Session.prompt]
  have hblank : Text.dropEndWhile Text.isBlank [' '] = [] := by decide
  have hdollar : Text.dropEndWhile (· == '$') ((s.displayCwd d).toList ++ ['$']) =
      Text.dropEndWhile (· == '$') (s.displayCwd d).toList :=
    List.rdropWhile_concat_pos _ _ '$' rfl
  rw [Text.trimEndChars, hprompt, Text.dropEndWhile_append (by decide), hblank, List.append_assoc,
    List.cons_append, Text.dropEndWhile_append (by decide), hdollar]

/-- The colours are put around what is left, at the first colon. -/
theorem strip_formatPrompt {d : Desktop} {s : Session} (h : Unescaped (s.prompt d)) :
    strip (formatPrompt .interactive (s.prompt d)) =
      d.store.identity.user ++ "@" ++ d.hostname ++ ":" ++
        String.ofList (Text.dropEndWhile (· == '$') (s.displayCwd d).toList) ++ "$ " := by
  let body := String.ofList
    (Text.dropEndWhile (· == '$') (Text.trimEndChars (s.prompt d).toList))
  have hbody : body = d.store.identity.user ++ "@" ++ d.hostname ++ ":" ++
      String.ofList (Text.dropEndWhile (· == '$') (s.displayCwd d).toList) := by
    apply String.toList_inj.mp
    simp [body, dropEndWhile_prompt]
  have hkept : body.toList ⊆ (s.prompt d).toList := by
    rw [String.toList_ofList]
    exact ((List.rdropWhile_prefix _ _).trans (List.rdropWhile_prefix _ _)).subset
  have hcolon : ':' ∈ body.toList := by simp [hbody]
  obtain ⟨who, path, hsplit, hjoined⟩ := Text.splitFirst_of_mem hcolon
  have hclear : Unescaped (who ++ String.singleton ':' ++ path) :=
    hjoined ▸ fun hmem => h (hkept hmem)
  obtain ⟨hwho, hpath⟩ := unescaped_append.mp hclear
  have hgreen : Marks (bold "32" who).toList who.toList :=
    marks_bold (by decide) (unescaped_append.mp hwho).1
  have hblue : Marks (bold "34" path).toList path.toList := marks_bold (by decide) hpath
  have hmark : Marks ":".toList ":".toList := marks_plain (by decide)
  have hend : Marks "$ ".toList "$ ".toList := marks_plain (by decide)
  have hmarks := ((hgreen.append hmark).append hblue).append hend
  have hformat : formatPrompt .interactive (s.prompt d) =
      bold "32" who ++ ":" ++ bold "34" path ++ "$ " := by
    simp only [formatPrompt]
    rw [hsplit]
  rw [← hbody, hjoined, hformat]
  exact Marks.strip_eq (by simpa using hmarks)

/-- Without its colours the prompt on the screen has lost the dollar signs at the end of the directory
that is shown. So it is the prompt itself unless the name of that directory is shown and ends in a
dollar sign. -/
theorem coloured_prompt_same_iff (d : Desktop) (s : Session)
    (huser : Unescaped d.store.identity.user) (hhost : Unescaped d.hostname)
    (hcwd : ∀ name ∈ s.cwd.segments, Unescaped name) :
    strip (formatPrompt .interactive (s.prompt d)) =
        d.store.identity.user ++ "@" ++ d.hostname ++ ":" ++
          String.ofList (Text.dropEndWhile (· == '$') (s.displayCwd d).toList) ++ "$ " ∧
      (strip (formatPrompt .interactive (s.prompt d)) = s.prompt d ↔
        s.cwd = d.store.home ∨
          ∀ name, s.cwd.fileName? = some name → name.toList.getLast? ≠ some '$') := by
  have hprompt : Unescaped (s.prompt d) := by
    simp only [Session.prompt, unescaped_append]
    exact ⟨⟨⟨⟨⟨huser, by decide⟩, hhost⟩, by decide⟩, Session.unescaped_displayCwd hcwd⟩, by decide⟩
  refine ⟨strip_formatPrompt hprompt, ?_⟩
  have hsame : d.store.identity.user ++ "@" ++ d.hostname ++ ":" ++
        String.ofList (Text.dropEndWhile (· == '$') (s.displayCwd d).toList) ++ "$ " = s.prompt d ↔
      (s.displayCwd d).toList.getLast? ≠ some '$' := by
    rw [← Text.dropEndWhile_eq_self_iff, Session.prompt, ← String.toList_inj]
    simp
  rw [strip_formatPrompt hprompt, hsame, ne_eq, Session.getLast?_displayCwd, not_and_or, not_not]
  simp only [not_exists, not_and, ne_eq]

/-- Colons, blanks and dollar signs inside the names are kept, and a blank behind a dollar sign. -/
theorem separators_in_names_kept :
    let c := (Config.standard.withUser "ann:$ ").withHostname "a:b$"
    let d := Desktop.ofStore c.hostname (Desktop.newStore c ⟨0, 0⟩)
    let y := System.run [(.start, ⟨1, 0⟩), (.act 0 (.submit "mkdir ': $a$ '"), ⟨2, 0⟩),
      (.act 0 (.submit "cd ': $a$ '"), ⟨3, 0⟩)] ⟨d, []⟩
    let s := y.sessions.headD (Session.start d)
    s.prompt y.desktop = "ann:$ @a:b$:~/: $a$ $ " ∧
      strip (formatPrompt .interactive (s.prompt y.desktop)) = s.prompt y.desktop := by
  intro c d y s
  have hcwd : s.cwd = ⟨true, ["home", "ann:$ ", ": $a$ "]⟩ := by decide +kernel
  have hprompt : s.prompt y.desktop = "ann:$ @a:b$:~/: $a$ $ " := by decide +kernel
  have huser : Unescaped y.desktop.store.identity.user := by decide +kernel
  have hhost : Unescaped y.desktop.hostname := by decide +kernel
  obtain ⟨-, hsame⟩ := coloured_prompt_same_iff y.desktop s huser hhost
    (by rw [hcwd]; decide)
  refine ⟨hprompt, hsame.mpr (.inr fun name hname => ?_)⟩
  rw [hcwd] at hname
  obtain rfl : ": $a$ " = name := Option.some.inj hname
  decide

/-- A directory with a dollar sign at the end of its name is entered. -/
theorem dollar_of_directory_lost :
    let d := Desktop.ofStore "deskshell" (Desktop.newStore Config.standard ⟨0, 0⟩)
    let y := System.run [(.start, ⟨1, 0⟩), (.act 0 (.submit "mkdir 'a$'"), ⟨2, 0⟩),
      (.act 0 (.submit "cd 'a$'"), ⟨3, 0⟩)] ⟨d, []⟩
    let s := y.sessions.headD (Session.start d)
    s ∈ y.sessions ∧ Unescaped (s.prompt y.desktop) ∧
      s.prompt y.desktop = "user@deskshell:~/a$$ " ∧
      strip (formatPrompt .interactive (s.prompt y.desktop)) = "user@deskshell:~/a$ " := by
  decide +kernel

end Console

end DesktopTerminal
