import DesktopTerminal.Command.Listing
import DesktopTerminal.Desktop
import DesktopTerminal.Proofs.Path.Composition

/-!
# Walking through a path

A path can be resolved at once, or gone through with `cd`, one piece of its text after another. Both
lead to the same place. On the way `cd` needs a directory wherever a slash of the text stands.
-/
namespace DesktopTerminal.Command

open DesktopTerminal.Path (step)

/-- Goes to one operand after another, unless `cd` refuses one of them. -/
def walk : List String → Workspace → Option Workspace
  | [], w => some w
  | operand :: rest, w =>
    let r := cd ⟨[operand], [], []⟩ w
    if r.1.isOk then walk rest r.2 else none

/-- A piece as an operand that goes on from where one is. For `cd` a dash is no name, nor is a `~`. -/
def stair (piece : String) : String :=
  if piece = "-" ∨ piece = "~" then "./" ++ piece else piece

/-- The first piece as an operand. With a slash behind it the empty one is the root. -/
def firstStair (piece : String) (rest : List String) : String :=
  if piece = "" ∧ rest ≠ [] then "/" else if piece = "-" then "./-" else piece

/-- The operands for the pieces of a text. -/
def stairs (text : String) : List String :=
  match Text.splitAt '/' text with
  | [] => []
  | piece :: rest => firstStair piece rest :: rest.map stair

/-! ## One step -/

theorem walk_cons_eq_some {operand : String} (h : operand ≠ "-") {rest : List String}
    {w w' : Workspace} :
    walk (operand :: rest) w = some w' ↔
      w.store.kind (w.resolve operand) = .ok .directory ∧
        walk rest (w.enter (w.resolve operand)) = some w' := by
  have hcd : cd ⟨[operand], [], []⟩ w = cdTo operand w := rfl
  simp only [walk, hcd, cdTo, cdTarget, if_neg h]
  cases hkind : w.store.kind (w.resolve operand) with
  | error fault => simp [Outcome.failure, Outcome.isOk]
  | ok kind =>
    cases kind with
    | file => simp [Outcome.failure, Outcome.isOk]
    | directory => simp [Outcome.success, Outcome.isOk]

theorem stair_ne_dash (piece : String) : stair piece ≠ "-" := by
  unfold stair
  split
  next h => rcases h with rfl | rfl <;> decide
  next h => exact fun heq => h (.inl heq)

theorem firstStair_ne_dash (piece : String) (rest : List String) : firstStair piece rest ≠ "-" := by
  unfold firstStair
  split
  · decide
  · split
    · decide
    · assumption

/-- Each operand is one step from where one is. -/
theorem resolve_stair {piece : String} (h : '/' ∉ piece.toList) (base home : Path) :
    Path.resolve base (stair piece) home = ⟨true, step base.segments piece⟩ := by
  unfold stair
  split
  next hname => rcases hname with rfl | rfl <;> rfl
  next hname =>
    have honward : Path.Onward piece := by
      constructor
      · exact fun hslash => h (List.mem_of_mem_head? hslash)
      · rw [Text.splitAt_of_not_mem h]
        exact fun htilde => hname (.inr (Option.some.inj htilde))
    rw [Path.resolve_onward _ _ honward, Text.splitAt_of_not_mem h]
    rfl

/-- There is no slash in the pieces that are left. -/
theorem not_mem_of_later {text piece : String} {rest : List String}
    (h : Text.splitAt '/' text = piece :: rest) : ∀ other ∈ rest, '/' ∉ other.toList :=
  fun _ hother => Text.not_mem_of_mem_splitAt (h ▸ List.mem_cons_of_mem piece hother)

/-- The first operand leads where the first piece does, unless that is the slash it stands before. -/
theorem resolve_firstStair {piece : String} {rest : List String} (h : piece = "" → rest = [])
    (base home : Path) :
    Path.resolve base (firstStair piece rest) home = Path.resolve base piece home := by
  unfold firstStair
  split
  next hroot => exact absurd (h hroot.1) hroot.2
  next =>
    split
    next hdash => exact hdash ▸ rfl
    next => rfl

/-- After the first operand the pieces that are left are steps. -/
theorem resolve_stairs {text piece : String} {rest : List String}
    (h : Text.splitAt '/' text = piece :: rest) (base home : Path) :
    Path.resolve base text home =
      ⟨true, rest.foldl step (Path.resolve base (firstStair piece rest) home).segments⟩ := by
  have hjoin : text = Text.joinWith "/" (piece :: rest) := h ▸ (Text.joinWith_splitAt '/' text).symm
  by_cases hrest : rest = []
  · subst hrest
    obtain rfl : text = piece := hjoin
    rw [resolve_firstStair fun _ => rfl]
    exact congrArg (Path.mk · _) (Path.absolute_resolve base text home)
  · have hpieces : Text.splitAt '/' (Text.joinWith "/" rest) = rest := by
      refine Text.splitAt_joinWith hrest fun other hother => ?_
      exact Text.not_mem_of_mem_splitAt (h ▸ List.mem_cons_of_mem piece hother)
    rw [hjoin, Text.joinWith_cons "/" piece hrest]
    by_cases hempty : piece = ""
    · subst hempty
      rw [String.empty_append, Path.resolve_root_append, hpieces]
      simp only [firstStair, hrest, ne_eq, not_false_eq_true, and_self, if_true]
      rfl
    · rw [Path.resolve_slash_append base home hempty, hpieces,
        resolve_firstStair fun h => absurd h hempty]

/-! ## The whole way -/

section

variable {pieces : List String} (hpieces : ∀ piece ∈ pieces, '/' ∉ piece.toList)
include hpieces

/-- The way leads to where the steps lead, if there are directories all along. -/
theorem walk_stair_isSome_iff (w : Workspace) :
    (walk (pieces.map stair) w).isSome = true ↔
      ∀ front, front ≠ [] → front <+: pieces →
        w.store.kind ⟨true, front.foldl step w.cwd.segments⟩ = .ok .directory := by
  induction pieces generalizing w with
  | nil =>
    refine ⟨fun _ front hne hfront => ?_, fun _ => rfl⟩
    exact absurd (List.prefix_nil.mp hfront) hne
  | cons piece rest ih =>
    obtain ⟨hpiece, hrest⟩ := List.forall_mem_cons.mp hpieces
    have hplace : w.resolve (stair piece) = ⟨true, step w.cwd.segments piece⟩ :=
      resolve_stair hpiece w.cwd w.store.home
    rw [List.map_cons, Option.isSome_iff_exists]
    simp only [walk_cons_eq_some (stair_ne_dash piece), exists_and_left, hplace]
    rw [← Option.isSome_iff_exists, ih hrest]
    constructor
    · rintro ⟨hfirst, hlater⟩ front hne hfront
      obtain ⟨head, front, rfl⟩ := List.exists_cons_of_ne_nil hne
      obtain ⟨rfl, hlast⟩ := List.cons_prefix_cons.mp hfront
      by_cases hempty : front = []
      · rw [hempty]
        exact hfirst
      · exact hlater front hempty hlast
    · intro hall
      refine ⟨hall [piece] (List.cons_ne_nil _ _) (List.cons_prefix_cons.mpr ⟨rfl, List.nil_prefix⟩),
        fun front _ hfront => ?_⟩
      exact hall (piece :: front) (List.cons_ne_nil _ _) (List.cons_prefix_cons.mpr ⟨rfl, hfront⟩)

theorem cwd_of_walk_stair {w w' : Workspace} (hw : w.cwd.absolute = true)
    (h : walk (pieces.map stair) w = some w') :
    w'.cwd = ⟨true, pieces.foldl step w.cwd.segments⟩ := by
  induction pieces generalizing w with
  | nil =>
    obtain rfl := Option.some.inj h
    exact congrArg (Path.mk · _) hw
  | cons piece rest ih =>
    obtain ⟨hpiece, hrest⟩ := List.forall_mem_cons.mp hpieces
    have hplace : w.resolve (stair piece) = ⟨true, step w.cwd.segments piece⟩ :=
      resolve_stair hpiece w.cwd w.store.home
    rw [List.map_cons, walk_cons_eq_some (stair_ne_dash piece), hplace] at h
    exact ih hrest rfl h.2

end

theorem walk_stairs_isSome_iff {text piece : String} {rest : List String}
    (h : Text.splitAt '/' text = piece :: rest) (w : Workspace) :
    (walk (stairs text) w).isSome = true ↔
      ∀ front, front <+: rest → w.store.kind ⟨true,
        front.foldl step (w.resolve (firstStair piece rest)).segments⟩ = .ok .directory := by
  have hstairs : stairs text = firstStair piece rest :: rest.map stair := by rw [stairs, h]
  have hmark : w.resolve (firstStair piece rest) =
      ⟨true, (w.resolve (firstStair piece rest)).segments⟩ :=
    congrArg (Path.mk · _) (Path.absolute_resolve _ _ _)
  rw [hstairs, Option.isSome_iff_exists]
  simp only [walk_cons_eq_some (firstStair_ne_dash piece rest), exists_and_left]
  rw [← Option.isSome_iff_exists, walk_stair_isSome_iff (not_mem_of_later h)]
  constructor
  · rintro ⟨hfirst, hlater⟩ front hfront
    by_cases hempty : front = []
    · rw [hempty, List.foldl_nil, ← hmark]
      exact hfirst
    · exact hlater front hempty hfront
  · intro hall
    refine ⟨?_, fun front _ hfront => hall front hfront⟩
    rw [hmark]
    exact hall [] List.nil_prefix

/-- The paths at the slashes of a text are where some of its steps lead. -/
theorem resolve_front {text piece : String} {front back : List String} (hback : back ≠ [])
    (h : Text.splitAt '/' text = piece :: (front ++ back)) (base home : Path) :
    Path.resolve base (Text.joinWith "/" (piece :: front) ++ "/") home = ⟨true,
      front.foldl step (Path.resolve base (firstStair piece (front ++ back)) home).segments⟩ := by
  have hslashes : ∀ other ∈ piece :: front, '/' ∉ other.toList := by
    intro other hother
    refine Text.not_mem_of_mem_splitAt (s := text) (h ▸ ?_)
    exact List.mem_append_left back hother
  have hpieces : Text.splitAt '/' (Text.joinWith "/" (piece :: front) ++ "/") =
      piece :: (front ++ [""]) := by
    have hslash := Path.splitAt_append_slash (Text.joinWith "/" (piece :: front)) ""
    have hfront : Text.splitAt '/' (Text.joinWith "/" (piece :: front)) = piece :: front :=
      Text.splitAt_joinWith (List.cons_ne_nil _ _) hslashes
    rw [String.append_empty, hfront] at hslash
    exact hslash
  have hfirst : firstStair piece (front ++ [""]) = firstStair piece (front ++ back) := by
    simp [firstStair, hback]
  have hlast : ∀ stack : List String, step stack "" = stack := fun _ => rfl
  rw [resolve_stairs hpieces, hfirst, List.foldl_append, List.foldl_cons, List.foldl_nil, hlast]

/-- The beginnings of the steps are the beginnings of the text up to a slash, and the text itself. -/
theorem forall_prefix_iff {text piece : String} {rest : List String}
    (h : Text.splitAt '/' text = piece :: rest) (base home : Path) {P : Path → Prop} :
    (∀ front, front <+: rest →
        P ⟨true, front.foldl step (Path.resolve base (firstStair piece rest) home).segments⟩) ↔
      (∀ s t, text = s ++ "/" ++ t → P (Path.resolve base (s ++ "/") home)) ∧
        P (Path.resolve base text home) := by
  have hend := resolve_stairs h base home
  constructor
  · intro hall
    refine ⟨fun s t hst => ?_, hend ▸ hall rest List.prefix_rfl⟩
    -- the pieces before the slash are a beginning of the pieces
    obtain ⟨first, front, hs⟩ := List.exists_cons_of_ne_nil (Text.splitAt_ne_nil '/' s)
    have hsplit := Path.splitAt_append_slash s t
    rw [← hst, h, hs, List.cons_append] at hsplit
    obtain ⟨rfl, rfl⟩ := List.cons.inj hsplit
    have hplace := resolve_front (Text.splitAt_ne_nil '/' t) h base home
    have hjoin : Text.joinWith "/" (piece :: front) = s := hs ▸ Text.joinWith_splitAt '/' s
    rw [hjoin] at hplace
    rw [hplace]
    exact hall front (List.prefix_append _ _)
  · rintro ⟨hslashes, hlast⟩ front ⟨back, rfl⟩
    by_cases hback : back = []
    · rw [hend, hback, List.append_nil] at hlast
      rwa [hback, List.append_nil]
    · rw [← resolve_front hback h base home]
      refine hslashes _ (Text.joinWith "/" back) ?_
      have hjoin : Text.joinWith "/" (piece :: (front ++ back)) = text :=
        h ▸ Text.joinWith_splitAt '/' text
      rw [← hjoin]
      exact Text.joinWith_append "/" (List.cons_ne_nil piece front) hback

/-- Who gets to the end is where the text leads. -/
theorem cwd_of_walk_stairs {text : String} {w w' : Workspace}
    (hw' : walk (stairs text) w = some w') : w'.cwd = w.resolve text := by
  obtain ⟨piece, rest, h⟩ := List.exists_cons_of_ne_nil (Text.splitAt_ne_nil '/' text)
  have hstairs : stairs text = firstStair piece rest :: rest.map stair := by rw [stairs, h]
  have hend : w.resolve text =
      ⟨true, rest.foldl step (w.resolve (firstStair piece rest)).segments⟩ :=
    resolve_stairs h w.cwd w.store.home
  rw [hstairs, walk_cons_eq_some (firstStair_ne_dash piece rest)] at hw'
  rw [hend]
  exact cwd_of_walk_stair (not_mem_of_later h) (Path.absolute_resolve _ _ _) hw'.2

/-- Resolving a text with a slash in it is resolving what stands before the slash and then, from
there, what stands after it. So going through the pieces of a text with `cd` leads to the path that the
text names; it is possible if and only if the text, and all of it up to any of its slashes, names a
directory. -/
theorem path_walked_in_steps :
    (∀ (base home : Path) (s t : String), s ≠ "" → t.toList.head? ≠ some '/' →
      (Text.splitAt '/' t).head? ≠ some "~" →
        Path.resolve base (s ++ "/" ++ t) home = Path.resolve (Path.resolve base s home) t home) ∧
    (∀ (w : Workspace) (text : String),
      ((walk (stairs text) w).isSome = true ↔
        (∀ s t, text = s ++ "/" ++ t → w.store.kind (w.resolve (s ++ "/")) = .ok .directory) ∧
          w.store.kind (w.resolve text) = .ok .directory) ∧
      ∀ w', walk (stairs text) w = some w' → w'.cwd = w.resolve text) := by
  refine ⟨fun base home s t hs hrelative hliteral =>
    Path.resolve_append base home hs ⟨hrelative, hliteral⟩, fun w text => ?_⟩
  obtain ⟨piece, rest, h⟩ := List.exists_cons_of_ne_nil (Text.splitAt_ne_nil '/' text)
  refine ⟨?_, fun w' => cwd_of_walk_stairs⟩
  rw [walk_stairs_isSome_iff h]
  exact forall_prefix_iff h w.cwd w.store.home (P := fun p => w.store.kind p = .ok .directory)

/-- Up past the root and down again, with slashes to spare; a `~` on the way is a name. -/
theorem walked_past_root :
    let s := Desktop.newStore Config.standard ⟨0, 0⟩
    let w : Workspace := ⟨s, Windows.empty, "desktop", s.home, none, none, [], ⟨0, 0⟩⟩
    Path.resolve s.home ("~//Desktop/.." ++ "/" ++ "../~/.././../../../etc/") s.home =
        ⟨true, ["etc"]⟩ ∧
      stairs "../../..//etc/" = ["..", "..", "..", "", "etc", ""] ∧
      (walk (stairs "../../..//etc/") w).isSome = true ∧
      (∀ w', walk (stairs "../../..//etc/") w = some w' → w'.cwd = ⟨true, ["etc"]⟩) := by
  intro s w
  obtain ⟨hcompose, hwalk⟩ := path_walked_in_steps
  refine ⟨?_, by decide +kernel, by decide +kernel, fun w' hw' => ?_⟩
  · rw [hcompose s.home s.home "~//Desktop/.." "../~/.././../../../etc/" (by decide) (by decide)
      (by decide)]
    decide +kernel
  · rw [(hwalk w "../../..//etc/").2 w' hw']
    decide +kernel

end DesktopTerminal.Command
