import DesktopTerminal.Command.Builtin
import DesktopTerminal.Desktop
import DesktopTerminal.Proofs.Line.Extension
import DesktopTerminal.Proofs.Path.Composition
import DesktopTerminal.Proofs.Tree.Edit
import DesktopTerminal.Session.Completion

/-!
# Completed lines

The rule for paths puts the end of a name behind the input, as it stands in the tree. The entry of that
name exists, but completion sees the input as runs between blanks, and the shell reads it as quotes,
operators and words. Where both see the same last word, and the name neither needs quotes nor means
something else to a path, the completed line leads to the entry; otherwise it need not.
-/
namespace DesktopTerminal.Completion

open Line (Bare EndsInBlank openWord)

/-- The rule for paths is to complete the token, which stands behind `before` in the input. -/
structure PathRule (input : String) (before token : List Char) : Prop where
  split : splitToken input.toList = (before, token)
  later : before.all Text.isBlank = false
  noFlag : token.head? ≠ some '-'

/-- The entry may complete what is typed of its name. Hidden ones are for those who ask. -/
def isCandidate (rest : List Char) (e : Entry) : Bool :=
  (rest.head? == some '.' || !e.isHidden) && leadsTo rest e.name

/-- The directory that a token points into. -/
def directoryOf (store : Store) (cwd : Path) (token : List Char) : Path :=
  directoryFor store cwd (splitDirectory token).1

/-- The entry that the rule for paths offers. -/
def offered? (store : Store) (cwd : Path) (token : List Char) : Option Entry :=
  match store.entries (directoryOf store cwd token) with
  | .error _ => none
  | .ok es => (candidates (splitDirectory token).2 es).head?

/-- The line is read as a pipeline, and its last word leads to the path where the entry is. -/
def Usable (store : Store) (cwd : Path) (line : String) (p : Path) (e : Entry) : Prop :=
  ∃ q word, Line.parse line = .ok q ∧ q.words.getLast? = some word ∧
    (store.resolve cwd word).segments = p.segments ∧ store.stat (store.resolve cwd word) = .ok e

/-- To a path the name means nothing but the entry. -/
structure Fits (store : Store) (cwd : Path) (token : List Char) (name : String) : Prop where
  ordinary : Ordinary name
  /-- Without a directory before it a `~` is where home is. -/
  tilde : (splitDirectory token).1 = [] → name = "~" → store.home.segments = cwd.segments ++ ["~"]

/-! ## What is added to the input -/

theorem splitToken_append (input : List Char) :
    (splitToken input).1 ++ (splitToken input).2 = input := by
  rw [splitToken, ← List.reverse_append, List.takeWhile_append_dropWhile, List.reverse_reverse]

theorem splitDirectory_append (token : List Char) :
    (splitDirectory token).1 ++ (splitDirectory token).2 = token := by
  rw [splitDirectory, ← List.reverse_append, List.takeWhile_append_dropWhile, List.reverse_reverse]

/-- The directory part is empty or ends with its slash. -/
theorem splitDirectory_slash (token : List Char) :
    (splitDirectory token).1 = [] ∨ ∃ front, (splitDirectory token).1 = front ++ ['/'] := by
  rw [splitDirectory]
  cases hpart : token.reverse.dropWhile (· ≠ '/') with
  | nil => exact .inl rfl
  | cons c cs =>
    have hc := List.head?_dropWhile_not (fun c : Char => decide (c ≠ '/')) token.reverse
    rw [hpart] at hc
    obtain rfl : c = '/' := by simpa using hc
    exact .inr ⟨cs.reverse, List.reverse_cons⟩

theorem exists_entryText (e : Entry) :
    ∃ mark, (mark = "" ∨ mark = "/") ∧ entryText e = e.name ++ mark := by
  rw [entryText]
  cases e.kind with
  | directory => exact ⟨"/", .inr rfl, rfl⟩
  | file => exact ⟨"", .inl rfl, (String.append_empty).symm⟩

theorem pathFor_eq (store : Store) (cwd : Path) (token : List Char) :
    pathFor store cwd token = (offered? store cwd token).map fun e =>
      String.ofList (splitDirectory token).1 ++ entryText e := by
  simp only [pathFor, offered?, directoryOf]
  cases store.entries (directoryFor store cwd (splitDirectory token).1) with
  | error fault => rfl
  | ok es => rfl

/-- What is offered starts with what is typed of it. -/
theorem prefix_of_offered {store : Store} {cwd : Path} {token : List Char} {e : Entry}
    (h : offered? store cwd token = some e) : (splitDirectory token).2 <+: e.name.toList := by
  rw [offered?] at h
  split at h
  · cases h
  · have hmem := List.mem_of_mem_head? h
    obtain ⟨-, hcond⟩ := List.mem_filter.mp hmem
    exact List.isPrefixOf_iff_prefix.mp (Bool.and_eq_true_iff.mp hcond).2

theorem PathRule.append {input : String} {before token : List Char}
    (h : PathRule input before token) :
    input = String.ofList before ++ String.ofList token := by
  have hsplit := splitToken_append input.toList
  rw [h.split] at hsplit
  rw [← String.ofList_append, hsplit, String.ofList_toList]

theorem completeLine_of_pathRule {schemas : List Schema} {store : Store} {cwd : Path}
    {input : String} {before token : List Char} (hrule : PathRule input before token) :
    completeLine schemas store cwd input = (offered? store cwd token).bind fun e =>
      let line := String.ofList before ++ (String.ofList (splitDirectory token).1 ++ entryText e)
      if line = input then none else some line := by
  have hflag : (token.head? == some '-') = false := beq_false_of_ne hrule.noFlag
  simp only [completeLine, hrule.split, hrule.later, hflag, Bool.false_eq_true, if_false,
    pathFor_eq]
  cases offered? store cwd token <;> rfl

/-- The rule for paths adds the end of the name, and a slash if it is a directory's. -/
theorem completeLine_eq_some {schemas : List Schema} {store : Store} {cwd : Path}
    {input line : String} {before token : List Char} (hrule : PathRule input before token)
    (h : completeLine schemas store cwd input = some line) :
    ∃ e added mark, offered? store cwd token = some e ∧ line = input ++ added ∧ added ≠ "" ∧
      (mark = "" ∨ mark = "/") ∧
      String.ofList token ++ added =
        String.ofList (splitDirectory token).1 ++ (e.name ++ mark) := by
  rw [completeLine_of_pathRule hrule] at h
  obtain ⟨e, he, h⟩ := Option.bind_eq_some_iff.mp h
  obtain ⟨more, hmore⟩ := prefix_of_offered he
  obtain ⟨mark, hmark, hshown⟩ := exists_entryText e
  have htoken : String.ofList (splitDirectory token).1 ++ String.ofList (splitDirectory token).2 =
      String.ofList token := by
    rw [← String.ofList_append, splitDirectory_append]
  have hname : e.name = String.ofList (splitDirectory token).2 ++ String.ofList more := by
    rw [← String.ofList_append, hmore, String.ofList_toList]
  have hend : String.ofList token ++ (String.ofList more ++ mark) =
      String.ofList (splitDirectory token).1 ++ (e.name ++ mark) := by
    rw [hname, ← htoken]
    simp only [String.append_assoc]
  have hline : String.ofList before ++
      (String.ofList (splitDirectory token).1 ++ entryText e) =
        input ++ (String.ofList more ++ mark) := by
    rw [hshown, ← hend, ← String.append_assoc, ← hrule.append]
  simp only [hline] at h
  split at h
  · cases h
  next hchanged =>
    refine ⟨e, String.ofList more ++ mark, mark, he, (Option.some.inj h).symm, ?_, hmark, hend⟩
    intro hnone
    rw [hnone, String.append_empty] at hchanged
    exact hchanged rfl

/-! ## The entry that is offered -/

theorem name_le_trans (a b c : Entry) (hab : decide (a.name ≤ b.name) = true)
    (hbc : decide (b.name ≤ c.name) = true) : decide (a.name ≤ c.name) = true :=
  decide_eq_true (String.le_trans (of_decide_eq_true hab) (of_decide_eq_true hbc))

theorem name_le_total (a b : Entry) :
    (decide (a.name ≤ b.name) || decide (b.name ≤ a.name)) = true := by
  simpa using String.le_total a.name b.name

/-- Sorting by name leaves entries of one name in their order. -/
theorem filter_mergeSort_name (es : List Entry) (name : String) :
    (es.mergeSort fun a b => a.name ≤ b.name).filter (·.name = name) =
      es.filter (·.name = name) := by
  have hequal : (es.filter (·.name = name)).Pairwise fun a b => decide (a.name ≤ b.name) = true := by
    refine List.pairwise_of_forall_mem_list fun a ha b hb => ?_
    have hnames : a.name = name ∧ b.name = name :=
      ⟨by simpa using (List.mem_filter.mp ha).2, by simpa using (List.mem_filter.mp hb).2⟩
    rw [hnames.1, hnames.2]
    exact decide_eq_true (String.le_refl name)
  have hsub := (List.sublist_mergeSort name_le_trans name_le_total hequal List.filter_sublist).filter
    (·.name = name)
  simp only [List.filter_filter, Bool.and_self] at hsub
  exact (hsub.eq_of_length ((List.mergeSort_perm es _).filter _).length_eq.symm).symm

theorem find?_map_entry (name : String) (ns : List Node) :
    (ns.map Node.entry).find? (·.name = name) = (Node.find? name ns).map Node.entry := by
  induction ns with
  | nil => rfl
  | cons n ns ih =>
    have hname : n.entry.name = n.name := rfl
    rw [List.map_cons, List.find?_cons, Node.find?, ih, hname]
    by_cases h : n.name = name <;> simp [h]

/-- The first candidate is the first entry of its name. -/
theorem find?_name_of_candidates {rest : List Char} {es : List Entry} {e : Entry}
    (h : (candidates rest es).head? = some e) : es.find? (·.name = e.name) = some e := by
  rw [candidates, List.head?_filter] at h
  obtain ⟨hcond, before, after, hsorted, hbefore⟩ := List.find?_eq_some_iff_append.mp h
  -- whether an entry is a candidate depends on its name alone
  have hnamesake : before.find? (·.name = e.name) = none := by
    refine List.find?_eq_none.mpr fun a ha hname => ?_
    have hnot := hbefore a ha
    simp only [Entry.isHidden, of_decide_eq_true hname] at hnot hcond
    rw [hcond] at hnot
    cases hnot
  rw [← List.head?_filter, ← filter_mergeSort_name, List.head?_filter, hsorted, List.find?_append,
    hnamesake, List.find?_cons]
  simp

/-- An entry of a directory that is the first of its name is found by its name. -/
theorem stat_of_find?_name {store : Store} {directory p : Path} {es : List Entry} {e : Entry}
    (hes : store.entries directory = .ok es) (hfirst : es.find? (·.name = e.name) = some e)
    (hp : p.segments = directory.segments ++ [e.name]) : store.stat p = .ok e := by
  obtain ⟨d, hd, hchildren⟩ := exists_ok_of_bind_eq_ok hes
  have hdirectory := Node.lookup_eq_ok hd
  cases d with
  | file => cases hchildren
  | directory name info children =>
    obtain rfl := Except.ok.inj hchildren
    rw [find?_map_entry] at hfirst
    obtain ⟨n, hn, hentry⟩ := Option.map_eq_some_iff.mp hfirst
    have hlookup : store.root.lookup p = .ok n := by
      refine Node.lookup_eq_ok_iff.mpr ?_
      rw [hp, Node.descend?_snoc, hdirectory]
      exact hn
    have hroot : p.isRoot = false := by simp [Path.isRoot, hp]
    rw [Store.stat, hlookup, hroot]
    exact congrArg Except.ok hentry

/-- The entry that is offered is the one that its name finds in the directory. -/
theorem stat_offered {store : Store} {cwd : Path} {token : List Char} {e : Entry}
    (h : offered? store cwd token = some e) {p : Path}
    (hp : p.segments = (directoryOf store cwd token).segments ++ [e.name]) :
    store.stat p = .ok e := by
  rw [offered?] at h
  split at h
  · cases h
  next es hes => exact stat_of_find?_name hes (find?_name_of_candidates h) hp

/-- A candidate whose name comes before those of the others is the one that is offered. -/
theorem offered_of_least {store : Store} {cwd : Path} {token : List Char} {es : List Entry}
    {e : Entry} (hes : store.entries (directoryOf store cwd token) = .ok es) (hmem : e ∈ es)
    (he : isCandidate (splitDirectory token).2 e = true)
    (hleast : ∀ a ∈ es, isCandidate (splitDirectory token).2 a = true → a = e ∨ e.name < a.name) :
    offered? store cwd token = some e := by
  have hsorted := (List.pairwise_mergeSort name_le_trans name_le_total es).filter
    (isCandidate (splitDirectory token).2)
  have hoffered : e ∈ candidates (splitDirectory token).2 es :=
    List.mem_filter.mpr ⟨List.mem_mergeSort.mpr hmem, he⟩
  obtain ⟨first, rest, hfirst⟩ := List.exists_cons_of_ne_nil (List.ne_nil_of_mem hoffered)
  simp only [offered?, hes, hfirst, List.head?_cons]
  have hin : first ∈ candidates (splitDirectory token).2 es := hfirst ▸ List.mem_cons_self
  obtain ⟨hfirstmem, hfirstcandidate⟩ := List.mem_filter.mp hin
  rcases hleast first (List.mem_mergeSort.mp hfirstmem) hfirstcandidate with rfl | hlt
  · rfl
  · rw [hfirst] at hoffered
    have hpairs : (first :: rest).Pairwise fun a b => decide (a.name ≤ b.name) = true :=
      hfirst ▸ hsorted
    rcases List.mem_cons.mp hoffered with rfl | hlater
    · rfl
    · have hle := of_decide_eq_true ((List.pairwise_cons.mp hpairs).1 e hlater)
      exact absurd hlt (String.not_lt.mpr hle)

/-! ## Where the completed token leads -/

theorem directoryOf_of_part {store : Store} {cwd : Path} {token front : List Char}
    (hpart : (splitDirectory token).1 = front ++ ['/']) :
    directoryOf store cwd token = store.resolve cwd (String.ofList front ++ "/") := by
  have hne : (front ++ ['/']).isEmpty = false := by simp
  rw [directoryOf, hpart, directoryFor, hne, String.ofList_append]
  rfl

theorem directoryOf_of_nil {store : Store} {cwd : Path} {token : List Char}
    (hpart : (splitDirectory token).1 = []) : directoryOf store cwd token = cwd := by
  rw [directoryOf, hpart]
  rfl

section

variable {store : Store} {cwd : Path} {token : List Char} {mark name : String}
  (hmark : mark = "" ∨ mark = "/")
include hmark

/-- Behind a directory part the name is the last segment if it is ordinary, and only then. -/
theorem resolve_part_iff {front : List Char} (hpart : (splitDirectory token).1 = front ++ ['/']) :
    (store.resolve cwd (String.ofList (splitDirectory token).1 ++ (name ++ mark))).segments =
      (directoryOf store cwd token).segments ++ [name] ↔ Ordinary name := by
  have htext : String.ofList (front ++ ['/']) = String.ofList front ++ "/" := String.ofList_append
  rw [directoryOf_of_part hpart, hpart, htext, Store.resolve, Store.resolve,
    Path.resolve_append_of_slash]
  exact Path.foldl_step_name_iff hmark _ name

theorem resolve_completed (h : Fits store cwd token name) :
    (store.resolve cwd (String.ofList (splitDirectory token).1 ++ (name ++ mark))).segments =
      (directoryOf store cwd token).segments ++ [name] := by
  rcases splitDirectory_slash token with hpart | ⟨front, hpart⟩
  · rw [directoryOf_of_nil hpart, hpart, String.ofList_nil, String.empty_append, Store.resolve,
      Path.resolve_name cwd store.home hmark h.ordinary]
    split
    next htilde => exact htilde ▸ h.tilde hpart htilde
    next => rfl
  · exact (resolve_part_iff hmark hpart).mpr h.ordinary

theorem fits_of_resolve_completed (hhome : store.home.Legible)
    (h : (store.resolve cwd (String.ofList (splitDirectory token).1 ++ (name ++ mark))).segments =
      (directoryOf store cwd token).segments ++ [name]) : Fits store cwd token name := by
  rcases splitDirectory_slash token with hpart | ⟨front, hpart⟩
  · rw [directoryOf_of_nil hpart, hpart, String.ofList_nil, String.empty_append,
      Store.resolve] at h
    have hordinary := Path.ordinary_of_resolve_name cwd store.home hmark hhome h
    refine ⟨hordinary, fun _ htilde => ?_⟩
    rw [Path.resolve_name cwd store.home hmark hordinary, if_pos htilde, htilde] at h
    exact h
  · refine ⟨(resolve_part_iff hmark hpart).mp h, fun hnone => ?_⟩
    rw [hpart] at hnone
    simp at hnone

end

/-- The rule for paths offers an entry that exists and puts the end of its name behind the input. If
what it adds needs no quotes, the line is read as a pipeline unless a redirect has its word already,
and its last word is the one that was open, made longer. If that was the token, as it is for a token
of bare characters behind a blank, then the line leads to the entry just if the name fits. -/
theorem path_completion_usable_iff {schemas : List Schema} {store : Store} {cwd : Path}
    {input line : String} {p : Line.Pipeline} {before token : List Char}
    (hparse : Line.parse input = .ok p) (hrule : PathRule input before token)
    (hline : completeLine schemas store cwd input = some line) :
    ∃ e added, offered? store cwd token = some e ∧ line = input ++ added ∧
      store.stat ((directoryOf store cwd token).join e.name) = .ok e ∧
      (Bare added →
        ((∃ q, Line.parse line = .ok q) ↔ p.redirect = none ∨ ¬ EndsInBlank input.toList) ∧
        (∀ q, Line.parse line = .ok q → q.words.getLast? = some (openWord input p ++ added)) ∧
        (openWord input p = String.ofList token →
          ((p.redirect = none ∨ ¬ EndsInBlank input.toList) ∧ Fits store cwd token e.name →
            Usable store cwd line ((directoryOf store cwd token).join e.name) e) ∧
          (store.home.Legible →
            Usable store cwd line ((directoryOf store cwd token).join e.name) e →
              (p.redirect = none ∨ ¬ EndsInBlank input.toList) ∧ Fits store cwd token e.name))) ∧
      (EndsInBlank before → (∀ c ∈ token, c ∉ Line.specials) →
        openWord input p = String.ofList token) := by
  obtain ⟨e, added, mark, he, rfl, -, hmark, hend⟩ := completeLine_eq_some hrule hline
  refine ⟨e, added, he, rfl, stat_offered he rfl, fun hadded => ?_, fun hblank htoken => ?_⟩
  · obtain ⟨hreads, hword⟩ := Line.parse_append hparse hadded
    refine ⟨hreads, hword, fun hopen => ⟨?_, ?_⟩⟩
    · rintro ⟨hplace, hfits⟩
      obtain ⟨q, hq⟩ := hreads.mpr hplace
      have hsegments := resolve_completed hmark hfits
      rw [← hend, ← hopen] at hsegments
      exact ⟨q, _, hq, hword q hq, hsegments, stat_offered he hsegments⟩
    · rintro hhome ⟨q, word, hq, hlast, hsegments, -⟩
      obtain rfl := Option.some.inj (hlast.symm.trans (hword q hq))
      rw [hopen, hend] at hsegments
      exact ⟨hreads.mp ⟨q, hq⟩, fits_of_resolve_completed hmark hhome hsegments⟩
  · refine Line.openWord_eq_of_bare hparse hrule.append ?_ ?_
    · rwa [String.toList_ofList]
    · rwa [String.toList_ofList]

/-- The target of a redirect is completed to the directory that it is the start of. -/
theorem redirect_target_completed :
    let s := Desktop.newStore Config.standard ⟨0, 0⟩
    let input := "cat 'a b' | head > ./De"
    let line := "cat 'a b' | head > ./Desktop/"
    let e : Entry := ⟨"Desktop", .directory, 4096, ⟨.directory, Mode.initial .directory⟩,
      s.identity.user, s.identity.group, ⟨0, 0⟩⟩
    completeLine Builtin.schemas s s.home input = some line ∧
      Usable s s.home line ((directoryOf s s.home "./De".toList).join "Desktop") e := by
  intro s input line e
  have hparse : Line.parse input =
      .ok ⟨[⟨"cat", ["a b"]⟩, ⟨"head", []⟩], some ⟨.overwrite, "./De"⟩⟩ := by decide +kernel
  have hrule : PathRule input "cat 'a b' | head > ".toList "./De".toList :=
    ⟨by decide +kernel, by decide +kernel, by decide +kernel⟩
  let es := (((s.root.descend? s.home.segments).map Node.children).getD []).map Node.entry
  have hes : s.entries (directoryOf s s.home "./De".toList) = .ok es := by rfl
  have hoffered : offered? s s.home "./De".toList = some e :=
    offered_of_least hes (by decide +kernel) (by decide +kernel) (by decide +kernel)
  have hline : completeLine Builtin.schemas s s.home input = some line := by
    rw [completeLine_of_pathRule hrule, hoffered]
    decide +kernel
  refine ⟨hline, ?_⟩
  obtain ⟨e', added, he, hadded, -, hbare, hopen⟩ := path_completion_usable_iff hparse hrule hline
  obtain rfl : e' = e := Option.some.inj (he.symm.trans hoffered)
  have hsame : input ++ "sktop/" = input ++ added := hadded
  obtain rfl := (String.append_right_inj input).mp hsame
  have hbareToken : Bare "./De" := by decide +kernel
  have htoken := hopen (by decide +kernel) hbareToken.2
  exact ((hbare (by decide +kernel)).2.2 htoken).1 ⟨.inr (by decide +kernel), by decide, nofun⟩

/-- The name of a file is inserted as it is, blank and all, and then its end is the last word. -/
theorem name_with_blank_breaks_line :
    let s := ((Desktop.newStore Config.standard ⟨0, 0⟩).write ⟨true, ["home", "user", "a b"]⟩ ""
      ⟨0, 0⟩).2
    Line.parse "cat a" = .ok ⟨[⟨"cat", ["a"]⟩], none⟩ ∧
      PathRule "cat a" "cat ".toList "a".toList ∧
      completeLine Builtin.schemas s s.home "cat a" = some "cat a b" ∧
      ¬ ∃ p e, Usable s s.home "cat a b" p e := by
  intro s
  have hrule : PathRule "cat a" "cat ".toList "a".toList :=
    ⟨by decide +kernel, by decide +kernel, by decide +kernel⟩
  let e : Entry := ⟨"a b", .file, 0, ⟨.file, Mode.initial .file⟩, s.identity.user,
    s.identity.group, ⟨0, 0⟩⟩
  let es := (((s.root.descend? s.home.segments).map Node.children).getD []).map Node.entry
  have hes : s.entries (directoryOf s s.home "a".toList) = .ok es := by rfl
  have hoffered : offered? s s.home "a".toList = some e :=
    offered_of_least hes (by decide +kernel) (by decide +kernel) (by decide +kernel)
  refine ⟨by decide +kernel, hrule, ?_, ?_⟩
  · rw [completeLine_of_pathRule hrule, hoffered]
    decide +kernel
  · rintro ⟨p, e, q, word, hq, hword, -, hstat⟩
    have hread : Line.parse "cat a b" = .ok ⟨[⟨"cat", ["a", "b"]⟩], none⟩ := by decide +kernel
    obtain rfl := Except.ok.inj (hread.symm.trans hq)
    obtain rfl : "b" = word := Option.some.inj hword
    have hmissing : s.stat (s.resolve s.home "b") =
        .error (.notFound ⟨true, ["home", "user", "b"]⟩) := by decide +kernel
    rw [hmissing] at hstat
    cases hstat

end DesktopTerminal.Completion
