import Mathlib.Data.List.TakeWhile
import DesktopTerminal.Proofs.Session.Completion

/-!
# What completion offers

Each of the three rules offers a text that goes on from what has been typed of the last token: the least
command, the first flag, or the least entry of the directory that the token points into. So a completed
line is the input with something added at its end, and where the cursor stands inside a line, what
stands behind it stays.
-/
namespace DesktopTerminal.Completion

/-- What stands behind the last character of a text that satisfies `p`, and what stands before. -/
structure Behind (p : Char → Bool) (text front back : List Char) : Prop where
  whole : front ++ back = text
  clear : ∀ c ∈ back, p c = false
  mark : front = [] ∨ ∃ more c, front = more ++ [c] ∧ p c = true

/-- The first entry of the least name among those that may complete `rest`. -/
structure LeastEntry (rest : List Char) (es : List Entry) (e : Entry) : Prop where
  first : es.find? (·.name = e.name) = some e
  candidate : isCandidate rest e = true
  least : ∀ a ∈ es, isCandidate rest a = true → e.name ≤ a.name

/-- What the rules offer for a token that stands behind `before`: a command for the first token, a flag
of the first word's command for a token that starts with a dash, an entry for any other token. -/
inductive Offers (schemas : List Schema) (store : Store) (cwd : Path) (before token : List Char) :
    String → Prop
  | command {name : String} (hfirst : before.all Text.isBlank = true) (hne : token ≠ [])
      (hmem : name ∈ schemas.map (·.name)) (hstart : token <+: name.toList)
      (hleast : ∀ other ∈ schemas.map (·.name), token <+: other.toList → name ≤ other) :
    Offers schemas store cwd before token name
  | flag {command flag : String} {schema : Schema} {front back : List String}
      (hlater : before.all Text.isBlank = false) (hdash : token.head? = some '-')
      (hcommand : (Text.words (String.ofList before)).head? = some command)
      (hschema : schemas.find? (·.name = command) = some schema)
      (hflags : schema.flags = front ++ flag :: back) (hstart : token <+: flag.toList)
      (hfirst : ∀ other ∈ front, ¬ token <+: other.toList) :
    Offers schemas store cwd before token flag
  | path {part rest : List Char} {es : List Entry} {e : Entry}
      (hlater : before.all Text.isBlank = false) (hdash : token.head? ≠ some '-')
      (hsplit : Behind (· == '/') token part rest)
      (hes : store.entries (directoryFor store cwd part) = .ok es) (he : LeastEntry rest es e) :
    Offers schemas store cwd before token
      (String.ofList part ++ e.name ++ if e.kind = .directory then "/" else "")

/-! ## The two splits -/

theorem behind_reverse (p : Char → Bool) (text : List Char) :
    Behind p text (text.reverse.dropWhile (!p ·)).reverse (text.reverse.takeWhile (!p ·)).reverse where
  whole := by
    rw [← List.reverse_append, List.takeWhile_append_dropWhile, List.reverse_reverse]
  clear c hc := by
    have hclear := List.mem_takeWhile_imp (List.mem_reverse.mp hc)
    simpa using hclear
  mark := by
    cases hfront : text.reverse.dropWhile (!p ·) with
    | nil => exact .inl rfl
    | cons c cs =>
      have hc := List.head?_dropWhile_not (!p ·) text.reverse
      rw [hfront] at hc
      exact .inr ⟨cs.reverse, c, List.reverse_cons, by simpa using hc⟩

/-- There is no other such split. -/
theorem Behind.reverse_eq {p : Char → Bool} {text front back : List Char}
    (h : Behind p text front back) :
    (text.reverse.dropWhile (!p ·)).reverse = front ∧
      (text.reverse.takeWhile (!p ·)).reverse = back := by
  have hback : ∀ c ∈ back.reverse, (!p c) = true := by
    intro c hc
    rw [h.clear c (List.mem_reverse.mp hc)]
    rfl
  rw [← h.whole, List.reverse_append, List.dropWhile_append_of_pos hback,
    List.takeWhile_append_of_pos hback]
  rcases h.mark with rfl | ⟨more, c, rfl, hc⟩
  · simp
  · simp [hc]

theorem behind_splitToken (input : List Char) :
    Behind Text.isBlank input (splitToken input).1 (splitToken input).2 :=
  behind_reverse Text.isBlank input

theorem Behind.splitToken_eq {input before token : List Char}
    (h : Behind Text.isBlank input before token) : splitToken input = (before, token) := by
  obtain ⟨hbefore, htoken⟩ := h.reverse_eq
  rw [splitToken, hbefore, htoken]

theorem Behind.ofList_append {p : Char → Bool} {text : String} {front back : List Char}
    (h : Behind p text.toList front back) : text = String.ofList front ++ String.ofList back := by
  rw [← String.ofList_append, h.whole, String.ofList_toList]

theorem splitDirectory_eq_reverse (token : List Char) :
    splitDirectory token = ((token.reverse.dropWhile (!(· == '/') ·)).reverse,
      (token.reverse.takeWhile (!(· == '/') ·)).reverse) := by
  have hslash : (fun c : Char => decide (c ≠ '/')) = fun c => !(c == '/') := by
    funext c
    by_cases hc : c = '/' <;> simp [hc]
  rw [splitDirectory, hslash]

theorem behind_splitDirectory (token : List Char) :
    Behind (· == '/') token (splitDirectory token).1 (splitDirectory token).2 := by
  rw [splitDirectory_eq_reverse]
  exact behind_reverse (· == '/') token

theorem Behind.splitDirectory_eq {token part rest : List Char}
    (h : Behind (· == '/') token part rest) : splitDirectory token = (part, rest) := by
  obtain ⟨hpart, hrest⟩ := h.reverse_eq
  rw [splitDirectory_eq_reverse, hpart, hrest]

/-! ## The least of what is sorted -/

theorem leadsTo_iff {start : List Char} {word : String} :
    leadsTo start word = true ↔ start <+: word.toList := List.isPrefixOf_iff_prefix

/-- What is found first in a sorted list is the least that can be found. -/
theorem least_of_find?_mergeSort {α : Type} {le : α → α → Bool}
    (htrans : ∀ a b c, le a b = true → le b c = true → le a c = true)
    (htotal : ∀ a b, (le a b || le b a) = true) {p : α → Bool} {items : List α} {a : α}
    (h : (items.mergeSort le).find? p = some a) :
    a ∈ items ∧ p a = true ∧ ∀ b ∈ items, p b = true → le a b = true := by
  obtain ⟨ha, before, after, hsorted, hbefore⟩ := List.find?_eq_some_iff_append.mp h
  have hmem : ∀ b, b ∈ items ↔ b ∈ before ++ a :: after := fun b => hsorted ▸ List.mem_mergeSort.symm
  have hpairs := List.pairwise_mergeSort htrans htotal items
  rw [hsorted] at hpairs
  refine ⟨(hmem a).mpr (by simp), ha, fun b hb hpb => ?_⟩
  rcases List.mem_append.mp ((hmem b).mp hb) with hfront | hback
  · have hnot := hbefore b hfront
    rw [hpb] at hnot
    cases hnot
  · rcases List.mem_cons.mp hback with rfl | hlater
    · simpa using htotal b b
    · exact (List.pairwise_cons.mp (List.pairwise_append.mp hpairs).2.1).1 b hlater

theorem find?_mergeSort_isSome {α : Type} {le : α → α → Bool} {p : α → Bool} {items : List α} :
    ((items.mergeSort le).find? p).isSome = true ↔ ∃ a ∈ items, p a = true := by
  simp [List.find?_isSome]

/-! ## The three rules -/

variable {schemas : List Schema} {store : Store} {cwd : Path} {before token : List Char}

theorem commandFor_eq_some_iff {name : String} :
    commandFor schemas token = some name ↔ token ≠ [] ∧ name ∈ schemas.map (·.name) ∧
      token <+: name.toList ∧
      ∀ other ∈ schemas.map (·.name), token <+: other.toList → name ≤ other := by
  have htrans : ∀ a b c : String, decide (a ≤ b) = true → decide (b ≤ c) = true →
      decide (a ≤ c) = true := fun a b c hab hbc =>
    decide_eq_true (String.le_trans (of_decide_eq_true hab) (of_decide_eq_true hbc))
  have htotal : ∀ a b : String, (decide (a ≤ b) || decide (b ≤ a)) = true := fun a b => by
    simpa using String.le_total a b
  by_cases hne : token = []
  · simp [commandFor, hne]
  have hrule : commandFor schemas token =
      ((schemas.map (·.name)).mergeSort (· ≤ ·)).find? (leadsTo token) := by
    rw [commandFor, if_neg (by simpa using hne)]
  have hleast : ∀ {name}, commandFor schemas token = some name →
      name ∈ schemas.map (·.name) ∧ token <+: name.toList ∧
        ∀ other ∈ schemas.map (·.name), token <+: other.toList → name ≤ other := by
    intro name h
    obtain ⟨hmem, hstart, hleast⟩ := least_of_find?_mergeSort htrans htotal (hrule ▸ h)
    exact ⟨hmem, leadsTo_iff.mp hstart, fun other hother hleads =>
      of_decide_eq_true (hleast other hother (leadsTo_iff.mpr hleads))⟩
  refine ⟨fun h => ⟨hne, hleast h⟩, ?_⟩
  rintro ⟨-, hmem, hstart, hall⟩
  have hsome : (commandFor schemas token).isSome = true := by
    rw [hrule]
    exact find?_mergeSort_isSome.mpr ⟨name, hmem, leadsTo_iff.mpr hstart⟩
  obtain ⟨found, hfound⟩ := Option.isSome_iff_exists.mp hsome
  obtain ⟨hfoundmem, hfoundstart, hfoundall⟩ := hleast hfound
  rw [hfound, String.le_antisymm (hfoundall name hmem hstart) (hall found hfoundmem hfoundstart)]

theorem flagFor_eq_some_iff {flag : String} :
    flagFor schemas before token = some flag ↔ ∃ command schema front back,
      (Text.words (String.ofList before)).head? = some command ∧
      schemas.find? (·.name = command) = some schema ∧ schema.flags = front ++ flag :: back ∧
      token <+: flag.toList ∧ ∀ other ∈ front, ¬ token <+: other.toList := by
  have hfirst : ∀ {flags : List String}, flags.find? (leadsTo token) = some flag ↔
      ∃ front back, flags = front ++ flag :: back ∧ token <+: flag.toList ∧
        ∀ other ∈ front, ¬ token <+: other.toList := by
    intro flags
    simp only [List.find?_eq_some_iff_append, leadsTo_iff]
    constructor
    · rintro ⟨hstart, front, back, hflags, hnot⟩
      refine ⟨front, back, hflags, hstart, fun other hother hleads => ?_⟩
      have hmiss := hnot other hother
      rw [leadsTo_iff.mpr hleads] at hmiss
      cases hmiss
    · rintro ⟨front, back, hflags, hstart, hnot⟩
      refine ⟨hstart, front, back, hflags, fun other hother => ?_⟩
      have hmiss := mt leadsTo_iff.mp (hnot other hother)
      simpa using hmiss
  rw [flagFor]
  constructor
  · intro h
    obtain ⟨command, hcommand, h⟩ := Option.bind_eq_some_iff.mp h
    obtain ⟨schema, hschema, h⟩ := Option.bind_eq_some_iff.mp h
    obtain ⟨front, back, hflags⟩ := hfirst.mp h
    exact ⟨command, schema, front, back, hcommand, hschema, hflags⟩
  · rintro ⟨command, schema, front, back, hcommand, hschema, hflags⟩
    rw [hcommand]
    show (schemas.find? (·.name = command)).bind (fun schema => _) = _
    rw [hschema]
    exact hfirst.mpr ⟨front, back, hflags⟩

theorem head?_candidates_eq_some_iff {rest : List Char} {es : List Entry} {e : Entry} :
    (candidates rest es).head? = some e ↔ LeastEntry rest es e := by
  have hleast : ∀ {e}, (candidates rest es).head? = some e → LeastEntry rest es e := by
    intro e h
    have hfind := h
    rw [candidates, List.head?_filter] at hfind
    obtain ⟨-, hcandidate, hall⟩ := least_of_find?_mergeSort name_le_trans name_le_total hfind
    exact ⟨find?_name_of_candidates h, hcandidate, fun a ha hcand =>
      of_decide_eq_true (hall a ha hcand)⟩
  refine ⟨hleast, fun h => ?_⟩
  have hmem := List.mem_of_find?_eq_some h.first
  have hsome : (candidates rest es).head?.isSome = true := by
    rw [candidates, List.head?_filter]
    exact find?_mergeSort_isSome.mpr ⟨e, hmem, h.candidate⟩
  obtain ⟨found, hfound⟩ := Option.isSome_iff_exists.mp hsome
  have hother := hleast hfound
  have hname : found.name = e.name := String.le_antisymm
    (hother.least e hmem h.candidate)
    (h.least found (List.mem_of_find?_eq_some hother.first) hother.candidate)
  rw [hfound, ← hother.first, hname]
  exact h.first

theorem offered?_eq_some_iff {e : Entry} :
    offered? store cwd token = some e ↔
      ∃ es, store.entries (directoryOf store cwd token) = .ok es ∧
        LeastEntry (splitDirectory token).2 es e := by
  rw [offered?]
  cases store.entries (directoryOf store cwd token) with
  | error fault => simp
  | ok es => simp [head?_candidates_eq_some_iff]

theorem entryText_eq (e : Entry) :
    entryText e = e.name ++ if e.kind = .directory then "/" else "" := by
  rw [entryText]
  cases e.kind with
  | directory => rfl
  | file => exact (String.append_empty).symm

/-- What the rule for the token offers. -/
def offer? (schemas : List Schema) (store : Store) (cwd : Path) (before token : List Char) :
    Option String :=
  if before.all Text.isBlank then commandFor schemas token
  else if token.head? == some '-' then flagFor schemas before token
  else pathFor store cwd token

theorem pathFor_eq_some_iff {text : String} :
    pathFor store cwd token = some text ↔ ∃ part rest es e, Behind (· == '/') token part rest ∧
      store.entries (directoryFor store cwd part) = .ok es ∧ LeastEntry rest es e ∧
      text = String.ofList part ++ e.name ++ if e.kind = .directory then "/" else "" := by
  rw [pathFor_eq]
  constructor
  · intro h
    obtain ⟨e, he, rfl⟩ := Option.map_eq_some_iff.mp h
    obtain ⟨es, hes, hleast⟩ := offered?_eq_some_iff.mp he
    exact ⟨_, _, es, e, behind_splitDirectory token, hes, hleast, by
      rw [entryText_eq, String.append_assoc]⟩
  · rintro ⟨part, rest, es, e, hsplit, hes, hleast, rfl⟩
    have hoffered : offered? store cwd token = some e := by
      refine offered?_eq_some_iff.mpr ⟨es, ?_, ?_⟩
      · rwa [directoryOf, hsplit.splitDirectory_eq]
      · rwa [hsplit.splitDirectory_eq]
    rw [hoffered, Option.map_some, entryText_eq, hsplit.splitDirectory_eq, String.append_assoc]

theorem offer?_eq_some_iff {text : String} :
    offer? schemas store cwd before token = some text ↔
      Offers schemas store cwd before token text := by
  rw [offer?]
  constructor
  · intro h
    split at h
    next hfirst =>
      obtain ⟨hne, hmem, hstart, hleast⟩ := commandFor_eq_some_iff.mp h
      exact .command hfirst hne hmem hstart hleast
    next hlater =>
      rw [Bool.not_eq_true] at hlater
      split at h
      next hdash =>
        obtain ⟨command, schema, front, back, hcommand, hschema, hflags, hstart, hfirst⟩ :=
          flagFor_eq_some_iff.mp h
        exact .flag hlater (beq_iff_eq.mp hdash) hcommand hschema hflags hstart hfirst
      next hdash =>
        obtain ⟨part, rest, es, e, hsplit, hes, hleast, rfl⟩ := pathFor_eq_some_iff.mp h
        exact .path hlater (mt beq_iff_eq.mpr hdash) hsplit hes hleast
  · intro h
    cases h with
    | command hfirst hne hmem hstart hleast =>
      rw [if_pos hfirst]
      exact commandFor_eq_some_iff.mpr ⟨hne, hmem, hstart, hleast⟩
    | flag hlater hdash hcommand hschema hflags hstart hfirst =>
      rw [if_neg (ne_true_of_eq_false hlater), if_pos (beq_iff_eq.mpr hdash)]
      exact flagFor_eq_some_iff.mpr ⟨_, _, _, _, hcommand, hschema, hflags, hstart, hfirst⟩
    | path hlater hdash hsplit hes hleast =>
      rw [if_neg (ne_true_of_eq_false hlater), if_neg (mt beq_iff_eq.mp hdash)]
      exact pathFor_eq_some_iff.mpr ⟨_, _, _, _, hsplit, hes, hleast, rfl⟩

/-- What is offered goes on from what is typed. -/
theorem Offers.starts {text : String} (h : Offers schemas store cwd before token text) :
    token <+: text.toList := by
  cases h with
  | command _ _ _ hstart _ => exact hstart
  | flag _ _ _ _ _ hstart _ => exact hstart
  | @path part rest es e _ _ hsplit _ he =>
    obtain ⟨more, hmore⟩ := leadsTo_iff.mp (Bool.and_eq_true_iff.mp he.candidate).2
    rw [← hsplit.whole, String.toList_append, String.toList_append, String.toList_ofList, ← hmore,
      List.append_assoc, List.append_assoc]
    exact ⟨_, List.append_assoc _ _ _⟩

theorem Offers.exists_added {text : String} (h : Offers schemas store cwd before token text)
    (hne : text ≠ String.ofList token) :
    ∃ added, added ≠ "" ∧ text = String.ofList token ++ added := by
  obtain ⟨more, hmore⟩ := h.starts
  have htext : text = String.ofList token ++ String.ofList more := by
    rw [← String.ofList_append, hmore, String.ofList_toList]
  refine ⟨String.ofList more, fun hnone => hne ?_, htext⟩
  rw [htext, hnone, String.append_empty]

/-! ## The completed line -/

theorem completeLine_eq_some_iff {input line : String}
    (h : Behind Text.isBlank input.toList before token) :
    completeLine schemas store cwd input = some line ↔
      ∃ text, Offers schemas store cwd before token text ∧ text ≠ String.ofList token ∧
        line = String.ofList before ++ text := by
  have hline : completeLine schemas store cwd input =
      (offer? schemas store cwd before token).bind fun text =>
        if String.ofList before ++ text = input then none
        else some (String.ofList before ++ text) := by
    simp only [completeLine, h.splitToken_eq, offer?]
    split <;> simp_all
  have hsame : ∀ text, String.ofList before ++ text = input ↔ text = String.ofList token :=
    fun text => by rw [h.ofList_append, String.append_right_inj]
  rw [hline, Option.bind_eq_some_iff]
  simp only [offer?_eq_some_iff, hsame]
  refine exists_congr fun text => and_congr_right fun _ => ?_
  split <;> simp_all [eq_comm]

/-- A completed line is the input with more at its end. -/
theorem exists_added_of_completeLine {input line : String}
    (h : completeLine schemas store cwd input = some line) :
    ∃ added, added ≠ "" ∧ line = input ++ added := by
  have hsplit := behind_splitToken input.toList
  obtain ⟨text, htext, hne, rfl⟩ := (completeLine_eq_some_iff hsplit).mp h
  obtain ⟨added, hadded, rfl⟩ := htext.exists_added hne
  exact ⟨added, hadded, by rw [← String.append_assoc, ← hsplit.ofList_append]⟩

/-! ## At the cursor -/

theorem takeBytes_size_append (cs ds : List Char) : takeBytes (Text.size cs) (cs ++ ds) = cs := by
  induction cs with
  | nil =>
    cases ds with
    | nil => rfl
    | cons d ds => simp [takeBytes, Nat.not_le.2 d.utf8Size_pos]
  | cons c cs ih => simp [takeBytes, ih]

/-- The line with `candidate` in the place of what stands between `start` and the cursor. -/
def replaced (line : String) (start pos : Nat) (candidate : String) : String :=
  String.ofList (takeBytes start line.toList) ++ candidate ++
    String.ofList (Text.dropSize pos line.toList)

theorem completeAt_append (typed rest : String) :
    completeAt schemas store cwd (typed ++ rest) typed.utf8ByteSize =
      (completeLine schemas store cwd typed).elim (typed.utf8ByteSize, []) fun line =>
        (0, [line]) := by
  have htyped : takeBytes typed.utf8ByteSize (typed ++ rest).toList = typed.toList := by
    rw [Text.utf8ByteSize_eq_size, String.toList_append, takeBytes_size_append]
  rw [completeAt, htyped, String.ofList_toList]
  cases completeLine schemas store cwd typed <;> rfl

theorem replaced_whole (typed rest candidate : String) :
    replaced (typed ++ rest) 0 typed.utf8ByteSize candidate = candidate ++ rest := by
  have hnone : takeBytes 0 (typed ++ rest).toList = [] := takeBytes_size_append [] _
  rw [replaced, hnone, Text.utf8ByteSize_eq_size, String.toList_append, Text.dropSize_size_append,
    String.ofList_nil, String.empty_append, String.ofList_toList]

/-- A line is completed just if its rule offers more than its last token, and then it is the input with
the rest of that at its end. With a cursor inside the line, what is typed up to there goes on in the
same way, and what stands behind the cursor stays. -/
theorem completion_goes_on_from_input (schemas : List Schema) (store : Store) (cwd : Path)
    (input : String) :
    ∃ before token, Behind Text.isBlank input.toList before token ∧
      (∀ line, completeLine schemas store cwd input = some line ↔
        ∃ text, Offers schemas store cwd before token text ∧ text ≠ String.ofList token ∧
          line = String.ofList before ++ text) ∧
      (completeLine schemas store cwd input = none ↔
        ∀ text, Offers schemas store cwd before token text → text = String.ofList token) ∧
      (∀ line, completeLine schemas store cwd input = some line →
        ∃ added, added ≠ "" ∧ line = input ++ added) ∧
      ∀ rest,
        let placed := completeAt schemas store cwd (input ++ rest) input.utf8ByteSize
        placed.2 = (completeLine schemas store cwd input).toList ∧
          ∀ line ∈ placed.2, ∃ added, added ≠ "" ∧
            replaced (input ++ rest) placed.1 input.utf8ByteSize line = input ++ added ++ rest := by
  have hsplit := behind_splitToken input.toList
  refine ⟨_, _, hsplit, fun line => completeLine_eq_some_iff hsplit, ?_,
    fun line => exists_added_of_completeLine, fun rest => ?_⟩
  · rw [Option.eq_none_iff_forall_ne_some]
    constructor
    · intro h text htext
      by_contra hne
      exact h _ ((completeLine_eq_some_iff hsplit).mpr ⟨text, htext, hne, rfl⟩)
    · intro h line hline
      obtain ⟨text, htext, hne, -⟩ := (completeLine_eq_some_iff hsplit).mp hline
      exact hne (h text htext)
  · rw [completeAt_append]
    cases hline : completeLine schemas store cwd input with
    | none => exact ⟨rfl, nofun⟩
    | some line =>
      obtain ⟨added, hadded, rfl⟩ := exists_added_of_completeLine hline
      refine ⟨rfl, fun completed hmem => ⟨added, hadded, ?_⟩⟩
      obtain rfl := List.mem_singleton.mp hmem
      exact replaced_whole input rest (input ++ added)

/-- The directory is named in full, and the rest of the line stands behind it. -/
theorem directory_completed_at_cursor :
    let s := Desktop.newStore Config.standard ⟨0, 0⟩
    let typed := "cat ./De"
    let rest := "; ls é"
    completeAt Builtin.schemas s s.home (typed ++ rest) typed.utf8ByteSize =
        (0, ["cat ./Desktop/"]) ∧
      ∃ added, added ≠ "" ∧
        replaced (typed ++ rest) 0 typed.utf8ByteSize "cat ./Desktop/" = typed ++ added ++ rest := by
  intro s typed rest
  have hrule : PathRule typed "cat ".toList "./De".toList :=
    ⟨by decide +kernel, by decide +kernel, by decide +kernel⟩
  let e : Entry := ⟨"Desktop", .directory, 4096, ⟨.directory, Mode.initial .directory⟩,
    s.identity.user, s.identity.group, ⟨0, 0⟩⟩
  let es := (((s.root.descend? s.home.segments).map Node.children).getD []).map Node.entry
  have hes : s.entries (directoryOf s s.home "./De".toList) = .ok es := by rfl
  have hoffered : offered? s s.home "./De".toList = some e :=
    offered_of_least hes (by decide +kernel) (by decide +kernel) (by decide +kernel)
  have hline : completeLine Builtin.schemas s s.home typed = some "cat ./Desktop/" := by
    rw [completeLine_of_pathRule hrule, hoffered]
    decide +kernel
  have hplaced : completeAt Builtin.schemas s s.home (typed ++ rest) typed.utf8ByteSize =
      (0, ["cat ./Desktop/"]) := by
    rw [completeAt_append, hline, Option.elim_some]
  obtain ⟨before, token, -, -, -, -, hcursor⟩ :=
    completion_goes_on_from_input Builtin.schemas s s.home typed
  obtain ⟨-, hkept⟩ := hcursor rest
  rw [hplaced] at hkept
  exact ⟨hplaced, hkept "cat ./Desktop/" List.mem_cons_self⟩

end DesktopTerminal.Completion
