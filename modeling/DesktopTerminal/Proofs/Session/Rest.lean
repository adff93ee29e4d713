import Mathlib.Logic.Function.Iterate
import DesktopTerminal.Proofs.Session.Offer
import DesktopTerminal.Session.Basic

/-!
# Completing again and again

A completed line can be completed once more: behind the slash of a directory stand its entries. What is
offered then lies one level deeper in the tree, so this ends at the latest at the end of the longest way
down. Only the first time may the token turn out to lead somewhere else: a directory `~` is taken for
home, one that is named like a flag for a flag, and one whose name starts with a dot may be a step.
-/
namespace DesktopTerminal

/-- No blank is part of the text. -/
def Unbroken (text : String) : Prop := ∀ c ∈ text.toList, Text.isBlank c = false

instance (text : String) : Decidable (Unbroken text) :=
  List.decidableBAll (Text.isBlank · = false) text.toList

namespace Node

mutual

/-- How many levels lie below the node. -/
def height : Node → Nat
  | .file .. => 0
  | .directory _ _ children => heightAll children

/-- How many levels nodes have, their own included. -/
def heightAll : List Node → Nat
  | [] => 0
  | n :: ns => max (n.height + 1) (heightAll ns)

end

theorem height_lt_heightAll {c : Node} {ns : List Node} (h : c ∈ ns) : c.height < heightAll ns := by
  induction ns with
  | nil => exact absurd h List.not_mem_nil
  | cons n ns ih =>
    rw [heightAll]
    rcases List.mem_cons.mp h with rfl | h
    · exact Nat.le_max_left _ _
    · exact Nat.lt_of_lt_of_le (ih h) (Nat.le_max_right _ _)

theorem height_lt_of_mem_children {c n : Node} (h : c ∈ n.children) : c.height < n.height := by
  cases n with
  | file => exact absurd h List.not_mem_nil
  | directory name info children => exact height_lt_heightAll h

theorem height_le_of_descend? {p : List String} {m n : Node} (h : n.descend? p = some m) :
    m.height ≤ n.height := by
  induction p generalizing n with
  | nil => exact Nat.le_of_eq (congrArg height (Option.some.inj h).symm)
  | cons name p ih =>
    rw [descend?_cons] at h
    obtain ⟨c, hc, h⟩ := Option.bind_eq_some_iff.mp h
    exact Nat.le_of_lt (Nat.lt_of_le_of_lt (ih h) (height_lt_of_mem_children (mem_of_find? hc)))

end Node

namespace Completion

variable {schemas : List Schema} {store : Store} {cwd : Path}

/-- What the input has become after so many completions, if there is one each time. -/
def pressed (schemas : List Schema) (store : Store) (cwd : Path) : Nat → String → Option String
  | 0, input => some input
  | n + 1, input => (completeLine schemas store cwd input).bind (pressed schemas store cwd n)

/-- Every completion adds to the line. -/
theorem exists_added_of_pressed {n : Nat} {input line : String}
    (h : pressed schemas store cwd (n + 1) input = some line) :
    ∃ added, added ≠ "" ∧ line = input ++ added := by
  induction n generalizing input with
  | zero =>
    obtain ⟨first, hfirst, hline⟩ := Option.bind_eq_some_iff.mp h
    obtain rfl := Option.some.inj hline
    exact exists_added_of_completeLine hfirst
  | succ n ih =>
    obtain ⟨first, hfirst, hlater⟩ := Option.bind_eq_some_iff.mp h
    obtain ⟨added, hadded, rfl⟩ := exists_added_of_completeLine hfirst
    obtain ⟨more, -, rfl⟩ := ih hlater
    refine ⟨added ++ more, fun hnone => hadded ?_, String.append_assoc⟩
    exact (String.append_eq_empty_iff.mp hnone).1

theorem pressed_add (m n : Nat) (input : String) :
    pressed schemas store cwd (m + n) input =
      (pressed schemas store cwd m input).bind (pressed schemas store cwd n) := by
  induction m generalizing input with
  | zero => rw [Nat.zero_add, pressed, Option.bind_some]
  | succ m ih =>
    rw [Nat.add_right_comm, pressed, pressed, Option.bind_assoc]
    exact congrArg _ (funext ih)

/-- At the latest after so many completions there is no further one. -/
def RestsWithin (schemas : List Schema) (store : Store) (cwd : Path) (bound : Nat) (input : String) :
    Prop :=
  ∃ n last, n ≤ bound ∧ pressed schemas store cwd n input = some last ∧
    completeLine schemas store cwd last = none

theorem restsWithin_of_none {bound : Nat} {input : String}
    (h : completeLine schemas store cwd input = none) : RestsWithin schemas store cwd bound input :=
  ⟨0, input, Nat.zero_le bound, rfl, h⟩

theorem RestsWithin.mono {bound more : Nat} {input : String}
    (h : RestsWithin schemas store cwd bound input) (hle : bound ≤ more) :
    RestsWithin schemas store cwd more input := by
  obtain ⟨n, last, hn, hrest⟩ := h
  exact ⟨n, last, Nat.le_trans hn hle, hrest⟩

/-- It is enough that the line rests which the next completion leads to. -/
theorem restsWithin_succ {bound : Nat} {input : String}
    (h : ∀ line, completeLine schemas store cwd input = some line →
      RestsWithin schemas store cwd bound line) :
    RestsWithin schemas store cwd (bound + 1) input := by
  cases hline : completeLine schemas store cwd input with
  | none => exact restsWithin_of_none hline
  | some line =>
    obtain ⟨n, last, hn, hpressed, hnone⟩ := h line hline
    refine ⟨n + 1, last, Nat.succ_le_succ hn, ?_, hnone⟩
    rw [pressed, hline, Option.bind_some, hpressed]

/-! ## What is offered once more -/

/-- What is offered is determined by the token. -/
theorem Offers.unique {before token : List Char} {text other : String}
    (h : Offers schemas store cwd before token text)
    (hother : Offers schemas store cwd before token other) : text = other :=
  Option.some.inj ((offer?_eq_some_iff.mpr h).symm.trans (offer?_eq_some_iff.mpr hother))

/-- A token that is completed to itself is completed no further. -/
theorem completeLine_of_offers_self {line : String} {before token : List Char}
    (hsplit : Behind Text.isBlank line.toList before token)
    (h : Offers schemas store cwd before token (String.ofList token)) :
    completeLine schemas store cwd line = none := by
  refine Option.eq_none_iff_forall_ne_some.mpr fun completed hcompleted => ?_
  obtain ⟨text, htext, hne, -⟩ := (completeLine_eq_some_iff hsplit).mp hcompleted
  exact hne (htext.unique h)

/-- A text without blanks is the next token as a whole. -/
theorem Behind.completed {input text : String} {before token : List Char}
    (h : Behind Text.isBlank input.toList before token) (htext : Unbroken text) :
    Behind Text.isBlank (String.ofList before ++ text).toList before text.toList where
  whole := by rw [String.toList_append, String.toList_ofList]
  clear := htext
  mark := h.mark

theorem offers_command_again {before token : List Char} {name : String}
    (hfirst : before.all Text.isBlank = true)
    (h : Offers schemas store cwd before token name) :
    name ∈ schemas.map (·.name) ∧ Offers schemas store cwd before name.toList name := by
  cases h with
  | command _ hne hmem hstart hleast =>
    refine ⟨hmem, .command hfirst (fun hnone => hne ?_) hmem List.prefix_rfl fun other hother hlonger =>
      hleast other hother (hstart.trans hlonger)⟩
    exact List.prefix_nil.mp (hnone ▸ hstart)
  | flag hlater => cases hfirst.symm.trans hlater
  | path hlater => cases hfirst.symm.trans hlater

theorem head?_of_start {start text : List Char} (h : start <+: text) {c : Char}
    (hc : start.head? = some c) : text.head? = some c := by
  obtain ⟨more, rfl⟩ := h
  rw [List.head?_append, hc, Option.some_or]

theorem offers_flag_again {before token : List Char} {flag : String}
    (hlater : before.all Text.isBlank = false) (hdash : token.head? = some '-')
    (h : Offers schemas store cwd before token flag) :
    (∃ schema ∈ schemas, flag ∈ schema.flags) ∧
      Offers schemas store cwd before flag.toList flag := by
  cases h with
  | command hfirst => cases hfirst.symm.trans hlater
  | path _ hnodash => exact absurd hdash hnodash
  | @flag command _ schema front back _ _ hcommand hschema hflags hstart hfirst =>
    refine ⟨⟨schema, List.mem_of_find?_eq_some hschema, hflags ▸ by simp⟩, ?_⟩
    exact .flag hlater (head?_of_start hstart hdash) hcommand hschema hflags List.prefix_rfl
      fun other hother hlonger => hfirst other hother (hstart.trans hlonger)

/-- The whole name of the least entry has no lesser entry before it. -/
theorem LeastEntry.whole {rest : List Char} {es : List Entry} {e : Entry} (h : LeastEntry rest es e) :
    LeastEntry e.name.toList es e where
  first := h.first
  candidate := by
    have hself : leadsTo e.name.toList e.name = true := leadsTo_iff.mpr List.prefix_rfl
    rw [isCandidate, Entry.isHidden, hself, Bool.and_true, Bool.or_not_self]
  least a ha hcandidate := by
    refine h.least a ha ?_
    obtain ⟨hseen, hstart⟩ := Bool.and_eq_true_iff.mp h.candidate
    obtain ⟨hhidden, hlonger⟩ := Bool.and_eq_true_iff.mp hcandidate
    have hleads := leadsTo_iff.mpr ((leadsTo_iff.mp hstart).trans (leadsTo_iff.mp hlonger))
    refine Bool.and_eq_true_iff.mpr ⟨?_, hleads⟩
    rcases Bool.or_eq_true_iff.mp hseen with hdot | hplain
    · rw [hdot, Bool.true_or]
    · rw [Entry.isHidden] at hplain
      rw [(Bool.not_eq_true' _).mp hplain, Bool.false_or] at hhidden
      rw [hhidden, Bool.or_true]

/-! ## One press -/

/-- Every name in the tree is a segment of a path and of a line. -/
def NamesSound (n : Node) : Prop :=
  n.Everywhere fun names => ∀ name ∈ names, Legible name ∧ Unbroken name

instance (n : Node) : Decidable (NamesSound n) := inferInstanceAs (Decidable (Node.Everywhere _ n))

/-- The names and the flags of commands are words. -/
def SchemasSound (schemas : List Schema) : Prop :=
  ∀ schema ∈ schemas, Unbroken schema.name ∧ ∀ flag ∈ schema.flags, Unbroken flag

instance (schemas : List Schema) : Decidable (SchemasSound schemas) :=
  inferInstanceAs (Decidable (∀ _ ∈ _, _))

theorem text_of_directory (part : List Char) {c : Node} (hkind : c.kind = .directory) :
    (String.ofList part ++ entryText c.entry).toList = part ++ c.name.toList ++ ['/'] := by
  have hentry : c.entry.kind = .directory := hkind
  rw [entryText, hentry, String.toList_append, String.toList_ofList, List.append_assoc]
  exact congrArg (part ++ ·) String.toList_append

/-- The token is completed to the child `c` of the directory `n` that it points into. -/
structure Deeper (store : Store) (cwd : Path) (token part rest : List Char) (n c : Node) : Prop where
  split : Behind (· == '/') token part rest
  reached : store.root.descend? (directoryFor store cwd part).segments = some n
  entries : store.entries (directoryFor store cwd part) = .ok (n.children.map Node.entry)
  child : n.child? c.name = some c
  least : LeastEntry rest (n.children.map Node.entry) c.entry

theorem exists_deeper_of_offers {before token : List Char} {text : String}
    (hlater : before.all Text.isBlank = false) (hdash : token.head? ≠ some '-')
    (h : Offers schemas store cwd before token text) :
    ∃ part rest n c, Deeper store cwd token part rest n c ∧
      text = String.ofList part ++ entryText c.entry := by
  cases h with
  | command hfirst => cases hfirst.symm.trans hlater
  | flag _ hflag => exact absurd hflag hdash
  | @path part rest es e _ _ hsplit hes he =>
    obtain ⟨n, hn, hchildren⟩ := exists_ok_of_bind_eq_ok hes
    cases n with
    | file => cases hchildren
    | directory name info children =>
      obtain rfl := Except.ok.inj hchildren
      have hfirst := he.first
      rw [find?_map_entry] at hfirst
      obtain ⟨c, hc, rfl⟩ := Option.map_eq_some_iff.mp hfirst
      refine ⟨part, rest, _, c, ⟨hsplit, Node.lookup_eq_ok hn, hes, hc, he⟩, ?_⟩
      rw [entryText_eq, String.append_assoc]

namespace Deeper

variable {token part rest : List Char} {n c : Node} (h : Deeper store cwd token part rest n c)
include h

theorem height_lt : c.height < n.height := Node.height_lt_of_mem_children (Node.mem_of_find? h.child)

theorem name_sound (hnames : NamesSound store.root) : Legible c.name ∧ Unbroken c.name :=
  (hnames.descend? h.reached).here c.name (List.mem_map_of_mem (Node.mem_of_find? h.child))

theorem unbroken (hnames : NamesSound store.root) (htoken : ∀ a ∈ token, Text.isBlank a = false) :
    Unbroken (String.ofList part ++ entryText c.entry) := by
  obtain ⟨mark, hmark, htext⟩ := exists_entryText c.entry
  intro a ha
  rw [htext, String.toList_append, String.toList_append, String.toList_ofList] at ha
  rcases List.mem_append.mp ha with hpart | ha
  · exact htoken a (h.split.whole ▸ List.mem_append_left rest hpart)
  rcases List.mem_append.mp ha with hname | hslash
  · exact (h.name_sound hnames).2 a hname
  · rcases hmark with rfl | rfl
    · exact absurd hslash List.not_mem_nil
    · obtain rfl := List.mem_singleton.mp hslash
      decide

/-- A file is completed no further, unless it is named like a flag. -/
theorem offers_file_again {before : List Char} (hnames : NamesSound store.root)
    (hfile : c.kind = .file) (hlater : before.all Text.isBlank = false)
    (hdash : (String.ofList part ++ entryText c.entry).toList.head? ≠ some '-') :
    Offers schemas store cwd before (String.ofList part ++ entryText c.entry).toList
      (String.ofList part ++ entryText c.entry) := by
  have hname : entryText c.entry = c.name := by
    have hkind : c.entry.kind = .file := hfile
    rw [entryText, hkind]
    rfl
  have hsplit : Behind (· == '/') (String.ofList part ++ entryText c.entry).toList part
      c.name.toList := by
    refine ⟨?_, fun a ha => ?_, h.split.mark⟩
    · rw [hname, String.toList_append, String.toList_ofList]
    · exact beq_false_of_ne fun hslash => (h.name_sound hnames).1.2 (hslash ▸ ha)
  refine offer?_eq_some_iff.mp ?_
  rw [offer?, if_neg (ne_true_of_eq_false hlater), if_neg (mt beq_iff_eq.mp hdash)]
  refine pathFor_eq_some_iff.mpr ⟨part, _, _, _, hsplit, h.entries, h.least.whole, ?_⟩
  rw [entryText_eq, String.append_assoc]

theorem completeLine_eq_none {before : List Char} {line : String} (hnames : NamesSound store.root)
    (hfile : c.kind = .file) (hlater : before.all Text.isBlank = false)
    (hdash : (String.ofList part ++ entryText c.entry).toList.head? ≠ some '-')
    (hsplit : Behind Text.isBlank line.toList before
      (String.ofList part ++ entryText c.entry).toList) :
    completeLine schemas store cwd line = none := by
  refine completeLine_of_offers_self hsplit ?_
  rw [String.ofList_toList]
  exact h.offers_file_again hnames hfile hlater hdash

end Deeper

/-- Behind the slash of a directory nothing is typed of a name, so the child is not hidden, and its name
is one more segment. -/
theorem Deeper.behind_slash {front part rest : List Char} {n c : Node}
    (h : Deeper store cwd (front ++ ['/']) part rest n c) (hnames : NamesSound store.root) :
    part = front ++ ['/'] ∧
      store.root.descend? (store.resolve cwd (String.ofList front ++ "/")).segments = some n ∧
      store.root.descend?
        (store.resolve cwd (String.ofList (front ++ '/' :: c.name.toList) ++ "/")).segments =
          some c := by
  have hwhole : Behind (· == '/') (front ++ ['/']) (front ++ ['/']) [] :=
    ⟨List.append_nil _, fun _ hc => absurd hc List.not_mem_nil, .inr ⟨front, '/', rfl, rfl⟩⟩
  obtain ⟨rfl, rfl⟩ : part = front ++ ['/'] ∧ rest = [] :=
    Prod.mk.inj (h.split.splitDirectory_eq.symm.trans hwhole.splitDirectory_eq)
  have hdirectory : directoryFor store cwd (front ++ ['/']) =
      store.resolve cwd (String.ofList front ++ "/") := by
    rw [directoryFor, if_neg (by simp), String.ofList_append]
  have hreached := h.reached
  rw [hdirectory] at hreached
  refine ⟨rfl, hreached, ?_⟩
  obtain ⟨hseen, -⟩ := Bool.and_eq_true_iff.mp h.least.candidate
  have hplain : c.name.toList.head? ≠ some '.' := by
    simpa [Entry.isHidden, Node.entry] using hseen
  have hordinary : Ordinary c.name := by
    refine ⟨(h.name_sound hnames).1, ?_, ?_⟩ <;>
    · intro hdots
      rw [hdots] at hplain
      exact hplain rfl
  have htext : String.ofList (front ++ '/' :: c.name.toList) ++ "/" =
      String.ofList front ++ "/" ++ (c.name ++ "/") := by
    rw [String.ofList_append, ← List.singleton_append, String.ofList_append, String.ofList_toList,
      String.append_assoc, String.append_assoc, String.append_assoc]
  rw [htext, Store.resolve, Path.resolve_append_of_slash,
    (Path.foldl_step_name_iff (.inr rfl) _ c.name).mpr hordinary, Node.descend?_snoc]
  rw [Store.resolve] at hreached
  rw [hreached]
  exact h.child

/-! ## Coming to rest -/

section

variable {line : String} {before token : List Char}
  (hsplit : Behind Text.isBlank line.toList before token)
include hsplit

theorem restsWithin_command (hschemas : SchemasSound schemas)
    (hfirst : before.all Text.isBlank = true) : RestsWithin schemas store cwd 1 line := by
  refine restsWithin_succ fun completed hcompleted => restsWithin_of_none ?_
  obtain ⟨name, hoffers, -, rfl⟩ := (completeLine_eq_some_iff hsplit).mp hcompleted
  obtain ⟨hmem, hagain⟩ := offers_command_again hfirst hoffers
  obtain ⟨schema, hschema, rfl⟩ := List.mem_map.mp hmem
  refine completeLine_of_offers_self (hsplit.completed (hschemas schema hschema).1) ?_
  rwa [String.ofList_toList]

theorem restsWithin_flag (hschemas : SchemasSound schemas)
    (hlater : before.all Text.isBlank = false) (hdash : token.head? = some '-') :
    RestsWithin schemas store cwd 1 line := by
  refine restsWithin_succ fun completed hcompleted => restsWithin_of_none ?_
  obtain ⟨flag, hoffers, -, rfl⟩ := (completeLine_eq_some_iff hsplit).mp hcompleted
  obtain ⟨⟨schema, hschema, hflag⟩, hagain⟩ := offers_flag_again hlater hdash hoffers
  refine completeLine_of_offers_self (hsplit.completed ((hschemas schema hschema).2 flag hflag)) ?_
  rwa [String.ofList_toList]

theorem exists_deeper (hnames : NamesSound store.root)
    (hlater : before.all Text.isBlank = false) (hdash : token.head? ≠ some '-') {completed : String}
    (hcompleted : completeLine schemas store cwd line = some completed) :
    ∃ part rest n c, Deeper store cwd token part rest n c ∧
      Behind Text.isBlank completed.toList before
        (String.ofList part ++ entryText c.entry).toList := by
  obtain ⟨text, hoffers, -, rfl⟩ := (completeLine_eq_some_iff hsplit).mp hcompleted
  obtain ⟨part, rest, n, c, hdeeper, rfl⟩ := exists_deeper_of_offers hlater hdash hoffers
  exact ⟨part, rest, n, c, hdeeper, hsplit.completed (hdeeper.unbroken hnames hsplit.clear)⟩

end

/-- Behind the slash of a directory each completion leads to one of its entries that is not hidden, and
that is where the next completion goes on. -/
theorem restsWithin_behind_slash (hnames : NamesSound store.root) {before : List Char}
    (hlater : before.all Text.isBlank = false) {line : String} {front : List Char} (bound : Nat)
    (hsplit : Behind Text.isBlank line.toList before (front ++ ['/']))
    (hdash : (front ++ ['/']).head? ≠ some '-')
    (hbound : ∀ n, store.root.descend?
      (store.resolve cwd (String.ofList front ++ "/")).segments = some n → n.height ≤ bound) :
    RestsWithin schemas store cwd bound line := by
  -- on the levels below the directory that the token points into; the text only grows
  induction bound generalizing line front with
  | zero =>
    refine restsWithin_of_none (Option.eq_none_iff_forall_ne_some.mpr fun completed hcompleted => ?_)
    obtain ⟨part, rest, n, c, hdeeper, -⟩ := exists_deeper hsplit hnames hlater hdash hcompleted
    obtain ⟨-, hreached, -⟩ := hdeeper.behind_slash hnames
    exact absurd (Nat.lt_of_lt_of_le hdeeper.height_lt (hbound n hreached)) (Nat.not_lt_zero _)
  | succ bound ih =>
    refine restsWithin_succ fun completed hcompleted => ?_
    obtain ⟨part, rest, n, c, hdeeper, hbehind⟩ :=
      exists_deeper hsplit hnames hlater hdash hcompleted
    obtain ⟨rfl, hreached, hnext⟩ := hdeeper.behind_slash hnames
    have hstart : ∀ more, (front ++ ['/'] ++ more).head? = (front ++ ['/']).head? := fun more => by
      simp [List.head?_append]
    cases hkind : c.kind with
    | file =>
      refine restsWithin_of_none (hdeeper.completeLine_eq_none hnames hkind hlater ?_ hbehind)
      rwa [String.toList_append, String.toList_ofList, hstart]
    | directory =>
      have htext : front ++ ['/'] ++ c.name.toList ++ ['/'] =
          front ++ '/' :: c.name.toList ++ ['/'] := by simp
      rw [text_of_directory _ hkind, htext] at hbehind
      refine ih hbehind ?_ fun m hm => ?_
      · rwa [← htext, List.append_assoc, hstart]
      · obtain rfl := Option.some.inj (hnext.symm.trans hm)
        exact Nat.le_of_lt_succ (Nat.lt_of_lt_of_le hdeeper.height_lt (hbound n hreached))

/-- The first completion may lead anywhere in the tree; from there it goes down. -/
theorem restsWithin_height (hnames : NamesSound store.root) (hschemas : SchemasSound schemas)
    (cwd : Path) (input : String) : RestsWithin schemas store cwd (store.root.height + 1) input := by
  have hsplit := behind_splitToken input.toList
  cases hlater : (splitToken input.toList).1.all Text.isBlank with
  | true => exact (restsWithin_command hsplit hschemas hlater).mono (Nat.le_add_left _ _)
  | false =>
    by_cases hdash : (splitToken input.toList).2.head? = some '-'
    · exact (restsWithin_flag hsplit hschemas hlater hdash).mono (Nat.le_add_left _ _)
    refine restsWithin_succ fun line hline => ?_
    obtain ⟨part, rest, n, c, hdeeper, hbehind⟩ := exists_deeper hsplit hnames hlater hdash hline
    by_cases hflag : (String.ofList part ++ entryText c.entry).toList.head? = some '-'
    -- the name itself is taken for a flag now, and there is at least one level
    · have hpos : 1 ≤ store.root.height :=
        Nat.lt_of_lt_of_le (Nat.zero_lt_of_lt hdeeper.height_lt)
          (Node.height_le_of_descend? hdeeper.reached)
      exact (restsWithin_flag hbehind hschemas hlater hflag).mono hpos
    cases hkind : c.kind with
    | file =>
      exact restsWithin_of_none (hdeeper.completeLine_eq_none hnames hkind hlater hflag hbehind)
    | directory =>
      rw [text_of_directory _ hkind] at hbehind hflag
      exact restsWithin_behind_slash hnames hlater _ hbehind hflag fun m hm =>
        Node.height_le_of_descend? hm

end Completion

namespace Session

open Completion (NamesSound SchemasSound pressed)

theorem iterate_complete {d : Desktop} {n : Nat} {s : Session} {last : String}
    (h : pressed Builtin.schemas d.store s.cwd n s.input = some last) :
    (fun s : Session => (s.complete d).2)^[n] s = { s with input := last } := by
  induction n generalizing s with
  | zero =>
    obtain rfl := Option.some.inj h
    rfl
  | succ n ih =>
    obtain ⟨line, hline, hlater⟩ := Option.bind_eq_some_iff.mp h
    have hstep : s.complete d = (true, { s with input := line }) := by rw [complete, hline]
    rw [Function.iterate_succ_apply, hstep, ih hlater]

/-- In a session too the key that completes the input changes nothing in the end. -/
theorem exists_complete_eq_false {d : Desktop} (hnames : NamesSound d.store.root) (s : Session) :
    ∃ n ≤ d.store.root.height + 1,
      ((fun s : Session => (s.complete d).2)^[n] s |>.complete d).1 = false := by
  have hschemas : SchemasSound Builtin.schemas := by decide +kernel
  obtain ⟨n, last, hn, hpressed, hnone⟩ :=
    Completion.restsWithin_height hnames hschemas s.cwd s.input
  refine ⟨n, hn, ?_⟩
  rw [iterate_complete hpressed, complete, hnone]

end Session

namespace Completion

/-- Completing a line again and again comes to an end, at the latest after one step more than the tree
has levels, and no line comes back: each has more at its end than those before. -/
theorem completions_come_to_rest {schemas : List Schema} {store : Store}
    (hnames : NamesSound store.root) (hschemas : SchemasSound schemas) (cwd : Path) (input : String) :
    (∃ n last, n ≤ store.root.height + 1 ∧ pressed schemas store cwd n input = some last ∧
      completeLine schemas store cwd last = none ∧
      ∀ m, n < m → pressed schemas store cwd m input = none) ∧
    ∀ i j line later, i < j → pressed schemas store cwd i input = some line →
      pressed schemas store cwd j input = some later → ∃ added, added ≠ "" ∧ later = line ++ added := by
  constructor
  · obtain ⟨n, last, hn, hpressed, hnone⟩ := restsWithin_height hnames hschemas cwd input
    refine ⟨n, last, hn, hpressed, hnone, fun m hm => ?_⟩
    obtain ⟨k, rfl⟩ := Nat.exists_eq_add_of_lt hm
    rw [Nat.add_assoc, pressed_add, hpressed, Option.bind_some, pressed, hnone]
    rfl
  · intro i j line later hij hline hlater
    obtain ⟨k, rfl⟩ := Nat.exists_eq_add_of_lt hij
    rw [Nat.add_assoc, pressed_add, hline, Option.bind_some] at hlater
    exact exists_added_of_pressed hlater

/-- Where a directory is called `~`, the line that names it leads home from there. -/
theorem completions_rest_beside_tilde :
    let s := ((Desktop.newStore Config.standard ⟨0, 0⟩).makeDirectory
      ⟨true, ["home", "user", "~"]⟩ ⟨0, 0⟩).2
    NamesSound s.root ∧ SchemasSound Builtin.schemas ∧ s.root.height = 4 ∧
      ∃ n last, n ≤ 5 ∧ pressed Builtin.schemas s s.home n "ls ~" = some last ∧
        completeLine Builtin.schemas s s.home last = none := by
  intro s
  have hnames : NamesSound s.root := by decide +kernel
  have hschemas : SchemasSound Builtin.schemas := by decide +kernel
  have hheight : s.root.height = 4 := by decide +kernel
  obtain ⟨⟨n, last, hn, hpressed, hnone, -⟩, -⟩ :=
    completions_come_to_rest hnames hschemas s.home "ls ~"
  rw [hheight] at hn
  exact ⟨hnames, hschemas, hheight, n, last, hn, hpressed, hnone⟩

end Completion

end DesktopTerminal
