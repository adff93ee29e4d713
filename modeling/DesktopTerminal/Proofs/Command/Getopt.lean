import DesktopTerminal.Command.Arguments
import Mathlib.Data.List.Forall2
import Mathlib.Data.List.TakeWhile

/-!
# The language of options

The words that fit a schema are those that can be read from left to right as operands, clusters of
letters and long options, perhaps with a `--` behind which all is operands. Such a reading is a list of
items, each an `Argument`, and from them come the arguments of the command. `Reads` and `Spelled` say
which words spell which items without reading them; the reader accepts what is spelled, and nothing
else.
-/
namespace DesktopTerminal

/-- What one piece of a command's words says. -/
inductive Argument where
  | operand (word : String)
  | switch (name : String)
  | setting (name value : String)
deriving DecidableEq, Repr

namespace Argument

def operand? : Argument → Option String
  | operand word => some word
  | _ => none

/-- The value that an item sets for the option `name`. -/
def valueFor? (name : String) : Argument → Option String
  | setting other value => if other = name then some value else none
  | _ => none

end Argument

/-! ## Which words spell which items -/

/-- The flag of one letter. -/
def letterFlag (c : Char) : String := String.ofList ['-', c]

/-- A word that does not start with a dash, or is a dash alone or a dash with a digit behind it. -/
def IsOperand (word : String) : Prop :=
  startsWithDash word = false ∨ word = "-" ∨ ∃ c cs, word.toList = '-' :: c :: cs ∧ c.isDigit = true

/-- A letter that makes a cluster of what follows it, when it stands behind a dash. -/
def IsLetter (c : Char) : Prop := c ≠ '-' ∧ c.isDigit = false

instance (c : Char) : Decidable (IsLetter c) := inferInstanceAs (Decidable (_ ∧ _))

namespace Schema

/-- The letters stand for switches of these names. -/
def Switches (s : Schema) (letters : List Char) (names : List String) : Prop :=
  List.Forall₂ (fun c name => ∃ p, s.param? (letterFlag c) = some p ∧ p.isSwitch = true ∧
    p.name = name) letters names

/-- The flag stands for an option of this name that takes a value. -/
def TakesValue (s : Schema) (flag name : String) : Prop :=
  ∃ p, s.param? flag = some p ∧ p.isSwitch = false ∧ p.name = name

/-- One option with its value, if it takes one: a cluster of letters or a long option. Behind the dash
of a cluster stands a letter; a long option has a name, unless an equals sign follows the dashes. -/
inductive Asks (s : Schema) : List String → List Argument → Prop
  | letters {letters : List Char} {names : List String} (hfirst : ∃ c ∈ letters.head?, IsLetter c)
      (hletters : s.Switches letters names) :
    Asks s [String.ofList ('-' :: letters)] (names.map .switch)
  | lettersThenRest {letters rest : List Char} {c : Char} {names : List String} {name : String}
      (hfirst : ∃ d ∈ (letters ++ [c]).head?, IsLetter d) (hletters : s.Switches letters names)
      (hvalue : s.TakesValue (letterFlag c) name) (hrest : rest ≠ []) :
    Asks s [String.ofList ('-' :: (letters ++ c :: rest))]
      (names.map .switch ++ [.setting name (String.ofList rest)])
  | lettersThenNext {letters : List Char} {c : Char} {names : List String} {name : String}
      (hfirst : ∃ d ∈ (letters ++ [c]).head?, IsLetter d) (hletters : s.Switches letters names)
      (hvalue : s.TakesValue (letterFlag c) name) (next : String) :
    Asks s [String.ofList ('-' :: (letters ++ [c])), next]
      (names.map .switch ++ [.setting name next])
  | long {cs : List Char} {p : Param} (hname : cs ≠ []) (hplain : '=' ∉ cs)
      (hflag : s.param? ("--" ++ String.ofList cs) = some p) (hswitch : p.isSwitch = true) :
    Asks s [String.ofList ('-' :: '-' :: cs)] [.switch p.name]
  | longWithValue {cs : List Char} {name : String} (hplain : '=' ∉ cs)
      (hvalue : s.TakesValue ("--" ++ String.ofList cs) name) (value : List Char) :
    Asks s [String.ofList ('-' :: '-' :: (cs ++ '=' :: value))]
      [.setting name (String.ofList value)]
  | longThenNext {cs : List Char} {name : String} (hname : cs ≠ []) (hplain : '=' ∉ cs)
      (hvalue : s.TakesValue ("--" ++ String.ofList cs) name) (next : String) :
    Asks s [String.ofList ('-' :: '-' :: cs), next] [.setting name next]

/-- Words without a `--` of their own. -/
inductive Reads (s : Schema) : List String → List Argument → Prop
  | nil : Reads s [] []
  | operand {word : String} {words : List String} {items : List Argument} (hword : IsOperand word) :
    Reads s words items → Reads s (word :: words) (.operand word :: items)
  | option {group words : List String} {asked items : List Argument} (hgroup : s.Asks group asked) :
    Reads s words items → Reads s (group ++ words) (asked ++ items)

/-- All words of a command. Behind a `--` every word is an operand. -/
def Spelled (s : Schema) (words : List String) (items : List Argument) : Prop :=
  s.Reads words items ∨ ∃ front before back, s.Reads front before ∧
    words = front ++ "--" :: back ∧ items = before ++ back.map .operand

end Schema

/-! ## What items make of arguments -/

namespace Arguments

def take (a : Arguments) : Argument → Arguments
  | .operand word => a.addPositional word
  | .switch name => a.addFlag name
  | .setting name value => a.setNamed name value

def takeAll (items : List Argument) (a : Arguments) : Arguments := items.foldl take a

@[simp] theorem takeAll_nil (a : Arguments) : takeAll [] a = a := rfl

@[simp] theorem takeAll_cons (item : Argument) (items : List Argument) (a : Arguments) :
    takeAll (item :: items) a = takeAll items (a.take item) := rfl

theorem takeAll_append (items more : List Argument) (a : Arguments) :
    takeAll (items ++ more) a = takeAll more (takeAll items a) := List.foldl_append

theorem takeAll_switches (names : List String) (a : Arguments) :
    takeAll (names.map .switch) a = names.foldl (fun a name => a.addFlag name) a := by
  rw [takeAll, List.foldl_map]
  rfl

theorem takeAll_operands (words : List String) (a : Arguments) :
    takeAll (words.map .operand) a = words.foldl (fun a word => a.addPositional word) a := by
  rw [takeAll, List.foldl_map]
  rfl

theorem mem_flags_addFlag {name other : String} {a : Arguments} :
    other ∈ (a.addFlag name).flags ↔ other ∈ a.flags ∨ other = name := by
  rw [addFlag]
  split
  · rename_i h
    have hmem : name ∈ a.flags := List.contains_iff_mem.mp h
    constructor
    · exact .inl
    · rintro (h | rfl)
      · exact h
      · exact hmem
  · rw [List.mem_cons, or_comm]

theorem named?_setNamed (name value other : String) (a : Arguments) :
    (a.setNamed name value).named? other = if name = other then some value else a.named? other := by
  rw [named?, setNamed, List.lookup_cons]
  by_cases h : name = other
  · simp [h]
  · have hother : (other == name) = false := by simpa using Ne.symm h
    rw [hother, if_neg h, named?]
    induction a.named with
    | nil => rfl
    | cons entry rest ih =>
      obtain ⟨key, held⟩ := entry
      by_cases hkey : key = name
      · have hskip : (other == key) = false := by simpa [hkey] using Ne.symm h
        simp only [ne_eq, hkey, not_true_eq_false, decide_false, Bool.false_eq_true,
          not_false_eq_true, List.filter_cons_of_neg, List.lookup_cons]
        rw [← hkey, hskip, ← ih, hkey]
      · simp only [ne_eq, hkey, not_false_eq_true, decide_true, List.filter_cons_of_pos,
          List.lookup_cons]
        rw [← ih]

theorem positional_takeAll (items : List Argument) (a : Arguments) :
    (takeAll items a).positional = a.positional ++ items.filterMap Argument.operand? := by
  induction items generalizing a with
  | nil => simp
  | cons item items ih =>
    rw [takeAll_cons, ih]
    cases item with
    | operand word => simp [take, addPositional, Argument.operand?]
    | switch name =>
      have hkept : (a.addFlag name).positional = a.positional := by
        rw [addFlag]
        split <;> rfl
      simp [take, hkept, List.filterMap_cons, Argument.operand?]
    | setting name value => simp [take, setNamed, List.filterMap_cons, Argument.operand?]

theorem mem_flags_takeAll {name : String} {items : List Argument} {a : Arguments} :
    name ∈ (takeAll items a).flags ↔ name ∈ a.flags ∨ .switch name ∈ items := by
  induction items generalizing a with
  | nil => simp
  | cons item items ih =>
    rw [takeAll_cons, ih]
    cases item with
    | operand word => simp [take, addPositional]
    | switch other => simp [take, mem_flags_addFlag, or_assoc]
    | setting other value => simp [take, setNamed]

theorem named?_takeAll (name : String) (items : List Argument) (a : Arguments) :
    (takeAll items a).named? name =
      ((items.filterMap (Argument.valueFor? name)).getLast?).or (a.named? name) := by
  induction items generalizing a with
  | nil => simp
  | cons item items ih =>
    rw [takeAll_cons, ih]
    cases item with
    | operand word => rfl
    | switch other =>
      have hkept : (a.addFlag other).named? name = a.named? name := by
        rw [addFlag]
        split <;> rfl
      simp [take, hkept, Argument.valueFor?]
    | setting other value =>
      by_cases h : other = name
      · cases hlast : items.filterMap (Argument.valueFor? name) with
        | nil => simp [take, named?_setNamed, Argument.valueFor?, h, hlast]
        | cons first rest => simp [take, Argument.valueFor?, h, hlast, List.getLast?_cons]
      · simp [take, named?_setNamed, Argument.valueFor?, h]

end Arguments

/-! ## What is spelled is read -/

theorem isOption_eq_false_iff {word : String} : isOption word = false ↔ IsOperand word := by
  have hdash : word = "-" ↔ word.toList = ['-'] := by rw [← String.toList_inj]; rfl
  rw [IsOperand, hdash, startsWithDash, isOption]
  cases word.toList with
  | nil => simp
  | cons d rest =>
    by_cases hd : d = '-'
    · subst hd
      cases rest <;> simp
    · simp [hd]

theorem isOption_cluster {cs : List Char} (h : ∃ c ∈ cs.head?, IsLetter c) :
    isOption (String.ofList ('-' :: cs)) = true ∧ String.ofList ('-' :: cs) ≠ "--" := by
  obtain ⟨c, hc, hdash, hdigit⟩ := h
  obtain ⟨rest, rfl⟩ := List.head?_eq_some_iff.mp hc
  constructor
  · simp [isOption, hdigit]
  · intro he
    have hlist := congrArg String.toList he
    simp [hdash] at hlist

theorem isOption_long {cs : List Char} (h : cs ≠ []) :
    isOption (String.ofList ('-' :: '-' :: cs)) = true ∧ String.ofList ('-' :: '-' :: cs) ≠ "--" := by
  constructor
  · simp [isOption]
  · intro he
    have hlist := congrArg String.toList he
    simp [h] at hlist

section Reading

variable {s : Schema}

theorem readWords_operand {word : String} (h : IsOperand word) (words : List String)
    (a : Arguments) : readWords s (word :: words) a = readWords s words (a.addPositional word) := by
  rw [readWords, isOption_eq_false_iff.mpr h]
  rfl

theorem readWords_end (words : List String) (a : Arguments) :
    readWords s ("--" :: words) a = .ok (a.takeAll (words.map .operand)) := by
  have hoption : isOption "--" = true := by decide
  rw [readWords, hoption, Arguments.takeAll_operands]
  rfl

section Option

variable {word : String} {r : Request} (hword : isOption word = true ∧ word ≠ "--")
  (hr : readOption s word = .ok r)
include hword hr

theorem readWords_of_switches (hv : r.valued = none) (words : List String) (a : Arguments) :
    readWords s (word :: words) a = readWords s words (a.takeAll (r.switches.map .switch)) := by
  rw [readWords, hword.1, if_neg (by simp), if_neg hword.2, hr, Arguments.takeAll_switches]
  simp only [hv]

theorem readWords_of_value {name value : String} {fault : UsageFault}
    (hv : r.valued = some ⟨name, some value, fault⟩) (words : List String) (a : Arguments) :
    readWords s (word :: words) a =
      readWords s words (a.takeAll (r.switches.map .switch ++ [.setting name value])) := by
  rw [readWords, hword.1, if_neg (by simp), if_neg hword.2, hr, Arguments.takeAll_append,
    Arguments.takeAll_switches]
  simp only [hv]
  rfl

theorem readWords_of_next {name : String} {fault : UsageFault}
    (hv : r.valued = some ⟨name, none, fault⟩) (next : String) (words : List String)
    (a : Arguments) :
    readWords s (word :: next :: words) a =
      readWords s words (a.takeAll (r.switches.map .switch ++ [.setting name next])) := by
  rw [readWords, hword.1, if_neg (by simp), if_neg hword.2, hr, Arguments.takeAll_append,
    Arguments.takeAll_switches]
  simp only [hv]
  rfl

end Option

theorem readCluster_switches {letters : List Char} {names : List String}
    (h : s.Switches letters names) (rest : List Char) :
    readCluster s (letters ++ rest) =
      (readCluster s rest).map fun r => ⟨names ++ r.switches, r.valued⟩ := by
  induction h with
  | nil =>
    rw [List.nil_append]
    cases readCluster s rest <;> rfl
  | @cons c name letters names hc _ ih =>
    obtain ⟨p, hp, hswitch, rfl⟩ := hc
    rw [letterFlag] at hp
    rw [List.cons_append, readCluster, hp]
    simp only [hswitch, ite_true, ih]
    cases readCluster s rest <;> rfl

theorem readCluster_value {c : Char} {name : String} (h : s.TakesValue (letterFlag c) name)
    (rest : List Char) :
    readCluster s (c :: rest) = .ok ⟨[], some ⟨name,
      if rest.isEmpty then none else some (String.ofList rest), .missingLetterValue c⟩⟩ := by
  obtain ⟨p, hp, hvalue, rfl⟩ := h
  rw [letterFlag] at hp
  rw [readCluster, hp]
  simp [hvalue]

theorem readOption_cluster {cs : List Char} (h : ∃ c ∈ cs.head?, IsLetter c) :
    readOption s (String.ofList ('-' :: cs)) = readCluster s cs := by
  obtain ⟨c, hc, hdash, -⟩ := h
  obtain ⟨rest, rfl⟩ := List.head?_eq_some_iff.mp hc
  simp [readOption, hdash]

theorem readOption_long (cs : List Char) :
    readOption s (String.ofList ('-' :: '-' :: cs)) =
      readLong s (String.ofList ('-' :: '-' :: cs)) cs := by
  simp [readOption]

theorem forall_ne_equals {cs : List Char} (h : '=' ∉ cs) : ∀ c ∈ cs, decide (c ≠ '=') = true :=
  fun _ hc => decide_eq_true fun he => h (he ▸ hc)

/-- A name ends at the equals sign behind it. -/
theorem span_equals {cs : List Char} (h : '=' ∉ cs) (value : List Char) :
    (cs ++ '=' :: value).takeWhile (· ≠ '=') = cs ∧
      (cs ++ '=' :: value).dropWhile (· ≠ '=') = '=' :: value := by
  rw [List.takeWhile_append_of_pos (forall_ne_equals h),
    List.dropWhile_append_of_pos (forall_ne_equals h)]
  simp

/-- A name without an equals sign behind it is all that there is. -/
theorem span_all {cs : List Char} (h : '=' ∉ cs) :
    cs.takeWhile (· ≠ '=') = cs ∧ cs.dropWhile (· ≠ '=') = [] :=
  ⟨List.takeWhile_eq_self_iff.mpr (forall_ne_equals h),
    List.dropWhile_eq_nil_iff.mpr (forall_ne_equals h)⟩

/-- One option is read as what it says, whatever follows. -/
theorem readWords_asks {group : List String} {items : List Argument} (h : s.Asks group items)
    (words : List String) (a : Arguments) :
    readWords s (group ++ words) a = readWords s words (a.takeAll items) := by
  cases h with
  | @letters letters names hfirst hletters =>
    have hr : readOption s (String.ofList ('-' :: letters)) = .ok ⟨names, none⟩ := by
      have hcluster := readCluster_switches hletters []
      rw [List.append_nil] at hcluster
      rw [readOption_cluster hfirst, hcluster]
      simp [readCluster, Except.map]
    exact readWords_of_switches (isOption_cluster hfirst) hr rfl words a
  | @lettersThenRest letters rest c names name hfirst hletters hvalue hrest =>
    have hfirst' : ∃ d ∈ (letters ++ c :: rest).head?, IsLetter d := by
      cases letters <;> exact hfirst
    have hr : readOption s (String.ofList ('-' :: (letters ++ c :: rest))) =
        .ok ⟨names, some ⟨name, some (String.ofList rest), .missingLetterValue c⟩⟩ := by
      rw [readOption_cluster hfirst', readCluster_switches hletters, readCluster_value hvalue]
      simp [Except.map, hrest]
    exact readWords_of_value (isOption_cluster hfirst') hr rfl words a
  | @lettersThenNext letters c names name hfirst hletters hvalue next =>
    have hr : readOption s (String.ofList ('-' :: (letters ++ [c]))) =
        .ok ⟨names, some ⟨name, none, .missingLetterValue c⟩⟩ := by
      rw [readOption_cluster hfirst, readCluster_switches hletters, readCluster_value hvalue]
      simp [Except.map]
    exact readWords_of_next (isOption_cluster hfirst) hr rfl next words a
  | @long cs p hname hplain hflag hswitch =>
    have hr : readOption s (String.ofList ('-' :: '-' :: cs)) = .ok ⟨[p.name], none⟩ := by
      obtain ⟨htake, hdrop⟩ := span_all hplain
      rw [readOption_long, readLong, htake, hdrop, hflag]
      simp [hswitch]
    exact readWords_of_switches (isOption_long hname) hr rfl words a
  | @longWithValue cs name hplain hvalue value =>
    obtain ⟨p, hflag, hswitch, rfl⟩ := hvalue
    have hr : readOption s (String.ofList ('-' :: '-' :: (cs ++ '=' :: value))) =
        .ok ⟨[], some ⟨p.name, some (String.ofList value),
          .missingLongValue ("--" ++ String.ofList cs)⟩⟩ := by
      obtain ⟨htake, hdrop⟩ := span_equals hplain value
      rw [readOption_long, readLong, htake, hdrop, hflag]
      simp [hswitch]
    exact readWords_of_value (isOption_long (by simp)) hr rfl words a
  | @longThenNext cs name hname hplain hvalue next =>
    obtain ⟨p, hflag, hswitch, rfl⟩ := hvalue
    have hr : readOption s (String.ofList ('-' :: '-' :: cs)) =
        .ok ⟨[], some ⟨p.name, none, .missingLongValue ("--" ++ String.ofList cs)⟩⟩ := by
      obtain ⟨htake, hdrop⟩ := span_all hplain
      rw [readOption_long, readLong, htake, hdrop, hflag]
      simp [hswitch]
    exact readWords_of_next (isOption_long hname) hr rfl next words a

/-- What the first words spell is read before the others. -/
theorem readWords_reads {words : List String} {items : List Argument} (h : s.Reads words items)
    (more : List String) (a : Arguments) :
    readWords s (words ++ more) a = readWords s more (a.takeAll items) := by
  induction h generalizing a with
  | nil => rfl
  | operand hword _ ih =>
    rw [List.cons_append, readWords_operand hword, ih]
    rfl
  | option hgroup _ ih => rw [List.append_assoc, readWords_asks hgroup, ih, Arguments.takeAll_append]

theorem readWords_spelled {words : List String} {items : List Argument} (h : s.Spelled words items)
    (a : Arguments) : readWords s words a = .ok (a.takeAll items) := by
  rcases h with h | ⟨front, before, back, h, rfl, rfl⟩
  · have hread := readWords_reads h [] a
    rwa [List.append_nil, readWords] at hread
  · rw [readWords_reads h, readWords_end, Arguments.takeAll_append]

end Reading

/-! ## What is read is spelled -/

section Spelling

variable {s : Schema}

theorem Schema.Spelled.operand {word : String} {words : List String} {items : List Argument}
    (hword : IsOperand word) (h : s.Spelled words items) :
    s.Spelled (word :: words) (.operand word :: items) := by
  rcases h with h | ⟨front, before, back, h, rfl, rfl⟩
  · exact .inl (.operand hword h)
  · exact .inr ⟨word :: front, .operand word :: before, back, .operand hword h, rfl, rfl⟩

theorem Schema.Spelled.option {group words : List String} {asked items : List Argument}
    (hgroup : s.Asks group asked) (h : s.Spelled words items) :
    s.Spelled (group ++ words) (asked ++ items) := by
  rcases h with h | ⟨front, before, back, h, rfl, rfl⟩
  · exact .inl (.option hgroup h)
  · exact .inr ⟨group ++ front, asked ++ before, back, .option hgroup h, by simp, by simp⟩

/-- An option is a long one or a cluster. -/
theorem option_cases {word : String} (h : isOption word = true ∧ word ≠ "--") :
    (∃ cs, cs ≠ [] ∧ word = String.ofList ('-' :: '-' :: cs)) ∨
      ∃ cs, (∃ c ∈ cs.head?, IsLetter c) ∧ word = String.ofList ('-' :: cs) := by
  obtain ⟨cs, rfl⟩ : ∃ cs, word = String.ofList cs := ⟨word.toList, by simp⟩
  obtain ⟨hoption, hend⟩ := h
  unfold isOption at hoption
  rw [String.toList_ofList] at hoption
  split at hoption
  · rename_i c rest
    by_cases hdash : c = '-'
    · subst hdash
      refine .inl ⟨rest, ?_, rfl⟩
      rintro rfl
      exact hend rfl
    · exact .inr ⟨c :: rest, ⟨c, rfl, hdash, by simpa using hoption⟩, rfl⟩
  · cases hoption

/-- The word, or the word with the next one, says what the request says. -/
def Schema.Answers (s : Schema) (word : String) (r : Request) : Prop :=
  match r.valued with
  | none => s.Asks [word] (r.switches.map .switch)
  | some ⟨name, some value, _⟩ =>
    s.Asks [word] (r.switches.map .switch ++ [.setting name value])
  | some ⟨name, none, _⟩ =>
    ∀ next, s.Asks [word, next] (r.switches.map .switch ++ [.setting name next])

theorem readCluster_eq_ok {cs : List Char} {r : Request} (h : readCluster s cs = .ok r) :
    (r.valued = none ∧ s.Switches cs r.switches) ∨
      ∃ letters c rest name fault, cs = letters ++ c :: rest ∧ s.Switches letters r.switches ∧
        s.TakesValue (letterFlag c) name ∧
        r.valued = some ⟨name, if rest.isEmpty then none else some (String.ofList rest), fault⟩ := by
  induction cs generalizing r with
  | nil =>
    obtain rfl := Except.ok.inj h
    exact .inl ⟨rfl, .nil⟩
  | cons c cs ih =>
    rw [readCluster] at h
    split at h
    · cases h
    · rename_i p hp
      split at h
      · rename_i hswitch
        have hc : ∃ q, s.param? (letterFlag c) = some q ∧ q.isSwitch = true ∧ q.name = p.name :=
          ⟨p, hp, hswitch, rfl⟩
        cases hrest : readCluster s cs with
        | error fault =>
          rw [hrest] at h
          cases h
        | ok later =>
          rw [hrest] at h
          obtain rfl := Except.ok.inj h
          rcases ih hrest with ⟨hv, hletters⟩ |
            ⟨letters, d, rest, name, fault, rfl, hletters, hvalue, hv⟩
          · exact .inl ⟨hv, .cons hc hletters⟩
          · exact .inr ⟨c :: letters, d, rest, name, fault, rfl, .cons hc hletters, hvalue, hv⟩
      · rename_i hvalue
        obtain rfl := Except.ok.inj h
        exact .inr ⟨[], c, cs, p.name, _, rfl, .nil, ⟨p, hp, by simpa using hvalue, rfl⟩, rfl⟩

theorem answers_cluster {cs : List Char} {r : Request} (hfirst : ∃ c ∈ cs.head?, IsLetter c)
    (h : readCluster s cs = .ok r) : s.Answers (String.ofList ('-' :: cs)) r := by
  rw [Schema.Answers]
  rcases readCluster_eq_ok h with ⟨hv, hletters⟩ |
    ⟨letters, c, rest, name, fault, rfl, hletters, hvalue, hv⟩
  · rw [hv]
    exact .letters hfirst hletters
  · have hfirst' : ∃ d ∈ (letters ++ [c]).head?, IsLetter d := by
      cases letters <;> exact hfirst
    rw [hv]
    cases rest with
    | nil => exact fun next => .lettersThenNext hfirst' hletters hvalue next
    | cons d rest => exact .lettersThenRest hfirst' hletters hvalue (List.cons_ne_nil d rest)

theorem answers_long {cs : List Char} {r : Request} (hcs : cs ≠ [])
    (h : readLong s (String.ofList ('-' :: '-' :: cs)) cs = .ok r) :
    s.Answers (String.ofList ('-' :: '-' :: cs)) r := by
  rw [readLong] at h
  by_cases hequals : '=' ∈ cs
  · obtain ⟨name, value, rfl, hplain⟩ := List.eq_append_cons_of_mem hequals
    obtain ⟨htake, hdrop⟩ := span_equals hplain value
    rw [htake, hdrop] at h
    split at h
    · cases h
    · rename_i p hp
      split at h
      · cases h
      · rename_i hvalue
        obtain rfl := Except.ok.inj h
        exact .longWithValue hplain ⟨p, hp, by simpa using hvalue, rfl⟩ value
  · obtain ⟨htake, hdrop⟩ := span_all hequals
    rw [htake, hdrop] at h
    split at h
    · cases h
    · rename_i p hp
      split at h
      · rename_i hswitch
        obtain rfl := Except.ok.inj h
        exact .long hcs hequals hp hswitch
      · rename_i hvalue
        obtain rfl := Except.ok.inj h
        exact fun next => .longThenNext hcs hequals ⟨p, hp, by simpa using hvalue, rfl⟩ next

theorem answers_of_readOption {word : String} {r : Request}
    (hword : isOption word = true ∧ word ≠ "--") (h : readOption s word = .ok r) :
    s.Answers word r := by
  rcases option_cases hword with ⟨cs, hcs, rfl⟩ | ⟨cs, hfirst, rfl⟩
  · rw [readOption_long] at h
    exact answers_long hcs h
  · rw [readOption_cluster hfirst] at h
    exact answers_cluster hfirst h

theorem Schema.Asks.ne_nil {group : List String} {items : List Argument} (h : s.Asks group items) :
    group ≠ [] := by
  cases h <;> exact List.cons_ne_nil _ _

/-- If reading goes well behind an option word, the first words are one option. -/
theorem exists_asks {word : String} {r : Request} (hword : isOption word = true ∧ word ≠ "--")
    (hr : readOption s word = .ok r) {words : List String} {a a' : Arguments}
    (h : readWords s (word :: words) a = .ok a') :
    ∃ group rest asked, word :: words = group ++ rest ∧ s.Asks group asked ∧
      readWords s rest (a.takeAll asked) = .ok a' := by
  have hasks := answers_of_readOption hword hr
  rw [Schema.Answers] at hasks
  cases hv : r.valued with
  | none =>
    rw [readWords_of_switches hword hr hv] at h
    rw [hv] at hasks
    exact ⟨[word], words, _, rfl, hasks, h⟩
  | some valued =>
    obtain ⟨name, value, fault⟩ := valued
    rw [hv] at hasks
    cases value with
    | some value =>
      rw [readWords_of_value hword hr hv] at h
      exact ⟨[word], words, _, rfl, hasks, h⟩
    | none =>
      cases words with
      | nil =>
        rw [readWords, hword.1, if_neg (by simp), if_neg hword.2, hr] at h
        simp only [hv] at h
        cases h
      | cons next words =>
        rw [readWords_of_next hword hr hv] at h
        exact ⟨[word, next], words, _, rfl, hasks next, h⟩

/-- The induction is on the number of words, because an option may take two of them. -/
theorem exists_spelled {words : List String} {a a' : Arguments}
    (h : readWords s words a = .ok a') : ∃ items, s.Spelled words items := by
  induction hn : words.length using Nat.strong_induction_on generalizing words a with
  | _ n ih =>
    subst hn
    cases words with
    | nil => exact ⟨[], .inl .nil⟩
    | cons word words =>
      by_cases hoperand : IsOperand word
      · rw [readWords_operand hoperand] at h
        obtain ⟨items, hitems⟩ := ih _ (Nat.lt_succ_self _) h rfl
        exact ⟨_, hitems.operand hoperand⟩
      · by_cases hend : word = "--"
        · subst hend
          exact ⟨_, .inr ⟨[], [], words, .nil, rfl, rfl⟩⟩
        · have hoption : isOption word = true := by
            rw [← isOption_eq_false_iff] at hoperand
            simpa using hoperand
          cases hr : readOption s word with
          | error fault =>
            rw [readWords, hoption, if_neg (by simp), if_neg hend, hr] at h
            cases h
          | ok r =>
            obtain ⟨group, rest, asked, hwords, hasks, hrest⟩ := exists_asks ⟨hoption, hend⟩ hr h
            have hshorter : rest.length < (word :: words).length := by
              have hpos := List.length_pos_iff.mpr hasks.ne_nil
              rw [hwords, List.length_append]
              omega
            obtain ⟨items, hitems⟩ := ih _ hshorter hrest rfl
            rw [hwords]
            exact ⟨_, hitems.option hasks⟩

end Spelling

/-! ## One operand more -/

section Snoc

variable {s : Schema}

theorem Schema.Reads.snoc {words : List String} {items : List Argument} (h : s.Reads words items)
    {word : String} (hword : IsOperand word) :
    s.Reads (words ++ [word]) (items ++ [.operand word]) := by
  induction h with
  | nil => exact .operand hword .nil
  | operand hfirst _ ih => exact .operand hfirst ih
  | option hgroup _ ih =>
    rw [List.append_assoc, List.append_assoc]
    exact .option hgroup ih

theorem Schema.Spelled.snoc {words : List String} {items : List Argument} (h : s.Spelled words items)
    {word : String} (hword : IsOperand word) :
    s.Spelled (words ++ [word]) (items ++ [.operand word]) := by
  rcases h with h | ⟨front, before, back, h, rfl, rfl⟩
  · exact .inl (h.snoc hword)
  · exact .inr ⟨front, before, back ++ [word], h, by simp, by simp⟩

/-- An operand behind words that are accepted is the last operand. -/
theorem readArguments_snoc (hraw : s.raw = false) {words : List String} {a : Arguments}
    (h : readArguments s words = .ok a) {word : String} (hword : IsOperand word) :
    readArguments s (words ++ [word]) = .ok (a.addPositional word) := by
  rw [readArguments, hraw] at h ⊢
  obtain ⟨items, hitems⟩ := exists_spelled h
  obtain rfl := Except.ok.inj ((readWords_spelled hitems .empty).symm.trans h)
  refine (readWords_spelled (hitems.snoc hword) .empty).trans ?_
  rw [Arguments.takeAll_append]
  rfl

end Snoc

/-! ## Clusters -/

section Cluster

variable {s : Schema}

theorem readWords_fault {word : String} {fault : UsageFault}
    (hword : isOption word = true ∧ word ≠ "--") (h : readOption s word = .error fault)
    (words : List String) (a : Arguments) : readWords s (word :: words) a = .error fault := by
  rw [readWords, hword.1, if_neg (by simp), if_neg hword.2, h]

/-- The letter takes no value, whether it is known or not. -/
def Schema.Plain (s : Schema) (c : Char) : Prop :=
  IsLetter c ∧ ∀ p ∈ s.param? (letterFlag c), p.isSwitch = true

instance (c : Char) : Decidable (s.Plain c) := inferInstanceAs (Decidable (_ ∧ _))

/-- Such a letter is refused wherever it stands, or it is a switch. -/
theorem Schema.Plain.cases {d : Char} (h : s.Plain d) :
    (∀ cs, readCluster s (d :: cs) = .error (.invalidLetter d)) ∨ ∃ name, s.Switches [d] [name] := by
  cases hp : s.param? (letterFlag d) with
  | none =>
    left
    intro cs
    rw [letterFlag] at hp
    rw [readCluster, hp]
  | some p => exact .inr ⟨p.name, .cons ⟨p, hp, h.2 p hp, rfl⟩ .nil⟩

/-- The first letter of a cluster may stand in a word of its own, unless it takes a value. -/
theorem readWords_split {d e : Char} (hd : s.Plain d) (he : IsLetter e) (rest : List Char)
    (words : List String) (a : Arguments) :
    readWords s (String.ofList ('-' :: d :: e :: rest) :: words) a =
      readWords s (letterFlag d :: String.ofList ('-' :: e :: rest) :: words) a := by
  have hwhole : ∃ c ∈ (d :: e :: rest).head?, IsLetter c := ⟨d, rfl, hd.1⟩
  have hfirst : ∃ c ∈ [d].head?, IsLetter c := ⟨d, rfl, hd.1⟩
  have hlater : ∃ c ∈ (e :: rest).head?, IsLetter c := ⟨e, rfl, he⟩
  rcases hd.cases with hbad | ⟨name, hname⟩
  · have hlong := (readOption_cluster hwhole).trans (hbad (e :: rest))
    have hone := (readOption_cluster hfirst).trans (hbad [])
    rw [readWords_fault (isOption_cluster hwhole) hlong]
    exact (readWords_fault (isOption_cluster hfirst) hone _ a).symm
  · have hone := readWords_asks (.letters hfirst hname) (String.ofList ('-' :: e :: rest) :: words) a
    refine Eq.trans ?_ hone.symm
    have hlong := (readOption_cluster hwhole).trans (readCluster_switches hname (e :: rest))
    have hshort := readOption_cluster (s := s) hlater
    cases hrest : readCluster s (e :: rest) with
    | error fault =>
      rw [hrest] at hlong hshort
      rw [readWords_fault (isOption_cluster hwhole) hlong,
        readWords_fault (isOption_cluster hlater) hshort]
    | ok r =>
      rw [hrest] at hlong hshort
      rw [readWords, (isOption_cluster hwhole).1, if_neg (by simp),
        if_neg (isOption_cluster hwhole).2, hlong, readWords, (isOption_cluster hlater).1,
        if_neg (by simp), if_neg (isOption_cluster hlater).2, hshort]
      rfl

/-- All letters of a cluster but the last may stand in words of their own. -/
theorem readWords_letters {letters : List Char} {c : Char} (hletters : ∀ d ∈ letters, s.Plain d)
    (hc : IsLetter c) (rest : List Char) (words : List String) (a : Arguments) :
    readWords s (String.ofList ('-' :: (letters ++ c :: rest)) :: words) a =
      readWords s (letters.map letterFlag ++ String.ofList ('-' :: c :: rest) :: words) a := by
  induction letters generalizing a with
  | nil => rfl
  | cons d letters ih =>
    obtain ⟨hd, hlater⟩ := List.forall_mem_cons.mp hletters
    have hsplit : readWords s (String.ofList ('-' :: (d :: letters ++ c :: rest)) :: words) a =
        readWords s (letterFlag d :: String.ofList ('-' :: (letters ++ c :: rest)) :: words) a := by
      cases letters with
      | nil => exact readWords_split hd hc rest words a
      | cons e letters =>
        exact readWords_split hd (hlater e List.mem_cons_self).1 (letters ++ c :: rest) words a
    have hfirst : ∃ c ∈ [d].head?, IsLetter c := ⟨d, rfl, hd.1⟩
    rw [hsplit, List.map_cons, List.cons_append]
    rcases hd.cases with hbad | ⟨name, hname⟩
    · have hone := (readOption_cluster hfirst).trans (hbad [])
      exact (readWords_fault (isOption_cluster hfirst) hone _ a).trans
        (readWords_fault (isOption_cluster hfirst) hone _ a).symm
    · have hone := readWords_asks (.letters hfirst hname) (s := s)
      exact (hone _ a).trans ((ih hlater _).trans (hone _ a).symm)

end Cluster

/-! ## The arguments of a command -/

/-- Words are accepted exactly if they are spelled by the schema. Then the flags are the switches among
the items, an option has the last value set for it, and the operands stand in their order. Where an
option may stand, a cluster is read as its letters one by one, as long as none but the last takes a
value. -/
theorem readArguments_ok_iff_spelled (s : Schema) (hraw : s.raw = false) (words : List String) :
    ((∃ a, readArguments s words = .ok a) ↔ ∃ items, s.Spelled words items) ∧
    (∀ items a, s.Spelled words items → readArguments s words = .ok a →
      (∀ name, name ∈ a.flags ↔ Argument.switch name ∈ items) ∧
      (∀ name, a.named? name = (items.filterMap (Argument.valueFor? name)).getLast?) ∧
      a.positional = items.filterMap Argument.operand?) ∧
    ∀ front items letters c rest back, s.Reads front items → (∀ d ∈ letters, s.Plain d) →
      IsLetter c →
      readArguments s (front ++ String.ofList ('-' :: (letters ++ c :: rest)) :: back) =
        readArguments s
          (front ++ (letters.map letterFlag ++ String.ofList ('-' :: c :: rest) :: back)) := by
  have hread : ∀ words, readArguments s words = readWords s words .empty := by
    intro words
    rw [readArguments, hraw]
    rfl
  simp only [hread]
  refine ⟨⟨?_, ?_⟩, ?_, ?_⟩
  · rintro ⟨a, h⟩
    exact exists_spelled h
  · rintro ⟨items, h⟩
    exact ⟨_, readWords_spelled h .empty⟩
  · intro items a h ha
    obtain rfl := Except.ok.inj ((readWords_spelled h .empty).symm.trans ha)
    refine ⟨fun name => ?_, fun name => ?_, ?_⟩
    · simp [Arguments.mem_flags_takeAll, Arguments.empty]
    · rw [Arguments.named?_takeAll]
      exact Option.or_none
    · simp [Arguments.positional_takeAll, Arguments.empty]
  · intro front items letters c rest back hfront hletters hc
    rw [readWords_reads hfront, readWords_reads hfront, readWords_letters hletters hc]

/-- A cluster whose last letter takes a word that looks like a number, a number that is an operand, an
empty value, and the end of options. -/
theorem cluster_then_long_then_end :
    let s : Schema := ⟨"list", "", [.switch "all" "" ["-a", "--all"], .switch "long" "" ["-l"],
      .optional "lines" "int" none "" ["-n", "--lines"]], [], false⟩
    s.raw = false ∧
    ∃ a, readArguments s ["-aln", "-3", "-5", "--lines=", "--", "-l"] = .ok a ∧
      (∀ name, name ∈ a.flags ↔ name = "all" ∨ name = "long") ∧ a.named? "lines" = some "" ∧
      a.positional = ["-5", "-l"] ∧
      readArguments s ["-aln", "-3"] = readArguments s ["-a", "-l", "-n", "-3"] := by
  intro s
  have hspelled : s.Spelled ["-aln", "-3", "-5", "--lines=", "--", "-l"] [.switch "all",
      .switch "long", .setting "lines" "-3", .operand "-5", .setting "lines" "", .operand "-l"] := by
    have hletters : s.Switches ['a', 'l'] ["all", "long"] :=
      .cons ⟨_, rfl, rfl, rfl⟩ (.cons ⟨_, rfl, rfl, rfl⟩ .nil)
    have hcluster : s.Asks ["-aln", "-3"] [.switch "all", .switch "long", .setting "lines" "-3"] :=
      .lettersThenNext (c := 'n') ⟨'a', rfl, by decide⟩ hletters ⟨_, rfl, rfl, rfl⟩ "-3"
    have hlong : s.Asks ["--lines="] [.setting "lines" ""] :=
      @Schema.Asks.longWithValue s "lines".toList "lines" (by decide) ⟨_, rfl, rfl, rfl⟩ []
    have hnumber : IsOperand "-5" := .inr (.inr ⟨'5', [], rfl, rfl⟩)
    have hfront := Schema.Reads.option hcluster (.operand hnumber (.option hlong .nil))
    exact .inr ⟨_, _, ["-l"], hfront, rfl, rfl⟩
  obtain ⟨hiff, hmeans, hcluster⟩ :=
    readArguments_ok_iff_spelled s rfl ["-aln", "-3", "-5", "--lines=", "--", "-l"]
  obtain ⟨a, ha⟩ := hiff.mpr ⟨_, hspelled⟩
  obtain ⟨hflags, hnamed, hpositional⟩ := hmeans _ a hspelled ha
  refine ⟨rfl, a, ha, fun name => ?_, hnamed "lines", hpositional, ?_⟩
  · rw [hflags]
    simp
  · have hletters : ∀ d ∈ ['a', 'l'], s.Plain d :=
      List.forall_mem_cons.mpr ⟨by decide, List.forall_mem_singleton.mpr (by decide)⟩
    exact hcluster [] [] ['a', 'l'] 'n' [] ["-3"] .nil hletters (by decide)

end DesktopTerminal
