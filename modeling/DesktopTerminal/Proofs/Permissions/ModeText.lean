import DesktopTerminal.Permissions
import DesktopTerminal.Proofs.Text
import Mathlib.Data.List.Forall2
import Mathlib.Tactic.IntervalCases
import Mathlib.Tactic.SplitIfs

/-!
# Mode texts

A mode text is three octal digits or a list of clauses. It is given here as it is written, with what it
makes of the bit of each class and access; the reader accepts these texts and no others, and the masks
it works with do to the nine bits what the text says. Each bit is left alone or set to a value that the
text alone decides, so that a mode text does nothing more the second time.
-/
namespace DesktopTerminal

/-- Whose bits a class letter names. -/
inductive UserClass where
  | user
  | group
  | others
deriving DecidableEq, Repr

inductive Access where
  | read
  | write
  | execute
deriving DecidableEq, Repr

namespace UserClass

def letter : UserClass → Char
  | .user => 'u'
  | .group => 'g'
  | .others => 'o'

/-- How many classes have higher bits. -/
def rank : UserClass → Nat
  | .user => 0
  | .group => 1
  | .others => 2

/-- A class is named by its letter and by the letter for all. -/
def namedBy (who : UserClass) (c : Char) : Bool := c == who.letter || c == 'a'

end UserClass

namespace Access

def letter : Access → Char
  | .read => 'r'
  | .write => 'w'
  | .execute => 'x'

def rank : Access → Nat
  | .read => 0
  | .write => 1
  | .execute => 2

end Access

/-- Whether a class has an access. -/
def Mode.has (m : Mode) (who : UserClass) (access : Access) : Bool :=
  m.getMsbD (3 * who.rank + access.rank)

/-- A mode is nothing but its nine bits. -/
theorem Mode.ext_has {m n : Mode} (h : ∀ who access, m.has who access = n.has who access) :
    m = n := by
  refine BitVec.eq_of_getMsbD_eq fun i hi => ?_
  interval_cases i
  · exact h .user .read
  · exact h .user .write
  · exact h .user .execute
  · exact h .group .read
  · exact h .group .write
  · exact h .group .execute
  · exact h .others .read
  · exact h .others .write
  · exact h .others .execute

theorem Mode.place_lt (who : UserClass) (access : Access) : 3 * who.rank + access.rank < 9 := by
  cases who <;> cases access <;> decide

namespace Mode

variable (m n : Mode) (who : UserClass) (access : Access)

@[simp] theorem has_zero : has 0#9 who access = false := BitVec.getMsbD_zero

@[simp] theorem has_full : has 0o777#9 who access = true := by
  cases who <;> cases access <;> rfl

@[simp] theorem has_or : (m ||| n).has who access = (m.has who access || n.has who access) :=
  BitVec.getMsbD_or

@[simp] theorem has_and : (m &&& n).has who access = (m.has who access && n.has who access) :=
  BitVec.getMsbD_and

@[simp] theorem has_not : (~~~m).has who access = !m.has who access := by
  simp [has, place_lt]

end Mode

/-- A clause as it is written: class letters, an operator, access letters. -/
structure SpelledClause where
  classes : List Char
  operator : ModeOperator
  accesses : List Char
  classes_mem : ∀ c ∈ classes, c ∈ ['u', 'g', 'o', 'a']
  accesses_mem : ∀ c ∈ accesses, c ∈ ['r', 'w', 'x']

def ModeOperator.sign : ModeOperator → Char
  | .add => '+'
  | .remove => '-'
  | .assign => '='

namespace SpelledClause

def text (k : SpelledClause) : List Char := k.classes ++ k.operator.sign :: k.accesses

/-- Without a class letter all classes are meant. -/
def names (k : SpelledClause) (who : UserClass) : Bool :=
  k.classes.isEmpty || k.classes.any who.namedBy

def grants (k : SpelledClause) (access : Access) : Bool := k.accesses.contains access.letter

/-- What the clause makes of the bit of a class and an access. -/
def bitAfter (k : SpelledClause) (who : UserClass) (access : Access) (before : Bool) : Bool :=
  if k.names who then
    match k.operator with
    | .add => k.grants access || before
    | .remove => !k.grants access && before
    | .assign => k.grants access
  else before

end SpelledClause

/-- A mode text: three octal digits, or clauses with commas between them. -/
inductive ModeText where
  | octal (digit : UserClass → Fin 8)
  | symbolic (first : SpelledClause) (rest : List SpelledClause)

namespace ModeText

/-- Three digits, for the user, the group and others. -/
def octalDigits (digit : UserClass → Fin 8) : List Char :=
  [UserClass.user, .group, .others].map fun who => Nat.digitChar (digit who)

def text : ModeText → String
  | .octal digit => String.ofList (octalDigits digit)
  | .symbolic first rest =>
    Text.joinWith "," ((first :: rest).map fun k => String.ofList k.text)

/-- What the mode text makes of the bit of a class and an access. -/
def bitAfter (t : ModeText) (who : UserClass) (access : Access) (before : Bool) : Bool :=
  match t with
  | .octal digit => (digit who).val.testBit (2 - access.rank)
  | .symbolic first rest => (first :: rest).foldl (fun b k => k.bitAfter who access b) before

end ModeText

/-! ## Letters -/

namespace ModeOperator

@[simp] theorem ofChar?_sign (o : ModeOperator) : ofChar? o.sign = some o := by cases o <;> rfl

theorem eq_sign_of_ofChar? {c : Char} {o : ModeOperator} (h : ofChar? c = some o) : c = o.sign := by
  rw [ofChar?] at h
  split_ifs at h with hadd hremove hassign
  · exact Option.some.inj h ▸ hadd
  · exact Option.some.inj h ▸ hremove
  · exact Option.some.inj h ▸ hassign

end ModeOperator

namespace ModeClause

/-- A mask that is read off a letter has the bits that the letter names. -/
structure Masks (mask? : Char → Option Mode) (letters : List Char)
    (named : UserClass → Access → Char → Bool) : Prop where
  isSome_iff : ∀ c, (mask? c).isSome ↔ c ∈ letters
  has : ∀ {c m}, mask? c = some m → ∀ who access, m.has who access = named who access c

theorem masks_classMask? :
    Masks classMask? ['u', 'g', 'o', 'a'] fun who _ c => who.namedBy c where
  isSome_iff c := by
    rw [classMask?]
    split_ifs <;> simp_all
  has := by
    intro c m h who access
    rw [classMask?] at h
    split_ifs at h <;> subst_vars <;> cases h <;> cases who <;> cases access <;> rfl

theorem masks_permissionMask? :
    Masks permissionMask? ['r', 'w', 'x'] fun _ access c => c == access.letter where
  isSome_iff c := by
    rw [permissionMask?]
    split_ifs <;> simp_all
  has := by
    intro c m h who access
    rw [permissionMask?] at h
    split_ifs at h <;> subst_vars <;> cases h <;> cases who <;> cases access <;> rfl

section Union

variable {mask? : Char → Option Mode} {letters : List Char}
  {named : UserClass → Access → Char → Bool} (hmask : Masks mask? letters named)
include hmask

/-- There is a union just if there is a mask for each letter. -/
theorem Masks.union?_isSome_iff {cs : List Char} :
    (union? mask? cs).isSome ↔ ∀ c ∈ cs, c ∈ letters := by
  induction cs with
  | nil => simp [union?]
  | cons c cs ih =>
    rw [List.forall_mem_cons, ← ih, ← hmask.isSome_iff c, union?]
    cases mask? c <;> simp

theorem Masks.has_union? {cs : List Char} {m : Mode} (h : union? mask? cs = some m)
    (who : UserClass) (access : Access) : m.has who access = cs.any (named who access) := by
  induction cs generalizing m with
  | nil =>
    obtain rfl := Option.some.inj h
    exact BitVec.getMsbD_zero
  | cons c cs ih =>
    obtain ⟨first, hfirst, h⟩ := Option.bind_eq_some_iff.mp h
    obtain ⟨others, hothers, rfl⟩ := Option.map_eq_some_iff.mp h
    rw [List.any_cons, ← hmask.has hfirst who access, ← ih hothers]
    exact BitVec.getMsbD_or

end Union

/-! ## Clauses -/

/-- A clause has the bits that its spelling names and grants. -/
structure Carries (clause : ModeClause) (k : SpelledClause) : Prop where
  operator : clause.operator = k.operator
  classes : ∀ who access, clause.classes.has who access = k.names who
  granted : ∀ who access, clause.granted.has who access = k.grants access

theorem isNone_ofChar?_of_class {c : Char} (h : c ∈ ['u', 'g', 'o', 'a']) :
    (ModeOperator.ofChar? c).isNone = true := by
  simp only [List.mem_cons, List.not_mem_nil, or_false] at h
  rcases h with rfl | rfl | rfl | rfl <;> rfl

/-- A clause is read as what it was spelled for. -/
theorem exists_parse?_text (k : SpelledClause) :
    ∃ clause, parse? k.text = some clause ∧ clause.Carries k := by
  have hnamed : ∀ c ∈ k.classes, (ModeOperator.ofChar? c).isNone = true := fun c hc =>
    isNone_ofChar?_of_class (k.classes_mem c hc)
  have hdrop : k.text.dropWhile (fun c => (ModeOperator.ofChar? c).isNone) =
      k.operator.sign :: k.accesses := by
    rw [SpelledClause.text, List.dropWhile_append_of_pos hnamed,
      List.dropWhile_cons_of_neg (by simp)]
  have htake : k.text.takeWhile (fun c => (ModeOperator.ofChar? c).isNone) = k.classes := by
    rw [SpelledClause.text, List.takeWhile_append_of_pos hnamed,
      List.takeWhile_cons_of_neg (by simp), List.append_nil]
  obtain ⟨classes, hclasses⟩ := Option.isSome_iff_exists.mp
    (masks_classMask?.union?_isSome_iff.mpr k.classes_mem)
  obtain ⟨granted, hgranted⟩ := Option.isSome_iff_exists.mp
    (masks_permissionMask?.union?_isSome_iff.mpr k.accesses_mem)
  refine ⟨⟨if k.classes.isEmpty then 0o777#9 else classes, k.operator, granted⟩, ?_, rfl, ?_, ?_⟩
  · simp only [parse?, hdrop, htake, ModeOperator.ofChar?_sign, hclasses, hgranted]
    rfl
  · intro who access
    rw [SpelledClause.names, ← masks_classMask?.has_union? hclasses who access]
    cases k.classes.isEmpty <;> simp
  · intro who access
    rw [SpelledClause.grants, masks_permissionMask?.has_union? hgranted who access,
      List.contains_eq_any_beq]
    simp only [BEq.comm]

/-- Nothing else is read as a clause. -/
theorem exists_text_of_parse? {cs : List Char} {clause : ModeClause} (h : parse? cs = some clause) :
    ∃ k : SpelledClause, k.text = cs := by
  have hcs := @List.takeWhile_append_dropWhile _ (fun c => (ModeOperator.ofChar? c).isNone) cs
  rw [parse?] at h
  split at h
  next => cases h
  next sign granted hdrop =>
    obtain ⟨operator, hoperator, h⟩ := Option.bind_eq_some_iff.mp h
    obtain ⟨classes, hclasses, h⟩ := Option.bind_eq_some_iff.mp h
    obtain ⟨accesses, haccesses, h⟩ := Option.bind_eq_some_iff.mp h
    refine ⟨⟨_, operator, granted,
      masks_classMask?.union?_isSome_iff.mp (Option.isSome_of_eq_some hclasses),
      masks_permissionMask?.union?_isSome_iff.mp (Option.isSome_of_eq_some haccesses)⟩, ?_⟩
    rw [SpelledClause.text, ← ModeOperator.eq_sign_of_ofChar? hoperator, ← hdrop]
    exact hcs

/-- A clause does to each bit what its spelling says. -/
theorem Carries.has_apply {clause : ModeClause} {k : SpelledClause} (h : clause.Carries k) (m : Mode)
    (who : UserClass) (access : Access) :
    (clause.apply m).has who access = k.bitAfter who access (m.has who access) := by
  rw [apply, SpelledClause.bitAfter, ← h.operator]
  cases clause.operator <;> cases hnames : k.names who <;>
    simp [h.classes, h.granted, hnames, Bool.or_comm, Bool.and_comm]

theorem comma_not_mem_text (k : SpelledClause) : ',' ∉ k.text := by
  have hclass : ∀ c ∈ ['u', 'g', 'o', 'a'], c ≠ ',' := by simp
  have haccess : ∀ c ∈ ['r', 'w', 'x'], c ≠ ',' := by simp
  have hsign : ',' ≠ k.operator.sign := by cases k.operator <;> decide
  rw [SpelledClause.text, List.mem_append, List.mem_cons]
  rintro (h | h | h)
  · exact hclass _ (k.classes_mem _ h) rfl
  · exact hsign h
  · exact haccess _ (k.accesses_mem _ h) rfl

/-- Clauses one after another are read one by one. -/
theorem exists_mapM_parse? (ks : List SpelledClause) :
    ∃ clauses, (ks.map SpelledClause.text).mapM parse? = some clauses ∧
      List.Forall₂ Carries clauses ks := by
  induction ks with
  | nil => exact ⟨[], rfl, .nil⟩
  | cons k ks ih =>
    obtain ⟨clause, hclause, hk⟩ := exists_parse?_text k
    obtain ⟨clauses, hclauses, hks⟩ := ih
    exact ⟨clause :: clauses, by simp [hclause, hclauses], .cons hk hks⟩

theorem exists_texts_of_mapM_parse? {pieces : List (List Char)} {clauses : List ModeClause}
    (h : pieces.mapM parse? = some clauses) :
    ∃ ks : List SpelledClause, ks.map SpelledClause.text = pieces := by
  induction pieces generalizing clauses with
  | nil => exact ⟨[], rfl⟩
  | cons piece pieces ih =>
    rw [List.mapM_cons] at h
    obtain ⟨clause, hclause, h⟩ := Option.bind_eq_some_iff.mp h
    obtain ⟨clauses, hclauses, _⟩ := Option.bind_eq_some_iff.mp h
    obtain ⟨k, rfl⟩ := exists_text_of_parse? hclause
    obtain ⟨ks, rfl⟩ := ih hclauses
    exact ⟨k :: ks, rfl⟩

/-- What clauses do to a bit one after another. -/
theorem has_foldl_apply {clauses : List ModeClause} {ks : List SpelledClause}
    (h : List.Forall₂ Carries clauses ks) (m : Mode) (who : UserClass) (access : Access) :
    (clauses.foldl (fun m clause => clause.apply m) m).has who access =
      ks.foldl (fun b k => k.bitAfter who access b) (m.has who access) := by
  induction h generalizing m with
  | nil => rfl
  | cons hk _ ih => rw [List.foldl_cons, List.foldl_cons, ih, hk.has_apply]

end ModeClause

/-! ## Mode texts -/

namespace ModeChange

theorem octalDigit?_digitChar : ∀ d : Fin 8, octalDigit? (Nat.digitChar d) = some d.val := by
  decide

theorem exists_digit_of_octalDigit? {c : Char} {d : Nat} (h : octalDigit? c = some d) :
    ∃ digit : Fin 8, c = Nat.digitChar digit := by
  obtain ⟨n, hn, h⟩ := Option.bind_eq_some_iff.mp h
  rw [Text.digitValue?] at hn
  split_ifs at hn h with hdigit hlt
  obtain rfl := Option.some.inj hn
  have hzero : '0'.toNat ≤ c.toNat := (Char.isDigit_iff_toNat.mp hdigit).1
  refine ⟨⟨c.toNat - '0'.toNat, hlt⟩, Char.toNat_inj.mp ?_⟩
  rw [Nat.toNat_digitChar_of_lt_ten (by omega)]
  exact (Nat.add_sub_cancel' hzero).symm

/-- The mode that three octal digits stand for. -/
def ofDigits (digit : UserClass → Fin 8) : Mode :=
  BitVec.ofNat 9 (64 * (digit .user).val + 8 * (digit .group).val + (digit .others).val)

theorem octal?_octalDigits (digit : UserClass → Fin 8) :
    octal? (ModeText.octalDigits digit) = some (ofDigits digit) := by
  simp only [ModeText.octalDigits, List.map_cons, List.map_nil, octal?, octalDigit?_digitChar]
  rfl

/-- Nothing but three octal digits is read as such. -/
theorem exists_digits_of_octal? {cs : List Char} {m : Mode} (h : octal? cs = some m) :
    ∃ digit, cs = ModeText.octalDigits digit := by
  rw [octal?.eq_def] at h
  split at h
  next a b c =>
    obtain ⟨_, ha, h⟩ := Option.bind_eq_some_iff.mp h
    obtain ⟨_, hb, h⟩ := Option.bind_eq_some_iff.mp h
    obtain ⟨_, hc, _⟩ := Option.bind_eq_some_iff.mp h
    obtain ⟨u, rfl⟩ := exists_digit_of_octalDigit? ha
    obtain ⟨g, rfl⟩ := exists_digit_of_octalDigit? hb
    obtain ⟨o, rfl⟩ := exists_digit_of_octalDigit? hc
    refine ⟨fun who => match who with
      | .user => u
      | .group => g
      | .others => o, rfl⟩
  next => cases h

/-- The bits of a digit are those of its class, and the first of them is to read. -/
theorem has_ofDigits (digit : UserClass → Fin 8) (who : UserClass) (access : Access) :
    (ofDigits digit).has who access = (digit who).val.testBit (2 - access.rank) := by
  have hall : ∀ u g o : Fin 8, Mode.has (BitVec.ofNat 9 (64 * u.val + 8 * g.val + o.val)) who access =
      (match who with
        | .user => u
        | .group => g
        | .others => o).val.testBit (2 - access.rank) := by
    cases who <;> cases access <;> decide +kernel
  have hdigits := hall (digit .user) (digit .group) (digit .others)
  cases who <;> exact hdigits

theorem cut_symbolic (first : SpelledClause) (rest : List SpelledClause) :
    Text.cut (· == ',') (ModeText.symbolic first rest).text.toList =
      (first :: rest).map SpelledClause.text := by
  have hcut := @Text.splitAt_joinWith ',' ((first :: rest).map fun k => String.ofList k.text)
    (by simp) fun piece hpiece => by
      obtain ⟨k, _, rfl⟩ := List.mem_map.mp hpiece
      rw [String.toList_ofList]
      exact ModeClause.comma_not_mem_text k
  refine List.map_injective_iff.mpr (fun _ _ h => String.ofList_injective h) ?_
  rw [List.map_map]
  exact hcut

/-- An operator is no digit. -/
theorem octal?_symbolic (first : SpelledClause) (rest : List SpelledClause) :
    octal? (ModeText.symbolic first rest).text.toList = none := by
  have hsign : first.operator.sign ∈ (ModeText.symbolic first rest).text.toList := by
    cases rest <;> simp [ModeText.text, Text.joinWith, SpelledClause.text]
  have hdigit : ∀ digit : Fin 8, first.operator.sign ≠ Nat.digitChar digit := by
    cases first.operator <;> decide
  refine Option.eq_none_iff_forall_not_mem.mpr fun m hm => ?_
  obtain ⟨digit, hdigits⟩ := exists_digits_of_octal? hm
  rw [hdigits] at hsign
  simp [ModeText.octalDigits, hdigit] at hsign

/-- Each mode text is read, and as what it means. -/
theorem exists_parse?_text (t : ModeText) : ∃ change, parse? t.text = some change ∧
    ∀ (m : Mode) (who : UserClass) (access : Access),
      (change.apply m).has who access = t.bitAfter who access (m.has who access) := by
  cases t with
  | octal digit =>
    refine ⟨.exact (ofDigits digit), ?_, fun m who access => has_ofDigits digit who access⟩
    rw [parse?, ModeText.text, String.toList_ofList, octal?_octalDigits]
  | symbolic first rest =>
    obtain ⟨clauses, hclauses, hcarries⟩ := ModeClause.exists_mapM_parse? (first :: rest)
    refine ⟨.clauses clauses, ?_, ModeClause.has_foldl_apply hcarries⟩
    rw [parse?, octal?_symbolic, cut_symbolic, hclauses]
    rfl

/-- Nothing but mode texts is read. -/
theorem exists_text_of_parse? {s : String} {change : ModeChange} (h : parse? s = some change) :
    ∃ t : ModeText, t.text = s := by
  rw [parse?] at h
  split at h
  next m hoctal =>
    obtain ⟨digit, hs⟩ := exists_digits_of_octal? hoctal
    exact ⟨.octal digit, String.toList_inj.mp (String.toList_ofList.trans hs.symm)⟩
  next =>
    obtain ⟨clauses, hclauses, _⟩ := Option.map_eq_some_iff.mp h
    obtain ⟨ks, hks⟩ := ModeClause.exists_texts_of_mapM_parse? hclauses
    have hpieces : ks.map (fun k => String.ofList k.text) = Text.splitAt ',' s := by
      rw [Text.splitAt, ← hks, List.map_map]
      rfl
    cases ks with
    | nil => exact absurd hpieces.symm (Text.splitAt_ne_nil ',' s)
    | cons first rest =>
      refine ⟨.symbolic first rest, ?_⟩
      rw [ModeText.text, hpieces]
      exact Text.joinWith_splitAt ',' s

theorem parse?_isSome_iff {s : String} : (parse? s).isSome ↔ ∃ t : ModeText, t.text = s := by
  constructor
  · intro h
    obtain ⟨change, hchange⟩ := Option.isSome_iff_exists.mp h
    exact exists_text_of_parse? hchange
  · rintro ⟨t, rfl⟩
    obtain ⟨change, hchange, _⟩ := exists_parse?_text t
    exact Option.isSome_of_eq_some hchange

end ModeChange

/-! ## Twice -/

/-- A bit is left as it is, or set to what it does not depend on. -/
def KeepsOrSets (f : Bool → Bool) : Prop := (∀ b, f b = b) ∨ ∃ v, ∀ b, f b = v

theorem SpelledClause.keepsOrSets (k : SpelledClause) (who : UserClass) (access : Access) :
    KeepsOrSets (k.bitAfter who access) := by
  unfold bitAfter
  cases k.names who with
  | false => exact .inl fun b => rfl
  | true =>
    cases k.operator <;> cases k.grants access
    · exact .inl fun b => rfl
    · exact .inr ⟨true, fun b => rfl⟩
    · exact .inl fun b => rfl
    · exact .inr ⟨false, fun b => rfl⟩
    · exact .inr ⟨false, fun b => rfl⟩
    · exact .inr ⟨true, fun b => rfl⟩

theorem KeepsOrSets.comp {f g : Bool → Bool} (hf : KeepsOrSets f) (hg : KeepsOrSets g) :
    KeepsOrSets fun b => g (f b) := by
  rcases hg with hg | ⟨v, hg⟩
  · simpa only [hg] using hf
  · exact .inr ⟨v, fun b => hg (f b)⟩

theorem ModeText.keepsOrSets (t : ModeText) (who : UserClass) (access : Access) :
    KeepsOrSets (t.bitAfter who access) := by
  cases t with
  | octal digit => exact .inr ⟨_, fun b => rfl⟩
  | symbolic first rest =>
    change KeepsOrSets fun b => (first :: rest).foldl (fun b k => k.bitAfter who access b) b
    induction first :: rest with
    | nil => exact .inl fun b => rfl
    | cons k ks ih => exact (k.keepsOrSets who access).comp ih

theorem KeepsOrSets.twice {f : Bool → Bool} (h : KeepsOrSets f) (b : Bool) : f (f b) = f b := by
  rcases h with h | ⟨v, h⟩
  · rw [h]
  · rw [h, h]

/-! ## Wider words -/

/-- A clause carried out in a word of sixteen bits. -/
def ModeClause.applyWide (clause : ModeClause) (word : BitVec 16) : BitVec 16 :=
  let classes := clause.classes.setWidth 16
  let selected := (clause.granted &&& clause.classes).setWidth 16
  match clause.operator with
  | .add => word ||| selected
  | .remove => word &&& ~~~selected
  | .assign => word &&& ~~~classes ||| selected

def ModeChange.applyWide : ModeChange → BitVec 16 → BitVec 16
  | .exact mode, _ => mode.setWidth 16
  | .clauses cs, word => cs.foldl (fun word clause => clause.applyWide word) word

theorem setWidth_and_not (m n : Mode) :
    m.setWidth 16 &&& ~~~n.setWidth 16 = (m &&& ~~~n).setWidth 16 := by
  ext i hi
  by_cases h : i < 9
  · simp [h]
  · simp [BitVec.getLsbD_of_ge m i (Nat.le_of_not_lt h)]

/-- The bits above the nine stay clear. -/
theorem ModeClause.applyWide_setWidth (clause : ModeClause) (m : Mode) :
    clause.applyWide (m.setWidth 16) = (clause.apply m).setWidth 16 := by
  rw [applyWide, apply]
  cases clause.operator with
  | add => exact BitVec.setWidth_or.symm
  | remove => exact setWidth_and_not _ _
  | assign =>
    simp only [setWidth_and_not]
    exact BitVec.setWidth_or.symm

theorem ModeChange.applyWide_setWidth (change : ModeChange) (m : Mode) :
    change.applyWide (m.setWidth 16) = (change.apply m).setWidth 16 := by
  cases change with
  | exact mode => rfl
  | clauses cs =>
    rw [applyWide, apply]
    induction cs generalizing m with
    | nil => rfl
    | cons clause cs ih => rw [List.foldl_cons, List.foldl_cons, clause.applyWide_setWidth, ih]

end DesktopTerminal
