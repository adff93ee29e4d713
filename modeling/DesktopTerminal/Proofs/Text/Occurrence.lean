import DesktopTerminal.Proofs.Text
import DesktopTerminal.Text.Search

/-!
# Occurrences of a text

A search goes over the characters of a line. It finds a pattern exactly if the pattern occurs in the
line, the letters of ASCII taken as equal if case does not matter. In the UTF-8 form these are the
windows of as many bytes as the pattern has that begin and end between characters and agree with it
byte for byte; the bytes of characters outside ASCII are never letters.
-/
namespace DesktopTerminal.Text

/-- The character that stands for it in a comparison. -/
def folded (ignoreCase : Bool) (c : Char) : Char := if ignoreCase then c.toLower else c

/-- The pattern occurs in the line. -/
def Contains (ignoreCase : Bool) (pattern line : String) : Prop :=
  pattern.toList.map (folded ignoreCase) <:+: line.toList.map (folded ignoreCase)

instance (ignoreCase : Bool) (pattern line : String) : Decidable (Contains ignoreCase pattern line) :=
  inferInstanceAs (Decidable (_ <:+: _))

theorem sameChar_eq (ignoreCase : Bool) (c d : Char) :
    sameChar ignoreCase c d = (folded ignoreCase c == folded ignoreCase d) := by
  cases ignoreCase <;> rfl

theorem matchesAt_iff {ignoreCase : Bool} {needle cs : List Char} :
    matchesAt (sameChar ignoreCase) needle cs = true ↔
      needle.map (folded ignoreCase) <+: cs.map (folded ignoreCase) := by
  induction needle generalizing cs with
  | nil => simp [matchesAt]
  | cons n needle ih =>
    cases cs with
    | nil => simp [matchesAt]
    | cons c cs =>
      rw [matchesAt, Bool.and_eq_true_iff, ih, sameChar_eq, beq_iff_eq, List.map_cons, List.map_cons,
        List.cons_prefix_cons]

theorem isSome_beforeMatch?_iff {ignoreCase : Bool} {needle cs : List Char} :
    (beforeMatch? (sameChar ignoreCase) needle cs).isSome = true ↔
      needle.map (folded ignoreCase) <:+: cs.map (folded ignoreCase) := by
  induction cs with
  | nil =>
    rw [beforeMatch?]
    cases needle <;> simp
  | cons c cs ih =>
    rw [beforeMatch?, List.map_cons, List.infix_cons_iff, ← List.map_cons, ← matchesAt_iff, ← ih]
    cases matchesAt (sameChar ignoreCase) needle (c :: cs) <;> simp

theorem isSome_find?_iff {ignoreCase : Bool} {pattern line : String} :
    (find? line pattern ignoreCase).isSome = true ↔ Contains ignoreCase pattern line := by
  rw [find?, Option.isSome_map]
  exact isSome_beforeMatch?_iff

/-! ## Bytes -/

/-- The bytes of the UTF-8 form. -/
def bytes (cs : List Char) : List UInt8 := cs.flatMap String.utf8EncodeChar

/-- The byte that stands for it in a comparison: a capital letter of ASCII becomes a small one. -/
def foldedByte (ignoreCase : Bool) (b : UInt8) : UInt8 :=
  if ignoreCase ∧ 0x41 ≤ b ∧ b ≤ 0x5a then b + 0x20 else b

/-- The bytes of the line from `i` on are those of the pattern, and they begin and end between
characters. -/
structure ByteMatch (ignoreCase : Bool) (pattern line : String) (i : Nat) : Prop where
  starts : String.Pos.Raw.IsValid line ⟨i⟩
  stops : String.Pos.Raw.IsValid line ⟨i + size pattern.toList⟩
  same : (((bytes line.toList).drop i).take (size pattern.toList)).map (foldedByte ignoreCase) =
    (bytes pattern.toList).map (foldedByte ignoreCase)

@[simp] theorem bytes_nil : bytes [] = [] := rfl

@[simp] theorem bytes_append (cs ds : List Char) : bytes (cs ++ ds) = bytes cs ++ bytes ds :=
  List.flatMap_append

@[simp] theorem length_bytes (cs : List Char) : (bytes cs).length = size cs := by
  induction cs with
  | nil => rfl
  | cons c cs ih =>
    rw [bytes, List.flatMap_cons, List.length_append, String.length_utf8EncodeChar]
    exact congrArg (c.utf8Size + ·) ih

theorem bytes_inj {cs ds : List Char} : bytes cs = bytes ds ↔ cs = ds := by
  refine ⟨fun h => ?_, congrArg bytes⟩
  have hencoded : cs.utf8Encode = ds.utf8Encode := congrArg List.toByteArray h
  rw [← String.toByteArray_ofList, ← String.toByteArray_ofList, String.toByteArray_inj] at hencoded
  exact String.ofList_inj.mp hencoded

theorem foldedByte_of_le {ignoreCase : Bool} {b : UInt8} (h : 0x80 ≤ b) :
    foldedByte ignoreCase b = b := by
  rw [foldedByte, if_neg]
  rintro ⟨-, -, hsmall⟩
  exact absurd (UInt8.le_trans h hsmall) (by decide)

/-- All bytes of a character outside ASCII are outside ASCII. -/
theorem le_of_mem_utf8EncodeChar {c : Char} (hc : 128 ≤ c.toNat) {b : UInt8}
    (hb : b ∈ String.utf8EncodeChar c) : 0x80 ≤ b := by
  have hmark : ∀ a : UInt8, 0x80 ≤ a ||| 0x80 ∧ 0x80 ≤ a ||| 0xc0 ∧ 0x80 ≤ a ||| 0xe0 ∧
      0x80 ≤ a ||| 0xf0 := by
    intro a
    simp only [UInt8.le_iff_toNat_le, UInt8.toNat_or]
    refine ⟨?_, ?_, ?_, ?_⟩ <;> exact Nat.le_trans (by decide) Nat.right_le_or
  rcases c.utf8Size_eq with h | h | h | h
  · have hsmall := UInt32.le_iff_toNat_le.mp (Char.utf8Size_eq_one_iff.mp h)
    have htoNat : c.val.toNat = c.toNat := rfl
    have hbound : (127 : UInt32).toNat = 127 := rfl
    omega
  · rw [String.utf8EncodeChar_eq_cons_cons h] at hb
    rcases List.mem_pair.mp hb with rfl | rfl
    · exact (hmark _).2.1
    · exact (hmark _).1
  · rw [String.utf8EncodeChar_eq_cons_cons_cons h] at hb
    simp only [List.mem_cons, List.not_mem_nil, or_false] at hb
    rcases hb with rfl | rfl | rfl
    · exact (hmark _).2.2.1
    · exact (hmark _).1
    · exact (hmark _).1
  · rw [String.utf8EncodeChar_eq_cons_cons_cons_cons h] at hb
    simp only [List.mem_cons, List.not_mem_nil, or_false] at hb
    rcases hb with rfl | rfl | rfl | rfl
    · exact (hmark _).2.2.2
    · exact (hmark _).1
    · exact (hmark _).1
    · exact (hmark _).1

theorem folded_of_le (ignoreCase : Bool) {c : Char} (hc : 128 ≤ c.toNat) :
    folded ignoreCase c = c := by
  have hletter : ¬(c.val ≥ 'A'.val ∧ c.val ≤ 'Z'.val) := by
    rintro ⟨-, hsmall⟩
    have hle : c.toNat ≤ 'Z'.toNat := UInt32.le_iff_toNat_le.mp hsmall
    exact absurd (Nat.le_trans hc hle) (by decide)
  have hlower : c.toLower = c := dif_neg hletter
  rw [folded, hlower, ite_self]

/-- Comparing bytes is comparing characters. -/
theorem map_foldedByte_utf8EncodeChar (ignoreCase : Bool) (c : Char) :
    (String.utf8EncodeChar c).map (foldedByte ignoreCase) =
      String.utf8EncodeChar (folded ignoreCase c) := by
  by_cases hc : 128 ≤ c.toNat
  · rw [folded_of_le ignoreCase hc]
    calc (String.utf8EncodeChar c).map (foldedByte ignoreCase)
        = (String.utf8EncodeChar c).map id := List.map_congr_left fun b hb =>
          foldedByte_of_le (le_of_mem_utf8EncodeChar hc hb)
      _ = String.utf8EncodeChar c := List.map_id _
  · have hall : ∀ n < 128, (String.utf8EncodeChar (Char.ofNat n)).map (foldedByte ignoreCase) =
        String.utf8EncodeChar (folded ignoreCase (Char.ofNat n)) := by
      cases ignoreCase <;> decide +kernel
    have hfold := hall c.toNat (by omega)
    rwa [Char.ofNat_toNat] at hfold

theorem map_foldedByte_bytes (ignoreCase : Bool) (cs : List Char) :
    (bytes cs).map (foldedByte ignoreCase) = bytes (cs.map (folded ignoreCase)) := by
  rw [bytes, bytes, List.map_flatMap, List.flatMap_map]
  exact List.flatMap_congr fun c _ => map_foldedByte_utf8EncodeChar ignoreCase c

theorem eq_nil_of_size_eq_zero {cs : List Char} (h : size cs = 0) : cs = [] := by
  cases cs with
  | nil => rfl
  | cons c cs =>
    have hpos := c.utf8Size_pos
    rw [size_cons] at h
    omega

/-- Of two beginnings of a text the one with fewer bytes comes first. -/
theorem prefix_of_size_le {front more cs : List Char} (hfront : front <+: cs) (hmore : more <+: cs)
    (h : size front ≤ size more) : front <+: more := by
  rcases List.prefix_or_prefix_of_prefix hfront hmore with hle | ⟨rest, rfl⟩
  · exact hle
  · rw [size_append] at h
    have hrest : rest = [] := eq_nil_of_size_eq_zero (by omega)
    exact ⟨[], by simp [hrest]⟩

theorem isValid_iff {s : String} {i : Nat} :
    String.Pos.Raw.IsValid s ⟨i⟩ ↔ ∃ front, front <+: s.toList ∧ size front = i := by
  rw [String.Pos.Raw.isValid_iff_exists_append]
  constructor
  · rintro ⟨front, rest, rfl, hi⟩
    refine ⟨front.toList, by simp, ?_⟩
    rw [← utf8ByteSize_eq_size]
    exact (congrArg String.Pos.Raw.byteIdx hi).symm
  · rintro ⟨front, ⟨rest, hrest⟩, rfl⟩
    refine ⟨String.ofList front, String.ofList rest, ?_, ?_⟩
    · rw [← String.ofList_append, hrest, String.ofList_toList]
    · apply String.Pos.Raw.ext
      rw [String.byteIdx_rawEndPos, utf8ByteSize_eq_size, String.toList_ofList]

/-- A match of bytes is an occurrence behind `i` bytes. -/
theorem byteMatch_iff {ignoreCase : Bool} {pattern line : String} {i : Nat} :
    ByteMatch ignoreCase pattern line i ↔ ∃ front found rest : List Char,
      line.toList = front ++ (found ++ rest) ∧ size front = i ∧
        found.map (folded ignoreCase) = pattern.toList.map (folded ignoreCase) := by
  constructor
  · rintro ⟨hstarts, hstops, hsame⟩
    obtain ⟨front, hfront, rfl⟩ := isValid_iff.mp hstarts
    obtain ⟨more, hmore, hsize⟩ := isValid_iff.mp hstops
    obtain ⟨found, rfl⟩ := prefix_of_size_le hfront hmore (by omega)
    obtain ⟨rest, hrest⟩ := hmore
    rw [size_append] at hsize
    have hlength : (bytes found).length = size pattern.toList := by
      rw [length_bytes]
      omega
    refine ⟨front, found, rest, by rw [← hrest, List.append_assoc], rfl, bytes_inj.mp ?_⟩
    rw [← hrest, List.append_assoc, bytes_append, bytes_append, ← length_bytes front,
      List.drop_left, ← hlength, List.take_left] at hsame
    rw [← map_foldedByte_bytes, ← map_foldedByte_bytes, hsame]
  · rintro ⟨front, found, rest, hline, rfl, hfound⟩
    have hbytes : (bytes found).map (foldedByte ignoreCase) =
        (bytes pattern.toList).map (foldedByte ignoreCase) := by
      rw [map_foldedByte_bytes, map_foldedByte_bytes, hfound]
    have hlength : size found = size pattern.toList := by
      simpa using congrArg List.length hbytes
    refine ⟨isValid_iff.mpr ⟨front, ⟨found ++ rest, hline.symm⟩, rfl⟩,
      isValid_iff.mpr ⟨front ++ found, ⟨rest, ?_⟩, ?_⟩, ?_⟩
    · rw [hline, List.append_assoc]
    · rw [size_append, hlength]
    · rw [hline, bytes_append, bytes_append, ← length_bytes front, List.drop_left, ← hlength,
        ← length_bytes found, List.take_left, hbytes]

/-- A pattern occurs in a line exactly if its bytes do, between characters. -/
theorem contains_iff_exists_byteMatch {ignoreCase : Bool} {pattern line : String} :
    Contains ignoreCase pattern line ↔ ∃ i, ByteMatch ignoreCase pattern line i := by
  simp only [byteMatch_iff]
  constructor
  · intro h
    obtain ⟨found, ⟨front, rest, hline⟩, hfound⟩ := List.infix_map_iff.mp h
    exact ⟨size front, front, found, rest, by rw [← hline, List.append_assoc], rfl, hfound.symm⟩
  · rintro ⟨i, front, found, rest, hline, -, hfound⟩
    refine List.infix_map_iff.mpr ⟨found, ⟨front, rest, ?_⟩, hfound.symm⟩
    rw [hline, List.append_assoc]

end DesktopTerminal.Text
