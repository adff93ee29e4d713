import DesktopTerminal.Proofs.Text.Occurrence

/-!
# Where a search finds

A search over characters finds the first window of bytes that agrees with the pattern. It does not
matter whether windows that begin or end inside a character are looked at, since in UTF-8 the first
byte of a character is never one inside another character.
-/
namespace DesktopTerminal.Text

variable {ignoreCase : Bool} {pattern line : String} {i j : Nat}

/-- The bytes of the line from `i` on are those of the pattern, wherever they begin and end. -/
structure RawMatch (ignoreCase : Bool) (pattern line : String) (i : Nat) : Prop where
  fits : i + size pattern.toList ≤ size line.toList
  same : (((bytes line.toList).drop i).take (size pattern.toList)).map (foldedByte ignoreCase) =
    (bytes pattern.toList).map (foldedByte ignoreCase)

/-- The text with the capital letters of ASCII as small ones. -/
def foldText (s : String) : String := String.ofList (s.toList.map (folded true))

/-! ## First bytes -/

@[simp] theorem bytes_cons (c : Char) (cs : List Char) :
    bytes (c :: cs) = String.utf8EncodeChar c ++ bytes cs := rfl

/-- A text begins another one if its bytes do, for no character begins with all the bytes of a
different one. -/
theorem prefix_of_prefix_bytes {cs ds : List Char} (h : bytes cs <+: bytes ds) : cs <+: ds := by
  induction cs generalizing ds with
  | nil => exact List.nil_prefix
  | cons c cs ih =>
    obtain ⟨rest, hrest⟩ := h
    cases ds with
    | nil =>
      have hsize := congrArg List.length hrest
      have hpos := c.utf8Size_pos
      simp only [List.length_append, length_bytes, size_cons, size_nil] at hsize
      omega
    | cons d ds =>
      rw [bytes_cons, bytes_cons, List.append_assoc] at hrest
      have hdecode := congrArg (fun bs => ByteArray.utf8DecodeChar? (List.toByteArray bs) 0) hrest
      simp only [List.toByteArray_append, ByteArray.utf8DecodeChar?_utf8EncodeChar_append] at hdecode
      obtain rfl := Option.some.inj hdecode
      exact List.cons_prefix_cons.mpr ⟨rfl, ih ⟨rest, List.append_cancel_left hrest⟩⟩

/-- A character begins at every byte that is the first one of a character. -/
theorem isValid_of_isUTF8FirstByte {s : String} {front rest : List UInt8} {b : UInt8}
    (hs : bytes s.toList = front ++ b :: rest) (hb : b.IsUTF8FirstByte) :
    String.Pos.Raw.IsValid s ⟨front.length⟩ := by
  have hbytes : s.toByteArray = (front ++ b :: rest).toByteArray := by
    rw [← String.utf8Encode_toList, ← hs]
    rfl
  have hlength : front.length < s.utf8ByteSize := by
    have hsize := congrArg List.length hs
    rw [length_bytes, List.length_append, List.length_cons] at hsize
    rw [utf8ByteSize_eq_size, hsize]
    omega
  refine String.Pos.Raw.isValid_iff_isUTF8FirstByte.mpr (.inr ⟨hlength, ?_⟩)
  simp only [String.getUTF8Byte_eq_getElem, hbytes, List.getElem_toByteArray]
  simpa using hb

theorem isUTF8FirstByte_foldedByte (ignoreCase : Bool) (b : UInt8) :
    (foldedByte ignoreCase b).IsUTF8FirstByte ↔ b.IsUTF8FirstByte := by
  have hall : ∀ n < 256, (foldedByte ignoreCase (UInt8.ofNat n)).IsUTF8FirstByte ↔
      (UInt8.ofNat n).IsUTF8FirstByte := by
    cases ignoreCase <;> decide +kernel
  have hb := hall b.toNat b.toNat_lt
  rwa [UInt8.ofNat_toNat] at hb

theorem exists_isUTF8FirstByte (c : Char) :
    ∃ b bs, String.utf8EncodeChar c = b :: bs ∧ b.IsUTF8FirstByte := by
  have hfirst := UInt8.isUTF8FirstByte_getElem_zero_utf8EncodeChar (c := c)
  cases hbytes : String.utf8EncodeChar c with
  | nil =>
    have hlength := String.length_utf8EncodeChar c
    rw [hbytes] at hlength
    exact absurd hlength.symm (Nat.ne_of_gt c.utf8Size_pos)
  | cons b bs =>
    simp only [hbytes, List.getElem_cons_zero] at hfirst
    exact ⟨b, bs, rfl, hfirst⟩

/-! ## Windows of bytes -/

theorem rawMatch_iff :
    RawMatch ignoreCase pattern line i ↔ i ≤ size line.toList ∧
      (bytes pattern.toList).map (foldedByte ignoreCase) <+:
        ((bytes line.toList).drop i).map (foldedByte ignoreCase) := by
  rw [List.prefix_iff_eq_take, ← List.map_take, List.length_map, length_bytes]
  constructor
  · rintro ⟨hfits, hsame⟩
    exact ⟨by omega, hsame.symm⟩
  · rintro ⟨hi, hsame⟩
    refine ⟨?_, hsame.symm⟩
    have hlength := congrArg List.length hsame
    simp only [List.length_map, List.length_take, List.length_drop, length_bytes] at hlength
    omega

theorem ByteMatch.rawMatch (h : ByteMatch ignoreCase pattern line i) :
    RawMatch ignoreCase pattern line i := by
  refine ⟨?_, h.same⟩
  obtain ⟨more, ⟨rest, hrest⟩, hsize⟩ := isValid_iff.mp h.stops
  rw [← hrest, size_append]
  omega

/-- A window that agrees with a pattern begins and ends between characters. -/
theorem RawMatch.byteMatch (h : RawMatch ignoreCase pattern line i) (hpattern : pattern ≠ "") :
    ByteMatch ignoreCase pattern line i := by
  obtain ⟨hi, hprefix⟩ := rawMatch_iff.mp h
  have hstarts : String.Pos.Raw.IsValid line ⟨i⟩ := by
    obtain ⟨p, ps, hp⟩ := List.exists_cons_of_ne_nil (mt String.toList_eq_nil_iff.mp hpattern)
    obtain ⟨b, bs, hb, hfirst⟩ := exists_isUTF8FirstByte p
    obtain ⟨more, hmore⟩ := hprefix
    rw [hp, bytes_cons, hb, List.cons_append, List.map_cons, List.cons_append] at hmore
    obtain ⟨a, rest, hdrop, hfold, -⟩ := List.map_eq_cons_iff.mp hmore.symm
    have hline : bytes line.toList = (bytes line.toList).take i ++ a :: rest := by
      rw [← hdrop, List.take_append_drop]
    have ha : a.IsUTF8FirstByte := by
      rwa [← isUTF8FirstByte_foldedByte ignoreCase, hfold, isUTF8FirstByte_foldedByte]
    have hlength : ((bytes line.toList).take i).length = i := by
      rw [List.length_take, length_bytes]
      omega
    exact hlength ▸ isValid_of_isUTF8FirstByte hline ha
  obtain ⟨front, ⟨rest, hrest⟩, rfl⟩ := isValid_iff.mp hstarts
  have hbytes : bytes (pattern.toList.map (folded ignoreCase)) <+:
      bytes (rest.map (folded ignoreCase)) := by
    rw [← hrest, bytes_append, ← length_bytes, List.drop_left, map_foldedByte_bytes,
      map_foldedByte_bytes] at hprefix
    exact hprefix
  obtain ⟨found, ⟨after, hafter⟩, hfound⟩ := List.prefix_map_iff.mp (prefix_of_prefix_bytes hbytes)
  refine byteMatch_iff.mpr ⟨front, found, after, ?_, rfl, hfound.symm⟩
  rw [hafter, hrest]

theorem rawMatch_append {front rest : List Char} (hline : line.toList = front ++ rest) :
    RawMatch ignoreCase pattern line (size front + j) ↔
      RawMatch ignoreCase pattern (String.ofList rest) j := by
  have hdrop : (bytes line.toList).drop (size front + j) = (bytes rest).drop j := by
    rw [hline, bytes_append, ← length_bytes front, ← List.drop_drop, List.drop_left]
  rw [rawMatch_iff, rawMatch_iff, hdrop, String.toList_ofList, hline, size_append,
    Nat.add_le_add_iff_left]

/-- Texts do not change their size when they are folded. -/
theorem size_map_folded (ignoreCase : Bool) (cs : List Char) :
    size (cs.map (folded ignoreCase)) = size cs := by
  rw [← length_bytes, ← map_foldedByte_bytes, List.length_map, length_bytes]

theorem toList_foldText (s : String) : (foldText s).toList = s.toList.map (folded true) :=
  String.toList_ofList

@[simp] theorem bytes_foldText (s : String) :
    bytes (foldText s).toList = (bytes s.toList).map (foldedByte true) := by
  rw [toList_foldText, map_foldedByte_bytes]

/-- Letters are compared without their case by comparing texts that have been folded. -/
theorem rawMatch_foldText :
    RawMatch false (foldText pattern) (foldText line) i ↔ RawMatch true pattern line i := by
  have hplain : foldedByte false = id := funext fun b => if_neg (by simp)
  have hsize : ∀ s : String, size (foldText s).toList = size s.toList := fun s => by
    rw [toList_foldText, size_map_folded]
  rw [rawMatch_iff, rawMatch_iff, hsize, bytes_foldText, bytes_foldText, hplain,
    List.map_id, List.map_id, List.map_drop]

/-! ## The first match -/

/-- What stands before the first match, and no match has less before it. -/
theorem beforeMatch?_spec {needle cs front : List Char}
    (h : beforeMatch? (sameChar ignoreCase) needle cs = some front) :
    (∃ rest, cs = front ++ rest ∧
      needle.map (folded ignoreCase) <+: rest.map (folded ignoreCase)) ∧
    ∀ other rest, cs = other ++ rest →
      needle.map (folded ignoreCase) <+: rest.map (folded ignoreCase) → size front ≤ size other := by
  induction cs generalizing front with
  | nil =>
    rw [beforeMatch?] at h
    split at h
    next hneedle =>
      cases h
      rw [List.isEmpty_iff.mp hneedle]
      exact ⟨⟨[], rfl, List.nil_prefix⟩, fun _ _ _ _ => Nat.zero_le _⟩
    next => cases h
  | cons c cs ih =>
    rw [beforeMatch?] at h
    split at h
    next hmatch =>
      cases h
      exact ⟨⟨c :: cs, rfl, matchesAt_iff.mp hmatch⟩, fun _ _ _ _ => Nat.zero_le _⟩
    next hmiss =>
      obtain ⟨front, hfront, rfl⟩ := Option.map_eq_some_iff.mp h
      obtain ⟨⟨rest, hrest, hneedle⟩, hleast⟩ := ih hfront
      refine ⟨⟨rest, congrArg (c :: ·) hrest, hneedle⟩, fun other rest hcs hother => ?_⟩
      cases other with
      | nil => exact absurd (matchesAt_iff.mpr (hcs ▸ hother)) hmiss
      | cons d other =>
        obtain ⟨rfl, htail⟩ := List.cons.inj hcs
        exact Nat.add_le_add_left (hleast other rest htail hother) _

theorem byteMatch_of_find? (h : find? line pattern ignoreCase = some i) :
    ByteMatch ignoreCase pattern line i ∧ ∀ j < i, ¬ByteMatch ignoreCase pattern line j := by
  obtain ⟨front, hfront, rfl⟩ := Option.map_eq_some_iff.mp h
  obtain ⟨⟨rest, hline, hneedle⟩, hleast⟩ := beforeMatch?_spec hfront
  obtain ⟨found, ⟨after, hafter⟩, hfound⟩ := List.prefix_map_iff.mp hneedle
  refine ⟨byteMatch_iff.mpr ⟨front, found, after, by rw [hafter, hline], rfl, hfound.symm⟩, ?_⟩
  intro j hj hmatch
  obtain ⟨other, found, after, hother, rfl, hsame⟩ := byteMatch_iff.mp hmatch
  have hle := hleast other (found ++ after) hother (by simp [← hsame])
  omega

/-- An empty pattern agrees with what stands before all characters. -/
theorem byteMatch_empty (ignoreCase : Bool) (line : String) : ByteMatch ignoreCase "" line 0 :=
  byteMatch_iff.mpr ⟨[], [], line.toList, rfl, rfl, rfl⟩

theorem exists_rawMatch_iff :
    (∃ i, RawMatch ignoreCase pattern line i) ↔ Contains ignoreCase pattern line := by
  rw [contains_iff_exists_byteMatch]
  refine ⟨?_, fun ⟨i, hi⟩ => ⟨i, hi.rawMatch⟩⟩
  rintro ⟨i, hi⟩
  by_cases hpattern : pattern = ""
  · subst hpattern
    exact ⟨0, byteMatch_empty ignoreCase line⟩
  · exact ⟨i, hi.byteMatch hpattern⟩

theorem rawMatch_of_find? (h : find? line pattern ignoreCase = some i) :
    RawMatch ignoreCase pattern line i ∧ ∀ j < i, ¬RawMatch ignoreCase pattern line j := by
  obtain ⟨hmatch, hleast⟩ := byteMatch_of_find? h
  refine ⟨hmatch.rawMatch, fun j hj hraw => ?_⟩
  by_cases hpattern : pattern = ""
  · subst hpattern
    exact hleast 0 (Nat.zero_lt_of_lt hj) (byteMatch_empty ignoreCase line)
  · exact hleast j hj (hraw.byteMatch hpattern)

/-- A search finds the first window that agrees with the pattern. -/
theorem find?_eq_some_iff : find? line pattern ignoreCase = some i ↔
    RawMatch ignoreCase pattern line i ∧ ∀ j < i, ¬RawMatch ignoreCase pattern line j := by
  refine ⟨rawMatch_of_find?, fun ⟨hmatch, hleast⟩ => ?_⟩
  obtain ⟨k, hk⟩ := Option.isSome_iff_exists.mp
    (isSome_find?_iff.mpr (exists_rawMatch_iff.mp ⟨i, hmatch⟩))
  obtain ⟨hfound, hfirst⟩ := rawMatch_of_find? hk
  have hle : k ≤ i := Nat.le_of_not_lt fun hlt => hfirst i hlt hmatch
  have hge : i ≤ k := Nat.le_of_not_lt fun hlt => hleast k hlt hfound
  rw [hk, Nat.le_antisymm hle hge]

theorem find?_eq_none_iff :
    find? line pattern ignoreCase = none ↔ ∀ i, ¬RawMatch ignoreCase pattern line i := by
  rw [← Option.not_isSome_iff_eq_none, isSome_find?_iff, ← exists_rawMatch_iff, not_exists]

/-- A line is cut by what is found in it. -/
theorem exists_cut_of_find? (h : find? line pattern ignoreCase = some i) :
    ∃ before found after : String, line = before ++ found ++ after ∧ i = size before.toList ∧
      size found.toList = size pattern.toList := by
  obtain ⟨front, found, rest, hline, hi, hsame⟩ := byteMatch_iff.mp (byteMatch_of_find? h).1
  refine ⟨String.ofList front, String.ofList found, String.ofList rest, ?_, ?_, ?_⟩
  · rw [← String.toList_inj]
    simp [hline]
  · rw [String.toList_ofList, hi]
  · rw [String.toList_ofList, ← size_map_folded ignoreCase, hsame, size_map_folded]

theorem append_inj_of_size_eq {front other rest more : List Char}
    (h : front ++ rest = other ++ more) (hsize : size front = size other) :
    front = other ∧ rest = more := by
  have hrest := congrArg (dropSize (size front)) h
  rw [dropSize_size_append, hsize, dropSize_size_append] at hrest
  rw [hrest] at h
  exact ⟨List.append_cancel_right h, hrest⟩

/-- A search that ignores case is one in folded texts. -/
theorem find?_foldText (line pattern : String) :
    find? line pattern true = find? (foldText line) (foldText pattern) false := by
  refine Option.ext fun i => ?_
  simp only [find?_eq_some_iff, rawMatch_foldText]

end DesktopTerminal.Text
