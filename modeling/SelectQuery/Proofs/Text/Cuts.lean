-- Byte offsets into a text. A text can be cut only between two of its characters;
-- at any other offset there is nothing to give. Main statement: the cuts of a text
-- are the stretches of its characters, each at the bytes before it.
import SelectQuery.Text.Cursor

namespace SelectQuery

/-! ## Bytes of texts -/

theorem utf8ByteSize_ofList (chars : List Char) :
    (String.ofList chars).utf8ByteSize = byteLength chars := by
  induction chars with
  | nil => simp
  | cons c cs ih =>
    rw [← List.singleton_append, String.ofList_append, String.utf8ByteSize_append, ih]
    simp

theorem utf8ByteSize_eq (text : String) : text.utf8ByteSize = byteLength text.toList := by
  rw [← utf8ByteSize_ofList, String.ofList_toList]

/-! ## Boundaries -/

/-- The offset lies between two characters of the text, or at one of its ends. -/
def IsBoundary (text : String) (offset : Nat) : Prop :=
  String.Pos.Raw.IsValid text ⟨offset⟩

instance (text : String) (offset : Nat) : Decidable (IsBoundary text offset) :=
  inferInstanceAs (Decidable (String.Pos.Raw.IsValid text ⟨offset⟩))

/-- A boundary is where some characters of the text end and the others begin. -/
theorem isBoundary_iff {text : String} {offset : Nat} :
    IsBoundary text offset ↔
      ∃ before after, text.toList = before ++ after ∧ offset = byteLength before := by
  unfold IsBoundary
  rw [String.Pos.Raw.isValid_iff_exists_append]
  constructor
  · rintro ⟨before, after, rfl, h⟩
    refine ⟨before.toList, after.toList, String.toList_append, ?_⟩
    rw [← utf8ByteSize_eq]
    exact congrArg String.Pos.Raw.byteIdx h
  · rintro ⟨before, after, htext, rfl⟩
    refine ⟨String.ofList before, String.ofList after, ?_, ?_⟩
    · rw [← String.ofList_append, ← htext, String.ofList_toList]
    · rw [← utf8ByteSize_ofList]
      rfl

/-! ## Cuts -/

/-- The characters between two offsets. There is nothing to give if one of the two
lies inside a character or behind the text, or if they stand in the wrong order. -/
def cut? (text : String) (start stop : Nat) : Option (List Char) :=
  if h : start ≤ stop ∧ IsBoundary text start ∧ IsBoundary text stop then
    some (text.extract (text.pos ⟨start⟩ h.2.1) (text.pos ⟨stop⟩ h.2.2)).toList
  else none

theorem isSome_cut?_iff (text : String) (start stop : Nat) :
    (cut? text start stop).isSome ↔
      start ≤ stop ∧ IsBoundary text start ∧ IsBoundary text stop := by
  unfold cut?
  split <;> simp_all

theorem toList_extract {text : String} {before chars after : List Char} {p q : text.Pos}
    (h : text.toList = before ++ (chars ++ after)) (hp : p.offset.byteIdx = byteLength before)
    (hq : q.offset.byteIdx = byteLength before + byteLength chars) :
    (text.extract p q).toList = chars := by
  have htext : text = String.ofList before ++ (String.ofList chars ++ String.ofList after) := by
    rw [← String.ofList_append, ← String.ofList_append, ← h, String.ofList_toList]
  have hbytes : text.toByteArray = (String.ofList before).toByteArray ++
      ((String.ofList chars).toByteArray ++ (String.ofList after).toByteArray) := by
    rw [← String.toByteArray_append, ← String.toByteArray_append, ← htext]
  have hsize : ∀ cs, byteLength cs = (String.ofList cs).toByteArray.size := by
    intro cs
    rw [String.size_toByteArray, utf8ByteSize_ofList]
  have hstretch : text.toByteArray.extract (byteLength before)
      (byteLength before + byteLength chars) = (String.ofList chars).toByteArray := by
    have hskip := ByteArray.extract_append_size_add' (b := (String.ofList chars).toByteArray ++
      (String.ofList after).toByteArray) (i := 0) (j := byteLength chars) (hsize before)
    rw [Nat.add_zero, ByteArray.extract_append_eq_left (hsize chars)] at hskip
    rw [hbytes, hskip]
  have hextract : text.extract p q = String.ofList chars := by
    rw [← String.toByteArray_inj, String.toByteArray_extract, hp, hq, hstretch]
  rw [hextract, String.toList_ofList]

/-- Two offsets cut out the stretch that has as many bytes before it as the first says
and reaches up to the second. -/
theorem cut?_eq_some_iff {text : String} {start stop : Nat} {chars : List Char} :
    cut? text start stop = some chars ↔
      ∃ before after, text.toList = before ++ (chars ++ after) ∧
        start = byteLength before ∧ stop = byteLength before + byteLength chars := by
  constructor
  · intro h
    obtain ⟨hle, hstart, hstop⟩ := (isSome_cut?_iff text start stop).mp (by simp [h])
    obtain ⟨before, rest, htext, rfl⟩ := isBoundary_iff.mp hstart
    obtain ⟨upTo, after, htext', rfl⟩ := isBoundary_iff.mp hstop
    obtain ⟨middle, rfl, rfl⟩ := prefix_of_byteLength_le (htext.symm.trans htext') hle
    have hcut : cut? text (byteLength before) (byteLength (before ++ middle)) = some middle := by
      unfold cut?
      rw [dif_pos ⟨hle, hstart, hstop⟩, toList_extract htext rfl (byteLength_append _ _)]
    rw [hcut] at h
    cases h
    exact ⟨before, after, htext, rfl, byteLength_append _ _⟩
  · rintro ⟨before, after, htext, rfl, rfl⟩
    have hstart : IsBoundary text (byteLength before) :=
      isBoundary_iff.mpr ⟨before, chars ++ after, htext, rfl⟩
    have hstop : IsBoundary text (byteLength before + byteLength chars) :=
      isBoundary_iff.mpr ⟨before ++ chars, after, by simpa using htext, by simp⟩
    unfold cut?
    rw [dif_pos ⟨Nat.le_add_right .., hstart, hstop⟩, toList_extract htext rfl rfl]

/-- From a boundary on stands all the rest. -/
theorem cut?_rest_iff {text : String} {start : Nat} {rest : List Char} :
    cut? text start text.utf8ByteSize = some rest ↔
      ∃ before, text.toList = before ++ rest ∧ start = byteLength before := by
  rw [cut?_eq_some_iff]
  constructor
  · rintro ⟨before, after, htext, rfl, hstop⟩
    have hafter : byteLength after = 0 := by
      rw [utf8ByteSize_eq, htext] at hstop
      simp only [byteLength_append] at hstop
      omega
    cases after with
    | nil => exact ⟨before, by simpa using htext, rfl⟩
    | cons c cs => exact absurd hafter (Nat.ne_of_gt (byteLength_pos (by simp)))
  · rintro ⟨before, htext, rfl⟩
    refine ⟨before, [], by simpa using htext, rfl, ?_⟩
    rw [utf8ByteSize_eq, htext, byteLength_append]

/-- Behind the first characters of the rest stand the others. -/
theorem cut?_rest_append {text : String} {start : Nat} (taken : List Char) {rest : List Char}
    (h : cut? text start text.utf8ByteSize = some (taken ++ rest)) :
    cut? text (start + byteLength taken) text.utf8ByteSize = some rest := by
  obtain ⟨before, htext, rfl⟩ := cut?_rest_iff.mp h
  exact cut?_rest_iff.mpr ⟨before ++ taken, by simpa using htext, by simp⟩

/-- The first characters of the rest reach as far as their bytes. -/
theorem cut?_taken {text : String} {start : Nat} {taken rest : List Char}
    (h : cut? text start text.utf8ByteSize = some (taken ++ rest)) :
    cut? text start (start + byteLength taken) = some taken := by
  obtain ⟨before, htext, rfl⟩ := cut?_rest_iff.mp h
  exact cut?_eq_some_iff.mpr ⟨before, rest, htext, rfl, rfl⟩

theorem utf8ByteSize_of_rest {text : String} {start : Nat} {rest : List Char}
    (h : cut? text start text.utf8ByteSize = some rest) :
    text.utf8ByteSize = start + byteLength rest := by
  obtain ⟨before, htext, rfl⟩ := cut?_rest_iff.mp h
  rw [utf8ByteSize_eq, htext, byteLength_append]

end SelectQuery
