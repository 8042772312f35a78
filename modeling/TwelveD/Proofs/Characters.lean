import TwelveD.Proofs.Edits
import TwelveD.Proofs.Nesting

/-!
# Characters of a text

Theorems that lead from the bytes of a text to its characters: a text cut at a boundary is cut
between two characters, and deleting blank bytes deletes blank characters.
-/

namespace TwelveD

/-- Whether a character is neither a space nor a tab. -/
def isInkChar (c : Char) : Bool := c != ' ' && c != '\t'

namespace Bytes

/-- The UTF-8 encoding of a list of characters. -/
def encode (cs : List Char) : Bytes := cs.flatMap String.utf8EncodeChar

@[simp] theorem encode_nil : encode [] = [] := rfl

@[simp] theorem encode_append (cs ds : List Char) : encode (cs ++ ds) = encode cs ++ encode ds :=
  List.flatMap_append

theorem encode_cons (c : Char) (cs : List Char) :
    encode (c :: cs) = String.utf8EncodeChar c ++ encode cs :=
  List.flatMap_cons

theorem ofString_ofList (cs : List Char) : ofString (String.ofList cs) = encode cs := by
  rw [ofString, String.toUTF8_eq_toByteArray, String.toByteArray_ofList, List.utf8Encode,
    List.data_toByteArray]
  rfl

theorem ofString_eq_encode (s : String) : ofString s = encode s.toList := by
  rw [← ofString_ofList, String.ofList_toList]

/-- A text has one encoding. -/
theorem encode_injective {cs ds : List Char} (h : encode cs = encode ds) : cs = ds := by
  rw [← ofString_ofList, ← ofString_ofList, ofString, ofString] at h
  have h' : (String.ofList cs).toUTF8 = (String.ofList ds).toUTF8 :=
    ByteArray.ext (Array.toList_inj.mp h)
  rw [String.toUTF8_eq_toByteArray, String.toUTF8_eq_toByteArray, String.toByteArray_inj] at h'
  exact String.ofList_injective h'

theorem toString?_eq_some_iff {bytes : Bytes} {s : String} :
    bytes.toString? = some s ↔ bytes = ofString s := by
  unfold toString? String.fromUTF8? ofString
  constructor
  · intro h
    split at h
    · rw [← Option.some.inj h]
      rfl
    · cases h
  · rintro rfl
    exact dif_pos s.isValidUTF8

theorem textBetween_eq_iff {bytes : Bytes} {i j : Nat} {s : String} (hs : s ≠ "") :
    bytes.textBetween i j = s ↔ bytes.slice i j = ofString s := by
  rw [← toString?_eq_some_iff, textBetween]
  cases (bytes.slice i j).toString? with
  | none => simp [Ne.symm hs]
  | some s' => simp

/-- A boundary stands between two characters. -/
theorem exists_split_of_isBoundary {cs : List Char} {o : Nat} (ho : o ≤ (encode cs).length)
    (h : (encode cs).IsBoundary o) :
    ∃ before behind, cs = before ++ behind ∧ encode before = (encode cs).take o ∧
      encode behind = (encode cs).drop o := by
  induction cs generalizing o with
  | nil =>
    obtain rfl : o = 0 := by simpa using ho
    exact ⟨[], [], rfl, rfl, rfl⟩
  | cons c cs ih =>
    rw [encode_cons] at ho h ⊢
    rcases Nat.eq_zero_or_pos o with rfl | hpos
    · exact ⟨[], c :: cs, rfl, rfl, by rw [List.drop_zero, encode_cons]⟩
    rcases Nat.lt_or_ge o (String.utf8EncodeChar c).length with hlt | hge
    · -- inside a character no byte is a first byte
      have hfirst := h ((String.utf8EncodeChar c)[o]) (by
        rw [List.getElem?_append_left hlt, List.getElem?_eq_getElem hlt]
        rfl)
      rw [UInt8.isUTF8FirstByte_getElem_utf8EncodeChar] at hfirst
      omega
    · obtain ⟨k, rfl⟩ := Nat.exists_eq_add_of_le hge
      have hb : (encode cs).IsBoundary k := by
        intro b hb
        refine h b ?_
        rw [List.getElem?_append_right (Nat.le_add_right ..), Nat.add_sub_cancel_left]
        exact hb
      rw [List.length_append] at ho
      obtain ⟨before, behind, h1, h2, h3⟩ := ih (by omega) hb
      refine ⟨c :: before, behind, ?_, ?_, ?_⟩
      · rw [h1, List.cons_append]
      · rw [encode_cons, h2, List.take_length_add_append]
      · rw [h3, List.drop_length_add_append]

/-- What stands between two boundaries is a text. -/
theorem exists_encode_eq_slice {cs : List Char} {i j : Nat} (hij : i ≤ j)
    (hj : j ≤ (encode cs).length) (hbi : (encode cs).IsBoundary i)
    (hbj : (encode cs).IsBoundary j) : ∃ ds, encode ds = (encode cs).slice i j := by
  obtain ⟨before, behind, rfl, h2, h3⟩ := exists_split_of_isBoundary (Nat.le_trans hij hj) hbi
  have hlen : (encode before).length = i := by
    rw [h2, List.length_take, Nat.min_eq_left (Nat.le_trans hij hj)]
  rw [encode_append] at hj hbj
  have hb : (encode behind).IsBoundary (j - i) := by
    intro b hb
    refine hbj b ?_
    rw [List.getElem?_append_right (by omega), hlen]
    exact hb
  rw [List.length_append] at hj
  obtain ⟨ds, _, _, h4, -⟩ := exists_split_of_isBoundary (by omega) hb
  exact ⟨ds, by rw [h4, slice, ← h3]⟩

theorem isBoundary_zero (cs : List Char) : (encode cs).IsBoundary 0 := by
  intro b hb
  cases cs with
  | nil => cases hb
  | cons c cs =>
    have hpos : 0 < (String.utf8EncodeChar c).length := by
      rw [String.length_utf8EncodeChar]
      exact Char.utf8Size_pos c
    rw [encode_cons, List.getElem?_append_left hpos, List.getElem?_eq_getElem hpos] at hb
    rw [← Option.some.inj hb]
    exact UInt8.isUTF8FirstByte_getElem_utf8EncodeChar.mpr rfl

theorem isBoundary_length (bytes : Bytes) : bytes.IsBoundary bytes.length := by
  intro b hb
  rw [List.getElem?_length] at hb
  cases hb

/-- A run of blanks that ends between two characters starts between two characters. -/
theorem isBoundary_of_isBlank {bytes : Bytes} {i j : Nat} (hij : i ≤ j)
    (h : (bytes.slice i j).isBlank = true) (hj : bytes.IsBoundary j) : bytes.IsBoundary i := by
  intro b hb
  rcases Nat.lt_or_eq_of_le hij with hlt | rfl
  · have hblank := isBlank_iff.mp h b (mem_slice_iff.mpr ⟨i, Nat.le_refl i, hlt, hb⟩)
    have hcases : b = space ∨ b = tab := by simpa [isBlankByte] using hblank
    rcases hcases with rfl | rfl <;> decide
  · exact hj b hb

/-- A byte of the ASCII range is a character of its own. -/
theorem toNat_eq_of_mem_utf8EncodeChar {c : Char} {b : UInt8} (hb : b ∈ String.utf8EncodeChar c)
    (hlt : b.toNat < 0x80) : c.toNat = b.toNat := by
  have hc : c.val.toNat = c.toNat := rfl
  unfold String.utf8EncodeChar at hb
  simp only [hc] at hb
  split at hb
  · simp only [List.mem_singleton] at hb
    rw [hb, UInt8.toNat_ofNat']
    omega
  · -- all bytes of a longer encoding have the highest bit
    exfalso
    split at hb
    · simp only [List.mem_cons, List.not_mem_nil, or_false] at hb
      rcases hb with rfl | rfl <;> rw [UInt8.toNat_ofNat'] at hlt <;> omega
    · split at hb
      · simp only [List.mem_cons, List.not_mem_nil, or_false] at hb
        rcases hb with rfl | rfl | rfl <;> rw [UInt8.toNat_ofNat'] at hlt <;> omega
      · simp only [List.mem_cons, List.not_mem_nil, or_false] at hb
        rcases hb with rfl | rfl | rfl | rfl <;> rw [UInt8.toNat_ofNat'] at hlt <;> omega

theorem ink_utf8EncodeChar (c : Char) :
    ink (String.utf8EncodeChar c) = if isInkChar c then String.utf8EncodeChar c else [] := by
  by_cases hc : isInkChar c = true
  · rw [if_pos hc, ink, List.filter_eq_self]
    intro b hb
    by_contra hblank
    have hcases : b = space ∨ b = tab := by
      simpa [isBlankByte, or_iff_not_imp_left] using hblank
    have hnat : c.toNat = b.toNat := by
      refine toNat_eq_of_mem_utf8EncodeChar hb ?_
      rcases hcases with rfl | rfl <;> decide
    rcases hcases with rfl | rfl
    · obtain rfl : c = ' ' := Char.toNat_inj.mp hnat
      simp [isInkChar] at hc
    · obtain rfl : c = '\t' := Char.toNat_inj.mp hnat
      simp [isInkChar] at hc
  · rw [if_neg hc]
    have hcases : c = ' ' ∨ c = '\t' := by
      simp only [isInkChar, Bool.and_eq_true, bne_iff_ne, not_and_or, not_not] at hc
      exact hc
    rcases hcases with rfl | rfl <;> decide

/-- Deleting the blank bytes of a text deletes its blank characters. -/
theorem ink_encode (cs : List Char) : ink (encode cs) = encode (cs.filter isInkChar) := by
  induction cs with
  | nil => rfl
  | cons c cs ih =>
    rw [encode_cons, ink_append, ink_utf8EncodeChar, ih, List.filter_cons]
    split
    · rw [encode_cons]
    · rw [List.nil_append]

end Bytes

end TwelveD
