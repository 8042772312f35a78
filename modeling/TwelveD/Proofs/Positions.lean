import Mathlib.Data.List.DropRight
import Mathlib.Tactic.Common
import TwelveD.Text.Position

/-!
# Offsets, points and rows

Theorems about the two ways to address a text. `Bytes.pointAt` and `Bytes.offsetAt` are inverse to
each other on the offsets of a text and keep their order, and the point of an offset is read off the
text before it: the number of its line feeds and the length of its last row.
-/

namespace TwelveD

namespace Bytes

/-! ## Slices -/

theorem length_slice {bytes : Bytes} {i j : Nat} (hj : j ≤ bytes.length) :
    (bytes.slice i j).length = j - i := by
  simp only [slice, List.length_take, List.length_drop]
  omega

theorem slice_self (bytes : Bytes) (i : Nat) : bytes.slice i i = [] := by simp [slice]

theorem slice_zero (bytes : Bytes) (i : Nat) : bytes.slice 0 i = bytes.take i := by simp [slice]

theorem slice_length (bytes : Bytes) (i : Nat) : bytes.slice i bytes.length = bytes.drop i :=
  List.take_of_length_le (by simp)

/-- Two slices that meet make one. -/
theorem slice_append_slice (bytes : Bytes) {i j k : Nat} (hij : i ≤ j) (hjk : j ≤ k) :
    bytes.slice i j ++ bytes.slice j k = bytes.slice i k := by
  have hd : bytes.drop j = (bytes.drop i).drop (j - i) := by
    rw [List.drop_drop]
    congr 1
    omega
  have hk : k - i = (j - i) + (k - j) := by omega
  simp only [slice, hd, hk, List.take_add]

theorem take_append_slice (bytes : Bytes) {i j : Nat} (h : i ≤ j) :
    bytes.take i ++ bytes.slice i j = bytes.take j := by
  rw [← slice_zero, slice_append_slice bytes (Nat.zero_le i) h, slice_zero]

theorem slice_append (before line behind : Bytes) {i j : Nat} (hi : i ≤ j) (hj : j ≤ line.length) :
    (before ++ line ++ behind).slice (before.length + i) (before.length + j) = line.slice i j := by
  rw [slice, slice, List.append_assoc, List.drop_append, List.drop_eq_nil_of_le (by omega),
    List.nil_append, Nat.add_sub_cancel_left, List.drop_append_of_le_length (by omega),
    List.take_append_of_le_length (by rw [List.length_drop]; omega)]
  congr 1
  omega

/-- A slice that is not empty starts with the byte at its first offset. -/
theorem slice_eq_cons {bytes : Bytes} {i j : Nat} {b : UInt8} (hb : bytes[i]? = some b)
    (hij : i < j) : bytes.slice i j = b :: bytes.slice (i + 1) j := by
  obtain ⟨hi, rfl⟩ := List.getElem?_eq_some_iff.mp hb
  have hj : j - i = (j - (i + 1)) + 1 := by omega
  rw [slice, List.drop_eq_getElem_cons hi, hj, List.take_succ_cons, slice]

theorem getLast?_slice {bytes : Bytes} {i j : Nat} (hij : i < j) (hj : j ≤ bytes.length) :
    (bytes.slice i j).getLast? = bytes[j - 1]? := by
  have hlast : j - 1 < bytes.length := by omega
  have hone : bytes.slice (j - 1) j = [bytes[j - 1]] := by
    rw [slice_eq_cons (List.getElem?_eq_getElem hlast) (by omega), Nat.sub_add_cancel (by omega),
      slice_self]
  rw [← slice_append_slice bytes (i := i) (j := j - 1) (k := j) (by omega) (by omega), hone,
    List.getLast?_append, List.getElem?_eq_getElem hlast]
  rfl

theorem mem_slice_iff {bytes : Bytes} {i j : Nat} {b : UInt8} :
    b ∈ bytes.slice i j ↔ ∃ k, i ≤ k ∧ k < j ∧ bytes[k]? = some b := by
  rw [slice, List.mem_iff_getElem?]
  constructor
  · rintro ⟨n, hn⟩
    rw [List.getElem?_take] at hn
    split at hn
    · rw [List.getElem?_drop] at hn
      exact ⟨i + n, by omega, by omega, hn⟩
    · cases hn
  · rintro ⟨k, hik, hkj, hk⟩
    refine ⟨k - i, ?_⟩
    rw [List.getElem?_take, if_pos (by omega), List.getElem?_drop]
    rwa [Nat.add_sub_cancel' hik]

/-! ## The last row -/

/-- What stands behind the last line feed. -/
def lastRow (bytes : Bytes) : Bytes := bytes.rtakeWhile (· != lineFeed)

@[simp] theorem lastRow_nil : lastRow [] = [] := rfl

theorem lastRow_concat (bytes : Bytes) (b : UInt8) :
    lastRow (bytes ++ [b]) = if b = lineFeed then [] else lastRow bytes ++ [b] := by
  by_cases h : b = lineFeed <;> simp [lastRow, h]

theorem lineFeed_notMem_lastRow (bytes : Bytes) : lineFeed ∉ lastRow bytes := by
  intro h
  have := List.mem_rtakeWhile_imp h
  simp at this

/-- Text without line feeds makes the last row longer. -/
theorem lastRow_append {xs ys : Bytes} (h : lineFeed ∉ ys) :
    lastRow (xs ++ ys) = lastRow xs ++ ys := by
  induction ys using List.reverseRecOn with
  | nil => simp
  | append_singleton ys b ih =>
    rw [List.mem_append, not_or] at h
    have hb : b ≠ lineFeed := fun e => h.2 (by simp [e])
    rw [← List.append_assoc, lastRow_concat, if_neg hb, ih h.1, List.append_assoc]

/-- A text is its last row behind a text that ends a row. -/
theorem exists_eq_append_lastRow (bytes : Bytes) :
    ∃ before, bytes = before ++ lastRow bytes ∧ lastRow before = [] := by
  induction bytes using List.reverseRecOn with
  | nil => exact ⟨[], rfl, rfl⟩
  | append_singleton bytes b ih =>
    by_cases hb : b = lineFeed
    · refine ⟨bytes ++ [b], ?_, ?_⟩ <;> simp [lastRow_concat, hb]
    · obtain ⟨before, h1, h2⟩ := ih
      refine ⟨before, ?_, h2⟩
      rw [lastRow_concat, if_neg hb, ← List.append_assoc, ← h1]

theorem length_lastRow_le (bytes : Bytes) : (lastRow bytes).length ≤ bytes.length := by
  obtain ⟨before, h, -⟩ := exists_eq_append_lastRow bytes
  have := congrArg List.length h
  rw [List.length_append] at this
  omega

/-- The last row is empty if there is no text or a line feed ends it. -/
theorem lastRow_eq_nil_iff {bytes : Bytes} :
    lastRow bytes = [] ↔ bytes = [] ∨ bytes.getLast? = some lineFeed := by
  induction bytes using List.reverseRecOn with
  | nil => simp
  | append_singleton bytes b _ =>
    rw [lastRow_concat]
    by_cases hb : b = lineFeed <;> simp [hb]

/-- Text before a text whose last row is empty adds nothing to that row. -/
theorem lastRow_cons_eq_nil {bytes : Bytes} {b : UInt8} (h : lastRow bytes = [])
    (hb : b = lineFeed ∨ bytes ≠ []) : lastRow (b :: bytes) = [] := by
  cases bytes with
  | nil => exact lastRow_eq_nil_iff.mpr (Or.inr (by simpa using hb))
  | cons c bytes =>
    refine lastRow_eq_nil_iff.mpr (Or.inr ?_)
    rw [List.getLast?_cons_cons]
    exact (lastRow_eq_nil_iff.mp h).resolve_left (List.cons_ne_nil c bytes)

theorem lastRow_eq_nil_of_cons {bytes : Bytes} {b : UInt8} (h : lastRow (b :: bytes) = []) :
    lastRow bytes = [] ∧ (b = lineFeed ∨ bytes ≠ []) := by
  have hlast := (lastRow_eq_nil_iff.mp h).resolve_left (List.cons_ne_nil b bytes)
  cases bytes with
  | nil => exact ⟨rfl, Or.inl (by simpa using hlast)⟩
  | cons c bytes =>
    rw [List.getLast?_cons_cons] at hlast
    exact ⟨lastRow_eq_nil_iff.mpr (Or.inr hlast), Or.inr (List.cons_ne_nil c bytes)⟩

theorem count_pos_of_lastRow_eq_nil {bytes : Bytes} (h : lastRow bytes = []) (hne : bytes ≠ []) :
    0 < bytes.count lineFeed :=
  List.count_pos_iff.mpr (List.mem_of_getLast? ((lastRow_eq_nil_iff.mp h).resolve_left hne))

/-! ## Points of offsets -/

/-- Row and column of the end of a text. -/
theorem foldl_advance (bytes : Bytes) :
    bytes.foldl Point.advance Point.origin = ⟨bytes.count lineFeed, (lastRow bytes).length⟩ := by
  induction bytes using List.reverseRecOn with
  | nil => rfl
  | append_singleton bytes b ih =>
    rw [List.foldl_append, ih, lastRow_concat]
    by_cases h : b = lineFeed <;> simp [Point.advance, h]

theorem pointAt_eq (bytes : Bytes) (o : Nat) :
    bytes.pointAt o = ⟨(bytes.take o).count lineFeed, (lastRow (bytes.take o)).length⟩ :=
  foldl_advance _

theorem pointAt_row (bytes : Bytes) (o : Nat) :
    (bytes.pointAt o).row = (bytes.take o).count lineFeed := by rw [pointAt_eq]

theorem pointAt_row_le (bytes : Bytes) {i j : Nat} (h : i ≤ j) :
    (bytes.pointAt i).row ≤ (bytes.pointAt j).row := by
  rw [pointAt_row, pointAt_row]
  exact (List.take_sublist_take_left h).count_le lineFeed

theorem pointAt_column (bytes : Bytes) (o : Nat) :
    (bytes.pointAt o).column = (lastRow (bytes.take o)).length := by rw [pointAt_eq]

/-- Where the row starts that follows the given text, of which nothing belongs to the row. -/
theorem rowStart_append {before : Bytes} (h : lastRow before = []) (rest : Bytes) :
    rowStart (before ++ rest) (before.count lineFeed) = before.length := by
  induction before with
  | nil => simp [rowStart]
  | cons b before ih =>
    obtain ⟨hlast, hb⟩ := lastRow_eq_nil_of_cons h
    by_cases hlf : b = lineFeed
    · rw [hlf, List.cons_append, List.count_cons_self, rowStart, if_pos rfl, ih hlast,
        List.length_cons, Nat.add_comm]
    · obtain ⟨n, hn⟩ := Nat.exists_eq_add_one.mpr
        (count_pos_of_lastRow_eq_nil hlast (hb.resolve_left hlf))
      rw [List.count_cons_of_ne hlf, hn, List.cons_append, rowStart, if_neg hlf, ← hn, ih hlast,
        List.length_cons, Nat.add_comm]

/-- The text up to an offset, cut where the row of the offset starts. -/
theorem take_rowStart (bytes : Bytes) {o : Nat} (h : o ≤ bytes.length) :
    lastRow (bytes.take (o - (bytes.pointAt o).column)) = [] ∧
      (bytes.take (o - (bytes.pointAt o).column)).count lineFeed = (bytes.pointAt o).row ∧
      bytes.slice (o - (bytes.pointAt o).column) o = lastRow (bytes.take o) := by
  obtain ⟨before, h1, h2⟩ := exists_eq_append_lastRow (bytes.take o)
  have hlen : before.length + (lastRow (bytes.take o)).length = o := by
    rw [← List.length_append, ← h1, List.length_take]
    omega
  have hstart : o - (bytes.pointAt o).column = before.length := by
    rw [pointAt_column]
    omega
  have hbefore : bytes.take before.length = before := by
    have : (bytes.take o).take before.length = before := by
      conv_lhs => rw [h1]
      simp
    rwa [List.take_take, Nat.min_eq_left (by omega)] at this
  have hcount : (bytes.take o).count lineFeed = before.count lineFeed := by
    rw [h1, List.count_append, List.count_eq_zero_of_not_mem (lineFeed_notMem_lastRow _),
      Nat.add_zero]
  have hslice := take_append_slice bytes (i := before.length) (j := o) (by omega)
  rw [hbefore, h1] at hslice
  rw [hstart, hbefore, pointAt_row, hcount]
  exact ⟨h2, rfl, List.append_cancel_left hslice⟩

theorem column_le (bytes : Bytes) (o : Nat) : (bytes.pointAt o).column ≤ o := by
  have := length_lastRow_le (bytes.take o)
  rw [List.length_take] at this
  rw [pointAt_column]
  omega

/-- The point of an offset leads back to the offset. -/
theorem offsetAt_pointAt (bytes : Bytes) {o : Nat} (h : o ≤ bytes.length) :
    bytes.offsetAt (bytes.pointAt o) = o := by
  obtain ⟨h1, h2, -⟩ := take_rowStart bytes h
  have hcol := column_le bytes o
  have hstart := rowStart_append h1 (bytes.drop (o - (bytes.pointAt o).column))
  rw [List.take_append_drop, h2, List.length_take] at hstart
  rw [offsetAt, hstart]
  omega

/-- The point at which the row of an offset starts. -/
theorem pointAt_sub_column (bytes : Bytes) {o : Nat} (h : o ≤ bytes.length) :
    bytes.pointAt (o - (bytes.pointAt o).column) = ⟨(bytes.pointAt o).row, 0⟩ := by
  obtain ⟨h1, h2, -⟩ := take_rowStart bytes h
  rw [pointAt_eq, h1, h2, List.length_nil]

/-- The text from the start of a row up to an offset in it. -/
theorem slice_column (bytes : Bytes) {o : Nat} (h : o ≤ bytes.length) :
    bytes.slice (o - (bytes.pointAt o).column) o = lastRow (bytes.take o) :=
  (take_rowStart bytes h).2.2

end Bytes

/-! ## The order of points -/

namespace Point

theorem lt_advance (p : Point) (b : UInt8) : p < p.advance b := by
  unfold advance
  split <;> simp [lt_iff]

theorem lt_trans {p q r : Point} (hpq : p < q) (hqr : q < r) : p < r := by
  rw [lt_iff] at *
  omega

theorem le_trans {p q r : Point} (hpq : p ≤ q) (hqr : q ≤ r) : p ≤ r := by
  rw [le_iff] at *
  omega

theorem le_antisymm {p q : Point} (hpq : p ≤ q) (hqp : q ≤ p) : p = q := by
  obtain ⟨row, column⟩ := p
  obtain ⟨row', column'⟩ := q
  simp only [le_iff, mk.injEq] at *
  omega

theorem not_lt {p q : Point} : ¬ p < q ↔ q ≤ p := by
  rw [lt_iff, le_iff]
  omega

theorem lt_irrefl (p : Point) : ¬ p < p := by
  rw [lt_iff]
  omega

end Point

namespace Bytes

theorem pointAt_succ {bytes : Bytes} {o : Nat} (h : o < bytes.length) :
    bytes.pointAt (o + 1) = (bytes.pointAt o).advance bytes[o] := by
  simp only [pointAt, List.take_succ_eq_append_getElem h, List.foldl_append, List.foldl_cons,
    List.foldl_nil]

/-- A later offset has a later point. -/
theorem pointAt_lt {bytes : Bytes} {i j : Nat} (hij : i < j) (hj : j ≤ bytes.length) :
    bytes.pointAt i < bytes.pointAt j := by
  induction j with
  | zero => omega
  | succ j ih =>
    rw [pointAt_succ hj]
    rcases Nat.lt_succ_iff_lt_or_eq.mp hij with h | rfl
    · exact Point.lt_trans (ih h (by omega)) (Point.lt_advance _ _)
    · exact Point.lt_advance _ _

theorem pointAt_lt_iff {bytes : Bytes} {i j : Nat} (hi : i ≤ bytes.length)
    (hj : j ≤ bytes.length) : bytes.pointAt i < bytes.pointAt j ↔ i < j := by
  refine ⟨fun h => ?_, fun h => pointAt_lt h hj⟩
  by_contra hij
  rcases Nat.lt_or_eq_of_le (Nat.le_of_not_lt hij) with hji | rfl
  · exact Point.lt_irrefl _ (Point.lt_trans h (pointAt_lt hji hi))
  · exact Point.lt_irrefl _ h

theorem pointAt_le_iff {bytes : Bytes} {i j : Nat} (hi : i ≤ bytes.length)
    (hj : j ≤ bytes.length) : bytes.pointAt i ≤ bytes.pointAt j ↔ i ≤ j := by
  rw [← Point.not_lt, pointAt_lt_iff hj hi, Nat.not_lt]

theorem pointAt_inj {bytes : Bytes} {i j : Nat} (hi : i ≤ bytes.length) (hj : j ≤ bytes.length) :
    bytes.pointAt i = bytes.pointAt j ↔ i = j := by
  refine ⟨fun h => ?_, fun h => h ▸ rfl⟩
  rw [← offsetAt_pointAt bytes hi, h, offsetAt_pointAt bytes hj]

end Bytes

end TwelveD
