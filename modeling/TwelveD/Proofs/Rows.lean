import TwelveD.Proofs.Positions

/-!
# Rows of a text

Theorems that lead from the rows of a text, `Bytes.rows`, to its offsets and back.
-/

namespace TwelveD

namespace Text

variable {α : Type} [DecidableEq α]

/-! ## Pieces -/

theorem pieces_of_notMem {separator : α} {xs : List α} (h : separator ∉ xs) :
    pieces separator xs = [xs] := by
  induction xs with
  | nil => rfl
  | cons a xs ih =>
    rw [List.mem_cons, not_or] at h
    rw [pieces, if_neg (Ne.symm h.1), ih h.2]

theorem pieces_ne_nil (separator : α) (xs : List α) : pieces separator xs ≠ [] := by
  cases xs with
  | nil => simp [pieces]
  | cons a xs =>
    rw [pieces]
    split
    · simp
    · split <;> simp

/-- A separator cuts a text into the pieces before it and the pieces behind it. -/
theorem pieces_append (separator : α) (xs ys : List α) :
    pieces separator (xs ++ separator :: ys) = pieces separator xs ++ pieces separator ys := by
  induction xs with
  | nil => simp [pieces]
  | cons a xs ih =>
    rw [List.cons_append, pieces, pieces]
    split
    · rw [ih, List.cons_append]
    · rw [ih]
      obtain ⟨piece, others, h⟩ := List.exists_cons_of_ne_nil (pieces_ne_nil separator xs)
      simp only [h, List.cons_append]

theorem length_pieces (separator : α) (xs : List α) :
    (pieces separator xs).length = xs.count separator + 1 := by
  induction xs with
  | nil => rfl
  | cons a xs ih =>
    rw [pieces]
    split
    · rename_i h
      rw [h, List.length_cons, ih, List.count_cons_self]
    · rename_i h
      rw [List.count_cons_of_ne h]
      obtain ⟨piece, others, hp⟩ := List.exists_cons_of_ne_nil (pieces_ne_nil separator xs)
      rw [hp] at ih ⊢
      exact ih

/-- Dropping elements other than the separator drops them from the pieces. -/
theorem pieces_filter {separator : α} {p : α → Bool} (hp : p separator) (xs : List α) :
    pieces separator (xs.filter p) = (pieces separator xs).map (List.filter p) := by
  induction xs with
  | nil => rfl
  | cons a xs ih =>
    obtain ⟨piece, others, h⟩ := List.exists_cons_of_ne_nil (pieces_ne_nil separator xs)
    by_cases ha : a = separator
    · simp [pieces, ha, hp, ih]
    · by_cases hpa : p a = true <;> simp [pieces, ha, hpa, ih, h]

theorem notMem_of_mem_pieces {separator : α} {xs piece : List α} (h : piece ∈ pieces separator xs) :
    separator ∉ piece := by
  induction xs generalizing piece with
  | nil =>
    rw [List.mem_singleton.mp h]
    exact List.not_mem_nil
  | cons a xs ih =>
    obtain ⟨first, others, hp⟩ := List.exists_cons_of_ne_nil (pieces_ne_nil separator xs)
    by_cases ha : a = separator
    · rw [pieces, if_pos ha] at h
      rcases List.mem_cons.mp h with rfl | h
      · exact List.not_mem_nil
      · exact ih h
    · simp only [pieces, if_neg ha, hp] at h ih
      rcases List.mem_cons.mp h with rfl | h
      · rw [List.mem_cons, not_or]
        exact ⟨Ne.symm ha, ih (List.mem_cons_self ..)⟩
      · exact ih (List.mem_cons_of_mem first h)

omit [DecidableEq α] in
theorem joined_cons (separator : α) (piece : List α) {others : List (List α)} (h : others ≠ []) :
    joined separator (piece :: others) = piece ++ separator :: joined separator others := by
  obtain ⟨next, more, rfl⟩ := List.exists_cons_of_ne_nil h
  rfl

theorem joined_pieces (separator : α) (xs : List α) :
    joined separator (pieces separator xs) = xs := by
  induction xs with
  | nil => rfl
  | cons a xs ih =>
    by_cases ha : a = separator
    · rw [pieces, if_pos ha, joined_cons separator [] (pieces_ne_nil separator xs), ih, ha]
      rfl
    · obtain ⟨first, others, hp⟩ := List.exists_cons_of_ne_nil (pieces_ne_nil separator xs)
      rw [hp] at ih
      simp only [pieces, if_neg ha, hp]
      cases others with
      | nil => exact congrArg (a :: ·) ih
      | cons next more => exact congrArg (a :: ·) ih

theorem pieces_joined {separator : α} {ps : List (List α)} (hne : ps ≠ [])
    (h : ∀ piece ∈ ps, separator ∉ piece) : pieces separator (joined separator ps) = ps := by
  induction ps with
  | nil => exact absurd rfl hne
  | cons piece others ih =>
    obtain ⟨hpiece, hothers⟩ := List.forall_mem_cons.mp h
    by_cases hnil : others = []
    · rw [hnil]
      exact pieces_of_notMem hpiece
    · rw [joined_cons separator piece hnil, pieces_append, pieces_of_notMem hpiece, ih hnil hothers]
      rfl

end Text

namespace Bytes

/-! ## Rows and offsets -/

/-- A row in its text: nothing before it belongs to it, and what follows starts with a line feed. -/
theorem exists_append_of_rows {bytes line : Bytes} {row : Nat} (h : bytes.rows[row]? = some line) :
    ∃ before behind, bytes = before ++ line ++ behind ∧ lastRow before = [] ∧
      before.count lineFeed = row ∧ lineFeed ∉ line ∧ (∀ b ∈ behind.head?, b = lineFeed) := by
  unfold rows at h
  induction bytes generalizing row line with
  | nil =>
    obtain ⟨rfl, rfl⟩ : row = 0 ∧ line = [] := by
      cases row <;> simp_all [Text.pieces]
    exact ⟨[], [], rfl, rfl, rfl, by simp, by simp⟩
  | cons b rest ih =>
    rw [Text.pieces] at h
    split at h
    · rename_i hb
      cases row with
      | zero =>
        obtain rfl : [] = line := by simpa using h
        exact ⟨[], b :: rest, rfl, rfl, rfl, by simp, by simp [hb]⟩
      | succ row =>
        obtain ⟨before, behind, h1, h2, h3, h4, h5⟩ := ih (by simpa using h)
        refine ⟨b :: before, behind, ?_, ?_, ?_, h4, h5⟩
        · rw [h1]
          rfl
        · exact lastRow_cons_eq_nil h2 (Or.inl hb)
        · rw [hb, List.count_cons_self, h3]
    · rename_i hb
      obtain ⟨piece, others, hp⟩ := List.exists_cons_of_ne_nil (Text.pieces_ne_nil lineFeed rest)
      simp only [hp] at h ih
      cases row with
      | zero =>
        obtain rfl : b :: piece = line := by simpa using h
        obtain ⟨before, behind, h1, h2, h3, h4, h5⟩ := @ih piece 0 rfl
        have hnil : before = [] := by
          by_contra hne
          have := count_pos_of_lastRow_eq_nil h2 hne
          omega
        subst hnil
        refine ⟨[], behind, ?_, rfl, rfl, ?_, h5⟩
        · rw [h1]
          rfl
        · simp [Ne.symm hb, h4]
      | succ row =>
        obtain ⟨before, behind, h1, h2, h3, h4, h5⟩ := @ih line (row + 1) (by simpa using h)
        have hne : before ≠ [] := by
          rintro rfl
          cases h3
        refine ⟨b :: before, behind, ?_, ?_, ?_, h4, h5⟩
        · rw [h1]
          rfl
        · exact lastRow_cons_eq_nil h2 (Or.inr hne)
        · rw [List.count_cons_of_ne hb, h3]

/-- A stretch between two line feeds is a row. -/
theorem rows_append {before line behind : Bytes} (hbefore : lastRow before = [])
    (hline : lineFeed ∉ line) (hbehind : ∀ b ∈ behind.head?, b = lineFeed) :
    (before ++ line ++ behind).rows[before.count lineFeed]? = some line := by
  have hhead : (line ++ behind).rows[0]? = some line := by
    cases behind with
    | nil => simp [rows, Text.pieces_of_notMem hline]
    | cons b behind =>
      obtain rfl : b = lineFeed := hbehind b rfl
      simp [rows, Text.pieces_append, Text.pieces_of_notMem hline]
  rcases lastRow_eq_nil_iff.mp hbefore with rfl | hlast
  · simpa using hhead
  · obtain ⟨before', rfl⟩ := List.getLast?_eq_some_iff.mp hlast
    have hcount : (before' ++ [lineFeed]).count lineFeed = (rows before').length := by
      rw [rows, Text.length_pieces, List.count_append, List.count_singleton_self]
    rw [hcount, List.append_assoc, List.append_assoc, List.singleton_append, rows,
      Text.pieces_append, ← rows, ← rows, List.getElem?_append_right (Nat.le_refl _), Nat.sub_self]
    exact hhead

/-- The points of a row. -/
theorem pointAt_append {before line : Bytes} (hbefore : lastRow before = [])
    (hline : lineFeed ∉ line) (behind : Bytes) {column : Nat} (h : column ≤ line.length) :
    (before ++ line ++ behind).pointAt (before.length + column) =
      ⟨before.count lineFeed, column⟩ := by
  have htake : (before ++ line ++ behind).take (before.length + column) =
      before ++ line.take column := by
    rw [List.append_assoc, List.take_length_add_append, List.take_append_of_le_length h]
  have hnotMem : lineFeed ∉ line.take column := fun hm => hline (List.mem_of_mem_take hm)
  rw [pointAt_eq, htake, lastRow_append hnotMem, hbefore, List.count_append,
    List.count_eq_zero_of_not_mem hnotMem, List.nil_append, List.length_take, Nat.min_eq_left h,
    Nat.add_zero]

/-- A stretch without line feeds, with the rest of its row around it. -/
theorem exists_append_of_slice {bytes : Bytes} {i j : Nat} (hij : i ≤ j) (hj : j ≤ bytes.length)
    (h : lineFeed ∉ bytes.slice i j) :
    ∃ before lead tail behind, bytes = before ++ (lead ++ bytes.slice i j ++ tail) ++ behind ∧
      before.length + lead.length = i ∧ lastRow before = [] ∧
      lineFeed ∉ lead ++ bytes.slice i j ++ tail ∧ ∀ b ∈ behind.head?, b = lineFeed := by
  obtain ⟨before, h1, h2⟩ := exists_eq_append_lastRow (bytes.take i)
  -- the row runs on to the next line feed
  refine ⟨before, lastRow (bytes.take i), (bytes.drop j).takeWhile (· != lineFeed),
    (bytes.drop j).dropWhile (· != lineFeed), ?_, ?_, h2, ?_, fun b hb => ?_⟩
  · rw [← List.append_assoc before, ← List.append_assoc before, ← h1, take_append_slice bytes hij,
      List.append_assoc, List.takeWhile_append_dropWhile, List.take_append_drop]
  · rw [← List.length_append, ← h1, List.length_take]
    omega
  · simp only [List.mem_append, not_or]
    refine ⟨⟨lineFeed_notMem_lastRow _, h⟩, fun hm => ?_⟩
    have := List.mem_takeWhile_imp hm
    simp at this
  · have := List.head?_dropWhile_not (· != lineFeed) (bytes.drop j)
    rw [hb] at this
    simpa using this

/-- A stretch without line feeds lies in one row. -/
theorem exists_row_of_slice {bytes : Bytes} {i j : Nat} (hij : i ≤ j) (hj : j ≤ bytes.length)
    (h : lineFeed ∉ bytes.slice i j) :
    ∃ line, bytes.rows[(bytes.pointAt i).row]? = some line ∧
      (bytes.pointAt j).row = (bytes.pointAt i).row ∧
      (bytes.pointAt i).column ≤ (bytes.pointAt j).column ∧
      (bytes.pointAt j).column ≤ line.length ∧
      line.slice (bytes.pointAt i).column (bytes.pointAt j).column = bytes.slice i j := by
  obtain ⟨before, lead, tail, behind, hbytes, hi, hbefore, hline, hbehind⟩ :=
    exists_append_of_slice hij hj h
  have hlen := length_slice (i := i) hj
  have hlineLen : (lead ++ bytes.slice i j ++ tail).length =
      lead.length + (j - i) + tail.length := by
    rw [List.length_append, List.length_append, hlen]
  have hpi : bytes.pointAt i = ⟨before.count lineFeed, lead.length⟩ := by
    have := pointAt_append hbefore hline behind (show lead.length ≤ _ by omega)
    rwa [← hbytes, hi] at this
  have hpj : bytes.pointAt j = ⟨before.count lineFeed, lead.length + (j - i)⟩ := by
    have := pointAt_append hbefore hline behind (show lead.length + (j - i) ≤ _ by omega)
    rwa [← hbytes, ← Nat.add_assoc, hi, Nat.add_sub_cancel' hij] at this
  have hrow := rows_append hbefore hline hbehind
  rw [← hbytes] at hrow
  rw [hpi, hpj]
  refine ⟨_, hrow, rfl, Nat.le_add_right .., ?_, ?_⟩
  · rw [hlineLen]
    exact Nat.le_add_right ..
  · rw [slice, List.append_assoc, List.drop_left, Nat.add_sub_cancel_left, List.take_left' hlen]

end Bytes

end TwelveD
