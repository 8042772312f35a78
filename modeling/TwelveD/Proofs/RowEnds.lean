import TwelveD.Proofs.Nesting
import TwelveD.Proofs.TrimmedRows

/-!
# The effect of the edits at the ends of rows

`Bytes.lineEndEdits` has at most one edit for a row, in the order of the rows. Made one after the
other, from the last to the first, the edits leave the text with every row cut as `Bytes.TrimsTo`
says, and without any other change.
-/

namespace TwelveD

namespace Edit

variable {text : Bytes} {es : List Edit}

/-- Makes an edit of `text` in what edits further back have left of it. -/
def spliceInto (text : Bytes) (e : Edit) (left : Bytes) : Bytes :=
  left.take (text.offsetAt e.span.start) ++ e.newText ++ left.drop (text.offsetAt e.span.stop)

/-- Makes edits one after the other, the last one in the text first. All of them speak of the text
    before any of the edits. -/
def applyLastFirst (text : Bytes) (es : List Edit) : Bytes :=
  (es.mergeSort fun e f => e.span.le f.span).foldr (spliceInto text) text

theorem foldr_spliceInto {i : Nat} (h : InOrder text i text.length es) :
    es.foldr (spliceInto text) text = text.take i ++ written text i text.length es := by
  induction es generalizing i with
  | nil =>
    rw [List.foldr_nil, written, Bytes.slice_length, List.take_append_drop]
  | cons e es ih =>
    obtain ⟨hstart, hstop, hrest⟩ := h
    have hle : e.stopIn text ≤ text.length := hrest.le
    have hlen : (text.take (e.stopIn text)).length = e.stopIn text := List.length_take_of_le hle
    rw [List.foldr_cons, ih hrest, spliceInto, ← startIn, ← stopIn,
      List.take_append_of_le_length (by omega), List.take_take, Nat.min_eq_left hstop,
      List.drop_left' hlen, written, ← Bytes.take_append_slice text hstart]
    simp only [List.append_assoc]

/-- In order, edits can be made from either end. -/
theorem applyLastFirst_eq_applyAll (h : InOrder text 0 text.length es)
    (hsorted : es.Pairwise fun e f => e.span.le f.span = true) :
    applyLastFirst text es = applyAll text es := by
  rw [applyLastFirst, List.mergeSort_of_pairwise hsorted, foldr_spliceInto h, List.take_zero,
    List.nil_append, applyAll_eq_written]

end Edit

namespace Bytes

variable {text line row : Bytes} {e : Edit} {n : Nat}

/-! ## Where the edits lie -/

/-- An edit of some text inside one row. -/
structure LiesInRow (text : Bytes) (e : Edit) : Prop where
  /-- It starts and ends in one row. -/
  single : e.span.stop.row = e.span.start.row
  /-- It covers some text. -/
  covers : e.span.start.column < e.span.stop.column
  /-- There is such a row, and it goes on to the end of the edit. -/
  inside : ∃ line, text.rows[e.span.start.row]? = some line ∧ e.span.stop.column ≤ line.length
  /-- No number is greater than the text is long. -/
  bounded : e.span.start.row ≤ text.length ∧ e.span.stop.column ≤ text.length
  /-- Both ends stand between characters. -/
  boundary : text.IsBoundary (text.offsetAt e.span.start) ∧ text.IsBoundary (text.offsetAt e.span.stop)

theorem pairwise_lineEndEditsFrom {lines : List Bytes} (hn : n + lines.length ≤ UInt32.size)
    (hlines : ∀ line ∈ lines, line.length < UInt32.size) :
    (lineEndEditsFrom n lines).Pairwise fun e f => e.span.start.row < f.span.start.row := by
  induction lines generalizing n with
  | nil => exact List.Pairwise.nil
  | cons line lines ih =>
    obtain ⟨hline, hrest⟩ := List.forall_mem_cons.mp hlines
    rw [List.length_cons] at hn
    have hlater : ∀ f ∈ lineEndEditsFrom (n + 1) lines, n < f.span.start.row := by
      intro f hf
      obtain ⟨k, other, hk, hf⟩ := mem_lineEndEditsFrom_iff.mp hf
      have hklt : k < lines.length := (List.getElem?_eq_some_iff.mp hk).1
      rw [(of_lineEndEdit? (by omega) (hrest other (List.mem_of_getElem? hk)) hf).2]
      show n < n + 1 + k
      omega
    rw [lineEndEditsFrom]
    cases he : lineEndEdit? n line with
    | none => exact ih (by omega) hrest
    | some e =>
      refine List.pairwise_cons.mpr ⟨?_, ih (by omega) hrest⟩
      intro f hf
      rw [(of_lineEndEdit? (by omega) hline he).2]
      exact hlater f hf

theorem pairwise_lineEndEdits (hlen : text.length < UInt32.size) :
    text.lineEndEdits.Pairwise fun e f => e.span.start.row < f.span.start.row := by
  have hcount : text.count lineFeed ≤ text.length := List.count_le_length
  refine pairwise_lineEndEditsFrom ?_ ?_
  · rw [rows, Text.length_pieces]
    omega
  · intro line hline
    obtain ⟨n, hrow⟩ := List.mem_iff_getElem?.mp hline
    exact Nat.lt_of_le_of_lt (le_of_rows hrow).2 hlen

theorem liesInRow_of_mem (hlen : text.length < UInt32.size) (h : e ∈ text.lineEndEdits) :
    text.LiesInRow e := by
  have htrims := trimsRow_of_mem hlen h
  obtain ⟨n, line, hrow, he⟩ := mem_lineEndEdits_iff.mp h
  obtain ⟨hn, hline⟩ := le_of_rows hrow
  obtain ⟨hlt, rfl⟩ := of_lineEndEdit? (by omega) (by omega) he
  have hstop : line.withoutReturn.length ≤ line.length := (withoutReturn_isPrefix line).length_le
  refine ⟨rfl, hlt, ⟨line, hrow, hstop⟩, ⟨hn, Nat.le_trans hstop hline⟩, ?_, ?_⟩
  · intro b hb
    have hspace := htrims.covers b (mem_slice_iff.mpr ⟨_, Nat.le_refl _, htrims.start_lt, hb⟩)
    rw [hspace]
    decide
  · intro b hb
    rcases htrims.behind b hb with hlf | hcr
    · rw [hlf]
      decide
    · rw [hcr]
      decide

/-! ## What the edits leave -/

/-- `row` is `line` without the spaces at its end, all of them; if a carriage return ends the line, then
    without the spaces right before it. -/
inductive TrimsTo : Bytes → Bytes → Prop where
  | atEnd {kept : Bytes} (n : Nat) (hkept : kept.getLast? ≠ some space)
      (hend : (kept ++ spaces n).getLast? ≠ some carriageReturn) : TrimsTo (kept ++ spaces n) kept
  | beforeReturn {kept : Bytes} (n : Nat) (hkept : kept.getLast? ≠ some space) :
      TrimsTo (kept ++ spaces n ++ [carriageReturn]) (kept ++ [carriageReturn])

theorem trimsTo_trimmedRow (line : Bytes) : TrimsTo line (trimmedRow line) := by
  by_cases hret : line.getLast? = some carriageReturn
  · obtain ⟨lead, rfl⟩ := List.getLast?_eq_some_iff.mp hret
    obtain ⟨n, hlead⟩ := exists_append_spaces lead
    have htrims := TrimsTo.beforeReturn n (getLast?_withoutSpaces_ne lead)
    rw [← hlead] at htrims
    rw [trimmedRow, if_pos hret, List.dropLast_concat]
    exact htrims
  · obtain ⟨n, hline⟩ := exists_append_spaces line
    have htrims := TrimsTo.atEnd n (getLast?_withoutSpaces_ne line) (hline ▸ hret)
    rw [← hline] at htrims
    rw [trimmedRow, if_neg hret]
    exact htrims

theorem TrimsTo.filter_eq (h : TrimsTo line row) :
    row.filter (· != space) = line.filter (· != space) := by
  cases h with
  | atEnd n hkept hend => simp [spaces]
  | beforeReturn n hkept => simp [spaces]

/-- Nothing but spaces is removed. -/
theorem filter_trimRows (hlen : text.length < UInt32.size) :
    (trimRows text).filter (· != space) = text.filter (· != space) := by
  have hkeeps : (lineFeed != space) = true := by decide
  have hrows := Text.pieces_filter (p := (· != space)) hkeeps
  have heach : (text.rows.map trimmedRow).map (List.filter (· != space)) =
      text.rows.map (List.filter (· != space)) := by
    rw [List.map_map]
    exact List.map_congr_left fun line _ => (trimsTo_trimmedRow line).filter_eq
  rw [← Text.joined_pieces lineFeed ((trimRows text).filter _), hrows, ← rows, rows_trimRows hlen, heach,
    rows, ← hrows, Text.joined_pieces]

theorem applyLastFirst_lineEndEdits (hlen : text.length < UInt32.size) :
    Edit.applyLastFirst text text.lineEndEdits = trimRows text := by
  refine Edit.applyLastFirst_eq_applyAll (written_lineEndEdits hlen).1 ?_
  refine (pairwise_lineEndEdits hlen).imp ?_
  intro e f hlt
  have hlt' : e.span.start < f.span.start := Or.inl hlt
  rw [Span.le, decide_eq_true hlt', Bool.true_or]

/-- The edits at the ends of rows come in the order of the rows, one for a row at most, and each one
    covers some text of its row. Together they trim every row and keep all bytes but spaces. The text is
    one whose rows and columns can be counted with 32 bits. -/
theorem lineEndEdits_trim_rows (text : Bytes) (hlen : text.length < UInt32.size) :
    (text.lineEndEdits.Pairwise fun e f => e.span.start.row < f.span.start.row) ∧
    (∀ e ∈ text.lineEndEdits, text.LiesInRow e ∧ e.newText = []) ∧
    (∃ lines, List.Forall₂ TrimsTo text.rows lines ∧
      Edit.applyLastFirst text text.lineEndEdits = Text.joined lineFeed lines) ∧
    (Edit.applyLastFirst text text.lineEndEdits).filter (· != space) = text.filter (· != space) := by
  refine ⟨pairwise_lineEndEdits hlen, ?_, ⟨text.rows.map trimmedRow, ?_, ?_⟩, ?_⟩
  · intro e he
    exact ⟨liesInRow_of_mem hlen he, (trimsRow_of_mem hlen he).newText_eq⟩
  · rw [List.forall₂_map_right_iff]
    exact List.forall₂_same.mpr fun line _ => trimsTo_trimmedRow line
  · rw [applyLastFirst_lineEndEdits hlen, trimRows_eq hlen]
  · rw [applyLastFirst_lineEndEdits hlen]
    exact filter_trimRows hlen

/-- Spaces at the end of a row, a row without any, and spaces before a carriage return. -/
theorem lineEndEdits_trim_rows_threeRows :
    (ofString "a  \nb\nc \r\n").length < UInt32.size ∧
    (ofString "a  \nb\nc \r\n").lineEndEdits =
      [⟨⟨⟨0, 1⟩, ⟨0, 3⟩⟩, []⟩, ⟨⟨⟨2, 1⟩, ⟨2, 2⟩⟩, []⟩] ∧
    Edit.applyLastFirst (ofString "a  \nb\nc \r\n") (ofString "a  \nb\nc \r\n").lineEndEdits =
      ofString "a\nb\nc\r\n" ∧
    ∃ lines, List.Forall₂ TrimsTo (ofString "a  \nb\nc \r\n").rows lines ∧
      ofString "a\nb\nc\r\n" = Text.joined lineFeed lines := by
  have hlen : (ofString "a  \nb\nc \r\n").length < UInt32.size := by decide
  have hleft : Edit.applyLastFirst (ofString "a  \nb\nc \r\n")
      (ofString "a  \nb\nc \r\n").lineEndEdits = ofString "a\nb\nc\r\n" := by
    rw [applyLastFirst_lineEndEdits hlen]
    decide
  obtain ⟨-, -, hrows, -⟩ := lineEndEdits_trim_rows (ofString "a  \nb\nc \r\n") hlen
  rw [hleft] at hrows
  exact ⟨hlen, by decide, hleft, hrows⟩

end Bytes

end TwelveD
