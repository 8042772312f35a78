import TwelveD.Proofs.Characters
import TwelveD.Proofs.LayoutRules
import TwelveD.Proofs.LineEnds

/-!
# Layout changes blanks only

Every edit that lays out a document replaces spaces and tabs of one row by spaces. The text after
all edits has therefore as many rows as before, and in each row the same characters but for spaces
and tabs.
-/

namespace TwelveD

namespace Edit

/-- The edit writes spaces in place of blanks. -/
structure OnBlanks (text : Bytes) (e : Edit) : Prop extends LiesIn text e where
  /-- Nothing but blanks is replaced. -/
  blank : (text.slice (e.startIn text) (e.stopIn text)).isBlank = true
  /-- Nothing but spaces is written. -/
  spaces : ∃ width, e.newText = Bytes.spaces width
  /-- What follows is a character. -/
  boundary : text.IsBoundary (e.stopIn text)

variable {text : Bytes} {e : Edit}

theorem onBlanks_mk {i j : Nat} (hij : i ≤ j) (hj : j ≤ text.length)
    (hblank : (text.slice i j).isBlank = true) (hb : text.IsBoundary j) (width : Nat) :
    OnBlanks text ⟨⟨text.pointAt i, text.pointAt j⟩, Bytes.spaces width⟩ := by
  have hstart := startIn_mk (Nat.le_trans hij hj) (text.pointAt j) (Bytes.spaces width)
  have hstop := stopIn_mk hj (text.pointAt i) (Bytes.spaces width)
  refine ⟨liesIn_mk hij hj _, ?_, ⟨width, rfl⟩, ?_⟩
  · rw [hstart, hstop]
    exact hblank
  · rw [hstop]
    exact hb

theorem OnBlanks.newText_isBlank (h : OnBlanks text e) : e.newText.isBlank = true := by
  obtain ⟨width, hw⟩ := h.spaces
  rw [hw]
  exact Bytes.isBlank_spaces width

/-- An edit of blanks addresses blanks in a single row. -/
theorem OnBlanks.exists_row (h : OnBlanks text e) :
    ∃ line, text.rows[e.span.start.row]? = some line ∧ e.span.stop.row = e.span.start.row ∧
      e.span.start.column ≤ e.span.stop.column ∧ e.span.stop.column ≤ line.length ∧
      (line.slice e.span.start.column e.span.stop.column).isBlank = true := by
  obtain ⟨line, h1, h2, h3, h4, h5⟩ := Bytes.exists_row_of_slice h.le h.stop_le
    (Bytes.lineFeed_notMem_of_isBlank h.blank)
  rw [h.start_eq] at h1 h2 h3 h5
  rw [h.stop_eq] at h2 h3 h4 h5
  exact ⟨line, h1, h2, h3, h4, by rw [h5]; exact h.blank⟩

theorem encode_replicate_space (width : Nat) :
    Bytes.encode (List.replicate width ' ') = Bytes.spaces width := by
  induction width with
  | zero => rfl
  | succ width ih =>
    rw [List.replicate_succ, Bytes.encode_cons, ih]
    rfl

/-- Edits of blanks lead from a text of whole characters to one. -/
theorem exists_encode_eq_written {cs : List Char} {i j : Nat} {es : List Edit}
    (hes : InOrder (Bytes.encode cs) i j es) (hj : j ≤ (Bytes.encode cs).length)
    (hblank : ∀ e ∈ es, OnBlanks (Bytes.encode cs) e) (hbi : (Bytes.encode cs).IsBoundary i)
    (hbj : (Bytes.encode cs).IsBoundary j) :
    ∃ ds, Bytes.encode ds = written (Bytes.encode cs) i j es := by
  induction es generalizing i with
  | nil => exact Bytes.exists_encode_eq_slice hes hj hbi hbj
  | cons e es ih =>
    obtain ⟨h1, h2, h3⟩ := hes
    have he := hblank e (List.mem_cons_self ..)
    obtain ⟨width, hw⟩ := he.spaces
    obtain ⟨before, hbefore⟩ := Bytes.exists_encode_eq_slice h1 he.start_le hbi
      (Bytes.isBoundary_of_isBlank he.le he.blank he.boundary)
    obtain ⟨behind, hbehind⟩ := ih h3 (fun f hf => hblank f (List.mem_cons_of_mem e hf)) he.boundary
    refine ⟨before ++ List.replicate width ' ' ++ behind, ?_⟩
    rw [written, Bytes.encode_append, Bytes.encode_append, hbefore, hbehind, hw,
      encode_replicate_space]

end Edit

namespace SyntaxTree

variable {t : SyntaxTree} {e : Edit} {i l r width : Nat} {wanted : Bytes}

/-! ## The edits of the rules -/

/-- Where the blanks start that an indentation replaces. -/
def leadStart (t : SyntaxTree) (i : Nat) : Nat := (t.node i).start - (t.span i).start.column

theorem leadStart_le (t : SyntaxTree) (i : Nat) : t.leadStart i ≤ (t.node i).start :=
  Nat.sub_le ..

theorem eq_of_reindent? (hi : (t.node i).start ≤ t.source.length)
    (he : t.reindent? i width = some e) :
    e = ⟨⟨t.source.pointAt (t.leadStart i), t.source.pointAt (t.node i).start⟩,
      Bytes.spaces width⟩ := by
  obtain ⟨-, -, rfl⟩ := reindent?_eq_some_iff.mp he
  rw [leadStart, span, Bytes.pointAt_sub_column _ hi]

/-- Where the edit of an indentation stands and what it writes. -/
theorem WellFormed.of_reindent? (h : t.WellFormed) (hr : t.Reindents i width)
    (he : t.reindent? i width = some e) :
    e.startIn t.source = t.leadStart i ∧ e.stopIn t.source = (t.node i).start ∧
      e.newText = Bytes.spaces width := by
  have hi := h.start_le_length (hr.lt_size h)
  rw [eq_of_reindent? hi he]
  exact ⟨Edit.startIn_mk (Nat.le_trans (leadStart_le t i) hi) .., Edit.stopIn_mk hi .., rfl⟩

/-- Where the edit of a text between two nodes stands and what it writes. -/
theorem WellFormed.of_respace? (h : t.WellFormed) (hr : t.Respaces l r wanted)
    (he : t.respace? l r wanted = some e) :
    e.startIn t.source = (t.node l).stop ∧ e.stopIn t.source = (t.node r).start ∧
      e.newText = wanted := by
  obtain ⟨p, -, hp⟩ := hr.exists_parent
  have hi := h.start_le_length (lt_size_of_parent hp)
  obtain ⟨gap, hgap, -, -, rfl⟩ := respace?_eq_some_iff.mp he
  obtain ⟨-, hle, -⟩ := gap?_eq_some_iff.mp hgap
  exact ⟨Edit.startIn_mk (Nat.le_trans hle hi) .., Edit.stopIn_mk hi .., rfl⟩

theorem WellFormed.onBlanks_of_reindent? (h : t.WellFormed) (hi : i < t.size)
    (he : t.reindent? i width = some e) : e.OnBlanks t.source := by
  have hstart := h.start_le_length hi
  have hblank := (reindent?_eq_some_iff.mp he).1
  rw [eq_of_reindent? hstart he]
  exact Edit.onBlanks_mk (leadStart_le t i) hstart hblank (h.boundary i hi).1 width

theorem WellFormed.onBlanks_of_respace? (h : t.WellFormed) (hr : t.Respaces l r wanted)
    (he : t.respace? l r wanted = some e) : e.OnBlanks t.source := by
  obtain ⟨p, -, hp⟩ := hr.exists_parent
  have hsize := lt_size_of_parent hp
  obtain ⟨width, rfl⟩ := hr.exists_spaces
  obtain ⟨gap, hgap, hblank, -, rfl⟩ := respace?_eq_some_iff.mp he
  obtain ⟨-, hle, rfl⟩ := gap?_eq_some_iff.mp hgap
  exact Edit.onBlanks_mk hle (h.start_le_length hsize) hblank (h.boundary r hsize).1 width

theorem onBlanks_of_mem_lineEndEdits {text : Bytes} (hlen : text.length < UInt32.size)
    (he : e ∈ text.lineEndEdits) : e.OnBlanks text := by
  have h := Bytes.trimsRow_of_mem hlen he
  refine ⟨h.toLiesIn, Bytes.isBlank_iff.mpr fun b hb => ?_, ⟨0, h.newText_eq⟩, fun b hb => ?_⟩
  · rw [h.covers b hb]
    rfl
  · rcases h.behind b hb with rfl | rfl <;> decide

/-- A tree of a source every place of which has a point: points are pairs of 32-bit numbers. -/
structure Addressable (t : SyntaxTree) : Prop extends WellFormed t where
  /-- No row or column of the source is too large for a point. -/
  short : t.source.length < UInt32.size

instance (t : SyntaxTree) : Decidable t.Addressable :=
  decidable_of_iff (t.WellFormed ∧ t.source.length < UInt32.size)
    ⟨fun h => ⟨h.1, h.2⟩, fun h => ⟨h.toWellFormed, h.short⟩⟩

namespace Addressable

theorem trimsRow (h : t.Addressable) (he : e ∈ t.source.lineEndEdits) : t.source.TrimsRow e :=
  Bytes.trimsRow_of_mem h.short he

/-- Every finding is an edit of blanks. -/
theorem onBlanks (h : t.Addressable) (he : e ∈ t.layoutFindings) : e.OnBlanks t.source := by
  rcases mem_layoutFindings_iff.mp he with (⟨i, width, hr, he⟩ | ⟨l, r, wanted, hr, he⟩) | he
  · exact h.onBlanks_of_reindent? (hr.lt_size h.toWellFormed) he
  · exact h.onBlanks_of_respace? hr he
  · exact onBlanks_of_mem_lineEndEdits h.short he

theorem onBlanks_of_mem (h : t.Addressable) (he : e ∈ t.layoutEdits) : e.OnBlanks t.source :=
  h.onBlanks (Edit.mem_of_mem_batch he)

theorem inOrder (h : t.Addressable) : Edit.InOrder t.source 0 t.source.length t.layoutEdits :=
  Edit.inOrder_batch fun _ he => (h.onBlanks he).toLiesIn

theorem ink_laidOut (h : t.Addressable) : t.laidOut.ink = t.source.ink := by
  rw [laidOut, Edit.applyAll_eq_written, Edit.ink_written h.inOrder
    (fun e he => ⟨(h.onBlanks_of_mem he).blank, (h.onBlanks_of_mem he).newText_isBlank⟩),
    Bytes.slice_length, List.drop_zero]

end Addressable

/-! ## The laid out text -/

/-- A call with spaces in the wrong places and at the end of its row. -/
def spacedCall : SyntaxTree where
  source := Bytes.ofString "f( \"é\" ,x)  \n"
  nodes := #[⟨.translationUnit, none, 0, 14, none⟩, ⟨.callExpression, none, 0, 11, some 0⟩,
    ⟨.identifier, some .function, 0, 1, some 1⟩, ⟨.argumentList, none, 1, 11, some 1⟩,
    ⟨.openParen, none, 1, 2, some 3⟩, ⟨.other "string_literal", none, 3, 7, some 3⟩,
    ⟨.comma, none, 8, 9, some 3⟩, ⟨.identifier, none, 9, 10, some 3⟩,
    ⟨.closeParen, none, 10, 11, some 3⟩]
  linksBack := by decide

theorem spacedCall_addressable : spacedCall.Addressable := by decide

theorem layoutEdits_spacedCall : spacedCall.layoutEdits =
    [⟨⟨⟨0, 2⟩, ⟨0, 3⟩⟩, []⟩, ⟨⟨⟨0, 7⟩, ⟨0, 8⟩⟩, []⟩, ⟨⟨⟨0, 9⟩, ⟨0, 9⟩⟩, [Bytes.space]⟩,
      ⟨⟨⟨0, 11⟩, ⟨0, 13⟩⟩, []⟩] := by
  have hfindings : spacedCall.layoutFindings =
      [⟨⟨⟨0, 11⟩, ⟨0, 13⟩⟩, []⟩, ⟨⟨⟨0, 2⟩, ⟨0, 3⟩⟩, []⟩, ⟨⟨⟨0, 7⟩, ⟨0, 8⟩⟩, []⟩,
        ⟨⟨⟨0, 9⟩, ⟨0, 9⟩⟩, [Bytes.space]⟩] := by decide +kernel
  rw [layoutEdits, hfindings]
  simp [Edit.batch, List.mergeSort, Span.le, Point.lt_iff, Point.le_iff, Edit.dropOverlapping,
    Edit.fitsAfter]

theorem laidOut_spacedCall : spacedCall.laidOut = Bytes.ofString "f(\"é\", x)\n" := by
  rw [laidOut, layoutEdits_spacedCall]
  decide

end SyntaxTree

end TwelveD
