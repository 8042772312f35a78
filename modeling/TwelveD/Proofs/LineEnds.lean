import Mathlib.Data.List.Chain
import TwelveD.Layout.LineEnds
import TwelveD.Proofs.Edits

/-!
# Edits at the ends of rows

What `Bytes.lineEndEdits` finds: each edit deletes all of the spaces before the end of a row, or
before a carriage return there, and every space right at the end of a row is deleted by some edit. A
text is trimmed, `Bytes.IsTrimmed`, if there is no such space.

The points of an edit have room for 32 bits. In a text of `UInt32.size` bytes or more a row or a column
may be too large for them, and the edit stands elsewhere; what is said about where edits stand is said
of shorter texts. Whether there is an edit at all does not depend on it.
-/

namespace TwelveD

namespace Bytes

variable {text line row : Bytes} {e : Edit} {n : Nat}

theorem mem_lineEndEditsFrom_iff {row : Nat} {lines : List Bytes} {e : Edit} :
    e ∈ lineEndEditsFrom row lines ↔
      ∃ n line, lines[n]? = some line ∧ lineEndEdit? (row + n) line = some e := by
  induction lines generalizing row with
  | nil => simp [lineEndEditsFrom]
  | cons line lines ih =>
    rw [lineEndEditsFrom, List.mem_append, Option.mem_toList, ih]
    constructor
    · rintro (h | ⟨n, other, h1, h2⟩)
      · exact ⟨0, line, rfl, h⟩
      · exact ⟨n + 1, other, by simpa using h1, by rw [← h2]; congr 1; omega⟩
    · rintro ⟨n, other, h1, h2⟩
      cases n with
      | zero =>
        obtain rfl : line = other := by simpa using h1
        exact Or.inl h2
      | succ n => exact Or.inr ⟨n, other, by simpa using h1, by rw [← h2]; congr 1; omega⟩

theorem mem_lineEndEdits_iff {text : Bytes} {e : Edit} : e ∈ text.lineEndEdits ↔
    ∃ row line, text.rows[row]? = some line ∧ lineEndEdit? row line = some e := by
  rw [lineEndEdits, mem_lineEndEditsFrom_iff]
  simp only [Nat.zero_add]

theorem exists_append_spaces (row : Bytes) : ∃ n, row = row.withoutSpaces ++ spaces n := by
  have hparts : row.withoutSpaces ++ row.rtakeWhile (· == space) = row :=
    List.rdropWhile_append_rtakeWhile
  have hspaces : row.rtakeWhile (· == space) = spaces (row.rtakeWhile (· == space)).length := by
    refine List.eq_replicate_of_mem ?_
    intro b hb
    simpa using List.mem_rtakeWhile_imp hb
  exact ⟨_, by rw [← hspaces, hparts]⟩

/-- A row is its text, the spaces behind it and perhaps a carriage return. -/
theorem exists_line_parts (line : Bytes) :
    ∃ spaces ret, line = line.withoutReturn.withoutSpaces ++ spaces ++ ret ∧
      line.withoutReturn = line.withoutReturn.withoutSpaces ++ spaces ∧
      (∀ b ∈ spaces, b = space) ∧ (∀ b ∈ ret, b = carriageReturn) := by
  obtain ⟨n, hparts⟩ := exists_append_spaces line.withoutReturn
  have hspaces : ∀ b ∈ spaces n, b = space := fun b hb => List.eq_of_mem_replicate hb
  by_cases hret : line.getLast? = some carriageReturn
  · refine ⟨_, [carriageReturn], ?_, hparts, hspaces, by simp⟩
    rw [← hparts, withoutReturn, if_pos hret]
    exact (List.dropLast_append_getLast? _ hret).symm
  · refine ⟨_, [], ?_, hparts, hspaces, by simp⟩
    rw [← hparts, withoutReturn, if_neg hret, List.append_nil]

theorem getLast?_withoutSpaces_ne (line : Bytes) : line.withoutSpaces.getLast? ≠ some space := by
  rw [withoutSpaces, List.getLast?_reverse]
  intro h
  have := List.head?_dropWhile_not (· == space) line.reverse
  rw [h] at this
  simp at this

theorem withoutSpaces_isPrefix (row : Bytes) : row.withoutSpaces <+: row :=
  List.rdropWhile_prefix (· == space) row

theorem withoutReturn_isPrefix (line : Bytes) : line.withoutReturn <+: line := by
  unfold withoutReturn
  split
  · exact List.dropLast_prefix line
  · exact List.prefix_rfl

theorem withoutSpaces_eq_self_iff : row.withoutSpaces = row ↔ row.getLast? ≠ some space := by
  constructor
  · intro h
    rw [← h]
    exact getLast?_withoutSpaces_ne row
  · intro h
    refine List.rdropWhile_eq_self_iff.mpr fun hne hlast => h ?_
    rw [List.getLast?_eq_some_getLast hne, beq_iff_eq.mp hlast]

/-! ## Single rows -/

/-- Nothing is to be removed from a row. -/
def IsSettled (line : Bytes) : Prop := line.withoutReturn.getLast? ≠ some space

theorem lineEndEdit?_eq_none_iff :
    lineEndEdit? n line = none ↔ line.IsSettled := by
  rw [IsSettled, ← withoutSpaces_eq_self_iff]
  have hlead := withoutSpaces_isPrefix line.withoutReturn
  simp only [lineEndEdit?, ite_eq_left_iff, reduceCtorEq, imp_false, not_not]
  exact ⟨hlead.eq_of_length, fun h => congrArg List.length h⟩

theorem lineEndEdits_eq_nil_iff :
    text.lineEndEdits = [] ↔ ∀ line ∈ text.rows, line.IsSettled := by
  rw [List.eq_nil_iff_forall_not_mem]
  constructor
  · intro h line hline
    obtain ⟨row, hrow⟩ := List.mem_iff_getElem?.mp hline
    rw [← lineEndEdit?_eq_none_iff (n := row), Option.eq_none_iff_forall_ne_some]
    intro e he
    exact h e (mem_lineEndEdits_iff.mpr ⟨row, line, hrow, he⟩)
  · intro h e he
    obtain ⟨row, line, hrow, he⟩ := mem_lineEndEdits_iff.mp he
    rw [lineEndEdit?_eq_none_iff.mpr (h line (List.mem_of_getElem? hrow))] at he
    cases he

/-- Neither the number of a row nor its length exceeds the length of the text. -/
theorem le_of_rows (h : text.rows[n]? = some line) : n ≤ text.length ∧ line.length ≤ text.length := by
  obtain ⟨before, behind, htext, -, hcount, -⟩ := exists_append_of_rows h
  have hbefore : before.count lineFeed ≤ before.length := List.count_le_length
  have hlen : text.length = before.length + line.length + behind.length := by
    rw [htext, List.length_append, List.length_append]
  omega

/-- The edit of a row that can be counted with 32 bits. -/
theorem of_lineEndEdit? (hn : n < UInt32.size) (hline : line.length < UInt32.size)
    (h : lineEndEdit? n line = some e) :
    line.withoutReturn.withoutSpaces.length < line.withoutReturn.length ∧
      e = ⟨⟨⟨n, line.withoutReturn.withoutSpaces.length⟩, ⟨n, line.withoutReturn.length⟩⟩, []⟩ := by
  have hkept := (withoutSpaces_isPrefix line.withoutReturn).length_le
  have hshort := (withoutReturn_isPrefix line).length_le
  simp only [lineEndEdit?] at h
  split at h
  · cases h
  · rw [Point.ofCounts_of_lt hn (by omega), Point.ofCounts_of_lt hn (by omega)] at h
    exact ⟨by omega, (Option.some.inj h).symm⟩

/-! ## Where the edits stand -/

/-- What an edit at the end of a row does. -/
structure TrimsRow (text : Bytes) (e : Edit) : Prop extends e.LiesIn text where
  /-- It covers some text. -/
  start_lt : e.startIn text < e.stopIn text
  /-- It writes nothing. -/
  newText_eq : e.newText = []
  /-- It covers spaces. -/
  covers : ∀ b ∈ text.slice (e.startIn text) (e.stopIn text), b = space
  /-- The row ends behind it, but for a carriage return. -/
  behind : ∀ b ∈ text[e.stopIn text]?, b = lineFeed ∨ b = carriageReturn
  /-- No space stands before it. -/
  before : (text.take (e.startIn text)).getLast? ≠ some space

theorem trimsRow_mk {lead deleted rest : Bytes} (hne : deleted ≠ [])
    (hdeleted : ∀ b ∈ deleted, b = space)
    (hrest : ∀ b ∈ rest.head?, b = lineFeed ∨ b = carriageReturn)
    (hlead : lead.getLast? ≠ some space) :
    TrimsRow (lead ++ (deleted ++ rest)) ⟨⟨(lead ++ (deleted ++ rest)).pointAt lead.length,
      (lead ++ (deleted ++ rest)).pointAt (lead.length + deleted.length)⟩, []⟩ := by
  have hlen : lead.length + deleted.length ≤ (lead ++ (deleted ++ rest)).length := by
    rw [List.length_append, List.length_append]
    omega
  have hpos := List.length_pos_iff.mpr hne
  refine ⟨Edit.liesIn_mk (Nat.le_add_right ..) hlen [], ?_, rfl, ?_, ?_, ?_⟩
  · rw [Edit.startIn_mk (by omega), Edit.stopIn_mk hlen]
    omega
  · rw [Edit.startIn_mk (by omega), Edit.stopIn_mk hlen, slice, List.drop_left,
      Nat.add_sub_cancel_left, List.take_left]
    exact hdeleted
  · rw [Edit.stopIn_mk hlen, ← List.append_assoc, ← List.length_append,
      List.getElem?_append_right (Nat.le_refl _), Nat.sub_self, ← List.head?_eq_getElem?]
    exact hrest
  · rw [Edit.startIn_mk (by omega), List.take_left]
    exact hlead

theorem trimsRow_of_mem (hlen : text.length < UInt32.size) (h : e ∈ text.lineEndEdits) :
    text.TrimsRow e := by
  obtain ⟨n, line, hrow, he⟩ := mem_lineEndEdits_iff.mp h
  obtain ⟨hn, hle⟩ := le_of_rows hrow
  obtain ⟨hlt, rfl⟩ := of_lineEndEdit? (by omega) (by omega) he
  obtain ⟨before, behind, htext, hbefore, hcount, hline, hbehind⟩ := exists_append_of_rows hrow
  obtain ⟨deleted, ret, hparts, hshort, hdeleted, hret⟩ := exists_line_parts line
  set kept := line.withoutReturn.withoutSpaces with hkept
  have hstop : line.withoutReturn.length = kept.length + deleted.length := by
    rw [hshort, List.length_append]
  have hlineLen : kept.length + deleted.length ≤ line.length := by
    rw [hparts, List.length_append, List.length_append]
    omega
  have hall : text = (before ++ kept) ++ (deleted ++ (ret ++ behind)) := by
    conv_lhs => rw [htext, hparts]
    simp only [List.append_assoc]
  have hedit : (⟨⟨text.pointAt (before ++ kept).length,
      text.pointAt ((before ++ kept).length + deleted.length)⟩, []⟩ : Edit) =
        ⟨⟨⟨n, kept.length⟩, ⟨n, line.withoutReturn.length⟩⟩, []⟩ := by
    have hp1 := pointAt_append hbefore hline behind (show kept.length ≤ line.length by omega)
    have hp2 := pointAt_append hbefore hline behind hlineLen
    rw [← htext, hcount] at hp1 hp2
    rw [List.length_append, Nat.add_assoc, hp1, hp2, hstop]
  rw [← hedit, hall]
  refine trimsRow_mk ?_ hdeleted ?_ ?_
  · rintro rfl
    rw [hstop, List.length_nil, Nat.add_zero] at hlt
    exact Nat.lt_irrefl _ hlt
  · cases ret with
    | nil => exact fun b hb => Or.inl (hbehind b hb)
    | cons c ret =>
      intro b hb
      obtain rfl : c = b := Option.some.inj hb
      exact Or.inr (hret c (List.mem_cons_self ..))
  · rw [List.getLast?_append]
    intro hlast
    cases hk : kept.getLast? with
    | some b =>
      rw [hk] at hlast
      exact getLast?_withoutSpaces_ne line.withoutReturn (hk.trans hlast)
    | none =>
      rw [hk, Option.none_or] at hlast
      rcases lastRow_eq_nil_iff.mp hbefore with rfl | hlf
      · cases hlast
      · rw [hlf] at hlast
        exact absurd hlast (by decide)

/-- Two such edits that end at one offset are one. -/
theorem TrimsRow.ext {text : Bytes} {e f : Edit} (he : text.TrimsRow e) (hf : text.TrimsRow f)
    (hstop : e.stopIn text = f.stopIn text) : e = f := by
  have hle : ∀ {e f : Edit}, text.TrimsRow e → text.TrimsRow f → e.stopIn text = f.stopIn text →
      f.startIn text ≤ e.startIn text := by
    intro e f he hf hstop
    -- otherwise a space that `e` deletes would stand before `f`
    by_contra hlt
    have hlen : f.startIn text - 1 < text.length := by
      have := hf.start_le
      omega
    have hmem : text[f.startIn text - 1] ∈ text.slice (e.startIn text) (e.stopIn text) := by
      have := hf.start_lt
      exact mem_slice_iff.mpr ⟨_, by omega, by omega, List.getElem?_eq_getElem hlen⟩
    refine hf.before ?_
    rw [List.getLast?_take, if_neg (by omega), List.getElem?_eq_getElem hlen, he.covers _ hmem]
    rfl
  exact he.toLiesIn.ext hf.toLiesIn (Nat.le_antisymm (hle hf he hstop.symm) (hle he hf hstop)) hstop
    (he.newText_eq.trans hf.newText_eq.symm)

/-- Every space at the end of a row is deleted. -/
theorem exists_lineEndEdit (before : Bytes) {behind : Bytes} (h : ∀ b ∈ behind.head?, b = lineFeed)
    (hshort : (before ++ space :: behind).length < UInt32.size) :
    ∃ e ∈ (before ++ space :: behind).lineEndEdits,
      e.startIn (before ++ space :: behind) ≤ before.length ∧
        e.stopIn (before ++ space :: behind) = before.length + 1 := by
  obtain ⟨first, h1, h2⟩ := exists_eq_append_lastRow before
  set lead := lastRow before with hlead
  have hlead : lineFeed ∉ lead := lineFeed_notMem_lastRow _
  have hline : lineFeed ∉ lead ++ [space] := by
    rw [List.mem_append, not_or]
    exact ⟨hlead, by decide⟩
  have htext : before ++ space :: behind = first ++ (lead ++ [space]) ++ behind := by
    rw [h1]
    simp only [List.append_assoc, List.singleton_append]
  have hrow := rows_append h2 hline h
  have hret : (lead ++ [space]).withoutReturn = lead ++ [space] := by
    rw [withoutReturn, if_neg]
    rw [List.getLast?_append, List.getLast?_singleton, Option.some_or]
    decide
  have hkept : (lead ++ [space]).withoutSpaces.length ≤ lead.length := by
    have hdrop : (lead ++ [space]).withoutSpaces = lead.withoutSpaces := by
      simp [withoutSpaces]
    rw [hdrop, withoutSpaces, List.length_reverse]
    exact Nat.le_trans (List.dropWhile_sublist _).length_le (by rw [List.length_reverse])
  have hstart := rowStart_append h2 ((lead ++ [space]) ++ behind)
  rw [← List.append_assoc, ← htext] at hstart
  have hlen : before.length = first.length + lead.length := by
    rw [h1, List.length_append]
  rw [← htext] at hrow
  obtain ⟨hn, hle⟩ := le_of_rows hrow
  have hsome : lineEndEdit? (first.count lineFeed) (lead ++ [space]) ≠ none := by
    rw [Ne, lineEndEdit?_eq_none_iff, IsSettled, hret, List.getLast?_concat]
    exact not_not.mpr rfl
  obtain ⟨e, he⟩ := Option.ne_none_iff_exists'.mp hsome
  obtain ⟨-, rfl⟩ := of_lineEndEdit? (by omega) (by omega) he
  rw [hret, List.length_append, List.length_singleton] at he
  refine ⟨_, mem_lineEndEdits_iff.mpr ⟨_, _, hrow, he⟩, ?_, ?_⟩
  · simp only [Edit.startIn, offsetAt, hstart]
    omega
  · simp only [Edit.stopIn, offsetAt, hstart]
    omega

/-! ## Rows without spaces at their ends -/

/-- A space does not end a row. -/
def KeepsTrimmed (a b : UInt8) : Prop := a = space → b ≠ lineFeed

/-- No space stands before a line feed or at the end of the text. -/
def IsTrimmed (bytes : Bytes) : Prop := (bytes ++ [lineFeed]).IsChain KeepsTrimmed

theorem isChain_slice {R : UInt8 → UInt8 → Prop} {bytes : Bytes} {i j : Nat}
    (h : ∀ o, i ≤ o → o + 1 < j → ∀ a ∈ bytes[o]?, ∀ b ∈ bytes[o + 1]?, R a b) :
    (bytes.slice i j).IsChain R := by
  rw [List.isChain_iff_getElem]
  intro n hn
  have hlen : n + 1 < j - i ∧ i + (n + 1) < bytes.length := by
    rw [slice, List.length_take, List.length_drop] at hn
    omega
  refine h (i + n) (by omega) (by omega) _ ?_ _ ?_
  · simp only [slice, List.getElem_take, List.getElem_drop]
    exact List.getElem?_eq_getElem _
  · simp only [slice, List.getElem_take, List.getElem_drop]
    exact List.getElem?_eq_getElem _

/-- Spaces between two texts end a row only if the second text starts with a line feed. -/
theorem isChain_append_spaces {xs ys : Bytes} {width : Nat} (hxs : xs.IsChain KeepsTrimmed)
    (hys : ys.IsChain KeepsTrimmed)
    (h : (∀ y ∈ ys.head?, y ≠ lineFeed) ∨ (width = 0 ∧ xs.getLast? ≠ some space)) :
    (xs ++ (spaces width ++ ys)).IsChain KeepsTrimmed := by
  cases width with
  | zero =>
    refine List.isChain_append.mpr ⟨hxs, hys, fun x hx y hy hspace => ?_⟩
    rcases h with h | ⟨-, hlast⟩
    · exact h y hy
    · exact absurd (hspace ▸ hx) hlast
  | succ width =>
    have hys' := h.resolve_right fun h => Nat.succ_ne_zero width h.1
    have hmid : (spaces (width + 1)).IsChain KeepsTrimmed :=
      List.isChain_replicate_of_rel _ fun _ => by decide
    refine List.isChain_append.mpr ⟨hxs, List.isChain_append.mpr
      ⟨hmid, hys, fun _ _ y hy _ => hys' y hy⟩, fun x _ y hy _ => ?_⟩
    obtain rfl : space = y := Option.some.inj hy
    decide

theorem isTrimmed_slice {bytes : Bytes} {k : Nat} (hk : k ≤ bytes.length)
    (h : ∀ o, k ≤ o → bytes[o]? = some space → ¬ ∀ b ∈ bytes[o + 1]?, b = lineFeed) :
    (bytes.slice k bytes.length).IsTrimmed := by
  refine List.isChain_append.mpr ⟨isChain_slice fun o ho _ a ha b hb hspace hlf => ?_, by simp, ?_⟩
  · refine h o ho (hspace ▸ ha) fun c hc => ?_
    rw [← Option.some.inj (hb.symm.trans hc), hlf]
  · rintro a ha - - rfl -
    rcases Nat.lt_or_eq_of_le hk with hlt | rfl
    · rw [getLast?_slice hlt (Nat.le_refl _)] at ha
      refine h (bytes.length - 1) (by omega) ha fun c hc => ?_
      rw [Nat.sub_add_cancel (by omega), List.getElem?_length] at hc
      cases hc
    · rw [slice_self] at ha
      cases ha

/-- In a trimmed text there is nothing to do at the ends of the rows. -/
theorem lineEndEdits_eq_nil (h : text.IsTrimmed) (hcr : carriageReturn ∉ text) :
    text.lineEndEdits = [] := by
  rw [lineEndEdits_eq_nil_iff]
  intro line hline
  obtain ⟨n, hrow⟩ := List.mem_iff_getElem?.mp hline
  obtain ⟨before, behind, rfl, -, -, -, hbehind⟩ := exists_append_of_rows hrow
  have hret : line.getLast? ≠ some carriageReturn := by
    intro hlast
    exact hcr (List.mem_append_left _ (List.mem_append_right _ (List.mem_of_getLast? hlast)))
  rw [IsSettled, withoutReturn, if_neg hret]
  intro hlast
  obtain ⟨lead, rfl⟩ := List.getLast?_eq_some_iff.mp hlast
  -- the line feed behind the row, or the one that is put behind the text
  have hnext : (behind ++ [lineFeed]).head? = some lineFeed := by
    cases behind with
    | nil => rfl
    | cons b behind => exact congrArg some (hbehind b rfl)
  have hsplit : before ++ (lead ++ [space]) ++ behind ++ [lineFeed] =
      (before ++ lead ++ [space]) ++ (behind ++ [lineFeed]) := by
    simp only [List.append_assoc]
  rw [IsTrimmed, hsplit] at h
  exact (List.isChain_append.mp h).2.2 space List.getLast?_concat lineFeed hnext rfl rfl

end Bytes

namespace Edit

/-- What is needed of the edits for all rows to be trimmed: they cover the spaces at the ends of the
    rows, and none of them leaves a space at the end of a row. -/
theorem isTrimmed_written {text : Bytes} {k : Nat} {es : List Edit}
    (hes : InOrder text k text.length es)
    (hapart : es.Pairwise fun e f => e.stopIn text < f.startIn text)
    (hends : ∀ o, k ≤ o → text[o]? = some Bytes.space → (∀ b ∈ text[o + 1]?, b = Bytes.lineFeed) →
      ∃ e ∈ es, e.startIn text ≤ o ∧ e.stopIn text = o + 1)
    (hspaces : ∀ e ∈ es, ∃ width, e.newText = Bytes.spaces width)
    (hstop : ∀ e ∈ es, (∃ b ∈ text[e.stopIn text]?, b ≠ Bytes.lineFeed) ∨
      (e.newText = [] ∧ (text.take (e.startIn text)).getLast? ≠ some Bytes.space)) :
    (written text k text.length es).IsTrimmed := by
  induction es generalizing k with
  | nil =>
    refine Bytes.isTrimmed_slice hes fun o ho hspace hlf => ?_
    obtain ⟨e, he, -⟩ := hends o ho hspace hlf
    cases he
  | cons e es ih =>
    obtain ⟨h1, h2, h3⟩ := hes
    obtain ⟨hapart1, hapart2⟩ := List.pairwise_cons.mp hapart
    obtain ⟨width, hw⟩ := hspaces e (List.mem_cons_self ..)
    have hrest := ih h3 hapart2
      (fun o ho hspace hlf => by
        obtain ⟨f, hf, h4, h5⟩ := hends o (by omega) hspace hlf
        rcases List.mem_cons.mp hf with rfl | hf
        · omega
        · exact ⟨f, hf, h4, h5⟩)
      (fun f hf => hspaces f (List.mem_cons_of_mem e hf))
      (fun f hf => hstop f (List.mem_cons_of_mem e hf))
    -- no edit reaches into what stands before the first one
    have hlead : (text.slice k (e.startIn text)).IsChain Bytes.KeepsTrimmed := by
      refine Bytes.isChain_slice fun o ho ho' a ha b hb hspace hlf => ?_
      obtain ⟨f, hf, h4, -⟩ := hends o ho (hspace ▸ ha) fun c hc => by
        rw [← Option.some.inj (hb.symm.trans hc), hlf]
      rcases List.mem_cons.mp hf with rfl | hf
      · omega
      · have := h3.pairwise.1 f hf
        omega
    rw [Bytes.IsTrimmed, written, hw, List.append_assoc, List.append_assoc]
    refine Bytes.isChain_append_spaces hlead hrest ?_
    rcases hstop e (List.mem_cons_self ..) with ⟨b, hb, hne⟩ | ⟨hnil, hlast⟩
    · -- the byte behind the edit stays there, since the next edit does not touch it
      refine Or.inl fun y hy => ?_
      have hlt : e.stopIn text < text.length := (List.getElem?_eq_some_iff.mp hb).1
      rw [List.head?_append, head?_written hlt (Nat.le_refl _) hapart1, hb] at hy
      obtain rfl := Option.some.inj hy
      exact hne
    · refine Or.inr ⟨?_, fun hspace => hlast ?_⟩
      · rw [hw] at hnil
        exact (List.replicate_eq_nil_iff _).mp hnil
      · rw [← Bytes.take_append_slice text h1, List.getLast?_append, hspace]
        rfl

end Edit

end TwelveD
