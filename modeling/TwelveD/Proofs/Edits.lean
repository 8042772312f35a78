import TwelveD.Proofs.Rows
import TwelveD.Text.Edit

/-!
# Batches of edits

Theorems about lists of edits against one text. The edits that `Edit.batch` keeps can be applied one
after the other, and where any two of the given edits are equal or apart it drops nothing but
repetitions. What is written in place of a stretch of the text depends on the edits in that stretch
alone, and edits of blanks leave everything but the blanks as it is.
-/

namespace TwelveD

namespace Bytes

/-! ## Text without its blanks -/

/-- What is left of a text without its spaces and tabs. -/
def ink (bytes : Bytes) : Bytes := bytes.filter fun b => !isBlankByte b

@[simp] theorem ink_nil : ink [] = [] := rfl

@[simp] theorem ink_append (xs ys : Bytes) : ink (xs ++ ys) = ink xs ++ ink ys :=
  List.filter_append ..

theorem isBlank_iff {bytes : Bytes} : bytes.isBlank = true ↔ ∀ b ∈ bytes, isBlankByte b = true := by
  simp [isBlank]

/-- Blanks end no later than at the first byte that is none. -/
theorem le_of_isBlank_slice {bytes : Bytes} {i j k : Nat} {b : UInt8}
    (h : (bytes.slice i j).isBlank = true) (hi : i ≤ k) (hb : bytes[k]? = some b)
    (hink : isBlankByte b = false) : j ≤ k := by
  by_contra hlt
  have hblank := isBlank_iff.mp h b (mem_slice_iff.mpr ⟨k, hi, Nat.lt_of_not_le hlt, hb⟩)
  rw [hink] at hblank
  cases hblank

theorem ink_eq_nil_iff {bytes : Bytes} : bytes.ink = [] ↔ bytes.isBlank = true := by
  simp [ink, isBlank]

theorem isBlank_spaces (width : Nat) : (spaces width).isBlank = true := by
  rw [isBlank_iff]
  intro b hb
  rw [List.eq_of_mem_replicate hb]
  rfl

theorem count_ink (bytes : Bytes) : bytes.ink.count lineFeed = bytes.count lineFeed :=
  List.count_filter rfl

theorem lineFeed_notMem_of_isBlank {bytes : Bytes} (h : bytes.isBlank = true) :
    lineFeed ∉ bytes := by
  intro hm
  exact absurd (isBlank_iff.mp h _ hm) (by decide)

theorem ink_lastRow (bytes : Bytes) : (lastRow bytes).ink = lastRow bytes.ink := by
  obtain ⟨before, h1, h2⟩ := exists_eq_append_lastRow bytes
  have hmem : lineFeed ∉ (lastRow bytes).ink := fun hm =>
    lineFeed_notMem_lastRow bytes (List.mem_of_mem_filter hm)
  have hbefore : lastRow before.ink = [] := by
    rcases lastRow_eq_nil_iff.mp h2 with rfl | hlast
    · rfl
    · obtain ⟨xs, rfl⟩ := List.getLast?_eq_some_iff.mp hlast
      rw [ink_append, lastRow_eq_nil_iff]
      refine Or.inr ?_
      rw [List.getLast?_append]
      rfl
  conv_rhs => rw [h1, ink_append, lastRow_append hmem, hbefore, List.nil_append]

/-- Text with ink at both ends of which only one byte is ink is that byte. -/
theorem eq_of_ink_eq_singleton {bytes : Bytes} {c : UInt8} (h : bytes.ink = [c])
    (hfirst : ∀ b ∈ bytes.head?, isBlankByte b = false)
    (hlast : ∀ b ∈ bytes.getLast?, isBlankByte b = false) : bytes = [c] := by
  cases bytes with
  | nil => cases h
  | cons a rest =>
    have ha := hfirst a rfl
    rw [ink, List.filter_cons_of_pos (by simp [ha])] at h
    obtain ⟨rfl, hrest⟩ := List.cons.inj h
    cases hend : rest.getLast? with
    | none => rw [List.getLast?_eq_none_iff.mp hend]
    | some b =>
      have hb := hlast b (by rw [List.getLast?_cons, hend]; rfl)
      have hmem : b ∈ rest.filter fun b => !isBlankByte b :=
        List.mem_filter.mpr ⟨List.mem_of_getLast? hend, by simp [hb]⟩
      rw [hrest] at hmem
      cases hmem

end Bytes

namespace Edit

/-! ## Offsets of edits -/

/-- The offset at which an edit starts in a text. -/
def startIn (text : Bytes) (e : Edit) : Nat := text.offsetAt e.span.start

/-- The offset at which the text of an edit ends. -/
def stopIn (text : Bytes) (e : Edit) : Nat := text.offsetAt e.span.stop

/-- The span of an edit goes from one offset of the text to another that is no earlier. -/
structure LiesIn (text : Bytes) (e : Edit) : Prop where
  start_eq : text.pointAt (e.startIn text) = e.span.start
  stop_eq : text.pointAt (e.stopIn text) = e.span.stop
  le : e.startIn text ≤ e.stopIn text
  stop_le : e.stopIn text ≤ text.length

variable {text wanted : Bytes} {e f : Edit} {k n p q : Nat}

theorem startIn_mk {i : Nat} (hi : i ≤ text.length) (stop : Point) (newText : Bytes) :
    startIn text ⟨⟨text.pointAt i, stop⟩, newText⟩ = i :=
  Bytes.offsetAt_pointAt text hi

theorem stopIn_mk {j : Nat} (hj : j ≤ text.length) (start : Point) (newText : Bytes) :
    stopIn text ⟨⟨start, text.pointAt j⟩, newText⟩ = j :=
  Bytes.offsetAt_pointAt text hj

theorem liesIn_mk {i j : Nat} (hij : i ≤ j) (hj : j ≤ text.length) (newText : Bytes) :
    LiesIn text ⟨⟨text.pointAt i, text.pointAt j⟩, newText⟩ := by
  have hi : i ≤ text.length := Nat.le_trans hij hj
  refine ⟨?_, ?_, ?_, ?_⟩
  · rw [startIn_mk hi]
  · rw [stopIn_mk hj]
  · rw [startIn_mk hi, stopIn_mk hj]
    exact hij
  · rw [stopIn_mk hj]
    exact hj

theorem LiesIn.start_le (h : LiesIn text e) : e.startIn text ≤ text.length :=
  Nat.le_trans h.le h.stop_le

theorem LiesIn.ext (he : LiesIn text e) (hf : LiesIn text f)
    (hstart : e.startIn text = f.startIn text) (hstop : e.stopIn text = f.stopIn text)
    (hnew : e.newText = f.newText) : e = f := by
  obtain ⟨⟨a, b⟩, w⟩ := e
  obtain ⟨⟨c, d⟩, v⟩ := f
  have h1 := he.start_eq.symm.trans (hstart ▸ hf.start_eq)
  have h2 := he.stop_eq.symm.trans (hstop ▸ hf.stop_eq)
  simp only at h1 h2 hnew
  rw [h1, h2, hnew]

theorem LiesIn.start_lt_stop_iff (he : LiesIn text e) (hf : LiesIn text f) :
    f.span.start < e.span.stop ↔ f.startIn text < e.stopIn text := by
  rw [← hf.start_eq, ← he.stop_eq, Bytes.pointAt_lt_iff hf.start_le he.stop_le]

theorem LiesIn.stop_lt_start_iff (he : LiesIn text e) (hf : LiesIn text f) :
    e.span.stop < f.span.start ↔ e.stopIn text < f.startIn text := by
  rw [← he.stop_eq, ← hf.start_eq, Bytes.pointAt_lt_iff he.stop_le hf.start_le]

theorem LiesIn.startIn_le_of_le (he : LiesIn text e) (hf : LiesIn text f)
    (h : e.span.le f.span = true) : e.startIn text ≤ f.startIn text := by
  simp only [Span.le, Bool.or_eq_true, Bool.and_eq_true, decide_eq_true_eq, beq_iff_eq] at h
  rcases h with h | ⟨h, -⟩
  · rw [← he.start_eq, ← hf.start_eq, Bytes.pointAt_lt_iff he.start_le hf.start_le] at h
    exact Nat.le_of_lt h
  · rw [← he.start_eq, ← hf.start_eq, Bytes.pointAt_inj he.start_le hf.start_le] at h
    exact Nat.le_of_eq h

/-! ## Edits in order -/

/-- The edits lie between two offsets, each behind the one before it. -/
def InOrder (text : Bytes) (i j : Nat) : List Edit → Prop
  | [] => i ≤ j
  | e :: es => i ≤ e.startIn text ∧ e.startIn text ≤ e.stopIn text ∧ InOrder text (e.stopIn text) j es

theorem InOrder.le {i j : Nat} {es : List Edit} (h : InOrder text i j es) : i ≤ j := by
  induction es generalizing i with
  | nil => exact h
  | cons e es ih =>
    obtain ⟨h1, h2, h3⟩ := h
    have := ih h3
    omega

theorem InOrder.pairwise {i j : Nat} {es : List Edit} (h : InOrder text i j es) :
    (∀ f ∈ es, i ≤ f.startIn text) ∧ es.Pairwise fun e f => e.stopIn text ≤ f.startIn text := by
  induction es generalizing i with
  | nil => simp
  | cons e es ih =>
    obtain ⟨h1, h2, h3⟩ := h
    obtain ⟨ih1, ih2⟩ := ih h3
    refine ⟨fun f hf => ?_, List.pairwise_cons.mpr ⟨ih1, ih2⟩⟩
    rcases List.mem_cons.mp hf with rfl | hf
    · exact h1
    · have := ih1 f hf
      omega

theorem InOrder.append {i j k : Nat} {es fs : List Edit} (hes : InOrder text i j es)
    (hfs : InOrder text j k fs) : InOrder text i k (es ++ fs) := by
  induction es generalizing i with
  | nil =>
    cases fs with
    | nil => exact Nat.le_trans hes hfs
    | cons f fs => exact ⟨Nat.le_trans hes hfs.1, hfs.2⟩
  | cons e es ih => exact ⟨hes.1, hes.2.1, ih hes.2.2⟩

/-- What stands in place of the text between two offsets when the edits there are made. -/
def written (text : Bytes) (i j : Nat) : List Edit → Bytes
  | [] => text.slice i j
  | e :: es => text.slice i (e.startIn text) ++ e.newText ++ written text (e.stopIn text) j es

theorem applyFrom_eq_written (text : Bytes) (i : Nat) (es : List Edit) :
    applyFrom text i es = written text i text.length es := by
  induction es generalizing i with
  | nil => rw [applyFrom, written, Bytes.slice_length]
  | cons e es ih => rw [applyFrom, written, ih, startIn, stopIn]

theorem applyAll_eq_written (text : Bytes) (es : List Edit) :
    applyAll text es = written text 0 text.length es :=
  applyFrom_eq_written text 0 es

/-- The edits before an offset and those behind it do their work apart from each other. -/
theorem written_append {i j k : Nat} {es fs : List Edit} (hes : InOrder text i j es)
    (hfs : InOrder text j k fs) :
    written text i k (es ++ fs) = written text i j es ++ written text j k fs := by
  induction es generalizing i with
  | nil =>
    cases fs with
    | nil => exact (Bytes.slice_append_slice text hes hfs).symm
    | cons f fs =>
      rw [List.nil_append, written, written, written, ← List.append_assoc, ← List.append_assoc,
        Bytes.slice_append_slice text hes hfs.1]
  | cons e es ih =>
    rw [List.cons_append, written, written, ih hes.2.2, List.append_assoc, List.append_assoc,
      List.append_assoc]

/-- A byte that no edit touches stays between what is written before and behind it. -/
theorem written_append_byte {i j k : Nat} {es fs : List Edit} {b : UInt8}
    (hes : InOrder text i j es) (hb : text[j]? = some b) (hfs : InOrder text (j + 1) k fs) :
    InOrder text i k (es ++ fs) ∧
      written text i k (es ++ fs) = written text i j es ++ b :: written text (j + 1) k fs := by
  have hbyte : InOrder text j (j + 1) [] := Nat.le_succ j
  have hslice : text.slice j (j + 1) = [b] := by
    rw [Bytes.slice_eq_cons hb (Nat.lt_succ_self j), Bytes.slice_self]
  have hbehind : InOrder text j k fs := hbyte.append hfs
  have hwritten := written_append hbyte hfs
  rw [List.nil_append, written, hslice, List.singleton_append] at hwritten
  exact ⟨hes.append hbehind, by rw [written_append hes hbehind, hwritten]⟩

theorem head?_written {es : List Edit} (hk : k < n) (hn : n ≤ text.length)
    (hes : ∀ e ∈ es, k < e.startIn text) :
    (written text k n es).head? = text[k]? := by
  have hb := List.getElem?_eq_getElem (Nat.lt_of_lt_of_le hk hn)
  cases es with
  | nil =>
    rw [written, Bytes.slice_eq_cons hb hk, hb]
    rfl
  | cons e es =>
    rw [written, Bytes.slice_eq_cons hb (hes e (List.mem_cons_self ..)), hb]
    rfl

theorem getLast?_written {es : List Edit} (hes : InOrder text k n es) (hk : k < n) (hn : n ≤ text.length)
    (hstop : ∀ e ∈ es, e.stopIn text < n) : (written text k n es).getLast? = text[n - 1]? := by
  induction es generalizing k with
  | nil => exact Bytes.getLast?_slice hk hn
  | cons e es ih =>
    have hlast : n - 1 < text.length := by omega
    rw [written, List.getLast?_append, ih hes.2.2 (hstop e (List.mem_cons_self ..))
      (fun f hf => hstop f (List.mem_cons_of_mem e hf)), List.getElem?_eq_getElem hlast]
    rfl

/-- Where all edits of a stretch write one text over the whole of it, that text stands there. -/
theorem written_eq_of_forall {es : List Edit} (hes : InOrder text p q es)
    (hapart : es.Pairwise fun e f => e.stopIn text < f.startIn text)
    (hall : ∀ e ∈ es, e.startIn text = p ∧ e.stopIn text = q ∧ e.newText = wanted)
    (hnil : es = [] → text.slice p q = wanted) : written text p q es = wanted := by
  cases es with
  | nil => exact hnil rfl
  | cons e es =>
    obtain ⟨h1, h2, h3⟩ := hall e (List.mem_cons_self ..)
    obtain rfl : es = [] := by
      cases es with
      | nil => rfl
      | cons f es =>
        have h4 := (List.pairwise_cons.mp hapart).1 f (List.mem_cons_self ..)
        obtain ⟨h5, -⟩ := hall f (by simp)
        have := hes.2.1
        omega
    rw [written, written, h1, h2, h3, Bytes.slice_self, Bytes.slice_self, List.nil_append,
      List.append_nil]

/-- Edits that replace blanks by blanks leave all other bytes as they are. -/
theorem ink_written {i j : Nat} {es : List Edit} (hes : InOrder text i j es)
    (hblank : ∀ e ∈ es, (text.slice (e.startIn text) (e.stopIn text)).isBlank = true ∧
      e.newText.isBlank = true) :
    (written text i j es).ink = (text.slice i j).ink := by
  induction es generalizing i with
  | nil => rfl
  | cons e es ih =>
    obtain ⟨h1, h2, h3⟩ := hes
    obtain ⟨hold, hnew⟩ := hblank e (List.mem_cons_self ..)
    have hsplit : text.slice i j = text.slice i (e.startIn text) ++
        (text.slice (e.startIn text) (e.stopIn text) ++ text.slice (e.stopIn text) j) := by
      rw [Bytes.slice_append_slice text h2 h3.le, Bytes.slice_append_slice text h1
        (Nat.le_trans h2 h3.le)]
    rw [written, hsplit, Bytes.ink_append, Bytes.ink_append, Bytes.ink_append, Bytes.ink_append,
      ih h3 (fun f hf => hblank f (List.mem_cons_of_mem e hf)), Bytes.ink_eq_nil_iff.mpr hold,
      Bytes.ink_eq_nil_iff.mpr hnew, List.append_nil, List.nil_append]

/-! ## Batches -/

theorem dropOverlapping_sublist (kept : Option Edit) (es : List Edit) :
    (dropOverlapping kept es).Sublist es := by
  induction es generalizing kept with
  | nil => exact .slnil
  | cons e es ih =>
    rw [dropOverlapping]
    split
    · exact (ih (some e)).cons_cons e
    · exact (ih kept).cons e

theorem mem_of_mem_batch {es : List Edit} (h : e ∈ batch es) : e ∈ es :=
  List.mem_mergeSort.mp ((dropOverlapping_sublist none _).subset h)

theorem fitsAfter_iff (hf : LiesIn text f) (he : LiesIn text e) :
    fitsAfter f e = true ↔ f.stopIn text ≤ e.startIn text ∧ e.span ≠ f.span := by
  simp only [fitsAfter, Bool.not_eq_true', Bool.or_eq_false_iff, decide_eq_false_iff_not,
    beq_eq_false_iff_ne, hf.start_lt_stop_iff he, Nat.not_lt]

/-- Of edits in any order, those that are kept after one that was kept are in order. -/
theorem inOrder_dropOverlapping {es : List Edit} (h : ∀ e ∈ es, LiesIn text e)
    {kept : Option Edit} (hkept : ∀ f ∈ kept, LiesIn text f) :
    InOrder text ((kept.map (stopIn text)).getD 0) text.length (dropOverlapping kept es) := by
  induction es generalizing kept with
  | nil =>
    cases kept with
    | none => exact Nat.zero_le _
    | some f => exact (hkept f rfl).stop_le
  | cons e es ih =>
    have he := h e (List.mem_cons_self ..)
    have hes : ∀ f ∈ es, LiesIn text f := fun f hf => h f (List.mem_cons_of_mem e hf)
    rw [dropOverlapping]
    split
    · rename_i hfits
      refine ⟨?_, he.le, @ih hes (some e) (by simpa using he)⟩
      cases kept with
      | none => exact Nat.zero_le _
      | some f => exact ((fitsAfter_iff (hkept f rfl) he).mp (by simpa using hfits)).1
    · exact ih hes hkept

/-- The edits of a batch can be made one after the other. -/
theorem inOrder_batch {es : List Edit} (h : ∀ e ∈ es, LiesIn text e) :
    InOrder text 0 text.length (batch es) :=
  @inOrder_dropOverlapping text _ (fun e he => h e (List.mem_mergeSort.mp he)) none (by simp)

/-! ## Edits that are apart -/

/-- One of two edits ends before the other one starts. -/
def Apart (text : Bytes) (e f : Edit) : Prop :=
  e.stopIn text < f.startIn text ∨ f.stopIn text < e.startIn text

theorem Apart.span_ne (h : Apart text e f) (he : LiesIn text e) (hf : LiesIn text f) :
    e.span ≠ f.span := by
  intro hspan
  have hle := he.le
  have hle' := hf.le
  simp only [Apart, startIn, stopIn, hspan] at h hle hle'
  omega

/-- An edit that comes later in the order and is equal to or apart from one that was kept: it is
    dropped only in the first case. -/
theorem eq_or_lt_of_apart (he : LiesIn text e) (hf : LiesIn text f)
    (hle : e.span.le f.span = true) (h : e = f ∨ Apart text e f) :
    (e = f ∧ fitsAfter e f = false) ∨ (e.stopIn text < f.startIn text ∧ fitsAfter e f = true) := by
  have hstart := he.startIn_le_of_le hf hle
  rcases h with rfl | h | h
  · exact Or.inl ⟨rfl, by simp [fitsAfter]⟩
  · refine Or.inr ⟨h, (fitsAfter_iff he hf).mpr ⟨Nat.le_of_lt h, fun hspan => ?_⟩⟩
    have : f.startIn text = e.startIn text := by rw [startIn, hspan, startIn]
    have := he.le
    omega
  · have := hf.le
    omega

theorem dropOverlapping_of_apart {es : List Edit} (hes : ∀ f ∈ e :: es, LiesIn text f)
    (hsorted : (e :: es).Pairwise fun f g => f.span.le g.span = true)
    (h : ∀ f ∈ e :: es, ∀ g ∈ e :: es, f = g ∨ Apart text f g) :
    (∀ f ∈ es, f = e ∨ f ∈ dropOverlapping (some e) es) ∧
      (e :: dropOverlapping (some e) es).Pairwise fun f g => f.stopIn text < g.startIn text := by
  induction es generalizing e with
  | nil => simp [dropOverlapping]
  | cons f es ih =>
    have he := hes e (List.mem_cons_self ..)
    have hf := hes f (by simp)
    obtain ⟨hsorted1, hsorted2⟩ := List.pairwise_cons.mp hsorted
    rw [dropOverlapping]
    rcases eq_or_lt_of_apart he hf (hsorted1 f (by simp)) (h e (by simp) f (by simp)) with
      ⟨rfl, hfits⟩ | ⟨hlt, hfits⟩
    · obtain ⟨ih1, ih2⟩ := ih (fun g hg => hes g (List.mem_cons_of_mem e hg)) hsorted2
        (fun g hg g' hg' => h g (List.mem_cons_of_mem e hg) g' (List.mem_cons_of_mem e hg'))
      rw [if_neg (by simp [hfits])]
      refine ⟨fun g hg => ?_, ih2⟩
      rcases List.mem_cons.mp hg with rfl | hg
      · exact Or.inl rfl
      · exact ih1 g hg
    · obtain ⟨ih1, ih2⟩ := ih (fun g hg => hes g (List.mem_cons_of_mem e hg)) hsorted2
        (fun g hg g' hg' => h g (List.mem_cons_of_mem e hg) g' (List.mem_cons_of_mem e hg'))
      rw [if_pos (by simp [hfits])]
      refine ⟨fun g hg => Or.inr ?_, List.pairwise_cons.mpr ⟨fun g hg => ?_, ih2⟩⟩
      · rcases List.mem_cons.mp hg with rfl | hg
        · exact List.mem_cons_self ..
        · rcases ih1 g hg with rfl | hg
          · exact List.mem_cons_self ..
          · exact List.mem_cons_of_mem f hg
      · rcases List.mem_cons.mp hg with rfl | hg
        · exact hlt
        · have := (List.pairwise_cons.mp ih2).1 g hg
          have := hf.le
          omega

theorem span_le_trans {s t u : Span} (hst : s.le t = true) (htu : t.le u = true) :
    s.le u = true := by
  obtain ⟨⟨a, b⟩, ⟨c, d⟩⟩ := s
  obtain ⟨⟨a', b'⟩, ⟨c', d'⟩⟩ := t
  obtain ⟨⟨a'', b''⟩, ⟨c'', d''⟩⟩ := u
  simp only [Span.le, Bool.or_eq_true, Bool.and_eq_true, decide_eq_true_eq, beq_iff_eq,
    Point.lt_iff, Point.le_iff, Point.mk.injEq] at *
  omega

theorem span_le_total (s t : Span) : (s.le t || t.le s) = true := by
  obtain ⟨⟨a, b⟩, ⟨c, d⟩⟩ := s
  obtain ⟨⟨a', b'⟩, ⟨c', d'⟩⟩ := t
  simp only [Span.le, Bool.or_eq_true, Bool.and_eq_true, decide_eq_true_eq, beq_iff_eq,
    Point.lt_iff, Point.le_iff, Point.mk.injEq]
  omega

theorem pairwise_mergeSort_span (es : List Edit) :
    (es.mergeSort fun e f => e.span.le f.span).Pairwise fun e f => e.span.le f.span = true :=
  List.pairwise_mergeSort (fun e f g => @span_le_trans e.span f.span g.span)
    (fun e f => span_le_total e.span f.span) es

/-- Where any two edits are equal or apart, the batch has all of them, each one once, and no two of
    them touch. -/
theorem batch_of_apart {es : List Edit} (hes : ∀ e ∈ es, LiesIn text e)
    (h : ∀ e ∈ es, ∀ f ∈ es, e = f ∨ Apart text e f) :
    (∀ e ∈ es, e ∈ batch es) ∧
      (batch es).Pairwise fun e f => e.stopIn text < f.startIn text := by
  have hsorted := pairwise_mergeSort_span es
  have hmem : ∀ e, e ∈ es.mergeSort (fun e f => e.span.le f.span) ↔ e ∈ es :=
    fun e => List.mem_mergeSort
  unfold batch
  generalize es.mergeSort (fun e f => e.span.le f.span) = sorted at hsorted hmem
  cases sorted with
  | nil =>
    refine ⟨fun e he => absurd ((hmem e).mpr he) (by simp), by simp [dropOverlapping]⟩
  | cons k rest =>
    obtain ⟨h1, h2⟩ := dropOverlapping_of_apart (fun f hf => hes f ((hmem f).mp hf)) hsorted
      (fun f hf g hg => h f ((hmem f).mp hf) g ((hmem g).mp hg))
    rw [dropOverlapping, if_pos (by simp)]
    refine ⟨fun e he => ?_, h2⟩
    rcases List.mem_cons.mp ((hmem e).mpr he) with rfl | he
    · exact List.mem_cons_self ..
    · rcases h1 e he with rfl | he
      · exact List.mem_cons_self ..
      · exact List.mem_cons_of_mem k he

end Edit

end TwelveD
