import TwelveD.Proofs.Batches
import TwelveD.Proofs.LayoutBlanks

/-!
# Edits that take effect

Every single edit that lays out a document changes the blanks that it replaces. Two edits of one run
of blanks may still undo each other: a node without text can have blanks on both of its sides, and
the one edit inserts what the other one deletes. Where some other byte stands between any edit and
the next one, a batch that is not empty changes the text, and that is so in every tree whose nodes
have a text that neither starts nor ends with a blank.
-/

namespace TwelveD

namespace Bytes

theorem takeWhile_append_of_not_isBlank {xs : Bytes} (h : xs.isBlank = false) (ys : Bytes) :
    (xs ++ ys).takeWhile isBlankByte = xs.takeWhile isBlankByte := by
  rw [List.takeWhile_append, if_neg]
  intro hlen
  have hxs : xs.takeWhile isBlankByte = xs := (List.takeWhile_prefix _).eq_of_length hlen
  have hall : xs.isBlank = true := isBlank_iff.mpr (List.takeWhile_eq_self_iff.mp hxs)
  rw [h] at hall
  cases hall

/-- Up to the first byte that is no blank, the blanks can be read off a text. -/
theorem eq_of_blanks_append_eq {old new common xs ys : Bytes} (hold : old.isBlank = true)
    (hnew : new.isBlank = true) (hcommon : common.isBlank = false)
    (h : new ++ (common ++ xs) = old ++ (common ++ ys)) : new = old := by
  have hblanks := congrArg (List.takeWhile isBlankByte) h
  rw [List.takeWhile_append_of_pos (isBlank_iff.mp hnew),
    List.takeWhile_append_of_pos (isBlank_iff.mp hold), takeWhile_append_of_not_isBlank hcommon,
    takeWhile_append_of_not_isBlank hcommon] at hblanks
  exact List.append_cancel_right hblanks

end Bytes

namespace Edit

variable {text : Bytes} {e f : Edit} {i j : Nat}

/-- Something other than blanks stands between two edits. -/
def InkBetween (text : Bytes) (e f : Edit) : Prop :=
  (text.slice (e.stopIn text) (f.startIn text)).isBlank = false

/-- Edits with ink between them change the text, if the first one does. -/
theorem written_ne_slice {es : List Edit} (hes : InOrder text i j (e :: es))
    (he : OnBlanks text e) (hne : text.slice (e.startIn text) (e.stopIn text) ≠ e.newText)
    (hink : (e :: es).IsChain (InkBetween text)) :
    written text i j (e :: es) ≠ text.slice i j := by
  obtain ⟨h1, h2, h3⟩ := hes
  intro heq
  rw [written, List.append_assoc, ← Bytes.slice_append_slice text h1 (Nat.le_trans h2 h3.le),
    ← Bytes.slice_append_slice text h2 h3.le] at heq
  have hrest := List.append_cancel_left heq
  cases es with
  | nil => exact hne (List.append_cancel_right hrest).symm
  | cons f es =>
    have hbetween : InkBetween text e f := (List.isChain_cons_cons.mp hink).1
    have hle : f.startIn text ≤ j := Nat.le_trans h3.2.1 h3.2.2.le
    rw [written, List.append_assoc, ← Bytes.slice_append_slice text h3.1 hle] at hrest
    exact hne (Bytes.eq_of_blanks_append_eq he.blank he.newText_isBlank hbetween hrest).symm

/-- Of two edits of blanks that fit, the second one starts behind some ink if the first one reaches
    up to ink and the second one, should it only insert, stands right behind ink. -/
theorem inkBetween_of_fitsAfter (he : OnBlanks text e) (hf : OnBlanks text f)
    (hfits : fitsAfter e f = true)
    (hbehind : ∀ b ∈ text[e.stopIn text]?, Bytes.isBlankByte b = false)
    (hbefore : f.startIn text = f.stopIn text →
      ∀ b ∈ (text.take (f.startIn text)).getLast?, Bytes.isBlankByte b = false) :
    InkBetween text e f := by
  obtain ⟨hle, hspan⟩ := (fitsAfter_iff he.toLiesIn hf.toLiesIn).mp hfits
  rcases Nat.lt_or_eq_of_le hle with hlt | htouch
  · have hb := List.getElem?_eq_getElem (Nat.lt_of_lt_of_le hlt hf.start_le)
    rw [InkBetween, Bool.eq_false_iff]
    intro hblank
    have := Bytes.le_of_isBlank_slice hblank (Nat.le_refl _) hb (hbehind _ hb)
    omega
  · -- edits that touch are two insertions at one offset
    exfalso
    have hf0 : f.startIn text = f.stopIn text := by
      by_contra hne
      have hlt : f.startIn text < f.stopIn text := Nat.lt_of_le_of_ne hf.le hne
      have hb := List.getElem?_eq_getElem (Nat.lt_of_lt_of_le hlt hf.stop_le)
      have := Bytes.le_of_isBlank_slice hf.blank (Nat.le_refl _) hb
        (hbehind _ (by rw [htouch]; exact hb))
      omega
    have he0 : e.startIn text = e.stopIn text := by
      by_contra hne
      have hlt : e.startIn text < e.stopIn text := Nat.lt_of_le_of_ne he.le hne
      have hlast : e.stopIn text - 1 < text.length := by
        have := he.stop_le
        omega
      have hb := List.getElem?_eq_getElem hlast
      have hend := Bytes.getLast?_slice (Nat.zero_lt_of_lt hlt) he.stop_le
      rw [Bytes.slice_zero, hb] at hend
      have := Bytes.le_of_isBlank_slice he.blank (Nat.le_sub_one_of_lt hlt) hb
        (hbefore hf0 _ (by rw [← htouch]; exact hend))
      omega
    have hstart : f.span.start = e.span.start := by
      rw [← hf.start_eq, ← he.start_eq, he0, htouch]
    have hstop : f.span.stop = e.span.stop := by
      rw [← hf.stop_eq, ← he.stop_eq, ← hf0, htouch]
    exact hspan (congrArg₂ Span.mk hstart hstop)

end Edit

namespace SyntaxTree

variable {t : SyntaxTree} {e f : Edit} {i : Nat}

/-- No finding writes the blanks that stand there already. -/
theorem Addressable.slice_ne_newText (h : t.Addressable) (he : e ∈ t.layoutFindings) :
    t.source.slice (e.startIn t.source) (e.stopIn t.source) ≠ e.newText := by
  rcases mem_layoutFindings_iff.mp he with (⟨i, width, hr, he⟩ | ⟨l, r, wanted, hr, he⟩) | he
  · obtain ⟨hstart, hstop, hnew⟩ := h.of_reindent? hr he
    rw [hstart, hstop, hnew]
    exact (reindent?_eq_some_iff.mp he).2.1
  · obtain ⟨hstart, hstop, hnew⟩ := h.of_respace? hr he
    obtain ⟨gap, hgap, -, hne, -⟩ := respace?_eq_some_iff.mp he
    obtain ⟨-, -, rfl⟩ := gap?_eq_some_iff.mp hgap
    rw [hstart, hstop, hnew]
    exact hne
  · have ht := h.trimsRow he
    have hlen := @Bytes.length_slice t.source (e.startIn t.source) _ ht.stop_le
    intro hnil
    rw [hnil, ht.newText_eq, List.length_nil] at hlen
    have := ht.start_lt
    omega

/-- Edits with ink between them change the text. -/
theorem Addressable.laidOut_ne_source (h : t.Addressable) (hne : t.layoutEdits ≠ [])
    (hink : t.layoutEdits.IsChain (Edit.InkBetween t.source)) : t.laidOut ≠ t.source := by
  have hes := h.inOrder
  have hmem := fun e => @Addressable.onBlanks_of_mem t e h
  have hslice := fun e (he : e ∈ t.layoutEdits) => h.slice_ne_newText (Edit.mem_of_mem_batch he)
  rw [laidOut, Edit.applyAll_eq_written]
  conv_rhs => rw [← List.drop_zero (l := t.source), ← Bytes.slice_length]
  cases hedits : t.layoutEdits with
  | nil => exact absurd hedits hne
  | cons e es =>
    rw [hedits] at hes hink hmem hslice
    exact Edit.written_ne_slice hes (hmem e (List.mem_cons_self ..))
      (hslice e (List.mem_cons_self ..)) hink

/-! ## Nodes with ink at both ends -/

/-- The text of the node neither starts nor ends with a blank, and there is such a text. -/
structure Solid (t : SyntaxTree) (i : Nat) : Prop where
  /-- The node has some text. -/
  start_lt_stop : (t.node i).start < (t.node i).stop
  /-- The text does not start with a blank. -/
  first_byte : ∀ b ∈ t.source[(t.node i).start]?, Bytes.isBlankByte b = false
  /-- The text does not end with a blank. -/
  last_byte : ∀ b ∈ t.source[(t.node i).stop - 1]?, Bytes.isBlankByte b = false

instance (t : SyntaxTree) (i : Nat) : Decidable (t.Solid i) :=
  decidable_of_iff ((t.node i).start < (t.node i).stop ∧
    (∀ b ∈ t.source[(t.node i).start]?, Bytes.isBlankByte b = false) ∧
      ∀ b ∈ t.source[(t.node i).stop - 1]?, Bytes.isBlankByte b = false)
    ⟨fun h => ⟨h.1, h.2.1, h.2.2⟩, fun h => ⟨h.start_lt_stop, h.first_byte, h.last_byte⟩⟩

/-- No blank stands before the row of a node. -/
theorem byte_before_leadStart (hi : (t.node i).start ≤ t.source.length) :
    ∀ b ∈ (t.source.take (t.leadStart i)).getLast?, Bytes.isBlankByte b = false := by
  intro b hb
  rcases Bytes.lastRow_eq_nil_iff.mp (Bytes.take_rowStart t.source hi).1 with hnil | hlast
  · rw [leadStart, span, hnil] at hb
    cases hb
  · rw [leadStart, span, hlast] at hb
    obtain rfl := Option.some.inj hb
    decide

/-- A finding reaches up to ink or the end of the text. -/
theorem Addressable.byte_behind_of_solid (h : t.Addressable)
    (hroot : t.isIndented SyntaxTree.root = false) (hsolid : ∀ i < t.size, 0 < i → t.Solid i)
    (he : e ∈ t.layoutFindings) :
    ∀ b ∈ t.source[e.stopIn t.source]?, Bytes.isBlankByte b = false := by
  rcases mem_layoutFindings_iff.mp he with (⟨i, width, hr, he⟩ | ⟨l, r, wanted, hr, he⟩) | he
  · rw [(h.of_reindent? hr he).2.1]
    exact (hsolid i (hr.lt_size h.toWellFormed) (hr.pos hroot)).first_byte
  · obtain ⟨p, -, hp⟩ := hr.exists_parent
    rw [(h.of_respace? hr he).2.1]
    exact (hsolid r (lt_size_of_parent hp) (Nat.zero_lt_of_lt (parent_lt hp))).first_byte
  · intro b hb
    rcases (h.trimsRow he).behind b hb with rfl | rfl <;> decide

/-- A finding that only inserts stands right behind ink or at the start of a row. -/
theorem Addressable.byte_before_of_solid (h : t.Addressable)
    (hsolid : ∀ i < t.size, 0 < i → t.Solid i) (he : e ∈ t.layoutFindings)
    (hempty : e.startIn t.source = e.stopIn t.source) :
    ∀ b ∈ (t.source.take (e.startIn t.source)).getLast?, Bytes.isBlankByte b = false := by
  rcases mem_layoutFindings_iff.mp he with (⟨i, width, hr, he⟩ | ⟨l, r, wanted, hr, he⟩) | he
  · rw [(h.of_reindent? hr he).1]
    exact byte_before_leadStart (h.start_le_length (hr.lt_size h.toWellFormed))
  · obtain ⟨p, hp, -⟩ := hr.exists_parent
    have hl := hsolid l (lt_size_of_parent hp) (Nat.zero_lt_of_lt (parent_lt hp))
    have hlen : (t.node l).stop ≤ t.source.length := h.stop_le_length (lt_size_of_parent hp)
    rw [(h.of_respace? hr he).1, ← Bytes.slice_zero,
      Bytes.getLast?_slice (Nat.zero_lt_of_lt hl.start_lt_stop) hlen]
    exact hl.last_byte
  · exact absurd hempty (Nat.ne_of_lt (h.trimsRow he).start_lt)

theorem Addressable.isChain_inkBetween (h : t.Addressable)
    (hroot : t.isIndented SyntaxTree.root = false) (hsolid : ∀ i < t.size, 0 < i → t.Solid i) :
    t.layoutEdits.IsChain (Edit.InkBetween t.source) := by
  refine (Edit.isChain_batch t.layoutFindings).imp_of_mem_imp fun e f he hf hfits => ?_
  have he := Edit.mem_of_mem_batch he
  have hf := Edit.mem_of_mem_batch hf
  exact Edit.inkBetween_of_fitsAfter (h.onBlanks he) (h.onBlanks hf) hfits
    (h.byte_behind_of_solid hroot hsolid he) (h.byte_before_of_solid hsolid hf)

/-! ## The laid out text -/

theorem laidOut_of_layoutEdits_eq_nil (h : t.layoutEdits = []) : t.laidOut = t.source := by
  rw [laidOut, h]
  rfl

/-- Layout leaves a document as it is exactly if it has no edits for it, provided that no two edits
    in a row belong to one run of blanks. This is so if the text of every node below the root
    neither is empty nor starts or ends with a blank. The rows and columns of the source can be
    counted with 32 bits. -/
theorem layout_takes_effect (t : SyntaxTree) (h : t.Addressable) :
    (t.layoutEdits.IsChain (Edit.InkBetween t.source) →
        (t.laidOut = t.source ↔ t.layoutEdits = [])) ∧
      (t.isIndented SyntaxTree.root = false → (∀ i < t.size, 0 < i → t.Solid i) →
        (t.laidOut = t.source ↔ t.layoutEdits = [])) := by
  have heffect : t.layoutEdits.IsChain (Edit.InkBetween t.source) →
      (t.laidOut = t.source ↔ t.layoutEdits = []) := by
    intro hink
    refine ⟨fun hsame => ?_, laidOut_of_layoutEdits_eq_nil⟩
    by_contra hne
    exact h.laidOut_ne_source hne hink hsame
  exact ⟨heffect, fun hroot hsolid => heffect (h.isChain_inkBetween hroot hsolid)⟩

theorem layout_takes_effect_spacedCall : spacedCall.Addressable ∧
    spacedCall.layoutEdits.IsChain (Edit.InkBetween spacedCall.source) ∧
    (∀ i < spacedCall.size, 0 < i → spacedCall.Solid i) ∧
    (spacedCall.laidOut = spacedCall.source ↔ spacedCall.layoutEdits = []) ∧
    spacedCall.layoutEdits ≠ [] := by
  have hsolid : ∀ i < spacedCall.size, 0 < i → spacedCall.Solid i := by decide
  have heffect := (layout_takes_effect spacedCall spacedCall_addressable).2 (by decide) hsolid
  refine ⟨spacedCall_addressable, spacedCall_addressable.isChain_inkBetween (by decide) hsolid, hsolid,
    heffect, ?_⟩
  rw [layoutEdits_spacedCall]
  exact List.cons_ne_nil _ _

/-- A function whose last parameter is missing: the parser supplies one without text right behind the
    comma, and blanks follow up to the end of the row. -/
def missingParameter : SyntaxTree where
  source := Bytes.ofString "void f(Integer a, \n) \x7b\n\x7d\n"
  nodes := #[⟨.translationUnit, none, 0, 25, none⟩, ⟨.functionDefinition, none, 0, 24, some 0⟩,
    ⟨.other "primitive_type", some .type, 0, 4, some 1⟩,
    ⟨.functionDeclarator, some .declarator, 5, 20, some 1⟩,
    ⟨.identifier, some .declarator, 5, 6, some 3⟩,
    ⟨.other "parameter_list", some .parameters, 6, 20, some 3⟩,
    ⟨.openParen, none, 6, 7, some 5⟩, ⟨.parameterDeclaration, none, 7, 16, some 5⟩,
    ⟨.other "type_identifier", some .type, 7, 14, some 7⟩,
    ⟨.identifier, some .declarator, 15, 16, some 7⟩, ⟨.comma, none, 16, 17, some 5⟩,
    ⟨.parameterDeclaration, none, 17, 17, some 5⟩,
    ⟨.other "type_identifier", some .type, 17, 17, some 11⟩, ⟨.closeParen, none, 19, 20, some 5⟩,
    ⟨.compoundStatement, some .body, 21, 24, some 1⟩, ⟨.other "\x7b", none, 21, 22, some 14⟩,
    ⟨.closeBrace, none, 23, 24, some 14⟩]
  linksBack := by decide

theorem missingParameter_addressable : missingParameter.Addressable := by decide

theorem layoutEdits_missingParameter : missingParameter.layoutEdits =
    [⟨⟨⟨0, 17⟩, ⟨0, 17⟩⟩, [Bytes.space]⟩, ⟨⟨⟨0, 17⟩, ⟨0, 18⟩⟩, []⟩] := by
  have hfindings : missingParameter.layoutFindings =
      [⟨⟨⟨0, 17⟩, ⟨0, 18⟩⟩, []⟩, ⟨⟨⟨0, 17⟩, ⟨0, 17⟩⟩, [Bytes.space]⟩] := by decide +kernel
  rw [layoutEdits, hfindings]
  simp [Edit.batch, List.mergeSort, Span.le, Point.lt_iff, Point.le_iff, Edit.dropOverlapping,
    Edit.fitsAfter]

/-- The space that is asked for before the missing parameter and the one that is deleted behind it
    cancel out. -/
theorem layout_without_effect : missingParameter.Addressable ∧
    missingParameter.layoutEdits = [⟨⟨⟨0, 17⟩, ⟨0, 17⟩⟩, [Bytes.space]⟩, ⟨⟨⟨0, 17⟩, ⟨0, 18⟩⟩, []⟩] ∧
    missingParameter.laidOut = missingParameter.source := by
  refine ⟨missingParameter_addressable, layoutEdits_missingParameter, ?_⟩
  rw [laidOut, layoutEdits_missingParameter]
  decide

end SyntaxTree

end TwelveD
