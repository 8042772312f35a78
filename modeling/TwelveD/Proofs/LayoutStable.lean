import TwelveD.Proofs.CleanTrees
import TwelveD.Proofs.Relocation

/-!
# Layout is stable

A laid out document needs no further layout: in the tree of the laid out text, with every node where
the edits moved it, the rules find nothing.
-/

namespace TwelveD

namespace SyntaxTree

variable {t : SyntaxTree} {e : Edit} {i l r width : Nat} {wanted : Bytes}

namespace Clean

/-! ## Moved offsets -/

theorem blanks (h : t.Clean) : ∀ e ∈ t.layoutEdits,
    (t.source.slice (e.startIn t.source) (e.stopIn t.source)).isBlank = true ∧
      e.newText.isBlank = true :=
  fun _ he => ⟨(h.onBlanks_of_mem he).blank, (h.onBlanks_of_mem he).newText_isBlank⟩

/-- The start of a node cuts the edits in two. -/
theorem exists_cut_start (h : t.Clean) (hi : i < t.size) (hpos : 0 < i) :
    ∃ before behind, Edit.CutsAt t.source t.layoutEdits (t.node i).start before behind ∧
      (∀ e ∈ behind, (t.node i).start < e.startIn t.source) ∧
      ((t.relocate t.layoutEdits).node i).start =
        (Edit.written t.source 0 (t.node i).start before).length := by
  obtain ⟨before, behind, h1, h2, h3, h4, h5⟩ := Edit.exists_cut_start h.inOrder h.layoutEdits_spec.2
    (Nat.zero_le _) (h.start_le_length hi) (Nat.le_refl _)
    (fun e he hle => h.start_notMem hi hpos (h.blanks e he).1 hle)
  exact ⟨before, behind, ⟨h1, h2, h3⟩, h4, by rw [relocate_node t _ hi, h5]⟩

/-- The end of a node cuts the edits in two. -/
theorem exists_cut_stop (h : t.Clean) (hi : i < t.size) (hpos : 0 < i) :
    ∃ before behind, Edit.CutsAt t.source t.layoutEdits (t.node i).stop before behind ∧
      (∀ e ∈ before, e.startIn t.source < (t.node i).stop) ∧
      ((t.relocate t.layoutEdits).node i).stop =
        (Edit.written t.source 0 (t.node i).stop before).length := by
  obtain ⟨before, behind, h1, h2, h3, h4, h5⟩ := Edit.exists_cut_stop h.inOrder (Nat.zero_le _)
    (h.stop_le_length hi) (Nat.le_refl _) (h.stop_outside i hi hpos)
  exact ⟨before, behind, ⟨h1, h2, h3⟩, h4, by rw [relocate_node t _ hi, h5]⟩

theorem row_start (h : t.Clean) (hi : i < t.size) (hpos : 0 < i) :
    ((t.relocate t.layoutEdits).span i).start.row = (t.span i).start.row := by
  obtain ⟨before, behind, hcut, -, hmoved⟩ := h.exists_cut_start hi hpos
  rw [span, span, hmoved]
  exact hcut.row_pointAt h.blanks

theorem row_stop (h : t.Clean) (hi : i < t.size) (hpos : 0 < i) :
    ((t.relocate t.layoutEdits).span i).stop.row = (t.span i).stop.row := by
  obtain ⟨before, behind, hcut, -, hmoved⟩ := h.exists_cut_stop hi hpos
  rw [span, span, hmoved]
  exact hcut.row_pointAt h.blanks

/-! ## The rules in the moved tree -/

theorem relocate_meetInRow (h : t.Clean) (hl : l < t.size) (hlpos : 0 < l) (hr : r < t.size)
    (hrpos : 0 < r) : (t.relocate t.layoutEdits).meetInRow l r = t.meetInRow l r := by
  rw [meetInRow, meetInRow, h.row_stop hl hlpos, h.row_start hr hrpos]

theorem relocate_isSingleLine (h : t.Clean) (hi : i < t.size) (hpos : 0 < i) :
    ((t.relocate t.layoutEdits).span i).isSingleLine = (t.span i).isSingleLine := by
  rw [Span.isSingleLine, Span.isSingleLine, h.row_stop hi hpos, h.row_start hi hpos]

theorem pos_of_kind (h : t.Clean) (hk : t.kind i = .compoundStatement) : 0 < i := by
  refine Nat.pos_of_ne_zero ?_
  rintro rfl
  rcases h.root_kind with hroot | hroot
  · cases hk.symm.trans hroot
  · cases hk.symm.trans hroot

theorem relocate_isInOpenBlock (h : t.Clean) (i : Nat) :
    (t.relocate t.layoutEdits).isInOpenBlock i = t.isInOpenBlock i := by
  unfold isInOpenBlock
  rw [relocate_enclosing?]
  cases hb : t.enclosing? i .compoundStatement with
  | none => rfl
  | some b =>
    have hk : t.kind b = .compoundStatement := by simpa using List.find?_some hb
    obtain ⟨c, hc, -⟩ := exists_child_encloses (List.mem_of_find?_eq_some hb)
    have hsize : b < t.size := Nat.lt_trans (parent_lt hc) (lt_size_of_parent hc)
    simp only [Option.all_some, h.relocate_isSingleLine hsize (h.pos_of_kind hk)]

/-- A text of one character is moved to that text, and no longer text is, if it ends with ink. -/
theorem relocate_text_eq_iff (h : t.Clean) (hi : i < t.size) (hpos : 0 < i)
    (hend : ∀ b ∈ t.source[(t.node i).stop - 1]?, Bytes.isBlankByte b = false) :
    (t.relocate t.layoutEdits).text i = "&" ↔ t.text i = "&" := by
  have hlt := h.start_lt_stop i hi hpos
  have hlen := h.stop_le_length hi
  obtain ⟨first, hfirst, hink, -⟩ := h.exists_byte hi hpos
  obtain ⟨before, behind, hp, hbehind, hstart⟩ := h.exists_cut_start hi hpos
  obtain ⟨before', behind', hq, hbefore', hstop⟩ := h.exists_cut_stop hi hpos
  obtain ⟨between, h1, h2, h3, -, h5⟩ := hp.slice_applyAll hq (Nat.le_of_lt hlt) fun e he he' => by
    have := hp.left.stop_le e he
    have := hq.right.pairwise.1 e he'
    have := (h.onBlanks_of_mem (by rw [hp.eq]; exact List.mem_append_left _ he)).le
    omega
  have hamp : Bytes.ofString "&" = [0x26] := by decide
  rw [text, text, Bytes.textBetween_eq_iff (by decide), Bytes.textBetween_eq_iff (by decide),
    relocate_source, hstart, hstop, h5, hamp]
  have hwritten := Edit.ink_written h3 fun e he => h.blanks e ((hp.between_sublist h2).mem he)
  constructor
  · intro hone
    rw [hone] at hwritten
    refine Bytes.eq_of_ink_eq_singleton hwritten.symm (fun b hb => ?_) (fun b hb => ?_)
    · rw [Bytes.slice_eq_cons hfirst hlt] at hb
      obtain rfl := Option.some.inj hb
      exact hink
    · rw [Bytes.getLast?_slice hlt hlen] at hb
      exact hend b hb
  · intro hone
    obtain rfl : between = [] := by
      cases between with
      | nil => rfl
      | cons e between =>
        have hshort := congrArg List.length hone
        rw [Bytes.length_slice hlen, List.length_singleton] at hshort
        have h6 := hbehind e (by simp [h2])
        have h7 := hbefore' e (by simp [h1])
        omega
    exact hone

theorem relocate_isReferenceMark (h : t.Clean) (hi : i < t.size) (hpos : 0 < i) :
    (t.relocate t.layoutEdits).isReferenceMark i = t.isReferenceMark i := by
  unfold isReferenceMark
  rw [relocate_kind]
  by_cases hk : t.kind i = .error
  · have hiff := h.relocate_text_eq_iff hi hpos (h.error_stop i hi hpos hk)
    rw [Bool.eq_iff_iff]
    simp only [hk, BEq.rfl, Bool.true_and, beq_iff_eq, hiff]
  · rw [beq_false_of_ne hk, Bool.false_and, Bool.false_and]

theorem relocate_mark? (h : t.Clean) {p : Nat} (hp : t.parent r = some p) :
    (t.relocate t.layoutEdits).mark? r = t.mark? r := by
  unfold mark?
  rw [relocate_previousSibling?]
  cases hprev : t.previousSibling? r with
  | none => rfl
  | some s =>
    have hs := (previousSibling?_eq_some_iff.mp hprev).parent_eq hp
    simp only [Option.filter_some,
      h.relocate_isReferenceMark (lt_size_of_parent hs) (pos_of_parent hs)]

theorem meetInRow_of_parent (h : t.Clean) {p : Nat} (hl : t.parent l = some p)
    (hr : t.parent r = some p) : (t.relocate t.layoutEdits).meetInRow l r = t.meetInRow l r :=
  h.relocate_meetInRow (lt_size_of_parent hl) (pos_of_parent hl) (lt_size_of_parent hr)
    (pos_of_parent hr)

/-- The rules ask for no other indentation in the moved tree. -/
theorem reindents_of_relocate (h : t.Clean) (hr : (t.relocate t.layoutEdits).Reindents i width) :
    t.Reindents i width := by
  cases hr with
  | closingBrace hmem hkind hlast hbrace hrows hempty =>
    rw [mem_relocate_allNodes] at hmem
    rw [relocate_kind] at hkind hbrace
    rw [relocate_children] at hlast
    have hp := (mem_children.mp (List.mem_of_getLast? hlast)).2
    have hi := lt_size_of_parent hp
    rw [h.relocate_isSingleLine (h.mem_allNodes_iff.mp hmem) (h.pos_of_kind hkind)] at hrows
    rw [relocate_blockIndent]
    refine .closingBrace hmem hkind hlast hbrace hrows ?_
    have hlt := h.start_lt_stop i hi (pos_of_parent hp)
    rw [Span.isEmpty, beq_eq_false_iff_ne, span, ne_eq,
      Bytes.pointAt_inj (h.start_le_length hi) (h.stop_le_length hi)]
    omega
  | block hmem hind hopen =>
    rw [mem_relocate_allNodes] at hmem
    rw [relocate_isIndented] at hind
    rw [h.relocate_isInOpenBlock] at hopen
    rw [relocate_blockIndent]
    exact .block hmem hind hopen
  | body hdef hdecl hbody hrow =>
    rw [relocate_isDefinition] at hdef
    rw [relocate_child?] at hdecl hbody
    rw [h.meetInRow_of_parent (parent_of_child? hdecl) (parent_of_child? hbody)] at hrow
    rw [relocate_blockIndent]
    exact .body hdef hdecl hbody hrow
  | parameter hdef hlist hpair hleft hright hrow =>
    rw [relocate_isDefinition] at hdef
    rw [relocate_parameterList?] at hlist
    rw [relocate_children] at hpair
    rw [relocate_kind] at hleft hright
    obtain ⟨hl, hr⟩ := mem_of_mem_neighbours hpair
    rw [h.meetInRow_of_parent (mem_children.mp hl).2 (mem_children.mp hr).2] at hrow
    rw [relocate_blockDepth]
    exact .parameter hdef hlist hpair hleft hright hrow

/-- The rules ask for no other spacing in the moved tree. -/
theorem respaces_of_relocate (h : t.Clean)
    (hr : (t.relocate t.layoutEdits).Respaces l r wanted) : t.Respaces l r wanted := by
  cases hr with
  | heading hdef htype hdecl =>
    rw [relocate_isDefinition] at hdef
    rw [relocate_child?] at htype hdecl
    exact .heading hdef htype hdecl
  | body hdef hdecl hbody hrow =>
    rw [relocate_isDefinition] at hdef
    rw [relocate_child?] at hdecl hbody
    rw [h.meetInRow_of_parent (parent_of_child? hdecl) (parent_of_child? hbody)] at hrow
    exact .body hdef hdecl hbody hrow
  | parameterList hdef hlist hpair hgap hrow =>
    rw [relocate_isDefinition] at hdef
    rw [relocate_parameterList?] at hlist
    rw [relocate_children] at hpair
    rw [relocate_kind, relocate_kind] at hgap
    rw [relocate_kind] at hrow
    obtain ⟨hl, hr⟩ := mem_of_mem_neighbours hpair
    rw [h.meetInRow_of_parent (mem_children.mp hl).2 (mem_children.mp hr).2] at hrow
    exact .parameterList hdef hlist hpair hgap hrow
  | parameter hparam htype hname hmark =>
    rw [relocate_isParameter] at hparam
    rw [relocate_child?] at htype hname
    rw [h.relocate_mark? (parent_of_child? hname)] at hmark
    exact .parameter hparam htype hname hmark
  | typeAndMark hparam htype hname hmark =>
    rw [relocate_isParameter] at hparam
    rw [relocate_child?] at htype hname
    rw [h.relocate_mark? (parent_of_child? hname)] at hmark
    exact .typeAndMark hparam htype hname hmark
  | markAndName hparam htype hname hmark =>
    rw [relocate_isParameter] at hparam
    rw [relocate_child?] at htype hname
    rw [h.relocate_mark? (parent_of_child? hname)] at hmark
    exact .markAndName hparam htype hname hmark
  | argumentList hmem hkind hpair hgap =>
    rw [mem_relocate_allNodes] at hmem
    rw [relocate_kind] at hkind
    rw [relocate_children] at hpair
    rw [relocate_kind, relocate_kind] at hgap
    exact .argumentList hmem hkind hpair hgap

/-! ## Nothing is left to do -/

/-- Blanks that all findings at their end replace by one text become that text. -/
theorem written_eq (h : t.Clean) {p q : Nat} {es : List Edit} (hq : q ≤ t.source.length)
    (hes : Edit.InOrder t.source p q es) (hsub : es.Sublist t.layoutEdits)
    (hblank : (t.source.slice p q).isBlank = true)
    (hagree : ∀ e ∈ t.layoutFindings, e.stopIn t.source = q →
      e.startIn t.source = p ∧ e.newText = wanted)
    (hnil : es = [] → t.source.slice p q = wanted) :
    Edit.written t.source p q es = wanted := by
  refine Edit.written_eq_of_forall hes (h.layoutEdits_spec.2.sublist hsub) (fun e he => ?_) hnil
  have hmem := hsub.mem he
  have hfound := (h.layoutEdits_spec.1 e).mp hmem
  have hstop : e.stopIn t.source = q := by
    by_contra hne
    have hle := hes.stop_le e he
    have hstart := hes.pairwise.1 e he
    have hlies := (h.onBlanks_of_mem hmem).le
    have hlt : e.stopIn t.source < t.source.length := by omega
    have hb := List.getElem?_eq_getElem hlt
    have := Bytes.le_of_isBlank_slice hblank (Nat.le_trans hstart hlies) hb
      (h.byte_behind hfound _ hb)
    omega
  obtain ⟨h1, h2⟩ := hagree e hfound hstop
  exact ⟨h1, hstop, h2⟩

/-- Two nodes that are in order in the moved tree are in order in the tree. -/
theorem stop_le_start_of_relocate (h : t.Clean) (hl : l < t.size) (hlpos : 0 < l) (hr : r < t.size)
    (hrpos : 0 < r) (hle : ((t.relocate t.layoutEdits).node l).stop ≤
      ((t.relocate t.layoutEdits).node r).start) : (t.node l).stop ≤ (t.node r).start := by
  by_contra hlt
  obtain ⟨before, behind, hp, -, hstop⟩ := h.exists_cut_stop hl hlpos
  obtain ⟨before', behind', hq, -, hstart⟩ := h.exists_cut_start hr hrpos
  obtain ⟨between, -, h2, h3, h4, -⟩ := hq.slice_applyAll hp (by omega) fun e he he' => by
    have := hq.left.stop_le e he
    have := hp.right.pairwise.1 e he'
    have := (h.onBlanks_of_mem (by rw [hq.eq]; exact List.mem_append_left _ he)).le
    omega
  have hnil : Edit.written t.source (t.node r).start (t.node l).stop between = [] := by
    rw [hstop, hstart, h4, List.length_append] at hle
    exact List.eq_nil_of_length_eq_zero (by omega)
  -- but the first byte of the right node is not lost
  have hink := Edit.ink_written h3 fun e he => h.blanks e ((hq.between_sublist h2).mem he)
  rw [hnil, Bytes.ink_nil] at hink
  exact hlt (h.start_notMem hr hrpos (Bytes.ink_eq_nil_iff.mp hink.symm) (Nat.le_refl _))

theorem respace?_relocate (h : t.Clean) (hr : t.Respaces l r wanted) :
    (t.relocate t.layoutEdits).respace? l r wanted = none := by
  rw [Option.eq_none_iff_forall_ne_some]
  intro e he
  obtain ⟨gap, hgap, hblank, hne, -⟩ := respace?_eq_some_iff.mp he
  obtain ⟨hrow, hle, rfl⟩ := gap?_eq_some_iff.mp hgap
  obtain ⟨p, hlp, hrp⟩ := hr.exists_parent
  have hl := lt_size_of_parent hlp
  have hr' := lt_size_of_parent hrp
  rw [h.meetInRow_of_parent hlp hrp] at hrow
  have hle := h.stop_le_start_of_relocate hl (pos_of_parent hlp) hr' (pos_of_parent hrp) hle
  obtain ⟨before, behind, hp, hbefore, hstop⟩ := h.exists_cut_stop hl (pos_of_parent hlp)
  obtain ⟨before', behind', hq, hbehind', hstart⟩ := h.exists_cut_start hr' (pos_of_parent hrp)
  obtain ⟨between, -, h2, h3, -, h5⟩ := hp.slice_applyAll hq hle fun e he he' => by
    have := hbefore e he
    have := hbehind' e he'
    omega
  rw [relocate_source, hstop, hstart, h5] at hblank hne
  have hsub := hp.between_sublist h2
  have hblank' : (t.source.slice (t.node l).stop (t.node r).start).isBlank = true := by
    rw [← Bytes.ink_eq_nil_iff, ← Edit.ink_written h3 fun e he => h.blanks e (hsub.mem he)]
    exact Bytes.ink_eq_nil_iff.mpr hblank
  have hgap' : t.gap? l r = some (t.source.slice (t.node l).stop (t.node r).start) :=
    gap?_eq_some_iff.mpr ⟨hrow, hle, rfl⟩
  refine hne (h.written_eq (h.start_le_length hr') h3 hsub hblank'
    (fun e he hstop => h.eq_of_respaces hr hgap' hblank' he hstop) fun hnil => ?_)
  -- without an edit between the two nodes there was nothing to do
  by_contra hne'
  have hedit := respace?_eq_some_iff.mpr ⟨_, hgap', hblank', hne', rfl⟩
  obtain ⟨h6, -, -⟩ := h.of_respace? hr hedit
  have hmem := (h.layoutEdits_spec.1 _).mpr
    (mem_layoutFindings_iff.mpr (Or.inl (Or.inr ⟨l, r, wanted, hr, hedit⟩)))
  have hbetween := hp.mem_between h2 hle hbefore hbehind' hmem h6
  rw [hnil] at hbetween
  cases hbetween

/-- The start of a row cuts the edits in two, and stays the start of a row. -/
theorem exists_cut_lead (h : t.Clean) (hi : i < t.size) :
    ∃ before behind, Edit.CutsAt t.source t.layoutEdits (t.leadStart i) before behind ∧
      (∀ e ∈ before, e.startIn t.source < t.leadStart i) ∧
      Bytes.lastRow (Edit.written t.source 0 (t.leadStart i) before) = [] := by
  have hlen := h.start_le_length hi
  have hlead : t.leadStart i ≤ t.source.length := Nat.le_trans (leadStart_le t i) hlen
  have hrow : Bytes.lastRow (t.source.take (t.leadStart i)) = [] :=
    (Bytes.take_rowStart t.source hlen).1
  have hlf : 0 < t.leadStart i → t.source[t.leadStart i - 1]? = some Bytes.lineFeed := by
    intro hpos
    have hlt : t.leadStart i - 1 < t.source.length := by omega
    have hlast := (Bytes.lastRow_eq_nil_iff.mp hrow).resolve_left fun hnil => by
      have := congrArg List.length hnil
      rw [List.length_take, List.length_nil] at this
      omega
    rwa [List.getLast?_take, if_neg (by omega), List.getElem?_eq_getElem hlt, Option.some_or,
      ← List.getElem?_eq_getElem hlt] at hlast
  -- an edit across the start of the row would cover the line feed before it
  have hstop : ∀ e ∈ t.layoutEdits, e.startIn t.source < t.leadStart i →
      e.stopIn t.source < t.leadStart i := by
    intro e he hlt
    have := Bytes.le_of_isBlank_slice (h.blanks e he).1 (Nat.le_sub_one_of_lt hlt)
      (hlf (Nat.zero_lt_of_lt hlt)) (by decide)
    omega
  obtain ⟨before, behind, h1, h2, h3, h4, -⟩ := Edit.exists_cut_stop h.inOrder (Nat.zero_le _) hlead
    (Nat.le_refl _) (fun e he hlt => Nat.le_of_lt (hstop e he hlt))
  refine ⟨before, behind, ⟨h1, h2, h3⟩, h4, Bytes.lastRow_eq_nil_iff.mpr ?_⟩
  rcases Nat.eq_zero_or_pos (t.leadStart i) with hzero | hpos
  · obtain rfl : before = [] := by
      cases before with
      | nil => rfl
      | cons e before =>
        have := h4 e (List.mem_cons_self ..)
        omega
    exact Or.inl (by rw [Edit.written, hzero, Bytes.slice_self])
  · refine Or.inr ?_
    rw [Edit.getLast?_written h2 hpos hlead fun e he =>
      hstop e (by rw [h1]; exact List.mem_append_left _ he) (h4 e he)]
    exact hlf hpos

theorem reindent?_relocate (h : t.Clean) (hr : t.Reindents i width) :
    (t.relocate t.layoutEdits).reindent? i width = none := by
  rw [Option.eq_none_iff_forall_ne_some]
  intro e he
  obtain ⟨hblank, hne, -⟩ := reindent?_eq_some_iff.mp he
  have hi := hr.lt_size h.toWellFormed
  have hpos := h.pos_of_reindents hr
  have hlen := h.start_le_length hi
  obtain ⟨before, behind, hp, hbefore, hrow⟩ := h.exists_cut_lead hi
  obtain ⟨before', behind', hq, hbehind', hstart⟩ := h.exists_cut_start hi hpos
  obtain ⟨between, -, h2, h3, h4, -⟩ := hp.slice_applyAll hq (leadStart_le t i) fun e he he' => by
    have := hbefore e he
    have := hbehind' e he'
    have := leadStart_le t i
    omega
  have hlead : (t.relocate t.layoutEdits).lineLead i =
      Bytes.lastRow (Edit.written t.source 0 (t.node i).start before') := by
    rw [lineLead, span, hstart, relocate_source, Bytes.slice_column _ hq.length_le,
      hq.take_applyAll]
  have hline : t.startsLine i = true := by
    rw [startsLine, lineLead, span, Bytes.slice_column _ hlen, ← Bytes.ink_eq_nil_iff,
      Bytes.ink_lastRow, ← hq.ink_written h.blanks, ← Bytes.ink_lastRow, Bytes.ink_eq_nil_iff,
      ← hlead]
    exact hblank
  have hwritten : Edit.written t.source (t.leadStart i) (t.node i).start between =
      Bytes.spaces width := by
    refine h.written_eq hlen h3 (hp.between_sublist h2) hline
      (fun e he hstop => h.eq_of_reindents hr hline he hstop) fun hnil => ?_
    by_contra hne'
    have hedit := reindent?_eq_some_iff.mpr ⟨hline, hne', rfl⟩
    obtain ⟨h6, -, -⟩ := h.of_reindent? hr hedit
    have hmem := (h.layoutEdits_spec.1 _).mpr
      (mem_layoutFindings_iff.mpr (Or.inl (Or.inl ⟨i, width, hr, hedit⟩)))
    have hbetween := hp.mem_between h2 (leadStart_le t i) hbefore hbehind' hmem h6
    rw [hnil] at hbetween
    cases hbetween
  refine hne ?_
  rw [hlead, h4, hwritten, Bytes.lastRow_append
    (Bytes.lineFeed_notMem_of_isBlank (Bytes.isBlank_spaces width)), hrow, List.nil_append]

/-- No row of the laid out text ends with a space. -/
theorem isTrimmed_laidOut (h : t.Clean) : t.laidOut.IsTrimmed := by
  rw [laidOut, Edit.applyAll_eq_written]
  refine Edit.isTrimmed_written h.inOrder h.layoutEdits_spec.2 (fun o _ hspace hlf => ?_)
    (fun e he => (h.onBlanks_of_mem he).spaces) (fun e he => ?_)
  · obtain ⟨hlt, hget⟩ := List.getElem?_eq_some_iff.mp hspace
    have hsplit : t.source.take o ++ Bytes.space :: t.source.drop (o + 1) = t.source := by
      rw [← hget, ← List.drop_eq_getElem_cons hlt, List.take_append_drop]
    obtain ⟨e, he, h1, h2⟩ := Bytes.exists_lineEndEdit (t.source.take o)
      (show ∀ b ∈ (t.source.drop (o + 1)).head?, b = Bytes.lineFeed by rwa [List.head?_drop])
      (by rw [hsplit]; exact h.short)
    rw [hsplit, List.length_take, Nat.min_eq_left (Nat.le_of_lt hlt)] at h1 h2
    rw [hsplit] at he
    exact ⟨e, (h.layoutEdits_spec.1 e).mpr (mem_layoutFindings_iff.mpr (Or.inr he)), h1, h2⟩
  · rcases h.stop_cases ((h.layoutEdits_spec.1 e).mp he) with ⟨b, hb, -, -, hne⟩ | ht
    · exact Or.inl ⟨b, hb, hne⟩
    · exact Or.inr ⟨ht.newText_eq, ht.before⟩

theorem carriageReturn_notMem_laidOut (h : t.Clean) (hcr : Bytes.carriageReturn ∉ t.source) :
    Bytes.carriageReturn ∉ t.laidOut := by
  intro hmem
  have hink : Bytes.carriageReturn ∈ t.laidOut.ink := List.mem_filter.mpr ⟨hmem, by decide⟩
  rw [h.ink_laidOut] at hink
  exact hcr (List.mem_of_mem_filter hink)

end Clean

/-- A function of which the heading, the body and the closing brace are not laid out. -/
def unkemptFunction : SyntaxTree where
  source := Bytes.ofString "void f( int a )\x7b\nint b;  \n \x7d\n"
  nodes := #[⟨.translationUnit, none, 0, 29, none⟩, ⟨.functionDefinition, none, 0, 28, some 0⟩,
    ⟨.other "primitive_type", some .type, 0, 4, some 1⟩,
    ⟨.functionDeclarator, some .declarator, 5, 15, some 1⟩,
    ⟨.identifier, some .declarator, 5, 6, some 3⟩,
    ⟨parameterListKind, some .parameters, 6, 15, some 3⟩, ⟨.openParen, none, 6, 7, some 5⟩,
    ⟨.parameterDeclaration, none, 8, 13, some 5⟩,
    ⟨.other "primitive_type", some .type, 8, 11, some 7⟩,
    ⟨.identifier, some .declarator, 12, 13, some 7⟩, ⟨.closeParen, none, 14, 15, some 5⟩,
    ⟨.compoundStatement, some .body, 15, 28, some 1⟩, ⟨openBraceKind, none, 15, 16, some 11⟩,
    ⟨.declaration, none, 17, 23, some 11⟩,
    ⟨.other "primitive_type", some .type, 17, 20, some 13⟩,
    ⟨.identifier, some .declarator, 21, 22, some 13⟩, ⟨.other ";", none, 22, 23, some 13⟩,
    ⟨.closeBrace, none, 27, 28, some 11⟩]
  linksBack := by decide

theorem unkemptFunction_addressable : unkemptFunction.Addressable := by decide

theorem unkemptFunction_clean : unkemptFunction.Clean where
  toAddressable := unkemptFunction_addressable
  root_kind := by decide
  start_lt_stop := by decide
  first_byte := by decide
  stop_outside := unkemptFunction_addressable.stop_outside_of_bytes (by decide)
  open_brace := by decide
  close_brace := by decide
  parameters_kind := by decide
  parameter_start := by decide
  meets := by decide
  error_stop := by decide

theorem unkemptFunction_layoutEdits_ne_nil : unkemptFunction.layoutEdits ≠ [] := by
  have hfound : ⟨⟨⟨1, 6⟩, ⟨1, 8⟩⟩, []⟩ ∈ unkemptFunction.source.lineEndEdits := by decide
  exact List.ne_nil_of_mem ((unkemptFunction_clean.layoutEdits_spec.1 _).mpr
    (mem_layoutFindings_iff.mpr (Or.inr hfound)))

end SyntaxTree

end TwelveD
