import TwelveD.Layout.Document
import TwelveD.Proofs.Declarators

/-!
# What the layout rules ask for

The layout rules ask for two things: that the row of a node is indented by some width, `Reindents`,
and that some text stands between two nodes, `Respaces`. The two relations list all cases, and
`mem_layoutFindings_iff` says that the findings are the edits that follow from them, together with
the edits at the ends of rows.
-/

namespace TwelveD.SyntaxTree

/-- A function definition of the tree. -/
def IsDefinition (t : SyntaxTree) (i : Nat) : Prop :=
  i ∈ t.allNodes ∧ t.kind i = .functionDefinition

/-- A parameter of a function definition. -/
def IsParameter (t : SyntaxTree) (i : Nat) : Prop :=
  ∃ definition list, t.IsDefinition definition ∧ t.parameterList? definition = some list ∧
    i ∈ t.children list ∧ t.kind i = .parameterDeclaration

/-- The mark before a parameter's name, if the parameter is passed by reference. -/
def mark? (t : SyntaxTree) (name : Nat) : Option Nat :=
  (t.previousSibling? name).filter t.isReferenceMark

/-- The text that should stand between two neighbours of a parameter list that meet in a row. -/
def parameterGap? : Kind → Kind → Option Bytes
  | .openParen, .parameterDeclaration => some noSpace
  | .parameterDeclaration, .comma => some noSpace
  | .comma, .parameterDeclaration => some oneSpace
  | _, _ => none

/-- The rules ask for the row of a node to be indented by a width, if the node is the first of its
    row. -/
inductive Reindents (t : SyntaxTree) : Nat → Nat → Prop where
  /-- The closing brace of a block that takes several rows. -/
  | closingBrace {block brace : Nat} (hmem : block ∈ t.allNodes)
      (hkind : t.kind block = .compoundStatement) (hlast : (t.children block).getLast? = some brace)
      (hbrace : t.kind brace = .closeBrace) (hrows : (t.span block).isSingleLine = false)
      (hempty : (t.span brace).isEmpty = false) : t.Reindents brace (t.blockIndent block)
  /-- A statement, a declaration or a definition. -/
  | block {i : Nat} (hmem : i ∈ t.allNodes) (hind : t.isIndented i = true)
      (hopen : t.isInOpenBlock i = true) : t.Reindents i (t.blockIndent i)
  /-- The body of a function on a row of its own. -/
  | body {definition declarator body : Nat} (hdef : t.IsDefinition definition)
      (hdecl : t.child? definition .declarator = some declarator)
      (hbody : t.child? definition .body = some body) (hrow : t.meetInRow declarator body = false) :
      t.Reindents body (t.blockIndent definition)
  /-- A parameter on another row than the comma before it. -/
  | parameter {definition list left right : Nat} (hdef : t.IsDefinition definition)
      (hlist : t.parameterList? definition = some list)
      (hpair : (left, right) ∈ neighbours (t.children list)) (hleft : t.kind left = .comma)
      (hright : t.kind right = .parameterDeclaration) (hrow : t.meetInRow left right = false) :
      t.Reindents right ((t.blockDepth definition + 1) * indentWidth)

/-- The rules ask for a text between two nodes, if these meet in one row and nothing but blanks stands
    between them. -/
inductive Respaces (t : SyntaxTree) : Nat → Nat → Bytes → Prop where
  /-- The type of a function and its declarator. -/
  | heading {definition type declarator : Nat} (hdef : t.IsDefinition definition)
      (htype : t.child? definition .type = some type)
      (hdecl : t.child? definition .declarator = some declarator) :
      t.Respaces type declarator oneSpace
  /-- The declarator of a function and its body. -/
  | body {definition declarator body : Nat} (hdef : t.IsDefinition definition)
      (hdecl : t.child? definition .declarator = some declarator)
      (hbody : t.child? definition .body = some body) (hrow : t.meetInRow declarator body = true) :
      t.Respaces declarator body oneSpace
  /-- Neighbours in a parameter list. -/
  | parameterList {definition list left right : Nat} {wanted : Bytes}
      (hdef : t.IsDefinition definition) (hlist : t.parameterList? definition = some list)
      (hpair : (left, right) ∈ neighbours (t.children list))
      (hgap : parameterGap? (t.kind left) (t.kind right) = some wanted)
      (hrow : t.kind left = .comma → t.meetInRow left right = true) :
      t.Respaces left right wanted
  /-- The type and the name of a parameter. -/
  | parameter {parameter type name : Nat} (hparam : t.IsParameter parameter)
      (htype : t.child? parameter .type = some type)
      (hname : t.child? parameter .declarator = some name) (hmark : t.mark? name = none) :
      t.Respaces type name oneSpace
  /-- The type of a parameter and the mark before its name. -/
  | typeAndMark {parameter type mark name : Nat} (hparam : t.IsParameter parameter)
      (htype : t.child? parameter .type = some type)
      (hname : t.child? parameter .declarator = some name) (hmark : t.mark? name = some mark) :
      t.Respaces type mark oneSpace
  /-- The mark before a parameter's name and the name. -/
  | markAndName {parameter type mark name : Nat} (hparam : t.IsParameter parameter)
      (htype : t.child? parameter .type = some type)
      (hname : t.child? parameter .declarator = some name) (hmark : t.mark? name = some mark) :
      t.Respaces mark name noSpace
  /-- Neighbours in an argument list. -/
  | argumentList {list left right : Nat} {wanted : Bytes} (hmem : list ∈ t.allNodes)
      (hkind : t.kind list = .argumentList) (hpair : (left, right) ∈ neighbours (t.children list))
      (hgap : argumentGap? (t.kind left) (t.kind right) = some wanted) :
      t.Respaces left right wanted

variable {t : SyntaxTree} {e : Edit} {i l r width : Nat} {wanted : Bytes}

/-! ## The nodes of the rules -/

theorem mem_of_mem_neighbours {ids : List Nat} (h : (l, r) ∈ neighbours ids) :
    l ∈ ids ∧ r ∈ ids := by
  obtain ⟨hl, hr⟩ := List.of_mem_zip h
  exact ⟨hl, List.mem_of_mem_tail hr⟩

theorem parent_of_mark? {p : Nat} (h : t.mark? r = some l) (hp : t.parent r = some p) :
    t.parent l = some p := by
  obtain ⟨hprev, -⟩ := Option.filter_eq_some_iff.mp h
  exact (previousSibling?_eq_some_iff.mp hprev).parent_eq hp

/-- A text is only asked for between children of one node. -/
theorem Respaces.exists_parent (h : t.Respaces l r wanted) :
    ∃ p, t.parent l = some p ∧ t.parent r = some p := by
  cases h with
  | heading _ htype hdecl => exact ⟨_, parent_of_child? htype, parent_of_child? hdecl⟩
  | body _ hdecl hbody => exact ⟨_, parent_of_child? hdecl, parent_of_child? hbody⟩
  | parameterList _ _ hpair =>
    obtain ⟨hl, hr⟩ := mem_of_mem_neighbours hpair
    exact ⟨_, (mem_children.mp hl).2, (mem_children.mp hr).2⟩
  | parameter _ htype hname => exact ⟨_, parent_of_child? htype, parent_of_child? hname⟩
  | typeAndMark _ htype hname hmark =>
    exact ⟨_, parent_of_child? htype, parent_of_mark? hmark (parent_of_child? hname)⟩
  | markAndName _ _ hname hmark =>
    exact ⟨_, parent_of_mark? hmark (parent_of_child? hname), parent_of_child? hname⟩
  | argumentList _ _ hpair =>
    obtain ⟨hl, hr⟩ := mem_of_mem_neighbours hpair
    exact ⟨_, (mem_children.mp hl).2, (mem_children.mp hr).2⟩

theorem Reindents.lt_size (h : t.Reindents i width) (ht : t.WellFormed) : i < t.size := by
  cases h with
  | closingBrace _ _ hlast => exact (lt_of_mem_children (List.mem_of_getLast? hlast)).2
  | block hmem => exact ht.mem_allNodes_iff.mp hmem
  | body _ _ hbody => exact (lt_of_child? hbody).2
  | parameter _ _ hpair => exact (lt_of_mem_children (mem_of_mem_neighbours hpair).2).2

/-- The root is only indented if it is a statement, a declaration or a definition itself. -/
theorem Reindents.pos (h : t.Reindents i width) (hroot : t.isIndented SyntaxTree.root = false) :
    0 < i := by
  cases h with
  | closingBrace _ _ hlast =>
    exact Nat.zero_lt_of_lt (lt_of_mem_children (List.mem_of_getLast? hlast)).1
  | block _ hind =>
    refine Nat.pos_of_ne_zero ?_
    rintro rfl
    exact absurd hind (by rw [show t.isIndented 0 = false from hroot]; decide)
  | body _ _ hbody => exact Nat.zero_lt_of_lt (lt_of_child? hbody).1
  | parameter _ _ hpair =>
    exact Nat.zero_lt_of_lt (lt_of_mem_children (mem_of_mem_neighbours hpair).2).1

/-- The texts that are asked for are runs of spaces. -/
theorem Respaces.exists_spaces (h : t.Respaces l r wanted) : ∃ n, wanted = Bytes.spaces n := by
  cases h with
  | heading | body | parameter | typeAndMark => exact ⟨1, rfl⟩
  | markAndName => exact ⟨0, rfl⟩
  | parameterList _ _ _ hgap =>
    unfold parameterGap? at hgap
    split at hgap
    · exact ⟨0, (Option.some.inj hgap).symm⟩
    · exact ⟨0, (Option.some.inj hgap).symm⟩
    · exact ⟨1, (Option.some.inj hgap).symm⟩
    · cases hgap
  | argumentList _ _ _ hgap =>
    unfold argumentGap? at hgap
    split at hgap
    · exact ⟨0, (Option.some.inj hgap).symm⟩
    · split at hgap
      · exact ⟨1, (Option.some.inj hgap).symm⟩
      · cases hgap

/-! ## Single edits -/

theorem reindent?_eq_some_iff : t.reindent? i width = some e ↔
    t.startsLine i = true ∧ t.lineLead i ≠ Bytes.spaces width ∧
      e = ⟨⟨⟨(t.span i).start.row, 0⟩, (t.span i).start⟩, Bytes.spaces width⟩ := by
  simp only [reindent?]
  split
  · rename_i h
    simp [h.1, h.2, eq_comm]
  · rename_i h
    simp only [reduceCtorEq, false_iff]
    tauto

theorem respace?_eq_some_iff : t.respace? l r wanted = some e ↔
    ∃ gap, t.gap? l r = some gap ∧ gap.isBlank = true ∧ gap ≠ wanted ∧
      e = ⟨⟨(t.span l).stop, (t.span r).start⟩, wanted⟩ := by
  unfold respace?
  cases t.gap? l r with
  | none => simp
  | some gap =>
    simp only [Option.bind_eq_bind, Option.bind_some, Option.some.injEq, exists_eq_left']
    split
    · rename_i h
      simp [h.1, h.2, eq_comm]
    · rename_i h
      simp only [reduceCtorEq, false_iff]
      tauto

theorem gap?_eq_some_iff {gap : Bytes} : t.gap? l r = some gap ↔
    t.meetInRow l r = true ∧ (t.node l).stop ≤ (t.node r).start ∧
      gap = t.source.slice (t.node l).stop (t.node r).start := by
  unfold gap? meetInRow
  split
  · rename_i h
    simp [h.1, h.2, eq_comm]
  · rename_i h
    simp only [reduceCtorEq, beq_iff_eq, false_iff]
    tauto

/-! ## Blocks -/

theorem closingBraceEdit?_eq_some_iff : t.closingBraceEdit? i = some e ↔
    ∃ brace, (t.children i).getLast? = some brace ∧ t.kind brace = .closeBrace ∧
      (t.span i).isSingleLine = false ∧ (t.span brace).isEmpty = false ∧
      t.reindent? brace (t.blockIndent i) = some e := by
  unfold closingBraceEdit?
  cases (t.children i).getLast? with
  | none => simp
  | some brace =>
    simp only [Option.bind_eq_bind, Option.bind_some, Option.some.injEq, exists_eq_left']
    split
    · rename_i h
      simp only [reduceCtorEq, false_iff]
      rintro ⟨h1, h2, h3, -⟩
      rcases h with h | h | h
      · rw [h2] at h
        cases h
      · exact h h1
      · rw [h3] at h
        cases h
    · rename_i h
      simp only [not_or, Bool.not_eq_true, not_not] at h
      simp [h.1, h.2.1, h.2.2]

theorem kind_ne_of_isIndented (h : t.isIndented i = true) : t.kind i ≠ .compoundStatement := by
  intro hk
  simp [isIndented, hk] at h

theorem mem_blockEdits_iff : e ∈ t.blockEdits ↔
    (∃ block brace, block ∈ t.allNodes ∧ t.kind block = .compoundStatement ∧
      (t.children block).getLast? = some brace ∧ t.kind brace = .closeBrace ∧
      (t.span block).isSingleLine = false ∧ (t.span brace).isEmpty = false ∧
      t.reindent? brace (t.blockIndent block) = some e) ∨
    ∃ i ∈ t.allNodes, t.isIndented i = true ∧ t.isInOpenBlock i = true ∧
      t.reindent? i (t.blockIndent i) = some e := by
  rw [blockEdits, List.mem_filterMap]
  constructor
  · rintro ⟨i, hi, he⟩
    rw [blockEdit?] at he
    split at he
    · rename_i hk
      obtain ⟨brace, h⟩ := closingBraceEdit?_eq_some_iff.mp he
      exact Or.inl ⟨i, brace, hi, hk, h⟩
    · split at he
      · rename_i h
        rw [Bool.and_eq_true] at h
        exact Or.inr ⟨i, hi, h.1, h.2, he⟩
      · cases he
  · rintro (⟨i, brace, hi, hk, h⟩ | ⟨i, hi, h1, h2, he⟩)
    · exact ⟨i, hi, by rw [blockEdit?, if_pos hk]; exact closingBraceEdit?_eq_some_iff.mpr ⟨brace, h⟩⟩
    · refine ⟨i, hi, ?_⟩
      rw [blockEdit?, if_neg (kind_ne_of_isIndented h1), if_pos (by simp [h1, h2])]
      exact he

/-! ## Calls -/

theorem mem_callEdits_iff : e ∈ t.callEdits ↔
    ∃ list ∈ t.allNodes, t.kind list = .argumentList ∧ ∃ l r wanted,
      (l, r) ∈ neighbours (t.children list) ∧ argumentGap? (t.kind l) (t.kind r) = some wanted ∧
      t.respace? l r wanted = some e := by
  simp only [callEdits, argumentListEdits, List.mem_flatMap, List.mem_filter, List.mem_filterMap,
    beq_iff_eq, Prod.exists, Option.bind_eq_bind, Option.bind_eq_some_iff, and_assoc]
  constructor
  · rintro ⟨list, hmem, hk, l, r, hpair, wanted, hgap, he⟩
    exact ⟨list, hmem, hk, l, r, wanted, hpair, hgap, he⟩
  · rintro ⟨list, hmem, hk, l, r, wanted, hpair, hgap, he⟩
    exact ⟨list, hmem, hk, l, r, hpair, wanted, hgap, he⟩

/-! ## Headings -/

theorem neighbours_cons_cons (a b : Nat) (ids : List Nat) :
    neighbours (a :: b :: ids) = (a, b) :: neighbours (b :: ids) := rfl

theorem parameterGapEdit?_eq_some_iff : t.parameterGapEdit? width l r = some e ↔
    (∃ wanted, parameterGap? (t.kind l) (t.kind r) = some wanted ∧
      (t.kind l = .comma → t.meetInRow l r = true) ∧ t.respace? l r wanted = some e) ∨
    (t.kind l = .comma ∧ t.kind r = .parameterDeclaration ∧ t.meetInRow l r = false ∧
      t.reindent? r width = some e) := by
  unfold parameterGapEdit? parameterGap?
  split
  · rename_i hl hr
    simp [hl, hr]
  · rename_i hl hr
    simp [hl, hr]
  · rename_i hl hr
    rw [spaceOrIndent?]
    by_cases hrow : t.meetInRow l r = true <;> simp [hrow, hl, hr]
  · rename_i h1 h2 h3
    simp only [reduceCtorEq, false_and, exists_false, false_or, false_iff]
    exact fun h => h3 h.1 h.2.1

theorem mem_parameterEdits_iff : e ∈ t.parameterEdits i ↔
    ∃ type name, t.child? i .type = some type ∧ t.child? i .declarator = some name ∧
      ((t.mark? name = none ∧ t.respace? type name oneSpace = some e) ∨
        ∃ mark, t.mark? name = some mark ∧
          (t.respace? type mark oneSpace = some e ∨ t.respace? mark name noSpace = some e)) := by
  unfold parameterEdits
  split
  · rename_i type name htype hname
    rw [← mark?]
    cases hmark : t.mark? name with
    | none => simp [htype, hname, hmark]
    | some mark => simp [htype, hname, hmark]
  · rename_i h
    simp only [List.not_mem_nil, false_iff]
    rintro ⟨type, name, h1, h2, -⟩
    exact h type name h1 h2

theorem mem_parameterListEdits_iff {previous : Option Nat} {ids : List Nat} :
    e ∈ t.parameterListEdits width previous ids ↔
      (∃ l r, (l, r) ∈ neighbours (previous.toList ++ ids) ∧
        t.parameterGapEdit? width l r = some e) ∨
      ∃ p ∈ ids, t.kind p = .parameterDeclaration ∧ e ∈ t.parameterEdits p := by
  induction ids generalizing previous with
  | nil => cases previous <;> simp [parameterListEdits, neighbours]
  | cons i rest ih =>
    have hif : e ∈ (if t.kind i = .parameterDeclaration then t.parameterEdits i else []) ↔
        t.kind i = .parameterDeclaration ∧ e ∈ t.parameterEdits i := by
      split <;> simp [*]
    rw [parameterListEdits, List.mem_append, List.mem_append, ih, hif]
    cases previous with
    | none =>
      simp only [Option.bind_none, Option.toList_none, List.not_mem_nil, false_or, List.nil_append,
        Option.toList_some, List.cons_append, List.mem_cons, exists_eq_or_imp]
      exact or_left_comm
    | some p =>
      simp only [Option.bind_some, Option.mem_toList, Option.toList_some, List.cons_append,
        List.nil_append, neighbours_cons_cons, List.mem_cons, Prod.mk.injEq, or_and_right,
        exists_or, and_assoc, exists_and_left, exists_eq_left]
      exact or_or_or_comm

theorem mem_headingEdits_iff : e ∈ t.headingEdits i ↔
    ∃ declarator, t.child? i .declarator = some declarator ∧
      ((∃ type, t.child? i .type = some type ∧ t.respace? type declarator oneSpace = some e) ∨
        (∃ body, t.child? i .body = some body ∧
          t.spaceOrIndent? declarator body (t.blockIndent i) = some e) ∨
        ∃ list, t.parameterList? i = some list ∧
          e ∈ t.parameterListEdits ((t.blockDepth i + 1) * indentWidth) none (t.children list)) := by
  unfold headingEdits
  split
  · rename_i h
    simp [h]
  · rename_i declarator h
    simp only [h, Option.some.injEq, exists_eq_left', List.mem_append, Option.mem_toList,
      Option.bind_eq_some_iff, or_assoc]
    rw [← parameterList?_eq, ← blockIndent]
    cases t.parameterList? i with
    | none => simp [parameterListEdits]
    | some list => simp

theorem mem_allHeadingEdits_iff :
    e ∈ t.allHeadingEdits ↔ ∃ definition, t.IsDefinition definition ∧ e ∈ t.headingEdits definition := by
  simp [allHeadingEdits, IsDefinition]

/-! ## All rules -/

/-- An edit of a rule, as opposed to the edits at the ends of rows. -/
def IsRuleEdit (t : SyntaxTree) (e : Edit) : Prop :=
  (∃ i width, t.Reindents i width ∧ t.reindent? i width = some e) ∨
    ∃ l r wanted, t.Respaces l r wanted ∧ t.respace? l r wanted = some e

theorem isRuleEdit_of_mem_blockEdits (h : e ∈ t.blockEdits) : t.IsRuleEdit e := by
  rcases mem_blockEdits_iff.mp h with
    ⟨block, brace, hmem, hkind, hlast, hbrace, hrows, hempty, he⟩ | ⟨i, hmem, hind, hopen, he⟩
  · exact Or.inl ⟨brace, _, .closingBrace hmem hkind hlast hbrace hrows hempty, he⟩
  · exact Or.inl ⟨i, _, .block hmem hind hopen, he⟩

theorem isRuleEdit_of_mem_callEdits (h : e ∈ t.callEdits) : t.IsRuleEdit e := by
  obtain ⟨list, hmem, hkind, l, r, wanted, hpair, hgap, he⟩ := mem_callEdits_iff.mp h
  exact Or.inr ⟨l, r, wanted, .argumentList hmem hkind hpair hgap, he⟩

theorem isRuleEdit_of_mem_allHeadingEdits (h : e ∈ t.allHeadingEdits) : t.IsRuleEdit e := by
  obtain ⟨definition, hdef, h⟩ := mem_allHeadingEdits_iff.mp h
  obtain ⟨declarator, hdecl, ⟨type, htype, he⟩ | ⟨body, hbody, he⟩ | ⟨list, hlist, h⟩⟩ :=
    mem_headingEdits_iff.mp h
  · exact Or.inr ⟨type, declarator, _, .heading hdef htype hdecl, he⟩
  · rw [spaceOrIndent?] at he
    split at he
    · rename_i hrow
      exact Or.inr ⟨declarator, body, _, .body hdef hdecl hbody hrow, he⟩
    · rename_i hrow
      exact Or.inl ⟨body, _, .body hdef hdecl hbody (by simpa using hrow), he⟩
  · rcases mem_parameterListEdits_iff.mp h with ⟨l, r, hpair, he⟩ | ⟨p, hp, hkind, h⟩
    · rw [Option.toList_none, List.nil_append] at hpair
      rcases parameterGapEdit?_eq_some_iff.mp he with
        ⟨wanted, hgap, hrow, he⟩ | ⟨hl, hr, hrow, he⟩
      · exact Or.inr ⟨l, r, wanted, .parameterList hdef hlist hpair hgap hrow, he⟩
      · exact Or.inl ⟨r, _, .parameter hdef hlist hpair hl hr hrow, he⟩
    · have hparam : t.IsParameter p := ⟨definition, list, hdef, hlist, hp, hkind⟩
      obtain ⟨type, name, htype, hname, ⟨hmark, he⟩ | ⟨mark, hmark, he | he⟩⟩ :=
        mem_parameterEdits_iff.mp h
      · exact Or.inr ⟨type, name, _, .parameter hparam htype hname hmark, he⟩
      · exact Or.inr ⟨type, mark, _, .typeAndMark hparam htype hname hmark, he⟩
      · exact Or.inr ⟨mark, name, _, .markAndName hparam htype hname hmark, he⟩

theorem exists_declarator_of_parameterList? {list : Nat} (h : t.parameterList? i = some list) :
    ∃ declarator, t.child? i .declarator = some declarator := by
  obtain ⟨f, hf, -⟩ := Option.bind_eq_some_iff.mp h
  obtain ⟨declarator, hdecl, -⟩ := Option.bind_eq_some_iff.mp hf
  exact ⟨declarator, hdecl⟩

/-- The edits for a parameter list are among the edits for the heading. -/
theorem mem_allHeadingEdits_of_list {definition list : Nat} (hdef : t.IsDefinition definition)
    (hlist : t.parameterList? definition = some list)
    (h : e ∈ t.parameterListEdits ((t.blockDepth definition + 1) * indentWidth) none
      (t.children list)) : e ∈ t.allHeadingEdits := by
  obtain ⟨declarator, hdecl⟩ := exists_declarator_of_parameterList? hlist
  exact mem_allHeadingEdits_iff.mpr ⟨definition, hdef,
    mem_headingEdits_iff.mpr ⟨declarator, hdecl, Or.inr (Or.inr ⟨list, hlist, h⟩)⟩⟩

theorem mem_allHeadingEdits_of_parameter (hparam : t.IsParameter i) (h : e ∈ t.parameterEdits i) :
    e ∈ t.allHeadingEdits := by
  obtain ⟨definition, list, hdef, hlist, hp, hkind⟩ := hparam
  exact mem_allHeadingEdits_of_list hdef hlist
    (mem_parameterListEdits_iff.mpr (Or.inr ⟨i, hp, hkind, h⟩))

theorem mem_of_reindents (hr : t.Reindents i width) (he : t.reindent? i width = some e) :
    e ∈ t.blockEdits ∨ e ∈ t.allHeadingEdits := by
  cases hr with
  | closingBrace hmem hkind hlast hbrace hrows hempty =>
    exact Or.inl (mem_blockEdits_iff.mpr
      (Or.inl ⟨_, _, hmem, hkind, hlast, hbrace, hrows, hempty, he⟩))
  | block hmem hind hopen =>
    exact Or.inl (mem_blockEdits_iff.mpr (Or.inr ⟨_, hmem, hind, hopen, he⟩))
  | body hdef hdecl hbody hrow =>
    refine Or.inr (mem_allHeadingEdits_iff.mpr ⟨_, hdef,
      mem_headingEdits_iff.mpr ⟨_, hdecl, Or.inr (Or.inl ⟨_, hbody, ?_⟩)⟩⟩)
    rw [spaceOrIndent?, if_neg (by simp [hrow])]
    exact he
  | parameter hdef hlist hpair hleft hright hrow =>
    exact Or.inr (mem_allHeadingEdits_of_list hdef hlist (mem_parameterListEdits_iff.mpr
      (Or.inl ⟨_, _, hpair, parameterGapEdit?_eq_some_iff.mpr
        (Or.inr ⟨hleft, hright, hrow, he⟩)⟩)))

theorem mem_of_respaces (hr : t.Respaces l r wanted) (he : t.respace? l r wanted = some e) :
    e ∈ t.allHeadingEdits ∨ e ∈ t.callEdits := by
  cases hr with
  | heading hdef htype hdecl =>
    exact Or.inl (mem_allHeadingEdits_iff.mpr ⟨_, hdef,
      mem_headingEdits_iff.mpr ⟨_, hdecl, Or.inl ⟨_, htype, he⟩⟩⟩)
  | body hdef hdecl hbody hrow =>
    refine Or.inl (mem_allHeadingEdits_iff.mpr ⟨_, hdef,
      mem_headingEdits_iff.mpr ⟨_, hdecl, Or.inr (Or.inl ⟨_, hbody, ?_⟩)⟩⟩)
    rw [spaceOrIndent?, if_pos hrow]
    exact he
  | parameterList hdef hlist hpair hgap hrow =>
    exact Or.inl (mem_allHeadingEdits_of_list hdef hlist (mem_parameterListEdits_iff.mpr
      (Or.inl ⟨_, _, hpair, parameterGapEdit?_eq_some_iff.mpr (Or.inl ⟨_, hgap, hrow, he⟩)⟩)))
  | parameter hparam htype hname hmark =>
    exact Or.inl (mem_allHeadingEdits_of_parameter hparam
      (mem_parameterEdits_iff.mpr ⟨_, _, htype, hname, Or.inl ⟨hmark, he⟩⟩))
  | typeAndMark hparam htype hname hmark =>
    exact Or.inl (mem_allHeadingEdits_of_parameter hparam
      (mem_parameterEdits_iff.mpr ⟨_, _, htype, hname, Or.inr ⟨_, hmark, Or.inl he⟩⟩))
  | markAndName hparam htype hname hmark =>
    exact Or.inl (mem_allHeadingEdits_of_parameter hparam
      (mem_parameterEdits_iff.mpr ⟨_, _, htype, hname, Or.inr ⟨_, hmark, Or.inr he⟩⟩))
  | argumentList hmem hkind hpair hgap =>
    exact Or.inr (mem_callEdits_iff.mpr ⟨_, hmem, hkind, _, _, _, hpair, hgap, he⟩)

/-- The findings are the edits of the rules and the edits at the ends of rows. -/
theorem mem_layoutFindings_iff :
    e ∈ t.layoutFindings ↔ t.IsRuleEdit e ∨ e ∈ t.source.lineEndEdits := by
  rw [layoutFindings, List.mem_append, List.mem_append, List.mem_append]
  constructor
  · rintro (((h | h) | h) | h)
    · exact Or.inl (isRuleEdit_of_mem_blockEdits h)
    · exact Or.inr h
    · exact Or.inl (isRuleEdit_of_mem_allHeadingEdits h)
    · exact Or.inl (isRuleEdit_of_mem_callEdits h)
  · rintro ((⟨i, width, hr, he⟩ | ⟨l, r, wanted, hr, he⟩) | h)
    · rcases mem_of_reindents hr he with h | h
      · exact Or.inl (Or.inl (Or.inl h))
      · exact Or.inl (Or.inr h)
    · rcases mem_of_respaces hr he with h | h
      · exact Or.inl (Or.inr h)
      · exact Or.inr h
    · exact Or.inl (Or.inl (Or.inr h))

end TwelveD.SyntaxTree
