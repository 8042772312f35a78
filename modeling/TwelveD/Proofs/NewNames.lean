import TwelveD.Names.Completion
import TwelveD.Proofs.Cursors
import TwelveD.Proofs.Declarators

/-!
# Where nothing is offered

Completion offers nothing on a name that is being made up: the name of a function, or a name behind the
declarators of a declaration. It is also silent on all other parts of a declaration, such as its type or
the semicolon, since `isDeclarationName` asks for the role of a node under each wrapping declarator, but
not under the declaration itself. Everywhere else the keywords and types are offered.
-/

namespace TwelveD

theorem CompletionItem.keywordsAndTypes_ne_nil : keywordsAndTypes ≠ [] := by
  simp [keywordsAndTypes, Vocabulary.keywords]

namespace SyntaxTree

variable {t : SyntaxTree} {a i p top top' : Nat}

/-! ## Widening -/

/-- Of the nodes around `i` that cover the same text as `i`, `n` is the outermost. -/
def IsWidest (t : SyntaxTree) (i n : Nat) : Prop :=
  t.Encloses n i ∧ t.span n = t.span i ∧ ∀ a, t.Encloses a i → t.span a = t.span i → t.Encloses n a

/-- A node that covers the same text as one further out covers the same text as all between them. -/
theorem WellFormed.span_parent_eq (h : t.WellFormed) (hp : t.parent i = some p) (hap : t.Encloses a p)
    (hspan : t.span a = t.span i) : t.span p = t.span i := by
  have hi := lt_size_of_parent hp
  obtain ⟨hstart, hstop⟩ := h.span_inside (encloses_parent hp) hi
  obtain ⟨hstart', hstop'⟩ := h.span_inside hap (Nat.lt_trans (parent_lt hp) hi)
  rw [hspan] at hstart' hstop'
  have hstartEq : (t.span p).start = (t.span i).start := Point.le_antisymm hstart hstart'
  have hstopEq : (t.span p).stop = (t.span i).stop := Point.le_antisymm hstop' hstop
  exact congrArg₂ Span.mk hstartEq hstopEq

theorem WellFormed.isWidest_widen (h : t.WellFormed) (i : Nat) : t.IsWidest i (t.widen i) := by
  fun_induction t.widen i with
  | case1 i hnone =>
    refine ⟨encloses_refl t i, rfl, ?_⟩
    intro a ha _
    rcases ha.cases with rfl | ⟨p, hp, -⟩
    · exact encloses_refl t a
    · rw [hnone] at hp
      cases hp
  | case2 i p hp _ hspan ih =>
    obtain ⟨henc, hspan', hwidest⟩ := ih
    refine ⟨henc.parent hp, hspan'.trans hspan, ?_⟩
    intro a ha haspan
    rcases ha.cases with rfl | ⟨q, hq, haq⟩
    · exact henc.parent hp
    · obtain rfl : p = q := Option.some.inj (hp.symm.trans hq)
      exact hwidest a haq (haspan.trans hspan.symm)
  | case3 i p hp _ hspan =>
    refine ⟨encloses_refl t i, rfl, ?_⟩
    intro a ha haspan
    rcases ha.cases with rfl | ⟨q, hq, haq⟩
    · exact encloses_refl t a
    · obtain rfl : p = q := Option.some.inj (hp.symm.trans hq)
      exact absurd (h.span_parent_eq hp haq haspan) hspan

theorem widen_of_span_ne (hp : t.parent i = some p) (hspan : t.span p ≠ t.span i) : t.widen i = i := by
  rw [widen]
  split
  · rfl
  · rename_i q hq
    obtain rfl : p = q := Option.some.inj (hp.symm.trans hq)
    rw [if_neg hspan]

/-! ## Parts of a declaration -/

/-- The node stands in a declaration, as one of its direct parts. -/
def IsPart (t : SyntaxTree) (i : Nat) : Prop := ∃ d, t.parent i = some d ∧ t.kind d = .declaration

/-- The node `i` is reached from `top` through the first declarators of init, array and pointer
    declarators. -/
inductive LeadsTo (t : SyntaxTree) (top : Nat) : Nat → Prop where
  | self : LeadsTo t top top
  | step {p i : Nat} (hlead : LeadsTo t top p) (hwraps : wrapsDeclarator (t.kind p) = true)
      (hchild : t.child? p .declarator = some i) : LeadsTo t top i

/-- The name of a variable that a declaration introduces, or a declarator around it. -/
def IsNewVariable (t : SyntaxTree) (i : Nat) : Prop :=
  ∃ top, t.IsPart top ∧ t.field top = some .declarator ∧ t.LeadsTo top i

/-- Another part of a declaration, or what is reached from one as if it were a declarator. -/
def IsOtherPart (t : SyntaxTree) (i : Nat) : Prop :=
  ∃ top, t.IsPart top ∧ t.field top ≠ some .declarator ∧ t.LeadsTo top i

/-- The name of a function. -/
def IsNewFunction (t : SyntaxTree) (i : Nat) : Prop :=
  ∃ d, t.kind d = .functionDeclarator ∧ t.child? d .declarator = some i

theorem IsPart.kind_parent (h : t.IsPart i) (hp : t.parent i = some p) : t.kind p = .declaration := by
  obtain ⟨d, hd, hkind⟩ := h
  obtain rfl : p = d := Option.some.inj (hp.symm.trans hd)
  exact hkind

theorem LeadsTo.kind_parent (h : t.LeadsTo top i) (hpart : t.IsPart top) (hp : t.parent i = some p) :
    t.kind p = .declaration ∧ top = i ∨
      wrapsDeclarator (t.kind p) = true ∧ t.child? p .declarator = some i ∧ t.LeadsTo top p := by
  cases h with
  | self => exact Or.inl ⟨hpart.kind_parent hp, rfl⟩
  | @step q _ hlead hwraps hchild =>
    obtain rfl : p = q := Option.some.inj (hp.symm.trans (parent_of_child? hchild))
    exact Or.inr ⟨hwraps, hchild, hlead⟩

theorem isDeclarationName_iff : t.isDeclarationName i = true ↔ ∃ top, t.IsPart top ∧ t.LeadsTo top i := by
  fun_induction t.isDeclarationName i with
  | case1 i hnone =>
    constructor
    · intro h
      cases h
    · rintro ⟨top, ⟨d, hd, -⟩, hlead⟩
      cases hlead with
      | self =>
        rw [hnone] at hd
        cases hd
      | step _ _ hchild =>
        rw [parent_of_child? hchild] at hnone
        cases hnone
  | case2 i p hp _ hkind => exact ⟨fun _ => ⟨i, ⟨p, hp, hkind⟩, .self⟩, fun _ => rfl⟩
  | case3 i p hp _ hkind hwraps ih =>
    rw [ih]
    constructor
    · rintro ⟨top, hpart, hlead⟩
      exact ⟨top, hpart, .step hlead hwraps.1 hwraps.2⟩
    · rintro ⟨top, hpart, hlead⟩
      rcases hlead.kind_parent hpart hp with ⟨hkind', -⟩ | ⟨-, -, hlead'⟩
      · exact absurd hkind' hkind
      · exact ⟨top, hpart, hlead'⟩
  | case4 i p hp _ hkind hwraps =>
    constructor
    · intro h
      cases h
    · rintro ⟨top, hpart, hlead⟩
      rcases hlead.kind_parent hpart hp with ⟨hkind', -⟩ | ⟨hwraps', hchild, -⟩
      · exact absurd hkind' hkind
      · exact absurd ⟨hwraps', hchild⟩ hwraps

theorem isFunctionName_iff : t.isFunctionName i = true ↔ t.IsNewFunction i := by
  rw [isFunctionName, Option.any_eq_true]
  simp only [Bool.and_eq_true, beq_iff_eq]
  constructor
  · rintro ⟨d, -, hkind, hchild⟩
    exact ⟨d, hkind, hchild⟩
  · rintro ⟨d, hkind, hchild⟩
    exact ⟨d, parent_of_child? hchild, hkind, hchild⟩

theorem LeadsTo.top_unique (h : t.LeadsTo top i) (h' : t.LeadsTo top' i) (hpart : t.IsPart top)
    (hpart' : t.IsPart top') : top = top' := by
  induction h with
  | self =>
    obtain ⟨d, hd, hkind⟩ := hpart
    rcases h'.kind_parent hpart' hd with ⟨-, htop⟩ | ⟨hwraps, -⟩
    · exact htop.symm
    · rw [hkind] at hwraps
      cases hwraps
  | step _ hwraps hchild ih =>
    rcases h'.kind_parent hpart' (parent_of_child? hchild) with ⟨hkind, -⟩ | ⟨-, -, hlead'⟩
    · rw [hkind] at hwraps
      cases hwraps
    · exact ih hlead'

/-- No other part of a declaration is a new name. -/
theorem IsOtherPart.not_new (h : t.IsOtherPart i) : ¬ (t.IsNewVariable i ∨ t.IsNewFunction i) := by
  obtain ⟨top, hpart, hfield, hlead⟩ := h
  rintro (⟨top', hpart', hfield', hlead'⟩ | ⟨d, hkind, hchild⟩)
  · obtain rfl := hlead.top_unique hlead' hpart hpart'
    exact hfield hfield'
  · rcases hlead.kind_parent hpart (parent_of_child? hchild) with ⟨hkind', -⟩ | ⟨hwraps, -⟩
    · rw [hkind] at hkind'
      cases hkind'
    · rw [hkind] at hwraps
      cases hwraps

/-! ## What is offered at a node -/

theorem isWithheld_iff : (t.isDeclarationName i || t.isFunctionName i) = true ↔
    t.IsNewVariable i ∨ t.IsNewFunction i ∨ t.IsOtherPart i := by
  rw [Bool.or_eq_true, isDeclarationName_iff, isFunctionName_iff]
  constructor
  · rintro (⟨top, hpart, hlead⟩ | hfunction)
    · by_cases hfield : t.field top = some .declarator
      · exact Or.inl ⟨top, hpart, hfield, hlead⟩
      · exact Or.inr (Or.inr ⟨top, hpart, hfield, hlead⟩)
    · exact Or.inr (Or.inl hfunction)
  · rintro (⟨top, hpart, -, hlead⟩ | hfunction | ⟨top, hpart, -, hlead⟩)
    · exact Or.inl ⟨top, hpart, hlead⟩
    · exact Or.inr hfunction
    · exact Or.inl ⟨top, hpart, hlead⟩

theorem itemsAtNode_of_isWithheld (h : (t.isDeclarationName i || t.isFunctionName i) = true) :
    t.itemsAtNode i = [] := by
  rw [itemsAtNode, if_pos h]

theorem mem_itemsAtNode {item : CompletionItem}
    (h : ¬ (t.isDeclarationName i || t.isFunctionName i) = true)
    (hitem : item ∈ CompletionItem.keywordsAndTypes) : item ∈ t.itemsAtNode i := by
  rw [itemsAtNode, if_neg h]
  split
  · exact hitem
  · exact List.mem_append_right _ (List.mem_append_left _ hitem)

theorem itemsAtNode_eq_nil_iff : t.itemsAtNode i = [] ↔
    t.IsNewVariable i ∨ t.IsNewFunction i ∨ t.IsOtherPart i := by
  rw [← isWithheld_iff]
  constructor
  · intro hnil
    by_contra h
    obtain ⟨item, hitem⟩ := List.exists_mem_of_ne_nil _ CompletionItem.keywordsAndTypes_ne_nil
    have hmem := mem_itemsAtNode h hitem
    rw [hnil] at hmem
    cases hmem
  · exact itemsAtNode_of_isWithheld

/-- The cursor stands in the outermost node with the text of the node under it. Nothing is offered there
    exactly if this node is a new name, of a variable or of a function, or another part of a declaration.
    Else at least the keywords and types are. -/
theorem completion_withheld_iff (t : SyntaxTree) (h : t.WellFormed) (p : Point) :
    t.IsWidest ((t.nodeAt? p).getD root) (t.cursorNode p) ∧
    (t.itemsAt p = [] ↔ t.IsNewVariable (t.cursorNode p) ∨ t.IsNewFunction (t.cursorNode p) ∨
      t.IsOtherPart (t.cursorNode p)) ∧
    (t.itemsAt p ≠ [] → ∀ item ∈ CompletionItem.keywordsAndTypes, item ∈ t.itemsAt p) ∧
    (t.IsOtherPart (t.cursorNode p) →
      ¬ (t.IsNewVariable (t.cursorNode p) ∨ t.IsNewFunction (t.cursorNode p))) := by
  refine ⟨h.isWidest_widen _, itemsAtNode_eq_nil_iff, ?_, IsOtherPart.not_new⟩
  intro hsome item hitem
  refine mem_itemsAtNode ?_ hitem
  intro hwithheld
  exact hsome (itemsAtNode_of_isWithheld hwithheld)

/-- A pointer, and a variable with an initial value beside one without. -/
def threeVariables : SyntaxTree where
  source := Bytes.ofString "Real *To_text;\n  Text a = total, To_text;\n"
  nodes := #[⟨.translationUnit, none, 0, 42, none⟩, ⟨.declaration, none, 0, 14, some 0⟩,
    ⟨.other "type_identifier", some .type, 0, 4, some 1⟩,
    ⟨.pointerDeclarator, some .declarator, 5, 13, some 1⟩, ⟨.other "*", none, 5, 6, some 3⟩,
    ⟨.identifier, some .declarator, 6, 13, some 3⟩, ⟨.other ";", none, 13, 14, some 1⟩,
    ⟨.declaration, none, 17, 41, some 0⟩, ⟨.other "type_identifier", some .type, 17, 21, some 7⟩,
    ⟨.initDeclarator, some .declarator, 22, 31, some 7⟩,
    ⟨.identifier, some .declarator, 22, 23, some 9⟩, ⟨.other "=", none, 24, 25, some 9⟩,
    ⟨.identifier, some (.other "value"), 26, 31, some 9⟩, ⟨.comma, none, 31, 32, some 7⟩,
    ⟨.identifier, some .declarator, 33, 40, some 7⟩, ⟨.other ";", none, 40, 41, some 7⟩]
  linksBack := by decide

theorem threeVariables_wellFormed : threeVariables.WellFormed := by decide

theorem threeVariables_cursorNode_value : threeVariables.cursorNode ⟨1, 12⟩ = 12 := by
  have hnode : threeVariables.nodeAt? ⟨1, 12⟩ = some 12 :=
    nodeAt?_of_path [7, 9, 12] (by decide) (by decide +kernel) (by decide +kernel)
  have hspan : threeVariables.span 9 ≠ threeVariables.span 12 := by decide +kernel
  rw [cursorNode, hnode, Option.getD_some, widen_of_span_ne rfl hspan]

/-- On an initial value the keywords and types are offered. -/
theorem completion_withheld_iff_threeVariables : threeVariables.WellFormed ∧
    threeVariables.cursorNode ⟨1, 12⟩ = 12 ∧
    ∀ item ∈ CompletionItem.keywordsAndTypes, item ∈ threeVariables.itemsAt ⟨1, 12⟩ := by
  obtain ⟨-, hempty, hoffered, -⟩ :=
    completion_withheld_iff threeVariables threeVariables_wellFormed ⟨1, 12⟩
  have hlead : ∀ top, threeVariables.IsPart top → ¬ threeVariables.LeadsTo top 12 := by
    intro top hpart hlead
    rcases hlead.kind_parent hpart (p := 9) rfl with ⟨hkind, -⟩ | ⟨-, hchild, -⟩
    · exact absurd hkind (by decide)
    · exact absurd hchild (by decide)
  refine ⟨threeVariables_wellFormed, threeVariables_cursorNode_value, hoffered ?_⟩
  intro hnil
  rw [hempty, threeVariables_cursorNode_value] at hnil
  rcases hnil with ⟨top, hpart, -, h⟩ | ⟨d, hkind, hchild⟩ | ⟨top, hpart, -, h⟩
  · exact hlead top hpart h
  · obtain rfl : d = 9 := Option.some.inj (parent_of_child? hchild).symm
    exact absurd hkind (by decide)
  · exact hlead top hpart h

theorem threeVariables_cursorNode_type : threeVariables.cursorNode ⟨0, 2⟩ = 2 := by
  have hnode : threeVariables.nodeAt? ⟨0, 2⟩ = some 2 :=
    nodeAt?_of_path [1, 2] (by decide) (by decide +kernel) (by decide +kernel)
  have hspan : threeVariables.span 1 ≠ threeVariables.span 2 := by decide +kernel
  rw [cursorNode, hnode, Option.getD_some, widen_of_span_ne rfl hspan]

/-- On the type of a declaration nothing is offered, although it is no new name. -/
theorem completion_withheld_on_type : threeVariables.WellFormed ∧
    threeVariables.cursorNode ⟨0, 2⟩ = 2 ∧ threeVariables.field 2 = some .type ∧
    ¬ (threeVariables.IsNewVariable 2 ∨ threeVariables.IsNewFunction 2) ∧
    threeVariables.itemsAt ⟨0, 2⟩ = [] := by
  have hother : threeVariables.IsOtherPart 2 := ⟨2, ⟨1, rfl, rfl⟩, by decide, .self⟩
  refine ⟨threeVariables_wellFormed, threeVariables_cursorNode_type, rfl, hother.not_new, ?_⟩
  rw [itemsAt, threeVariables_cursorNode_type, itemsAtNode_eq_nil_iff]
  exact Or.inr (Or.inr hother)

end SyntaxTree

end TwelveD
