import TwelveD.Names.Completion
import TwelveD.Proofs.Positions
import TwelveD.Proofs.Scopes
import TwelveD.Proofs.ShownTexts

/-!
# The declarations that completion offers

A node sees the parameters of the functions around it and what the scopes around it declare on earlier
rows, `DeclaredIn`. Of several declarations of one name it sees the nearest: the one in the innermost
scope, there a parameter before anything else, and otherwise the first. `reachableItems` has one item
for each name that is seen in this way and lists the nearest declarations from the inside out; what an
item shows is said by `Displays`. The search stops at the first child of a scope that is not above the
node instead of looking at all of them, which is the same since children stand in the order of their
rows.
-/

namespace TwelveD

/-- A declared name, with the node that declares it and, for a variable, its declarator there. -/
inductive Declared where
  | parameterName (owner name : Nat)
  | variableName (owner declarator name : Nat)
  | functionName (owner name : Nat)

namespace Declared

/-- The declaring identifier. -/
def name : Declared → Nat
  | parameterName _ name => name
  | variableName _ _ name => name
  | functionName _ name => name

/-- Where a declaration stands in its scope: parameters come first, all else follows in the order of the
    declaring nodes and of their declarators. -/
def place : Declared → Nat × Nat × Nat
  | parameterName owner _ => (0, owner, 0)
  | variableName owner declarator _ => (1, owner, declarator)
  | functionName owner _ => (1, owner, 0)

/-- One declaration of a scope comes before another. -/
def Before (d e : Declared) : Prop :=
  d.place.1 < e.place.1 ∨ d.place.1 = e.place.1 ∧ (d.place.2.1 < e.place.2.1 ∨
    d.place.2.1 = e.place.2.1 ∧ d.place.2.2 < e.place.2.2)

end Declared

/-- A declaration and the scope that has it. -/
structure Offered where
  scope : Nat
  declared : Declared

/-- Inner scopes, which stand later in the table, come before outer ones. -/
def Offered.Ahead (o u : Offered) : Prop :=
  u.scope < o.scope ∨ o.scope = u.scope ∧ o.declared.Before u.declared

theorem Offered.Ahead.asymm {o u : Offered} (h : o.Ahead u) : ¬ u.Ahead o := by
  unfold Ahead Declared.Before at *
  omega

/-! ## One item for each label -/

namespace CompletionItem

variable {seen : List String} {items : List CompletionItem}

theorem mem_map_label_distinct {w : String} :
    w ∈ (distinct seen items).map label ↔ w ∈ items.map label ∧ w ∉ seen := by
  induction items generalizing seen with
  | nil => simp [distinct]
  | cons item items ih =>
    rw [distinct]
    split
    · rename_i hseen
      rw [ih, List.map_cons, List.mem_cons]
      constructor
      · rintro ⟨hw, hnew⟩
        exact ⟨Or.inr hw, hnew⟩
      · rintro ⟨rfl | hw, hnew⟩
        · exact absurd hseen hnew
        · exact ⟨hw, hnew⟩
    · rename_i hseen
      rw [List.map_cons, List.map_cons, List.mem_cons, List.mem_cons, ih, List.mem_cons, not_or]
      constructor
      · rintro (rfl | ⟨hw, -, hnew⟩)
        · exact ⟨Or.inl rfl, hseen⟩
        · exact ⟨Or.inr hw, hnew⟩
      · rintro ⟨hw, hnew⟩
        by_cases heq : w = item.label
        · exact Or.inl heq
        · exact Or.inr ⟨hw.resolve_left heq, heq, hnew⟩

theorem nodup_map_label_distinct (seen : List String) (items : List CompletionItem) :
    ((distinct seen items).map label).Nodup := by
  induction items generalizing seen with
  | nil => exact List.nodup_nil
  | cons item items ih =>
    rw [distinct]
    split
    · exact ih seen
    · rw [List.map_cons, List.nodup_cons]
      refine ⟨?_, ih _⟩
      intro hmem
      exact (mem_map_label_distinct.mp hmem).2 (List.mem_cons_self ..)

/-- Of things in a strict order, those stay that come before all others with their label. -/
theorem exists_distinct_map {α : Type} {R : α → α → Prop} (f : α → CompletionItem)
    (hasymm : ∀ x y, R x y → ¬ R y x) {xs : List α} (hxs : xs.Pairwise R) (seen : List String) :
    ∃ ys : List α, distinct seen (xs.map f) = ys.map f ∧ ys.Sublist xs ∧ ∀ y, y ∈ ys ↔
      y ∈ xs ∧ (f y).label ∉ seen ∧ ∀ x ∈ xs, (f x).label = (f y).label → x = y ∨ R y x := by
  induction xs generalizing seen with
  | nil => exact ⟨[], rfl, .slnil, by simp⟩
  | cons x xs ih =>
    obtain ⟨hx, hrest⟩ := List.pairwise_cons.mp hxs
    rw [List.map_cons, distinct]
    split
    · rename_i hseen
      obtain ⟨ys, heq, hsub, hmem⟩ := ih hrest seen
      refine ⟨ys, heq, hsub.cons x, ?_⟩
      intro y
      rw [hmem, List.mem_cons, List.forall_mem_cons]
      constructor
      · rintro ⟨hy, hnew, hfirst⟩
        exact ⟨Or.inr hy, hnew, fun hlabel => absurd (hlabel ▸ hseen) hnew, hfirst⟩
      · rintro ⟨rfl | hy, hnew, -, hfirst⟩
        · exact absurd hseen hnew
        · exact ⟨hy, hnew, hfirst⟩
    · rename_i hseen
      obtain ⟨ys, heq, hsub, hmem⟩ := ih hrest ((f x).label :: seen)
      refine ⟨x :: ys, by rw [heq, List.map_cons], hsub.cons_cons x, ?_⟩
      intro y
      rw [List.mem_cons, hmem, List.mem_cons, List.mem_cons, not_or, List.forall_mem_cons]
      constructor
      · rintro (rfl | ⟨hy, ⟨hne, hnew⟩, hfirst⟩)
        · exact ⟨Or.inl rfl, hseen, fun _ => Or.inl rfl, fun z hz _ => Or.inr (hx z hz)⟩
        · exact ⟨Or.inr hy, hnew, fun hlabel => absurd hlabel.symm hne, hfirst⟩
      · rintro ⟨rfl | hy, hnew, hfirst, hothers⟩
        · exact Or.inl rfl
        · -- `x` comes before `y`, so it cannot have the same label
          have hne : (f y).label ≠ (f x).label := by
            intro hlabel
            have hxy := hx y hy
            rcases hfirst hlabel.symm with rfl | hyx
            · exact hasymm _ _ hxy hxy
            · exact hasymm _ _ hxy hyx
          exact Or.inr ⟨hy, ⟨hne, hnew⟩, hothers⟩

end CompletionItem

namespace SyntaxTree

variable {t : SyntaxTree} {row scope owner declarator m n i : Nat} {d : Declared}

/-! ## What a scope declares -/

/-- The declaration `d` belongs to `scope` and can be seen from row `row`: it is a parameter of the
    function `scope`, or a variable or function that `scope` declares on an earlier row. -/
inductive DeclaredIn (t : SyntaxTree) (row scope : Nat) : Declared → Prop where
  | parameter {list owner declarator m : Nat} (hfunction : t.kind scope = .functionDefinition)
      (hlist : t.parameterList? scope = some list) (hparent : t.parent owner = some list)
      (hkind : t.kind owner = .parameterDeclaration)
      (hdeclarator : t.child? owner .declarator = some declarator)
      (hname : t.declaredName? declarator = some m) : DeclaredIn t row scope (.parameterName owner m)
  | declared {owner declarator m : Nat} (hparent : t.parent owner = some scope)
      (hrow : (t.span owner).start.row < row) (hkind : t.kind owner = .declaration)
      (hdeclarator : declarator ∈ t.childrenOf owner .declarator)
      (hname : t.declaredName? declarator = some m) :
      DeclaredIn t row scope (.variableName owner declarator m)
  | function {owner m : Nat} (hparent : t.parent owner = some scope)
      (hrow : (t.span owner).start.row < row) (hkind : t.kind owner = .functionDefinition)
      (hname : t.functionName? owner = some m) : DeclaredIn t row scope (.functionName owner m)

/-- What an item shows of a declaration. Its label is the declared name. A parameter or variable is of
    class 6 and has the type that the declaring node gives it. A function is of class 3 and has its
    heading, if that is complete, and what the comment above it says, if there is one. -/
inductive Displays (t : SyntaxTree) : Declared → CompletionItem → Prop where
  | parameter {owner m : Nat} :
      Displays t (.parameterName owner m)
        ⟨t.text m, some 6, (t.child? owner .type).map t.text, none, []⟩
  | declared {owner declarator m : Nat} :
      Displays t (.variableName owner declarator m)
        ⟨t.text m, some 6, (t.child? owner .type).map t.text, none, []⟩
  | function {owner m : Nat} {heading : Option String} {documentation : Option Documentation}
      (hheading : ∀ text, heading = some text ↔ t.IsHeading owner m text)
      (hdocumentation : ∀ shown, documentation = some shown ↔
        ∃ comment, t.IsCommentAbove owner comment ∧ .markup .plaintext comment = shown) :
      Displays t (.functionName owner m) ⟨t.text m, some 3, heading, documentation, []⟩

/-- The item that is made of a declaration. -/
def itemFor (t : SyntaxTree) : Declared → CompletionItem
  | .parameterName owner m | .variableName owner _ m =>
    ⟨t.text m, some CompletionItem.variableClass, (t.child? owner .type).map t.text, none, []⟩
  | .functionName owner m =>
    ⟨t.text m, some CompletionItem.functionClass, t.functionSignature? owner,
      (t.docComment? owner).map (.markup .plaintext), []⟩

theorem DeclaredIn.displays_itemFor (h : t.DeclaredIn row scope d) : t.Displays d (t.itemFor d) := by
  cases h with
  | parameter _ _ _ _ _ _ => exact .parameter
  | declared _ _ _ _ _ => exact .declared
  | function _ _ _ hname =>
    refine .function (fun text => functionSignature?_eq_some_iff hname) ?_
    intro shown
    simp only [Option.map_eq_some_iff, docComment?_eq_some_iff]

theorem label_itemFor (t : SyntaxTree) (d : Declared) : (t.itemFor d).label = t.text d.name := by
  cases d <;> rfl

/-- A declared name gets its type from the node that declares it. -/
theorem declaredType?_of_declaredName? (hparent : t.parent declarator = some owner)
    (hfield : t.field declarator = some .declarator) (hname : t.declaredName? declarator = some m)
    (hkind : givesType (t.kind owner) = true) :
    t.declaredType? m = (t.child? owner .type).map t.text := by
  have hwraps : ∀ k, wrapsDeclarator k = true → givesType k = false := by
    intro k hk
    cases k <;> first | rfl | cases hk
  obtain ⟨chain, hchain, hbehind⟩ := behind_of_declaredName? hname
  exact (Behind.step rfl hparent hfield hbehind).declaredType?_eq
    (fun k hk => hwraps k (hchain k hk)) hkind

/-! ## Lists of declarations -/

/-- The parameters of a function definition. -/
def parametersOf (t : SyntaxTree) (scope : Nat) : List Declared :=
  (t.parameterList? scope).toList.flatMap fun list =>
    ((t.children list).filter fun c => t.kind c == .parameterDeclaration).filterMap fun p =>
      ((t.child? p .declarator).bind t.declaredName?).map (.parameterName p)

/-- What one declaration or function definition declares. -/
def declaredBy (t : SyntaxTree) (i : Nat) : List Declared :=
  if t.kind i = .declaration then
    (t.childrenOf i .declarator).filterMap fun c => (t.declaredName? c).map (.variableName i c)
  else if t.kind i = .functionDefinition then ((t.functionName? i).map (.functionName i)).toList
  else []

/-- What a scope declares for a node on row `row`. -/
def declaredIn (t : SyntaxTree) (row scope : Nat) : List Declared :=
  (if t.kind scope = .functionDefinition then t.parametersOf scope else []) ++
    ((t.children scope).takeWhile fun c => (t.span c).start.row < row).flatMap t.declaredBy

/-- All that is declared around a node, from the inside out. -/
def offeredAt (t : SyntaxTree) (n : Nat) : List Offered :=
  (t.ancestors n).flatMap fun s => (t.declaredIn (t.span n).start.row s).map (Offered.mk s)

theorem map_parameterNames (t : SyntaxTree) (scope : Nat) :
    (t.parameterNames scope).map t.variableItem = (t.parametersOf scope).map t.itemFor := by
  rw [parameterNames, parametersOf]
  split
  · rename_i hlist
    rw [hlist]
    rfl
  · rename_i list hlist
    rw [hlist, Option.toList_some, List.flatMap_singleton, List.map_filterMap, List.map_filterMap]
    refine List.filterMap_congr ?_
    intro p hp
    have hkind : t.kind p = .parameterDeclaration := eq_of_beq (List.mem_filter.mp hp).2
    cases hc : t.child? p .declarator with
    | none => rfl
    | some c =>
      cases hm : t.declaredName? c with
      | none => simp [hm]
      | some m =>
        have htype := declaredType?_of_declaredName? (parent_of_child? hc) (field_of_child? hc) hm
          (by rw [hkind]; rfl)
        simp [hm, itemFor, variableItem, htype]

theorem itemsOf_eq (t : SyntaxTree) (i : Nat) : t.itemsOf i = (t.declaredBy i).map t.itemFor := by
  rw [itemsOf, declaredBy]
  split
  · rename_i hkind
    rw [if_pos hkind, List.map_filterMap, List.map_filterMap]
    refine List.filterMap_congr ?_
    intro c hc
    obtain ⟨hparent, hfield⟩ := mem_childrenOf.mp hc
    cases hm : t.declaredName? c with
    | none => rfl
    | some m =>
      have htype := declaredType?_of_declaredName? hparent hfield hm (by rw [hkind]; rfl)
      simp [itemFor, variableItem, htype]
  · rename_i hkind
    rw [if_neg (by rw [hkind]; decide), if_pos hkind, functionItem?]
    cases t.functionName? i <;> rfl
  · rename_i hdeclaration hfunction
    rw [if_neg hdeclaration, if_neg hfunction]
    rfl

theorem itemsIn_eq (t : SyntaxTree) (row scope : Nat) :
    t.itemsIn row scope = (t.declaredIn row scope).map t.itemFor := by
  rw [itemsIn, declaredIn, List.map_append, List.map_flatMap, funext t.itemsOf_eq]
  congr 1
  split
  · exact t.map_parameterNames scope
  · rfl

theorem reachableItems_eq (t : SyntaxTree) (n : Nat) : t.reachableItems n =
    CompletionItem.distinct [] ((t.offeredAt n).map fun o => t.itemFor o.declared) := by
  rw [reachableItems, offeredAt, List.map_flatMap, funext (t.itemsIn_eq _)]
  simp only [List.map_map]
  rfl

/-! ## Which declarations are listed -/

theorem declaredIn_of_mem_parametersOf (hkind : t.kind scope = .functionDefinition)
    (h : d ∈ t.parametersOf scope) : t.DeclaredIn row scope d := by
  obtain ⟨list, hlist, h⟩ := List.mem_flatMap.mp h
  obtain ⟨p, hp, h⟩ := List.mem_filterMap.mp h
  obtain ⟨hp, hpkind⟩ := List.mem_filter.mp hp
  obtain ⟨m, hm, rfl⟩ := Option.map_eq_some_iff.mp h
  obtain ⟨c, hc, hm⟩ := Option.bind_eq_some_iff.mp hm
  exact .parameter hkind (Option.mem_toList.mp hlist) (mem_children.mp hp).2 (eq_of_beq hpkind) hc hm

theorem declaredIn_of_mem_declaredBy (hparent : t.parent i = some scope)
    (hrow : (t.span i).start.row < row) (h : d ∈ t.declaredBy i) : t.DeclaredIn row scope d := by
  rw [declaredBy] at h
  split at h
  · rename_i hkind
    obtain ⟨c, hc, h⟩ := List.mem_filterMap.mp h
    obtain ⟨m, hm, rfl⟩ := Option.map_eq_some_iff.mp h
    exact .declared hparent hrow hkind hc hm
  · split at h
    · rename_i hkind
      obtain ⟨m, hm, rfl⟩ := Option.map_eq_some_iff.mp (Option.mem_toList.mp h)
      exact .function hparent hrow hkind hm
    · cases h

theorem declaredIn_of_mem (h : d ∈ t.declaredIn row scope) : t.DeclaredIn row scope d := by
  rcases List.mem_append.mp h with h | h
  · split at h
    · rename_i hkind
      exact declaredIn_of_mem_parametersOf hkind h
    · cases h
  · obtain ⟨c, hc, h⟩ := List.mem_flatMap.mp h
    have hrow := List.mem_takeWhile_imp hc
    have hparent := (mem_children.mp ((List.takeWhile_sublist _).mem hc)).2
    exact declaredIn_of_mem_declaredBy hparent (of_decide_eq_true hrow) h

/-- In an ascending list nothing small stands behind something large. -/
theorem mem_takeWhile_of_pairwise {f : Nat → Nat} {xs : List Nat} {x k : Nat}
    (hxs : xs.Pairwise fun a b => f a ≤ f b) (hx : x ∈ xs) (hlt : f x < k) :
    x ∈ xs.takeWhile fun a => f a < k := by
  induction xs with
  | nil => cases hx
  | cons a xs ih =>
    obtain ⟨ha, hxs⟩ := List.pairwise_cons.mp hxs
    have hlt' : f a < k := by
      rcases List.mem_cons.mp hx with rfl | hx
      · exact hlt
      · exact Nat.lt_of_le_of_lt (ha x hx) hlt
    rw [List.takeWhile_cons_of_pos (p := fun a => decide (f a < k)) (decide_eq_true hlt'),
      List.mem_cons]
    rcases List.mem_cons.mp hx with rfl | hx
    · exact Or.inl rfl
    · exact Or.inr (ih hxs hx)

theorem WellFormed.pairwise_row_children (h : t.WellFormed) (scope : Nat) :
    (t.children scope).Pairwise fun a b => (t.span a).start.row ≤ (t.span b).start.row := by
  refine (t.children_pairwise scope).imp_of_mem ?_
  intro a b ha hb hab
  exact Bytes.pointAt_row_le t.source
    (h.start_le_start hab (mem_children.mp ha).2 (mem_children.mp hb).2)

/-- A scope lists what it declares on earlier rows, and nothing else. -/
theorem WellFormed.mem_declaredIn_iff (h : t.WellFormed) :
    d ∈ t.declaredIn row scope ↔ t.DeclaredIn row scope d := by
  refine ⟨declaredIn_of_mem, ?_⟩
  have hearlier : ∀ {i}, t.parent i = some scope → (t.span i).start.row < row → d ∈ t.declaredBy i →
      d ∈ t.declaredIn row scope := by
    intro i hparent hrow hd
    have hmem : i ∈ t.children scope := mem_children.mpr ⟨lt_size_of_parent hparent, hparent⟩
    exact List.mem_append_right _ (List.mem_flatMap.mpr
      ⟨i, mem_takeWhile_of_pairwise (h.pairwise_row_children scope) hmem hrow, hd⟩)
  intro hd
  cases hd with
  | @parameter list owner declarator m hfunction hlist hparent hkind hdeclarator hname =>
    refine List.mem_append_left _ ?_
    have hmem : owner ∈ (t.children list).filter fun c => t.kind c == .parameterDeclaration :=
      List.mem_filter.mpr ⟨mem_children.mpr ⟨lt_size_of_parent hparent, hparent⟩, by simp [hkind]⟩
    rw [if_pos hfunction]
    refine List.mem_flatMap.mpr ⟨list, Option.mem_toList.mpr hlist, ?_⟩
    exact List.mem_filterMap.mpr ⟨owner, hmem, by simp [hdeclarator, hname]⟩
  | declared hparent hrow hkind hdeclarator hname =>
    refine hearlier hparent hrow ?_
    rw [declaredBy, if_pos hkind]
    exact List.mem_filterMap.mpr ⟨_, hdeclarator, by rw [hname]; rfl⟩
  | function hparent hrow hkind hname =>
    refine hearlier hparent hrow ?_
    rw [declaredBy, if_neg (by rw [hkind]; decide), if_pos hkind, hname]
    exact List.mem_singleton_self _

/-! ## The order of the list -/

theorem place_of_mem_declaredBy (h : d ∈ t.declaredBy i) : d.place.1 = 1 ∧ d.place.2.1 = i := by
  rw [declaredBy] at h
  split at h
  · obtain ⟨c, -, h⟩ := List.mem_filterMap.mp h
    obtain ⟨m, -, rfl⟩ := Option.map_eq_some_iff.mp h
    exact ⟨rfl, rfl⟩
  · split at h
    · obtain ⟨m, -, rfl⟩ := Option.map_eq_some_iff.mp (Option.mem_toList.mp h)
      exact ⟨rfl, rfl⟩
    · cases h

theorem pairwise_declaredBy (t : SyntaxTree) (i : Nat) : (t.declaredBy i).Pairwise Declared.Before := by
  rw [declaredBy]
  split
  · have hsorted : (t.childrenOf i .declarator).Pairwise (· < ·) := (t.children_pairwise i).filter _
    refine hsorted.filterMap _ ?_
    intro c c' hlt d hd e he
    obtain ⟨m, -, rfl⟩ := Option.map_eq_some_iff.mp hd
    obtain ⟨m', -, rfl⟩ := Option.map_eq_some_iff.mp he
    exact Or.inr ⟨rfl, Or.inr ⟨rfl, hlt⟩⟩
  · split
    · cases t.functionName? i <;> simp
    · exact List.Pairwise.nil

theorem pairwise_parametersOf (t : SyntaxTree) (scope : Nat) :
    (t.parametersOf scope).Pairwise Declared.Before := by
  rw [parametersOf]
  cases t.parameterList? scope with
  | none => exact List.Pairwise.nil
  | some list =>
    rw [Option.toList_some, List.flatMap_singleton]
    refine List.Pairwise.filterMap _ ?_ ((t.children_pairwise list).filter _)
    intro p p' hlt d hd e he
    obtain ⟨m, -, rfl⟩ := Option.map_eq_some_iff.mp hd
    obtain ⟨m', -, rfl⟩ := Option.map_eq_some_iff.mp he
    exact Or.inr ⟨rfl, Or.inl hlt⟩

theorem pairwise_declaredIn (t : SyntaxTree) (row scope : Nat) :
    (t.declaredIn row scope).Pairwise Declared.Before := by
  have hchildren := (t.children_pairwise scope).sublist
    (List.takeWhile_sublist fun c => decide ((t.span c).start.row < row))
  refine List.pairwise_append.mpr ⟨?_, List.pairwise_flatMap.mpr ⟨?_, ?_⟩, ?_⟩
  · split
    · exact t.pairwise_parametersOf scope
    · exact List.Pairwise.nil
  · intro i _
    exact t.pairwise_declaredBy i
  · refine hchildren.imp ?_
    intro i j hij d hd e he
    obtain ⟨hd1, hd2⟩ := place_of_mem_declaredBy hd
    obtain ⟨he1, he2⟩ := place_of_mem_declaredBy he
    exact Or.inr ⟨hd1.trans he1.symm, Or.inl (by omega)⟩
  · intro d hd e he
    obtain ⟨i, -, he⟩ := List.mem_flatMap.mp he
    have hplace : d.place.1 = 0 := by
      split at hd
      · obtain ⟨list, -, hd⟩ := List.mem_flatMap.mp hd
        obtain ⟨p, -, hd⟩ := List.mem_filterMap.mp hd
        obtain ⟨m, -, rfl⟩ := Option.map_eq_some_iff.mp hd
        rfl
      · cases hd
    have := (place_of_mem_declaredBy he).1
    exact Or.inl (by omega)

theorem pairwise_offeredAt (t : SyntaxTree) (n : Nat) : (t.offeredAt n).Pairwise Offered.Ahead := by
  refine List.pairwise_flatMap.mpr ⟨?_, ?_⟩
  · intro s _
    refine List.pairwise_map.mpr ((t.pairwise_declaredIn _ s).imp ?_)
    intro d e hbefore
    exact Or.inr ⟨rfl, hbefore⟩
  · refine (t.ancestors_pairwise n).imp ?_
    intro s s' hlt o ho u hu
    obtain ⟨d, -, rfl⟩ := List.mem_map.mp ho
    obtain ⟨e, -, rfl⟩ := List.mem_map.mp hu
    exact Or.inl hlt

/-! ## The nearest declarations -/

/-- A declaration can be seen from `n`: a scope around `n` has it. -/
def IsOffered (t : SyntaxTree) (n : Nat) (o : Offered) : Prop :=
  o.scope ∈ t.ancestors n ∧ t.DeclaredIn (t.span n).start.row o.scope o.declared

/-- Of all declarations of its name that can be seen from `n`, this one is the nearest. -/
def IsNearest (t : SyntaxTree) (n : Nat) (o : Offered) : Prop :=
  t.IsOffered n o ∧ ∀ u, t.IsOffered n u → t.text u.declared.name = t.text o.declared.name →
    u = o ∨ o.Ahead u

theorem isOffered_of_mem {o : Offered} (h : o ∈ t.offeredAt n) : t.IsOffered n o := by
  obtain ⟨s, hs, ho⟩ := List.mem_flatMap.mp h
  obtain ⟨d, hd, rfl⟩ := List.mem_map.mp ho
  exact ⟨hs, declaredIn_of_mem hd⟩

theorem WellFormed.mem_offeredAt_iff (h : t.WellFormed) {o : Offered} :
    o ∈ t.offeredAt n ↔ t.IsOffered n o := by
  refine ⟨isOffered_of_mem, ?_⟩
  rintro ⟨hs, hd⟩
  exact List.mem_flatMap.mpr
    ⟨o.scope, hs, List.mem_map.mpr ⟨o.declared, h.mem_declaredIn_iff.mpr hd, rfl⟩⟩

/-- Completion offers each name once that is declared around a node in what can be seen from there, and
    no other name. The items show the nearest declaration of each name, and the nearest of these come
    first. -/
theorem reachableItems_show_nearest (t : SyntaxTree) (h : t.WellFormed) (n : Nat) :
    ((t.reachableItems n).map (·.label)).Nodup ∧
    (∀ w, w ∈ (t.reachableItems n).map (·.label) ↔ ∃ scope ∈ t.ancestors n, ∃ d,
      t.DeclaredIn (t.span n).start.row scope d ∧ t.text d.name = w) ∧
    ∃ shown : List Offered,
      List.Forall₂ (fun o item => t.Displays o.declared item) shown (t.reachableItems n) ∧
      shown.Pairwise Offered.Ahead ∧ ∀ o, o ∈ shown ↔ t.IsNearest n o := by
  rw [reachableItems_eq]
  refine ⟨CompletionItem.nodup_map_label_distinct _ _, ?_, ?_⟩
  · intro w
    rw [CompletionItem.mem_map_label_distinct, List.map_map, List.mem_map]
    constructor
    · rintro ⟨⟨o, ho, hlabel⟩, -⟩
      obtain ⟨hs, hd⟩ := h.mem_offeredAt_iff.mp ho
      exact ⟨o.scope, hs, o.declared, hd, (t.label_itemFor _).symm.trans hlabel⟩
    · rintro ⟨s, hs, d, hd, htext⟩
      exact ⟨⟨⟨s, d⟩, h.mem_offeredAt_iff.mpr ⟨hs, hd⟩, (t.label_itemFor d).trans htext⟩,
        List.not_mem_nil⟩
  · obtain ⟨shown, heq, hsub, hmem⟩ := CompletionItem.exists_distinct_map
      (fun o => t.itemFor o.declared) (fun _ _ => Offered.Ahead.asymm) (t.pairwise_offeredAt n) []
    refine ⟨shown, ?_, (t.pairwise_offeredAt n).sublist hsub, ?_⟩
    · rw [heq, List.forall₂_map_right_iff, List.forall₂_same]
      intro o ho
      exact (isOffered_of_mem (hsub.mem ho)).2.displays_itemFor
    intro o
    simp only [hmem, h.mem_offeredAt_iff, label_itemFor, List.not_mem_nil, not_false_eq_true,
      true_and, IsNearest]

/-- What is offered where the array is used: the array itself and not the parameter that it hides, the
    other parameter, and the function around it. -/
def fourDefinitionsItems : List CompletionItem :=
  [⟨"a", some 6, some "Integer", none, []⟩, ⟨"n", some 6, some "Integer", none, []⟩,
    ⟨"Sum", some 3, some "Integer Sum(Integer n, Integer a)", some (.markup .plaintext "Adds up."), []⟩]

theorem fourDefinitions_reachableItems : fourDefinitions.reachableItems 41 = fourDefinitionsItems := by
  with_unfolding_all rfl

theorem reachableItems_show_nearest_fourDefinitions : fourDefinitions.WellFormed ∧
    fourDefinitions.reachableItems 41 = fourDefinitionsItems ∧ ∃ shown : List Offered,
      List.Forall₂ (fun o item => fourDefinitions.Displays o.declared item) shown
        fourDefinitionsItems ∧
      shown.Pairwise Offered.Ahead ∧ ∀ o, o ∈ shown ↔ fourDefinitions.IsNearest 41 o := by
  obtain ⟨-, -, hshown⟩ :=
    reachableItems_show_nearest fourDefinitions fourDefinitions_wellFormed 41
  rw [fourDefinitions_reachableItems] at hshown
  exact ⟨fourDefinitions_wellFormed, fourDefinitions_reachableItems, hshown⟩

end SyntaxTree

end TwelveD
