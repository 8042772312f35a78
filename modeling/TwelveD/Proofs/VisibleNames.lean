import TwelveD.Proofs.OfferedNames

/-!
# Offered names and their definitions

The names that completion offers at a node are declared by what can be seen there, `IsOffered`:
completion follows all declarators to the name behind them. Definitions are only looked for behind
certain chains of declarators, `IsLookedFor`. A name that is offered has a definition unless all its
declarations put it behind other chains, and there are such names.
-/

namespace TwelveD.SyntaxTree

variable {t : SyntaxTree} {n owner : Nat} {item : CompletionItem} {o : Offered}

/-- A declared name stands behind declarators behind which the names of its kind are looked for. -/
inductive IsLookedFor (t : SyntaxTree) : Declared → Prop where
  | parameter {owner m : Nat} {chain : Chain} (hchain : chain.OfParameter)
      (hname : t.Behind (.parameterDeclaration :: chain) owner m) :
      IsLookedFor t (.parameterName owner m)
  | declared {owner declarator m : Nat} {chain : Chain} (hchain : chain.OfVariable)
      (hname : t.Behind (.declaration :: chain) owner m) :
      IsLookedFor t (.variableName owner declarator m)
  | function {owner m depth : Nat} (hdepth : depth ≤ 1)
      (hname : t.Behind (.functionDefinition :: Chain.ofFunction depth) owner m) :
      IsLookedFor t (.functionName owner m)

/-- What completion offers is the text of a declared name. -/
theorem exists_isOffered (h : item ∈ t.reachableItems n) :
    ∃ o, t.IsOffered n o ∧ t.text o.declared.name = item.label := by
  have hlabel := List.mem_map_of_mem (f := CompletionItem.label) h
  rw [reachableItems_eq, CompletionItem.mem_map_label_distinct, List.map_map, List.mem_map] at hlabel
  obtain ⟨⟨o, ho, hlabel⟩, -⟩ := hlabel
  exact ⟨o, isOffered_of_mem ho, (t.label_itemFor _).symm.trans hlabel⟩

/-- What starts on an earlier row starts at a smaller offset. -/
theorem start_le_of_row_lt (hrow : (t.span owner).start.row < (t.span n).start.row) :
    (t.node owner).start ≤ (t.node n).start := by
  by_contra hlt
  exact Nat.not_le_of_lt hrow (Bytes.pointAt_row_le t.source (Nat.le_of_not_le hlt))

theorem WellFormed.resolve?_ne_none (h : t.WellFormed) (hn : t.isCallee n = false)
    (hoffered : t.IsOffered n o) (htext : t.text o.declared.name = t.text n)
    (hlooked : t.IsLookedFor o.declared) : t.resolve? n ≠ none := by
  intro hnone
  obtain ⟨hscopes, hfunctions⟩ := (h.resolve?_eq_none_iff hn).mp hnone
  obtain ⟨scope, declared⟩ := o
  obtain ⟨hscope, hdeclared⟩ := hoffered
  -- a scope offers the variables and parameters that are looked for; functions are found without one
  cases hlooked with
  | @parameter owner m chain hchain hname =>
    cases hdeclared with
    | @parameter list _ _ _ hfunction hlist hparent _ _ _ =>
      have hparameter : t.IsParameterName (t.text n) scope m :=
        ⟨hfunction, htext, list, owner, chain, hlist, encloses_parent hparent, hchain, hname⟩
      exact hscopes scope hscope (Or.inr (Or.inl ⟨m, hparameter⟩))
  | declared hchain hname =>
    cases hdeclared with
    | declared hparent hrow _ _ _ =>
      exact hscopes scope hscope (Or.inr (Or.inr
        ⟨_, _, hparent, start_le_of_row_lt hrow, .byDeclaration hchain hname htext⟩))
  | function hdepth hname => exact hfunctions _ ⟨htext, _, _, hdepth, hname⟩

/-- A name that is not called and that completion offers where it stands has a definition with that
    name, unless all declarations that can be seen there put it behind declarators that are not looked
    for. -/
theorem offered_name_resolves (t : SyntaxTree) (h : t.WellFormed) (n : Nat)
    (hn : t.isCallee n = false) (hoffered : ∃ item ∈ t.reachableItems n, item.label = t.text n) :
    (∃ d, t.resolve? n = some d ∧ t.text d.name = t.text n) ∨
    (t.resolve? n = none ∧ (∃ o, t.IsOffered n o ∧ t.text o.declared.name = t.text n) ∧
      ∀ o, t.IsOffered n o → t.text o.declared.name = t.text n → ¬ t.IsLookedFor o.declared) := by
  obtain ⟨item, hitem, hlabel⟩ := hoffered
  cases hd : t.resolve? n with
  | some d => exact Or.inl ⟨d, rfl, (h.scopedBy_of_resolve? hn hd).name.2⟩
  | none =>
    obtain ⟨o, ho, htext⟩ := exists_isOffered hitem
    refine Or.inr ⟨rfl, ⟨o, ho, htext.trans hlabel⟩, ?_⟩
    intro o ho htext hlooked
    exact h.resolve?_ne_none hn ho htext hlooked hd

theorem offered_name_resolves_fourDefinitions : fourDefinitions.WellFormed ∧
    ∀ u ∈ fourDefinitionsUses, u.1 ∈ [35, 41, 54] → fourDefinitions.isCallee u.1 = false ∧
      (∃ item ∈ fourDefinitions.reachableItems u.1, item.label = fourDefinitions.text u.1) ∧
      fourDefinitions.resolve? u.1 = some u.2 ∧
      fourDefinitions.text u.2.name = fourDefinitions.text u.1 := by
  have hcallee : ∀ n ∈ [35, 41, 54], fourDefinitions.isCallee n = false := by decide
  have hlabels : ∀ n ∈ [35, 41, 54], fourDefinitions.text n ∈
      (fourDefinitions.reachableItems n).map (·.label) := by decide +kernel
  refine ⟨fourDefinitions_wellFormed, ?_⟩
  intro u hu hn
  have hoffered := List.mem_map.mp (hlabels u.1 hn)
  have hresolve := fourDefinitions_resolve? u hu
  refine ⟨hcallee u.1 hn, hoffered, hresolve, ?_⟩
  rcases offered_name_resolves fourDefinitions fourDefinitions_wellFormed u.1 (hcallee u.1 hn)
    hoffered with ⟨d, hd, htext⟩ | ⟨hnone, -⟩
  · rwa [Option.some.inj (hresolve.symm.trans hd)]
  · rw [hresolve] at hnone
    cases hnone

/-- A function whose parameter is an array of arrays. -/
def nestedArray : SyntaxTree where
  source := Bytes.ofString "void f(Integer c[3][4]) \x7b\n    c;\n\x7d\n"
  nodes := #[⟨.translationUnit, none, 0, 35, none⟩, ⟨.functionDefinition, none, 0, 34, some 0⟩,
    ⟨.other "primitive_type", some .type, 0, 4, some 1⟩,
    ⟨.functionDeclarator, some .declarator, 5, 23, some 1⟩,
    ⟨.identifier, some .declarator, 5, 6, some 3⟩,
    ⟨parameterListKind, some .parameters, 6, 23, some 3⟩,
    ⟨.openParen, none, 6, 7, some 5⟩, ⟨.parameterDeclaration, none, 7, 22, some 5⟩,
    ⟨.other "type_identifier", some .type, 7, 14, some 7⟩,
    ⟨.arrayDeclarator, some .declarator, 15, 22, some 7⟩,
    ⟨.arrayDeclarator, some .declarator, 15, 19, some 9⟩,
    ⟨.identifier, some .declarator, 15, 16, some 10⟩, ⟨.other "[", none, 16, 17, some 10⟩,
    ⟨.other "number_literal", some (.other "size"), 17, 18, some 10⟩,
    ⟨.other "]", none, 18, 19, some 10⟩, ⟨.other "[", none, 19, 20, some 9⟩,
    ⟨.other "number_literal", some (.other "size"), 20, 21, some 9⟩,
    ⟨.other "]", none, 21, 22, some 9⟩, ⟨.closeParen, none, 22, 23, some 5⟩,
    ⟨.compoundStatement, some .body, 24, 34, some 1⟩, ⟨.other "\x7b", none, 24, 25, some 19⟩,
    ⟨.other "expression_statement", none, 30, 32, some 19⟩, ⟨.identifier, none, 30, 31, some 21⟩,
    ⟨.other ";", none, 31, 32, some 21⟩, ⟨.closeBrace, none, 33, 34, some 19⟩]
  linksBack := by decide

theorem nestedArray_wellFormed : nestedArray.WellFormed := by decide

/-- An array of arrays is offered as a parameter where it is used, and has no definition there. -/
theorem offered_name_without_definition : nestedArray.WellFormed ∧
    nestedArray.kind 22 = .identifier ∧ nestedArray.isCallee 22 = false ∧
    (∃ item ∈ nestedArray.reachableItems 22, item.label = nestedArray.text 22) ∧
    nestedArray.resolve? 22 = none := by
  have hlabels : nestedArray.text 22 ∈ (nestedArray.reachableItems 22).map (·.label) := by
    decide +kernel
  have hresolve : nestedArray.resolve? 22 = none := by
    unfold resolve? definitionIn?
    simp only [nestedArray_wellFormed.findLocal?_eq]
    decide +kernel
  exact ⟨nestedArray_wellFormed, by decide, by decide, List.mem_map.mp hlabels, hresolve⟩

end TwelveD.SyntaxTree
