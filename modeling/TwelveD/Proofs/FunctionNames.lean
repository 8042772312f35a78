import TwelveD.Proofs.Scopes

/-!
# Functions found by their names

The name of a function definition stands behind any number of pointer declarators, and `functionName?`
goes through all of them. A search for a function by name only looks behind none or one: it finds the
first function of that name with at most one `*` in front, and misses the others.
-/

namespace TwelveD

theorem Chain.ofFunction_injective {depth depth' : Nat}
    (h : Chain.ofFunction depth = Chain.ofFunction depth') : depth = depth' := by
  have hlength := congrArg List.length h
  simpa [Chain.ofFunction] using hlength

namespace SyntaxTree

variable {t : SyntaxTree} {i m definition depth : Nat} {w : String}

/-- Only one chain of declarators leads from a node to a name: the one that the way up passes. -/
theorem Behind.chain_unique {chain chain' : Chain} (h : t.Behind chain i m)
    (h' : t.Behind chain' i m) : chain = chain' := by
  obtain ⟨inner, hinner, hkinds⟩ := h.exists_ancestors
  obtain ⟨inner', hinner', hkinds'⟩ := h'.exists_ancestors
  have heq : inner = inner' := List.append_cancel_right (hinner.symm.trans hinner')
  have hreverse : chain.reverse = chain'.reverse := by rw [← hkinds, ← hkinds', heq]
  exact List.reverse_injective hreverse

/-- The name `m` of a function definition has `depth` times `*` in front. -/
def HasPointers (t : SyntaxTree) (definition m depth : Nat) : Prop :=
  t.Behind (.functionDefinition :: Chain.ofFunction depth) definition m

theorem HasPointers.unique {depth' : Nat} (h : t.HasPointers definition m depth)
    (h' : t.HasPointers definition m depth') : depth = depth' := by
  have hchain := Behind.chain_unique h h'
  exact Chain.ofFunction_injective (List.cons.inj hchain).2

theorem IsOwnName.exists_hasPointers (h : t.IsOwnName w definition m) :
    ∃ depth, t.HasPointers definition m depth := by
  obtain ⟨hkind, hname, -⟩ := h
  obtain ⟨depth, hbehind⟩ := behind_of_functionName? hname
  rw [hkind] at hbehind
  exact ⟨depth, hbehind⟩

/-- What is looked for are the names of functions with at most one `*` in front. -/
theorem SingleDeclarators.namesFunction_iff (h : t.SingleDeclarators) : t.NamesFunction w m ↔
    ∃ definition, t.IsOwnName w definition m ∧ ∃ depth ≤ 1, t.HasPointers definition m depth := by
  unfold NamesFunction
  constructor
  · rintro ⟨htext, definition, depth, hdepth, hbehind⟩
    have hname : t.functionName? definition = some m := h.functionName? hbehind
    exact ⟨definition, ⟨hbehind.kind_owner, hname, htext⟩, depth, hdepth, hbehind⟩
  · rintro ⟨definition, ⟨-, -, htext⟩, depth, hdepth, hbehind⟩
    exact ⟨htext, definition, depth, hdepth, hbehind⟩

theorem SingleDeclarators.not_namesFunction_iff (h : t.SingleDeclarators) :
    (∀ m, ¬ t.NamesFunction w m) ↔ ∀ definition m, t.IsOwnName w definition m →
      ∃ depth, 2 ≤ depth ∧ t.HasPointers definition m depth := by
  constructor
  · intro hnone definition m hown
    obtain ⟨depth, hdepth⟩ := hown.exists_hasPointers
    refine ⟨depth, ?_, hdepth⟩
    by_contra hlt
    have hle : depth ≤ 1 := by omega
    exact hnone m (h.namesFunction_iff.mpr ⟨definition, hown, depth, hle, hdepth⟩)
  · intro hdeep m hm
    obtain ⟨definition, hown, depth, hle, hdepth⟩ := h.namesFunction_iff.mp hm
    obtain ⟨depth', hge, hdepth'⟩ := hdeep definition m hown
    have heq := hdepth.unique hdepth'
    omega

/-- A search for a function by name finds the first one in the document whose name, as `functionName?`
    has it, is the one looked for and has at most one `*` in front. It finds nothing only if every
    function of that name has two or more. -/
theorem findFunction?_finds_named_functions (t : SyntaxTree) (h : t.WellFormed)
    (hsingle : t.SingleDeclarators) (w : String) :
    (∀ d, t.findFunction? w = some d → ∃ m, d = ⟨.functionName, m⟩ ∧
      t.IsFirst (fun m => ∃ definition, t.IsOwnName w definition m ∧
        ∃ depth ≤ 1, t.HasPointers definition m depth) m) ∧
    (t.findFunction? w = none ↔ ∀ definition m, t.IsOwnName w definition m →
      ∃ depth, 2 ≤ depth ∧ t.HasPointers definition m depth) := by
  constructor
  · intro d hd
    obtain ⟨m, rfl, hfirst⟩ := h.of_findFunction? hd
    have hnames : t.NamesFunction w = fun m => ∃ definition, t.IsOwnName w definition m ∧
        ∃ depth ≤ 1, t.HasPointers definition m depth := by
      funext m
      exact propext hsingle.namesFunction_iff
    rw [hnames] at hfirst
    exact ⟨m, rfl, hfirst⟩
  · rw [h.findFunction?_eq_none_iff]
    exact hsingle.not_namesFunction_iff

/-- A function with two stars in front of its name, and one with a single star. -/
def starredFunctions : SyntaxTree where
  source := Bytes.ofString "Integer **F() \x7b\x7d\nInteger *G() \x7b\x7d\n"
  nodes := #[⟨.translationUnit, none, 0, 33, none⟩, ⟨.functionDefinition, none, 0, 16, some 0⟩,
    ⟨.other "type_identifier", some .type, 0, 7, some 1⟩,
    ⟨.pointerDeclarator, some .declarator, 8, 13, some 1⟩, ⟨.other "*", none, 8, 9, some 3⟩,
    ⟨.pointerDeclarator, some .declarator, 9, 13, some 3⟩, ⟨.other "*", none, 9, 10, some 5⟩,
    ⟨.functionDeclarator, some .declarator, 10, 13, some 5⟩,
    ⟨.identifier, some .declarator, 10, 11, some 7⟩,
    ⟨parameterListKind, some .parameters, 11, 13, some 7⟩, ⟨.openParen, none, 11, 12, some 9⟩,
    ⟨.closeParen, none, 12, 13, some 9⟩, ⟨.compoundStatement, some .body, 14, 16, some 1⟩,
    ⟨.other "\x7b", none, 14, 15, some 12⟩, ⟨.closeBrace, none, 15, 16, some 12⟩,
    ⟨.functionDefinition, none, 17, 32, some 0⟩,
    ⟨.other "type_identifier", some .type, 17, 24, some 15⟩,
    ⟨.pointerDeclarator, some .declarator, 25, 29, some 15⟩, ⟨.other "*", none, 25, 26, some 17⟩,
    ⟨.functionDeclarator, some .declarator, 26, 29, some 17⟩,
    ⟨.identifier, some .declarator, 26, 27, some 19⟩,
    ⟨parameterListKind, some .parameters, 27, 29, some 19⟩, ⟨.openParen, none, 27, 28, some 21⟩,
    ⟨.closeParen, none, 28, 29, some 21⟩, ⟨.compoundStatement, some .body, 30, 32, some 15⟩,
    ⟨.other "\x7b", none, 30, 31, some 24⟩, ⟨.closeBrace, none, 31, 32, some 24⟩]
  linksBack := by decide

theorem starredFunctions_wellFormed : starredFunctions.WellFormed := by decide

theorem starredFunctions_singleDeclarators : starredFunctions.SingleDeclarators := by decide

theorem findFunction?_finds_named_functions_starredFunctions : starredFunctions.WellFormed ∧
    starredFunctions.SingleDeclarators ∧
    starredFunctions.findFunction? "G" = some ⟨.functionName, 20⟩ ∧
    starredFunctions.IsFirst (fun m => ∃ definition, starredFunctions.IsOwnName "G" definition m ∧
      ∃ depth ≤ 1, starredFunctions.HasPointers definition m depth) 20 := by
  have hfound : starredFunctions.findFunction? "G" = some ⟨.functionName, 20⟩ := by
    with_unfolding_all rfl
  obtain ⟨hfirst, -⟩ := findFunction?_finds_named_functions starredFunctions
    starredFunctions_wellFormed starredFunctions_singleDeclarators "G"
  obtain ⟨m, hm, hfirst⟩ := hfirst _ hfound
  obtain rfl : 20 = m := congrArg Definition.name hm
  exact ⟨starredFunctions_wellFormed, starredFunctions_singleDeclarators, hfound, hfirst⟩

/-- The name of a function with two stars is known, but no function of that name is found. -/
theorem named_function_not_found : starredFunctions.WellFormed ∧
    starredFunctions.SingleDeclarators ∧ starredFunctions.IsOwnName "F" 1 8 ∧
    starredFunctions.findFunction? "F" = none := by
  have hname : starredFunctions.functionName? 1 = some 8 := by with_unfolding_all rfl
  have htext : starredFunctions.text 8 = "F" := by with_unfolding_all rfl
  have hnone : starredFunctions.findFunction? "F" = none := by with_unfolding_all rfl
  have hown : starredFunctions.IsOwnName "F" 1 8 := ⟨by decide, hname, htext⟩
  exact ⟨starredFunctions_wellFormed, starredFunctions_singleDeclarators, hown, hnone⟩

end SyntaxTree

end TwelveD
