import Mathlib.Data.List.Sublists
import TwelveD.Names.Description
import TwelveD.Proofs.Nesting

/-!
# Names behind declarators

`Behind chain i m` says that the name `m` is reached from the node `i` through children with the role
`declarator`, where `chain` lists the kinds of the nodes on the way and starts with that of `i`. The
names that a declaration introduces and the name of a function are told by such chains, and so is
what stands around a name.

The chains behind which a name is looked for are listed in tables. What the tables list is said here
by `Chain.ofFunction`, `Chain.OfParameter` and `Chain.OfVariable`.
-/

namespace TwelveD

namespace Chain

variable {chain : Chain} {k : Kind}

/-! ## Shapes of chains -/

/-- The declarators around the name of a function with `depth` times `*` in front. -/
def ofFunction (depth : Nat) : Chain :=
  List.replicate depth .pointerDeclarator ++ [.functionDeclarator]

/-- The declarators around the name of a parameter: at most one `*`, and inside it at most one array
    size. -/
def OfParameter (chain : Chain) : Prop := chain.Sublist [.pointerDeclarator, .arrayDeclarator]

/-- The declarators around the name of a variable: at most one initial value, and inside it at most one
    array size. -/
def OfVariable (chain : Chain) : Prop := chain.Sublist [.initDeclarator, .arrayDeclarator]

/-- Names of functions are looked for behind at most one `*`. -/
theorem mem_ofFunctions_iff : chain ∈ ofFunctions ↔ ∃ depth ≤ 1, chain = ofFunction depth := by
  constructor
  · intro h
    rw [ofFunctions, List.mem_cons, List.mem_singleton] at h
    rcases h with rfl | rfl
    · exact ⟨0, Nat.zero_le 1, rfl⟩
    · exact ⟨1, Nat.le_refl 1, rfl⟩
  · rintro ⟨depth, hdepth, rfl⟩
    have hcases : depth = 0 ∨ depth = 1 := by omega
    rcases hcases with rfl | rfl
    · exact List.mem_cons_self ..
    · exact List.mem_cons_of_mem _ (List.mem_singleton_self _)

theorem mem_ofParameters_iff : chain ∈ ofParameters ↔ chain.OfParameter := by
  have htable : ofParameters = [Kind.pointerDeclarator, .arrayDeclarator].sublists := by rfl
  rw [htable, List.mem_sublists, OfParameter]

theorem mem_ofVariables_iff : chain ∈ ofVariables ↔ chain.OfVariable := by
  have htable : ofVariables = [Kind.initDeclarator, .arrayDeclarator].sublists := by rfl
  rw [htable, List.mem_sublists, OfVariable]

theorem OfParameter.kind_of_mem (h : chain.OfParameter) (hk : k ∈ chain) :
    k = .pointerDeclarator ∨ k = .arrayDeclarator := by
  simpa using List.Sublist.mem hk h

theorem OfVariable.kind_of_mem (h : chain.OfVariable) (hk : k ∈ chain) :
    k = .initDeclarator ∨ k = .arrayDeclarator := by
  simpa using List.Sublist.mem hk h

end Chain

namespace SyntaxTree

variable {t : SyntaxTree} {i c m k owner definition list : Nat} {f : Field}

/-- The kind of the parentheses around the parameters of a function and what is between them. -/
def parameterListKind : Kind := .other "parameter_list"

theorem parent_of_child? (h : t.child? i f = some c) : t.parent c = some i :=
  (mem_children.mp (List.mem_of_find?_eq_some h)).2

theorem field_of_child? (h : t.child? i f = some c) : t.field c = some f := by
  have hfield := List.find?_some h
  exact eq_of_beq hfield

theorem mem_childrenOf : c ∈ t.childrenOf i f ↔ t.parent c = some i ∧ t.field c = some f := by
  rw [childrenOf, List.mem_filter, mem_children, beq_iff_eq]
  constructor
  · rintro ⟨⟨-, hp⟩, hf⟩
    exact ⟨hp, hf⟩
  · rintro ⟨hp, hf⟩
    exact ⟨⟨lt_size_of_parent hp, hp⟩, hf⟩

/-! ## Chains of declarators -/

/-- The identifier `m` stands behind the declarators `chain`, the first of which is `i`. -/
inductive Behind (t : SyntaxTree) : Chain → Nat → Nat → Prop where
  | name {m : Nat} (hkind : t.kind m = .identifier) : Behind t [] m m
  | step {kind : Kind} {chain : Chain} {i c m : Nat} (hkind : t.kind i = kind)
      (hparent : t.parent c = some i) (hfield : t.field c = some .declarator)
      (hrest : Behind t chain c m) : Behind t (kind :: chain) i m

variable {chain : Chain} {kind : Kind}

theorem mem_namesBehind_iff : m ∈ t.namesBehind chain i ↔ t.Behind chain i m := by
  induction chain generalizing i with
  | nil =>
    rw [namesBehind]
    constructor
    · intro hm
      split at hm
      · rename_i hk
        obtain rfl := List.mem_singleton.mp hm
        exact .name hk
      · cases hm
    · rintro ⟨hk⟩
      rw [if_pos hk]
      exact List.mem_singleton_self m
  | cons kind chain ih =>
    rw [namesBehind]
    constructor
    · intro hm
      split at hm
      · rename_i hk
        obtain ⟨c, hc, hm⟩ := List.mem_flatMap.mp hm
        obtain ⟨hp, hf⟩ := mem_childrenOf.mp hc
        exact .step hk hp hf (ih.mp hm)
      · cases hm
    · rintro (_ | ⟨hk, hp, hf, hrest⟩)
      rw [if_pos hk]
      exact List.mem_flatMap.mpr ⟨_, mem_childrenOf.mpr ⟨hp, hf⟩, ih.mpr hrest⟩

theorem mem_namesThrough_iff {chains : List Chain} : m ∈ t.namesThrough chains owner ↔
    ∃ chain ∈ chains, t.Behind (t.kind owner :: chain) owner m := by
  simp only [namesThrough, List.mem_flatMap, mem_namesBehind_iff, mem_childrenOf]
  constructor
  · rintro ⟨c, ⟨hp, hf⟩, chain, hchain, h⟩
    exact ⟨chain, hchain, .step rfl hp hf h⟩
  · rintro ⟨chain, hchain, _ | ⟨-, hp, hf, h⟩⟩
    exact ⟨_, ⟨hp, hf⟩, chain, hchain, h⟩

namespace Behind

theorem kind_name (h : t.Behind chain i m) : t.kind m = .identifier := by
  induction h with
  | name hkind => exact hkind
  | step _ _ _ _ ih => exact ih

theorem kind_owner (h : t.Behind (kind :: chain) owner m) : t.kind owner = kind := by
  cases h with
  | step hkind _ _ _ => exact hkind

theorem lt_size (h : t.Behind (kind :: chain) owner m) : owner < t.size := by
  cases h with
  | step _ hp _ _ => exact Nat.lt_trans (parent_lt hp) (lt_size_of_parent hp)

theorem encloses (h : t.Behind chain i m) : t.Encloses i m := by
  induction h with
  | name _ => exact encloses_refl t _
  | step _ hp _ _ ih => exact (encloses_parent hp).trans ih

theorem field_name (h : t.Behind (kind :: chain) owner m) : t.field m = some .declarator := by
  induction chain generalizing owner kind with
  | nil =>
    cases h with
    | step _ _ hf hrest =>
      cases hrest with
      | name _ => exact hf
  | cons kind' chain ih =>
    cases h with
    | step _ _ _ hrest => exact ih hrest

/-- A declared name is not called where it is declared. -/
theorem isCallee_eq_false (h : t.Behind (kind :: chain) owner m) : t.isCallee m = false := by
  simp [isCallee, h.field_name]

/-- The way up from a name passes its declarators from the inside out. -/
theorem exists_ancestors (h : t.Behind chain i m) :
    ∃ inner, t.ancestors m = inner ++ t.ancestors i ∧ inner.map t.kind = chain.reverse := by
  induction h with
  | name _ => exact ⟨[], rfl, rfl⟩
  | @step kind chain i c m hkind hp _ _ ih =>
    obtain ⟨inner, hinner, hkinds⟩ := ih
    refine ⟨inner ++ [i], ?_, ?_⟩
    · rw [hinner, ancestors_of_parent_eq_some hp, List.append_assoc, List.singleton_append]
    · rw [List.map_append, hkinds, List.reverse_cons, List.map_singleton, hkind]

/-- Between a name and its owner there are only the declarators of the chain. -/
theorem exists_between (h : t.Behind (kind :: chain) owner m) :
    ∃ inner, t.ancestors m = inner ++ owner :: t.ancestors owner ∧
      inner.map t.kind = chain.reverse := by
  cases h with
  | step _ hp _ hrest =>
    obtain ⟨inner, hinner, hkinds⟩ := hrest.exists_ancestors
    exact ⟨inner, by rw [hinner, ancestors_of_parent_eq_some hp], hkinds⟩

theorem kind_mem_chain {inner : List Nat} (hkinds : inner.map t.kind = chain.reverse)
    (hi : i ∈ inner) : t.kind i ∈ chain := by
  rw [← List.mem_reverse, ← hkinds]
  exact List.mem_map_of_mem hi

/-- The owner of a name is the first node around the name whose kind no declarator has. -/
theorem find?_ancestors (h : t.Behind (kind :: chain) owner m) (p : Kind → Bool)
    (hchain : ∀ k ∈ chain, p k = false) (hkind : p kind = true) :
    (t.ancestors m).find? (fun a => p (t.kind a)) = some owner := by
  obtain ⟨inner, hinner, hkinds⟩ := h.exists_between
  have hnone : inner.find? (fun a => p (t.kind a)) = none := by
    rw [List.find?_eq_none]
    intro a ha
    rw [hchain _ (kind_mem_chain hkinds ha)]
    exact Bool.false_ne_true
  rw [hinner, List.find?_append, hnone, Option.none_or, List.find?_cons_of_pos]
  rw [h.kind_owner, hkind]

theorem declaredType?_eq (h : t.Behind (kind :: chain) owner m)
    (hchain : ∀ k ∈ chain, givesType k = false) (hkind : givesType kind = true) :
    t.declaredType? m = (t.child? owner .type).map t.text := by
  rw [declaredType?, h.find?_ancestors givesType hchain hkind]
  rfl

end Behind

theorem behind_of_declaredName? (h : t.declaredName? i = some m) :
    ∃ chain, (∀ k ∈ chain, wrapsDeclarator k = true) ∧ t.Behind chain i m := by
  fun_induction t.declaredName? i with
  | case1 i hkind =>
    obtain rfl := Option.some.inj h
    exact ⟨[], by simp, .name hkind⟩
  | case2 => cases h
  | case3 i _ hwraps c hc _ ih =>
    obtain ⟨chain, hchain, hbehind⟩ := ih h
    refine ⟨t.kind i :: chain, ?_, .step rfl (parent_of_child? hc) (field_of_child? hc) hbehind⟩
    intro k hk
    rcases List.mem_cons.mp hk with rfl | hk
    · exact hwraps
    · exact hchain k hk
  | case4 => cases h

/-! ## The first declarators -/

/-- One step along a chain of declarators. -/
theorem functionDeclaratorFrom?_eq (t : SyntaxTree) (i : Nat) : t.functionDeclaratorFrom? i =
    if t.kind i = .functionDeclarator then some i
    else if t.kind i = .pointerDeclarator then
      (t.child? i .declarator).bind t.functionDeclaratorFrom?
    else none := by
  rw [functionDeclaratorFrom?]
  split
  · rename_i hk
    rw [if_pos hk]
  · rename_i hk
    rw [if_neg (by rw [hk]; decide), if_pos hk]
    split
    · rename_i hc
      simp only [hc, Option.bind_none]
    · rename_i hc
      simp only [hc, Option.bind_some]
  · rename_i h1 h2
    rw [if_neg h1, if_neg h2]

theorem parameterList?_eq (t : SyntaxTree) (definition : Nat) : t.parameterList? definition =
    (t.functionDeclarator? definition).bind fun d => t.child? d .parameters := rfl

/-- The walk to a function declarator, taken back through the pointer declarators in front of it. -/
@[elab_as_elim]
theorem functionDeclaratorFrom?_induction {motive : Nat → Prop}
    (h : t.functionDeclaratorFrom? i = some c)
    (found : t.kind c = .functionDeclarator → motive c)
    (pointer : ∀ i next, t.kind i = .pointerDeclarator → t.child? i .declarator = some next →
      motive next → motive i) : motive i := by
  induction i using children_induction t with
  | node i ih =>
    rw [functionDeclaratorFrom?_eq] at h
    split at h
    · rename_i hk
      obtain rfl := Option.some.inj h
      exact found hk
    · split at h
      · rename_i hk
        obtain ⟨next, hnext, hd⟩ := Option.bind_eq_some_iff.mp h
        exact pointer i next hk hnext (ih next (parent_of_child? hnext) hd)
      · cases h

/-- The pointer declarators in front of a function declarator stand between it and the first one. -/
theorem exists_ancestors_of_functionDeclaratorFrom? (h : t.functionDeclaratorFrom? i = some c) :
    ∃ inner, c :: t.ancestors c = inner ++ t.ancestors i ∧
      ∀ a ∈ inner, t.kind a = .pointerDeclarator ∨ t.kind a = .functionDeclarator := by
  refine functionDeclaratorFrom?_induction h ?_ ?_
  · intro hk
    exact ⟨[c], rfl, by simp [hk]⟩
  · rintro i next hk hnext ⟨inner, hinner, hkinds⟩
    refine ⟨inner ++ [i], ?_, ?_⟩
    · rw [hinner, ancestors_of_parent_eq_some (parent_of_child? hnext), List.append_assoc,
        List.singleton_append]
    · intro a ha
      rcases List.mem_append.mp ha with ha | ha
      · exact hkinds a ha
      · obtain rfl := List.mem_singleton.mp ha
        exact Or.inl hk

/-- Only declarators stand between a parameter list and the function definition it belongs to. -/
theorem exists_ancestors_of_parameterList? (h : t.parameterList? definition = some list) :
    ∃ inner, t.ancestors list = inner ++ definition :: t.ancestors definition ∧
      ∀ a ∈ inner, t.kind a = .pointerDeclarator ∨ t.kind a = .functionDeclarator := by
  rw [parameterList?_eq, functionDeclarator?] at h
  obtain ⟨d, hd, hlist⟩ := Option.bind_eq_some_iff.mp h
  obtain ⟨first, hfirst, hd⟩ := Option.bind_eq_some_iff.mp hd
  obtain ⟨inner, hinner, hkinds⟩ := exists_ancestors_of_functionDeclaratorFrom? hd
  refine ⟨inner, ?_, hkinds⟩
  rw [ancestors_of_parent_eq_some (parent_of_child? hlist), hinner,
    ancestors_of_parent_eq_some (parent_of_child? hfirst)]

/-! ## Names of functions -/

theorem functionName?_eq_some_iff : t.functionName? definition = some m ↔
    ∃ d, t.functionDeclarator? definition = some d ∧ t.child? d .declarator = some m ∧
      t.kind m = .identifier := by
  rw [functionName?]
  constructor
  · intro h
    obtain ⟨d, hd, h⟩ := Option.bind_eq_some_iff.mp h
    obtain ⟨name, hname, h⟩ := Option.bind_eq_some_iff.mp h
    split at h
    · rename_i hk
      obtain rfl := Option.some.inj h
      exact ⟨d, hd, hname, hk⟩
    · cases h
  · rintro ⟨d, hd, hname, hk⟩
    simp [hd, hname, hk]

theorem behind_of_functionDeclaratorFrom? (h : t.functionDeclaratorFrom? i = some c)
    (hname : t.child? c .declarator = some m) (hkind : t.kind m = .identifier) :
    ∃ depth, t.Behind (Chain.ofFunction depth) i m := by
  refine functionDeclaratorFrom?_induction h ?_ ?_
  · intro hk
    exact ⟨0, .step hk (parent_of_child? hname) (field_of_child? hname) (.name hkind)⟩
  · rintro i next hk hnext ⟨depth, hrest⟩
    exact ⟨depth + 1, .step hk (parent_of_child? hnext) (field_of_child? hnext) hrest⟩

/-- The name of a function definition stands behind its declarators. -/
theorem behind_of_functionName? (h : t.functionName? definition = some m) :
    ∃ depth, t.Behind (t.kind definition :: Chain.ofFunction depth) definition m := by
  obtain ⟨d, hd, hname, hkind⟩ := functionName?_eq_some_iff.mp h
  obtain ⟨first, hfirst, hd⟩ := Option.bind_eq_some_iff.mp hd
  obtain ⟨depth, hrest⟩ := behind_of_functionDeclaratorFrom? hd hname hkind
  exact ⟨depth, .step rfl (parent_of_child? hfirst) (field_of_child? hfirst) hrest⟩

/-! ## Single declarators -/

/-- Only a declaration has more than one declarator. -/
def SingleDeclarators (t : SyntaxTree) : Prop :=
  ∀ j < t.size, ∀ i < j, ∀ p ∈ t.parent j, t.parent i = some p → t.field i = some .declarator →
    t.field j = some .declarator → t.kind p = .declaration

set_option synthInstance.maxSize 256 in
instance (t : SyntaxTree) : Decidable t.SingleDeclarators :=
  inferInstanceAs (Decidable (∀ j < t.size, ∀ i < j, ∀ p ∈ t.parent j, t.parent i = some p →
    t.field i = some .declarator → t.field j = some .declarator → t.kind p = .declaration))

namespace SingleDeclarators

theorem eq (h : t.SingleDeclarators) {p j : Nat} (hi : t.parent i = some p)
    (hj : t.parent j = some p) (hfi : t.field i = some .declarator)
    (hfj : t.field j = some .declarator) (hk : t.kind p ≠ .declaration) : i = j := by
  rcases Nat.lt_trichotomy i j with hlt | heq | hgt
  · exact absurd (h j (lt_size_of_parent hj) i hlt p hj hi hfi hfj) hk
  · exact heq
  · exact absurd (h i (lt_size_of_parent hi) j hgt p hi hj hfj hfi) hk

theorem child?_eq_some (h : t.SingleDeclarators) (hp : t.parent c = some i)
    (hf : t.field c = some .declarator) (hk : t.kind i ≠ .declaration) :
    t.child? i .declarator = some c := by
  have hmem : c ∈ t.children i := mem_children.mpr ⟨lt_size_of_parent hp, hp⟩
  have hsome : (t.child? i .declarator).isSome := by
    rw [child?, List.find?_isSome]
    exact ⟨c, hmem, beq_iff_eq.mpr hf⟩
  obtain ⟨first, hfirst⟩ := Option.isSome_iff_exists.mp hsome
  have heq := h.eq (parent_of_child? hfirst) hp (field_of_child? hfirst) hf hk
  rw [hfirst, heq]

theorem functionDeclaratorFrom? (h : t.SingleDeclarators) {depth : Nat}
    (hm : t.Behind (Chain.ofFunction depth) i m) :
    ∃ d, t.functionDeclaratorFrom? i = some d ∧ t.kind d = .functionDeclarator ∧
      t.child? d .declarator = some m := by
  induction depth generalizing i with
  | zero =>
    cases hm with
    | step hk hp hf hrest =>
      cases hrest with
      | name _ =>
        refine ⟨i, ?_, hk, h.child?_eq_some hp hf (by rw [hk]; decide)⟩
        rw [functionDeclaratorFrom?_eq, if_pos hk]
  | succ depth ih =>
    cases hm with
    | step hk hp hf hrest =>
      obtain ⟨d, hd, hname⟩ := ih hrest
      refine ⟨d, ?_, hname⟩
      rw [functionDeclaratorFrom?_eq, if_neg (by rw [hk]; decide), if_pos hk,
        h.child?_eq_some hp hf (by rw [hk]; decide), Option.bind_some, hd]

theorem functionDeclarator? (h : t.SingleDeclarators) {depth : Nat}
    (hm : t.Behind (.functionDefinition :: Chain.ofFunction depth) definition m) :
    ∃ d, t.functionDeclarator? definition = some d ∧ t.kind d = .functionDeclarator ∧
      t.child? d .declarator = some m := by
  cases hm with
  | step hk hp hf hrest =>
    obtain ⟨d, hd, hname⟩ := h.functionDeclaratorFrom? hrest
    refine ⟨d, ?_, hname⟩
    rw [SyntaxTree.functionDeclarator?, h.child?_eq_some hp hf (by rw [hk]; decide)]
    exact hd

/-- Where no declarator has a second one beside it, a name behind the declarators of a function is
    the name of that function. -/
theorem functionName? (h : t.SingleDeclarators) {depth : Nat}
    (hm : t.Behind (.functionDefinition :: Chain.ofFunction depth) definition m) :
    t.functionName? definition = some m := by
  obtain ⟨d, hd, -, hname⟩ := h.functionDeclarator? hm
  exact functionName?_eq_some_iff.mpr ⟨d, hd, hname, hm.kind_name⟩

end SingleDeclarators

end SyntaxTree

end TwelveD
