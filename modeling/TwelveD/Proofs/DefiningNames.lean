import Mathlib.Data.Bool.Basic
import TwelveD.Proofs.Scopes

/-!
# Names at their definition

In trees whose declarations stand in scopes, and not inside declarators or parameter lists, a name
at the place of its definition means that definition. What `resolve?` finds from anywhere it finds
again from the found name.
-/

namespace TwelveD.SyntaxTree

variable {t : SyntaxTree} {a m n s o o' list : Nat} {w : String} {d : Definition}

/-- Whether a node of this kind declares a name in the scope it stands in. -/
def declaresInScope : Kind → Bool
  | .declaration | .preprocDef | .functionDefinition => true
  | _ => false

/-- Whether a node of this kind can stand between a name and the scope that it is declared in. -/
def isDeclaring : Kind → Bool
  | .declaration | .functionDeclarator | .initDeclarator | .arrayDeclarator | .pointerDeclarator
  | .preprocDef => true
  | _ => false

/-- Declarations, function definitions and `#define` lines are parts of neither declarators nor
    parameter lists. -/
@[mk_iff]
structure DeclaresInScopes (t : SyntaxTree) : Prop where
  /-- Nothing below a parameter list is declared in a scope. -/
  outside_parameters : ∀ i < t.size, declaresInScope (t.kind i) = true →
    ∀ a ∈ t.ancestors i, t.kind a ≠ parameterListKind
  /-- A declaration, a declarator and a `#define` line are no scopes. -/
  outside_declarators : ∀ i < t.size, declaresInScope (t.kind i) = true →
    ∀ p ∈ t.parent i, isDeclaring (t.kind p) = false
  /-- Parameters stand in a list of their own kind. -/
  parameters_kind : ∀ i < t.size, t.field i = some .parameters → t.kind i = parameterListKind
  /-- Only a declaration has more than one declarator. -/
  single : t.SingleDeclarators

instance (t : SyntaxTree) : Decidable t.DeclaresInScopes := decidable_of_iff' _ (declaresInScopes_iff t)

/-! ## Nodes that offer nothing -/

/-- A node that offers no name to what is below it. -/
def Bare (t : SyntaxTree) (a : Nat) : Prop :=
  t.kind a ≠ .functionDefinition ∧ ∀ c, t.parent c = some a → declaresInScope (t.kind c) = false

theorem Bare.not_offers (h : t.Bare a) : ¬ t.Offers w o a := by
  rintro (⟨m, hkind, -⟩ | ⟨m, hkind, -⟩ | ⟨declaration, d, hp, -, hd⟩)
  · exact h.1 hkind
  · exact h.1 hkind
  · have hno := h.2 declaration hp
    cases hd with
    | byDeclaration _ hm _ =>
      rw [hm.kind_owner] at hno
      cases hno
    | byDefine hkind _ _ _ _ =>
      rw [hkind] at hno
      cases hno

/-- A name means what the first scope around it that is not bare offers. -/
theorem WellFormed.resolve?_of_bare (h : t.WellFormed) {inner outer : List Nat}
    (hm : t.isCallee m = false) (heq : t.ancestors m = inner ++ s :: outer)
    (hbare : ∀ a ∈ inner, t.Bare a) (hd : t.definitionIn? (t.text m) (t.node m).start s = some d) :
    t.resolve? m = some d := by
  have hinner : inner.findSome? (t.definitionIn? (t.text m) (t.node m).start) = none := by
    rw [List.findSome?_eq_none_iff]
    intro a ha
    exact h.definitionIn?_eq_none_iff.mpr (hbare a ha).not_offers
  rw [resolve?_of_isCallee_eq_false hm, heq, List.findSome?_append, hinner, Option.none_or,
    List.findSome?_cons_of_isSome (by rw [hd]; rfl), hd, Option.some_or]

namespace DeclaresInScopes

theorem bare_of_isDeclaring (h : t.DeclaresInScopes) (hkind : isDeclaring (t.kind a) = true) :
    t.Bare a := by
  constructor
  · intro hk
    rw [hk] at hkind
    cases hkind
  · intro c hp
    by_contra hc
    have hno := h.outside_declarators c (lt_size_of_parent hp) (Bool.eq_true_of_not_eq_false hc) a hp
    rw [hkind] at hno
    cases hno

theorem bare_of_encloses (h : t.DeclaresInScopes) (hlist : t.kind list = parameterListKind)
    (hencl : t.Encloses list a) : t.Bare a := by
  constructor
  · intro hk
    rcases hencl with rfl | hmem
    · rw [hlist] at hk
      cases hk
    · obtain ⟨p, hp, -⟩ := mem_ancestors_iff.mp hmem
      exact h.outside_parameters a (lt_size_of_parent hp) (by rw [hk]; rfl) list hmem hlist
  · intro c hp
    by_contra hc
    have hmem : list ∈ t.ancestors c := mem_ancestors_iff.mpr ⟨a, hp, hencl⟩
    exact h.outside_parameters c (lt_size_of_parent hp) (Bool.eq_true_of_not_eq_false hc) list hmem
      hlist

theorem bare_between (h : t.DeclaresInScopes) {chain : Chain} {inner : List Nat}
    (hchain : ∀ k ∈ chain, isDeclaring k = true) (hkinds : inner.map t.kind = chain.reverse) :
    ∀ a ∈ inner, t.Bare a := by
  intro a ha
  exact h.bare_of_isDeclaring (hchain _ (Behind.kind_mem_chain hkinds ha))

end DeclaresInScopes

/-! ## Back from the name to the scope -/

/-- A scope offers a definition also to the defining name itself. -/
theorem WellFormed.definitionIn?_of_le (h : t.WellFormed) (hd : t.definitionIn? w o s = some d)
    (hle : (t.node d.name).start ≤ o') : t.definitionIn? w o' s = some d := by
  rw [definitionIn?] at hd ⊢
  rcases Option.or_eq_some_iff.mp hd with hd | ⟨hnone, hd⟩
  · rw [hd, Option.some_or]
  · rw [hnone, Option.none_or]
    obtain ⟨declaration, hp, -, hhead, hearlier⟩ := h.findLocal?_eq_some_iff.mp hd
    have hintro := mem_definitionsBy_iff.mp (List.mem_of_head? hhead)
    have hstart := (h.inside_of_encloses (Or.inr hintro.name.2.2)).1
    exact h.findLocal?_eq_some_iff.mpr ⟨declaration, hp, Nat.le_trans hstart hle, hhead, hearlier⟩

theorem definitionIn?_of_isOwnName (h : t.IsOwnName w s m) :
    t.definitionIn? w o s = some ⟨.functionName, m⟩ := by
  have hown : t.ownName? w s = some ⟨.functionName, m⟩ :=
    (ownName?_eq_some_iff h.1).mpr ⟨m, rfl, h⟩
  rw [definitionIn?, if_pos h.1, hown, Option.some_or, Option.some_or]

theorem isDeclaring_of_mem_ofFunction {depth : Nat} {k : Kind} (h : k ∈ Chain.ofFunction depth) :
    isDeclaring k = true := by
  rw [Chain.ofFunction, List.mem_append] at h
  rcases h with h | h
  · rw [List.eq_of_mem_replicate h]
    rfl
  · rw [List.mem_singleton.mp h]
    rfl

namespace DeclaresInScopes

theorem resolve?_of_isOwnName (h : t.DeclaresInScopes) (hwf : t.WellFormed)
    (hm : t.IsOwnName w s m) : t.resolve? m = some ⟨.functionName, m⟩ := by
  obtain ⟨hkind, hname, htext⟩ := hm
  obtain ⟨depth, hbehind⟩ := behind_of_functionName? hname
  obtain ⟨inner, hinner, hkinds⟩ := hbehind.exists_between
  have hbare := h.bare_between (fun k hk => isDeclaring_of_mem_ofFunction hk) hkinds
  exact hwf.resolve?_of_bare hbehind.isCallee_eq_false hinner hbare
    (definitionIn?_of_isOwnName ⟨hkind, hname, rfl⟩)

theorem resolve?_of_isParameterName (h : t.DeclaresInScopes) (hwf : t.WellFormed)
    (hm : t.IsParameterName w s m) (hd : t.definitionIn? (t.text m) (t.node m).start s = some d) :
    t.resolve? m = some d := by
  obtain ⟨-, -, list, parameter, chain, hlist, hencl, -, hbehind⟩ := hm
  obtain ⟨outside, houtside, hkinds⟩ := exists_ancestors_of_parameterList? hlist
  obtain ⟨inside, hinside, hmem⟩ := (hencl.trans hbehind.encloses).exists_ancestors
  have hlistKind : t.kind list = parameterListKind := by
    obtain ⟨declarator, -, hchild⟩ := Option.bind_eq_some_iff.mp hlist
    exact h.parameters_kind list (lt_of_child? hchild).2 (field_of_child? hchild)
  -- the way up leads through the list, and from there through the declarators of the function
  have heq : t.ancestors m = (inside ++ outside) ++ s :: t.ancestors s := by
    rw [hinside, houtside, List.append_assoc]
  refine hwf.resolve?_of_bare hbehind.isCallee_eq_false heq ?_ hd
  intro a ha
  rcases List.mem_append.mp ha with ha | ha
  · exact h.bare_of_encloses hlistKind (hmem a ha)
  · rcases hkinds a ha with hk | hk
    · exact h.bare_of_isDeclaring (by rw [hk]; rfl)
    · exact h.bare_of_isDeclaring (by rw [hk]; rfl)

theorem resolve?_of_introduces (h : t.DeclaresInScopes) (hwf : t.WellFormed) {declaration : Nat}
    (hp : t.parent declaration = some s) (hintro : t.Introduces w declaration d)
    (hd : t.definitionIn? (t.text d.name) (t.node d.name).start s = some d) :
    t.resolve? d.name = some d := by
  cases hintro with
  | byDeclaration hchain hm _ =>
    obtain ⟨inner, hinner, hkinds⟩ := hm.exists_between
    rw [ancestors_of_parent_eq_some hp, List.append_cons] at hinner
    refine hwf.resolve?_of_bare hm.isCallee_eq_false hinner ?_ hd
    intro a ha
    rcases List.mem_append.mp ha with ha | ha
    · refine h.bare_between (fun k hk => ?_) hkinds a ha
      rcases hchain.kind_of_mem hk with rfl | rfl <;> rfl
    · obtain rfl := List.mem_singleton.mp ha
      exact h.bare_of_isDeclaring (by rw [hm.kind_owner]; rfl)
  | @byDefine m hkind hparent hfield _ _ =>
    have heq : t.ancestors m = [declaration] ++ s :: t.ancestors s := by
      rw [ancestors_of_parent_eq_some hparent, ancestors_of_parent_eq_some hp, List.singleton_append]
    have hcallee : t.isCallee m = false := by simp [isCallee, hfield]
    refine hwf.resolve?_of_bare hcallee heq ?_ hd
    intro a ha
    obtain rfl := List.mem_singleton.mp ha
    exact h.bare_of_isDeclaring (by rw [hkind]; rfl)

/-- What a scope offers is also the definition of the offered name. -/
theorem resolve?_of_definitionIn? (h : t.DeclaresInScopes) (hwf : t.WellFormed)
    (hd : t.definitionIn? w o s = some d) : t.resolve? d.name = some d := by
  have hagain := hwf.definitionIn?_of_le hd (Nat.le_refl (t.node d.name).start)
  rcases definitionIn?_cases hd with ⟨m, rfl, hname⟩ | ⟨-, m, rfl, hname, -⟩ | ⟨-, -, hlocal⟩
  · exact h.resolve?_of_isOwnName hwf hname
  · rw [← hname.2.1] at hagain
    exact h.resolve?_of_isParameterName hwf hname hagain
  · obtain ⟨declaration, hp, -, hintro, -⟩ := hwf.introduces_of_findLocal? hlocal
    rw [← hintro.name.2.1] at hagain
    exact h.resolve?_of_introduces hwf hp hintro hagain

theorem resolve?_of_findFunction? (h : t.DeclaresInScopes) (hwf : t.WellFormed)
    (hd : t.findFunction? w = some d) : t.resolve? d.name = some d := by
  obtain ⟨m, rfl, ⟨htext, definition, depth, -, hm⟩, -⟩ := hwf.of_findFunction? hd
  exact h.resolve?_of_isOwnName hwf ⟨hm.kind_owner, h.single.functionName? hm, htext⟩

end DeclaresInScopes

/-- The definition of a name is also the definition of the name that it is found at. -/
theorem resolve?_idempotent (t : SyntaxTree) (hwf : t.WellFormed) (h : t.DeclaresInScopes) (n : Nat)
    (d : Definition) (hd : t.resolve? n = some d) : t.resolve? d.name = some d := by
  by_cases hn : t.isCallee n = true
  · rw [resolve?, if_pos hn] at hd
    exact h.resolve?_of_findFunction? hwf hd
  · rw [resolve?_of_isCallee_eq_false (Bool.eq_false_of_not_eq_true hn)] at hd
    rcases Option.or_eq_some_iff.mp hd with hd | ⟨-, hd⟩
    · obtain ⟨s, -, hd⟩ := List.exists_of_findSome?_eq_some hd
      exact h.resolve?_of_definitionIn? hwf hd
    · exact h.resolve?_of_findFunction? hwf hd

theorem fourDefinitions_declaresInScopes : fourDefinitions.DeclaresInScopes := by decide +kernel

theorem resolve?_idempotent_fourDefinitions : fourDefinitions.WellFormed ∧
    fourDefinitions.DeclaresInScopes ∧
    ∀ u ∈ fourDefinitionsUses, fourDefinitions.resolve? u.1 = some u.2 ∧
      fourDefinitions.resolve? u.2.name = some u.2 := by
  refine ⟨fourDefinitions_wellFormed, fourDefinitions_declaresInScopes, ?_⟩
  intro u hu
  have hd := fourDefinitions_resolve? u hu
  exact ⟨hd, resolve?_idempotent fourDefinitions fourDefinitions_wellFormed
    fourDefinitions_declaresInScopes u.1 u.2 hd⟩

end TwelveD.SyntaxTree
