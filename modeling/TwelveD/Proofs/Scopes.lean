import TwelveD.Proofs.Declarators

/-!
# Scopes

The scopes around a name are the nodes that enclose it. A function definition offers its own name
and its parameters, and every scope offers the variables and `#define` names declared directly in it.
`ScopedBy` says which of all these offers a name means; `resolve?` finds that one.
-/

namespace TwelveD.SyntaxTree

variable {t : SyntaxTree} {i j m n s o : Nat} {w : String} {d : Definition} {ids : List Nat}
  {P : Nat → Prop}

/-! ## The first of several nodes -/

/-- No node with the property `P` starts before `m`, which has it. -/
def IsFirst (t : SyntaxTree) (P : Nat → Prop) (m : Nat) : Prop :=
  P m ∧ ∀ m', P m' → (t.node m).start ≤ (t.node m').start

theorem isFirst_of_head?_inTextOrder (hids : ∀ m, m ∈ ids ↔ P m)
    (h : (t.inTextOrder ids).head? = some m) : t.IsFirst P m := by
  have hsorted : (t.inTextOrder ids).Pairwise
      fun i j => decide ((t.node i).start ≤ (t.node j).start) = true := by
    apply List.pairwise_mergeSort
    · intro i j k hij hjk
      rw [decide_eq_true_eq] at *
      exact Nat.le_trans hij hjk
    · intro i j
      rw [Bool.or_eq_true, decide_eq_true_eq, decide_eq_true_eq]
      exact Nat.le_total _ _
  have hmem : ∀ i, i ∈ t.inTextOrder ids ↔ P i := fun i => List.mem_mergeSort.trans (hids i)
  obtain ⟨rest, hrest⟩ := List.head?_eq_some_iff.mp h
  rw [hrest] at hsorted hmem
  refine ⟨(hmem m).mp (List.mem_cons_self ..), ?_⟩
  intro m' hm'
  rcases List.mem_cons.mp ((hmem m').mpr hm') with rfl | hm'
  · exact Nat.le_refl _
  · exact of_decide_eq_true ((List.pairwise_cons.mp hsorted).1 m' hm')

theorem head?_inTextOrder_eq_none_iff (hids : ∀ m, m ∈ ids ↔ P m) :
    (t.inTextOrder ids).head? = none ↔ ∀ m, ¬ P m := by
  rw [List.head?_eq_none_iff, List.eq_nil_iff_forall_not_mem]
  exact forall_congr' fun m => not_congr (List.mem_mergeSort.trans (hids m))

/-- Siblings follow one another in the text as they do in the table. -/
theorem WellFormed.start_le_start (h : t.WellFormed) (hij : i < j) (hi : t.parent i = some s)
    (hj : t.parent j = some s) : (t.node i).start ≤ (t.node j).start :=
  Nat.le_trans (h.start_le_stop i (lt_size_of_parent hi)) (h.siblings_of_parent hij hi hj)

theorem WellFormed.inTextOrder_children (h : t.WellFormed) (s : Nat) :
    t.inTextOrder (t.children s) = t.children s := by
  apply List.mergeSort_of_pairwise
  refine (t.children_pairwise s).imp_of_mem ?_
  intro i j hi hj hij
  exact decide_eq_true (h.start_le_start hij (mem_children.mp hi).2 (mem_children.mp hj).2)

/-! ## What a scope offers -/

/-- `m` is the name `w` of a function definition, with at most one `*` in front. -/
def NamesFunction (t : SyntaxTree) (w : String) (m : Nat) : Prop :=
  t.text m = w ∧ ∃ definition, ∃ depth ≤ 1,
    t.Behind (.functionDefinition :: Chain.ofFunction depth) definition m

/-- `m` is the name of the function definition `s`, and it is `w`. -/
def IsOwnName (t : SyntaxTree) (w : String) (s m : Nat) : Prop :=
  t.kind s = .functionDefinition ∧ t.functionName? s = some m ∧ t.text m = w

/-- `m` names a parameter `w` in the parameter list of the function definition `s`. -/
def IsParameterName (t : SyntaxTree) (w : String) (s m : Nat) : Prop :=
  t.kind s = .functionDefinition ∧ t.text m = w ∧ ∃ (list parameter : Nat) (chain : Chain),
    t.parameterList? s = some list ∧ t.Encloses list parameter ∧ chain.OfParameter ∧
    t.Behind (.parameterDeclaration :: chain) parameter m

/-- A declaration or `#define` line introduces the name `w`. -/
inductive Introduces (t : SyntaxTree) (w : String) (declaration : Nat) : Definition → Prop where
  | byDeclaration {m : Nat} {chain : Chain} (hchain : chain.OfVariable)
      (hname : t.Behind (.declaration :: chain) declaration m) (htext : t.text m = w) :
      Introduces t w declaration ⟨.variableName, m⟩
  | byDefine {m : Nat} (hkind : t.kind declaration = .preprocDef)
      (hparent : t.parent m = some declaration) (hfield : t.field m = some .name)
      (hname : t.kind m = .identifier) (htext : t.text m = w) :
      Introduces t w declaration ⟨.defineName, m⟩

/-- The scope `s` offers the name `w` to what starts at the offset `o`. -/
def Offers (t : SyntaxTree) (w : String) (o s : Nat) : Prop :=
  (∃ m, t.IsOwnName w s m) ∨ (∃ m, t.IsParameterName w s m) ∨
    ∃ declaration d, t.parent declaration = some s ∧ (t.node declaration).start ≤ o ∧
      t.Introduces w declaration d

theorem mem_called_iff {owners : List Nat} {chains : List Chain} :
    m ∈ t.called w (owners.flatMap (t.namesThrough chains)) ↔ t.text m = w ∧
      ∃ owner ∈ owners, ∃ chain ∈ chains, t.Behind (t.kind owner :: chain) owner m := by
  rw [called, List.mem_filter, List.mem_flatMap, beq_iff_eq, and_comm]
  simp only [mem_namesThrough_iff]

theorem WellFormed.mem_functionNames_iff (h : t.WellFormed) :
    m ∈ t.called w ((t.allNodes.filter fun i => t.kind i == .functionDefinition).flatMap
      (t.namesThrough Chain.ofFunctions)) ↔ t.NamesFunction w m := by
  rw [mem_called_iff, NamesFunction]
  refine and_congr_right fun _ => ⟨?_, ?_⟩
  · rintro ⟨owner, howner, chain, hchain, hm⟩
    obtain ⟨depth, hdepth, rfl⟩ := Chain.mem_ofFunctions_iff.mp hchain
    have hkind := eq_of_beq (List.mem_filter.mp howner).2
    rw [hkind] at hm
    exact ⟨owner, depth, hdepth, hm⟩
  · rintro ⟨owner, depth, hdepth, hm⟩
    have hkind := hm.kind_owner
    have hchain := Chain.mem_ofFunctions_iff.mpr ⟨depth, hdepth, rfl⟩
    refine ⟨owner, ?_, _, hchain, by rw [hkind]; exact hm⟩
    exact List.mem_filter.mpr ⟨h.mem_allNodes_iff.mpr hm.lt_size, beq_iff_eq.mpr hkind⟩

theorem WellFormed.of_findFunction? (h : t.WellFormed) (hd : t.findFunction? w = some d) :
    ∃ m, d = ⟨.functionName, m⟩ ∧ t.IsFirst (t.NamesFunction w) m := by
  obtain ⟨m, hm, rfl⟩ := Option.map_eq_some_iff.mp hd
  exact ⟨m, rfl, isFirst_of_head?_inTextOrder (fun _ => h.mem_functionNames_iff) hm⟩

theorem WellFormed.findFunction?_eq_none_iff (h : t.WellFormed) :
    t.findFunction? w = none ↔ ∀ m, ¬ t.NamesFunction w m := by
  rw [findFunction?, Option.map_eq_none_iff]
  exact head?_inTextOrder_eq_none_iff fun _ => h.mem_functionNames_iff

theorem ownName?_eq_some_iff (hkind : t.kind s = .functionDefinition) :
    t.ownName? w s = some d ↔ ∃ m, d = ⟨.functionName, m⟩ ∧ t.IsOwnName w s m := by
  rw [ownName?]
  constructor
  · intro h
    obtain ⟨m, hm, h⟩ := Option.bind_eq_some_iff.mp h
    split at h
    · rename_i htext
      obtain rfl := Option.some.inj h
      exact ⟨m, rfl, hkind, hm, htext⟩
    · cases h
  · rintro ⟨m, rfl, -, hm, htext⟩
    simp [hm, htext]

theorem ownName?_eq_none_iff (hkind : t.kind s = .functionDefinition) :
    t.ownName? w s = none ↔ ∀ m, ¬ t.IsOwnName w s m := by
  rw [Option.eq_none_iff_forall_ne_some]
  constructor
  · intro hno m hm
    exact hno ⟨.functionName, m⟩ ((ownName?_eq_some_iff hkind).mpr ⟨m, rfl, hm⟩)
  · intro hno d hd
    obtain ⟨m, -, hm⟩ := (ownName?_eq_some_iff hkind).mp hd
    exact hno m hm

theorem mem_parameterNames_iff {list : Nat} (hkind : t.kind s = .functionDefinition)
    (hlist : t.parameterList? s = some list) :
    m ∈ t.called w (((t.preorder list).filter fun i => t.kind i == .parameterDeclaration).flatMap
      (t.namesThrough Chain.ofParameters)) ↔ t.IsParameterName w s m := by
  rw [mem_called_iff, IsParameterName]
  constructor
  · rintro ⟨htext, owner, howner, chain, hchain, hm⟩
    obtain ⟨hmem, howner⟩ := List.mem_filter.mp howner
    rw [eq_of_beq howner] at hm
    exact ⟨hkind, htext, list, owner, chain, hlist, mem_preorder_iff.mp hmem,
      Chain.mem_ofParameters_iff.mp hchain, hm⟩
  · rintro ⟨-, htext, list', owner, chain, hlist', hencl, hchain, hm⟩
    obtain rfl : list' = list := Option.some.inj (hlist'.symm.trans hlist)
    have howner := hm.kind_owner
    refine ⟨htext, owner, ?_, chain, Chain.mem_ofParameters_iff.mpr hchain, by rw [howner]; exact hm⟩
    exact List.mem_filter.mpr ⟨mem_preorder_iff.mpr hencl, beq_iff_eq.mpr howner⟩

theorem of_findParameter? (hkind : t.kind s = .functionDefinition)
    (hd : t.findParameter? w s = some d) :
    ∃ m, d = ⟨.parameterName, m⟩ ∧ t.IsFirst (t.IsParameterName w s) m := by
  rw [findParameter?] at hd
  obtain ⟨list, hlist, hd⟩ := Option.bind_eq_some_iff.mp hd
  obtain ⟨m, hm, rfl⟩ := Option.map_eq_some_iff.mp hd
  exact ⟨m, rfl, isFirst_of_head?_inTextOrder (fun _ => mem_parameterNames_iff hkind hlist) hm⟩

theorem findParameter?_eq_none_iff (hkind : t.kind s = .functionDefinition) :
    t.findParameter? w s = none ↔ ∀ m, ¬ t.IsParameterName w s m := by
  rw [findParameter?]
  cases hlist : t.parameterList? s with
  | none =>
    refine ⟨fun _ m hm => ?_, fun _ => rfl⟩
    obtain ⟨-, -, list, _, _, hlist', -⟩ := hm
    rw [hlist] at hlist'
    cases hlist'
  | some list =>
    rw [Option.bind_eq_bind, Option.bind_some, Option.map_eq_none_iff]
    exact head?_inTextOrder_eq_none_iff fun _ => mem_parameterNames_iff hkind hlist

theorem mem_definitionsBy_iff {declaration : Nat} :
    d ∈ t.definitionsBy w declaration ↔ t.Introduces w declaration d := by
  rw [definitionsBy]
  constructor
  · intro hd
    split at hd
    · rename_i hkind
      obtain ⟨m, hm, rfl⟩ := List.mem_map.mp hd
      obtain ⟨hm, htext⟩ := List.mem_filter.mp hm
      obtain ⟨chain, hchain, hm⟩ := mem_namesThrough_iff.mp hm
      rw [hkind] at hm
      exact .byDeclaration (Chain.mem_ofVariables_iff.mp hchain) hm (eq_of_beq htext)
    · rename_i hkind
      obtain ⟨m, hm, rfl⟩ := List.mem_map.mp hd
      obtain ⟨hm, htext⟩ := List.mem_filter.mp hm
      obtain ⟨hm, hname⟩ := List.mem_filter.mp hm
      obtain ⟨hp, hf⟩ := mem_childrenOf.mp hm
      exact .byDefine hkind hp hf (eq_of_beq hname) (eq_of_beq htext)
    · cases hd
  · rintro (⟨hchain, hm, htext⟩ | ⟨hkind, hp, hf, hname, htext⟩)
    · have hkind := hm.kind_owner
      rw [hkind]
      refine List.mem_map.mpr ⟨_, List.mem_filter.mpr ⟨?_, beq_iff_eq.mpr htext⟩, rfl⟩
      exact mem_namesThrough_iff.mpr
        ⟨_, Chain.mem_ofVariables_iff.mpr hchain, by rw [hkind]; exact hm⟩
    · rw [hkind]
      refine List.mem_map.mpr ⟨_, List.mem_filter.mpr ⟨?_, beq_iff_eq.mpr htext⟩, rfl⟩
      exact List.mem_filter.mpr ⟨mem_childrenOf.mpr ⟨hp, hf⟩, beq_iff_eq.mpr hname⟩

/-- Children already stand in the order of the text. -/
theorem WellFormed.findLocal?_eq (h : t.WellFormed) : t.findLocal? w o s =
    (((t.children s).filter fun i => (t.node i).start ≤ o).flatMap (t.definitionsBy w)).head? := by
  rw [findLocal?, h.inTextOrder_children]

/-- The declaration that a scope offers first is the first one in the table. -/
theorem WellFormed.findLocal?_eq_some_iff (h : t.WellFormed) : t.findLocal? w o s = some d ↔
    ∃ declaration, t.parent declaration = some s ∧ (t.node declaration).start ≤ o ∧
      (t.definitionsBy w declaration).head? = some d ∧
      ∀ earlier < declaration, t.parent earlier = some s → t.definitionsBy w earlier = [] := by
  have hsorted : ((t.children s).filter fun i => (t.node i).start ≤ o).Pairwise (· < ·) :=
    (t.children_pairwise s).filter _
  have hmem : ∀ i, (i ∈ (t.children s).filter fun i => (t.node i).start ≤ o) ↔
      t.parent i = some s ∧ (t.node i).start ≤ o := by
    intro i
    rw [List.mem_filter, mem_children, decide_eq_true_eq]
    exact and_congr_left fun _ => ⟨And.right, fun hp => ⟨lt_size_of_parent hp, hp⟩⟩
  rw [h.findLocal?_eq, List.head?_flatMap, List.findSome?_eq_some_iff]
  constructor
  · rintro ⟨before, declaration, behind, heq, hhead, hnone⟩
    rw [heq] at hsorted hmem
    obtain ⟨hp, hstart⟩ := (hmem declaration).mp (by simp)
    refine ⟨declaration, hp, hstart, hhead, ?_⟩
    -- an earlier sibling starts no later, so it passes the filter and stands before the found one
    intro earlier hlt hearlier
    have hle := Nat.le_trans (h.start_le_start hlt hearlier hp) hstart
    rcases List.mem_append.mp ((hmem earlier).mpr ⟨hearlier, hle⟩) with hin | hin
    · exact List.head?_eq_none_iff.mp (hnone earlier hin)
    · rcases List.mem_cons.mp hin with rfl | hin
      · exact absurd hlt (Nat.lt_irrefl _)
      · have hgt := (List.pairwise_cons.mp (List.pairwise_append.mp hsorted).2.1).1 earlier hin
        exact absurd hlt (Nat.lt_asymm hgt)
  · rintro ⟨declaration, hp, hstart, hhead, hnone⟩
    obtain ⟨before, behind, heq⟩ := List.append_of_mem ((hmem declaration).mpr ⟨hp, hstart⟩)
    refine ⟨before, declaration, behind, heq, hhead, ?_⟩
    rw [heq] at hsorted hmem
    intro earlier hin
    have hlt := (List.pairwise_append.mp hsorted).2.2 earlier hin declaration (by simp)
    have hearlier := ((hmem earlier).mp (List.mem_append_left _ hin)).1
    exact List.head?_eq_none_iff.mpr (hnone earlier hlt hearlier)

theorem WellFormed.findLocal?_eq_none_iff (h : t.WellFormed) : t.findLocal? w o s = none ↔
    ∀ declaration d, t.parent declaration = some s → (t.node declaration).start ≤ o →
      ¬ t.Introduces w declaration d := by
  rw [h.findLocal?_eq, List.head?_eq_none_iff, List.eq_nil_iff_forall_not_mem]
  simp only [List.mem_flatMap, List.mem_filter, mem_children, decide_eq_true_eq,
    mem_definitionsBy_iff, not_exists, not_and]
  constructor
  · intro hnone declaration d hp hstart hd
    exact hnone d declaration ⟨⟨lt_size_of_parent hp, hp⟩, hstart⟩ hd
  · rintro hnone d declaration ⟨⟨-, hp⟩, hstart⟩ hd
    exact hnone declaration d hp hstart hd

/-- A scope's own name comes before its parameters, and these come before what is declared in it. -/
theorem definitionIn?_cases (hd : t.definitionIn? w o s = some d) :
    (∃ m, d = ⟨.functionName, m⟩ ∧ t.IsOwnName w s m) ∨
    ((∀ m, ¬ t.IsOwnName w s m) ∧
      ∃ m, d = ⟨.parameterName, m⟩ ∧ t.IsFirst (t.IsParameterName w s) m) ∨
    ((∀ m, ¬ t.IsOwnName w s m) ∧ (∀ m, ¬ t.IsParameterName w s m) ∧
      t.findLocal? w o s = some d) := by
  rw [definitionIn?] at hd
  by_cases hkind : t.kind s = .functionDefinition
  · rw [if_pos hkind, Option.or_assoc] at hd
    rcases Option.or_eq_some_iff.mp hd with hown | ⟨hown, hd⟩
    · exact Or.inl ((ownName?_eq_some_iff hkind).mp hown)
    · have hno := (ownName?_eq_none_iff hkind).mp hown
      rcases Option.or_eq_some_iff.mp hd with hparameter | ⟨hparameter, hlocal⟩
      · exact Or.inr (Or.inl ⟨hno, of_findParameter? hkind hparameter⟩)
      · exact Or.inr (Or.inr ⟨hno, (findParameter?_eq_none_iff hkind).mp hparameter, hlocal⟩)
  · -- a scope that is no function definition has neither a name nor parameters
    rw [if_neg hkind, Option.none_or] at hd
    exact Or.inr (Or.inr ⟨fun m hm => hkind hm.1, fun m hm => hkind hm.1, hd⟩)

theorem WellFormed.definitionIn?_eq_none_iff (h : t.WellFormed) :
    t.definitionIn? w o s = none ↔ ¬ t.Offers w o s := by
  have hlocal := @WellFormed.findLocal?_eq_none_iff t s o w h
  rw [definitionIn?, Offers, not_or, not_or, Option.or_eq_none_iff, hlocal]
  simp only [not_exists, not_and]
  by_cases hkind : t.kind s = .functionDefinition
  · rw [if_pos hkind, Option.or_eq_none_iff, ownName?_eq_none_iff hkind,
      findParameter?_eq_none_iff hkind, and_assoc]
  · rw [if_neg hkind]
    constructor
    · rintro ⟨-, hnone⟩
      exact ⟨fun m hm => hkind hm.1, fun m hm => hkind hm.1, hnone⟩
    · rintro ⟨-, -, hnone⟩
      exact ⟨rfl, hnone⟩

theorem Introduces.name (hd : t.Introduces w i d) :
    t.kind d.name = .identifier ∧ t.text d.name = w ∧ i ∈ t.ancestors d.name := by
  cases hd with
  | byDeclaration _ hm htext =>
    obtain ⟨inner, hinner, -⟩ := hm.exists_between
    exact ⟨hm.kind_name, htext, by simp [hinner]⟩
  | byDefine _ hp _ hname htext =>
    exact ⟨hname, htext, mem_ancestors_iff.mpr ⟨i, hp, Or.inl rfl⟩⟩

theorem WellFormed.introduces_of_findLocal? (h : t.WellFormed) (hd : t.findLocal? w o s = some d) :
    ∃ declaration, t.parent declaration = some s ∧ (t.node declaration).start ≤ o ∧
      t.Introduces w declaration d ∧ t.IsFirst (fun i => t.parent i = some s ∧
        ∃ d', t.Introduces w i d') declaration := by
  obtain ⟨declaration, hp, hstart, hhead, hnone⟩ := h.findLocal?_eq_some_iff.mp hd
  have hintro : t.Introduces w declaration d :=
    mem_definitionsBy_iff.mp (List.mem_of_head? hhead)
  refine ⟨declaration, hp, hstart, hintro, ⟨hp, d, hintro⟩, ?_⟩
  rintro other ⟨hother, d', hd'⟩
  rcases Nat.lt_trichotomy other declaration with hlt | rfl | hgt
  · have hmem := mem_definitionsBy_iff.mpr hd'
    rw [hnone other hlt hother] at hmem
    cases hmem
  · exact Nat.le_refl _
  · exact h.start_le_start hgt hp hother

/-! ## What a name means -/

/-- Of the scopes around `n`, none inside `s` offers the name at `n`. -/
def IsInnermost (t : SyntaxTree) (n s : Nat) : Prop :=
  s ∈ t.ancestors n ∧ ∀ a ∈ t.ancestors n, s ∈ t.ancestors a →
    ¬ t.Offers (t.text n) (t.node n).start a

/-- The definitions that the name at `n` can mean: the first one in the innermost scope that offers
    the name, or else the first function of that name in the document. -/
inductive ScopedBy (t : SyntaxTree) (n : Nat) : Definition → Prop where
  | ownName {s m : Nat} (hscope : t.IsInnermost n s) (hname : t.IsOwnName (t.text n) s m) :
      ScopedBy t n ⟨.functionName, m⟩
  | parameter {s m : Nat} (hscope : t.IsInnermost n s)
      (hown : ∀ m', ¬ t.IsOwnName (t.text n) s m')
      (hname : t.IsFirst (t.IsParameterName (t.text n) s) m) :
      ScopedBy t n ⟨.parameterName, m⟩
  | declared {s declaration : Nat} {d : Definition} (hscope : t.IsInnermost n s)
      (hown : ∀ m', ¬ t.IsOwnName (t.text n) s m')
      (hparameter : ∀ m', ¬ t.IsParameterName (t.text n) s m')
      (hstart : (t.node declaration).start ≤ (t.node n).start)
      (hname : t.Introduces (t.text n) declaration d)
      (hfirst : t.IsFirst (fun i => t.parent i = some s ∧ ∃ d', t.Introduces (t.text n) i d')
        declaration) :
      ScopedBy t n d
  | function {m : Nat} (hscopes : ∀ s ∈ t.ancestors n, ¬ t.Offers (t.text n) (t.node n).start s)
      (hname : t.IsFirst (t.NamesFunction (t.text n)) m) :
      ScopedBy t n ⟨.functionName, m⟩

theorem ScopedBy.name (hd : t.ScopedBy n d) :
    t.kind d.name = .identifier ∧ t.text d.name = t.text n := by
  cases hd with
  | ownName _ hname =>
    obtain ⟨-, hm, htext⟩ := hname
    obtain ⟨_, -, -, hkind⟩ := functionName?_eq_some_iff.mp hm
    exact ⟨hkind, htext⟩
  | parameter _ _ hname =>
    obtain ⟨⟨-, htext, _, _, _, _, _, _, hm⟩, -⟩ := hname
    exact ⟨hm.kind_name, htext⟩
  | declared _ _ _ _ hname _ => exact ⟨hname.name.1, hname.name.2.1⟩
  | function _ hname =>
    obtain ⟨⟨htext, _, _, _, hm⟩, -⟩ := hname
    exact ⟨hm.kind_name, htext⟩

theorem resolve?_of_isCallee_eq_false (hn : t.isCallee n = false) : t.resolve? n =
    ((t.ancestors n).findSome? (t.definitionIn? (t.text n) (t.node n).start)).or
      (t.findFunction? (t.text n)) := by
  rw [resolve?, if_neg (by simp [hn])]

theorem WellFormed.isInnermost_of_append (h : t.WellFormed) {before behind : List Nat}
    (heq : t.ancestors n = before ++ s :: behind)
    (hnone : ∀ a ∈ before, t.definitionIn? (t.text n) (t.node n).start a = none) :
    t.IsInnermost n s := by
  refine ⟨by simp [heq], ?_⟩
  intro a ha hsa
  -- the places of enclosing nodes go down on the way up: what `s` encloses stands before it
  have hlt := lt_of_mem_ancestors hsa
  have hsorted := t.ancestors_pairwise n
  rw [heq] at ha hsorted
  refine h.definitionIn?_eq_none_iff.mp (hnone a ?_)
  rcases List.mem_append.mp ha with ha | ha
  · exact ha
  · rcases List.mem_cons.mp ha with rfl | ha
    · exact absurd hlt (Nat.lt_irrefl _)
    · have hgt := (List.pairwise_cons.mp (List.pairwise_append.mp hsorted).2.1).1 a ha
      exact absurd hlt (Nat.lt_asymm hgt)

theorem WellFormed.scopedBy_of_definitionIn? (h : t.WellFormed) (hscope : t.IsInnermost n s)
    (hd : t.definitionIn? (t.text n) (t.node n).start s = some d) : t.ScopedBy n d := by
  rcases definitionIn?_cases hd with
    ⟨m, rfl, hname⟩ | ⟨hown, m, rfl, hname⟩ | ⟨hown, hparameter, hlocal⟩
  · exact .ownName hscope hname
  · exact .parameter hscope hown hname
  · obtain ⟨declaration, -, hstart, hintro, hfirst⟩ := h.introduces_of_findLocal? hlocal
    exact .declared hscope hown hparameter hstart hintro hfirst

theorem WellFormed.findSome?_definitionIn?_eq_none_iff (h : t.WellFormed) :
    (t.ancestors n).findSome? (t.definitionIn? w o) = none ↔
      ∀ s ∈ t.ancestors n, ¬ t.Offers w o s := by
  rw [List.findSome?_eq_none_iff]
  exact forall₂_congr fun s _ => h.definitionIn?_eq_none_iff

theorem WellFormed.scopedBy_of_resolve? (h : t.WellFormed) (hn : t.isCallee n = false)
    (hd : t.resolve? n = some d) : t.ScopedBy n d := by
  rw [resolve?_of_isCallee_eq_false hn] at hd
  rcases Option.or_eq_some_iff.mp hd with hd | ⟨hnone, hd⟩
  · obtain ⟨before, s, behind, heq, hd, hnone⟩ := List.findSome?_eq_some_iff.mp hd
    exact h.scopedBy_of_definitionIn? (h.isInnermost_of_append heq hnone) hd
  · obtain ⟨m, rfl, hfirst⟩ := h.of_findFunction? hd
    exact .function (h.findSome?_definitionIn?_eq_none_iff.mp hnone) hfirst

theorem WellFormed.resolve?_eq_none_iff (h : t.WellFormed) (hn : t.isCallee n = false) :
    t.resolve? n = none ↔
      (∀ s ∈ t.ancestors n, ¬ t.Offers (t.text n) (t.node n).start s) ∧
        ∀ m, ¬ t.NamesFunction (t.text n) m := by
  rw [resolve?_of_isCallee_eq_false hn, Option.or_eq_none_iff,
    h.findSome?_definitionIn?_eq_none_iff, h.findFunction?_eq_none_iff]

/-- The definition of a name that is not called is the one of the innermost scope that offers the
    name: its own name before its parameters, these before its declarations, and of several the
    first one; without such a scope it is the first function of that name. A name has no definition
    only if there is neither. -/
theorem resolve?_follows_scopes (t : SyntaxTree) (h : t.WellFormed) (n : Nat)
    (hn : t.isCallee n = false) :
    (∀ d, t.resolve? n = some d →
      t.kind d.name = .identifier ∧ t.text d.name = t.text n ∧ t.ScopedBy n d) ∧
    (t.resolve? n = none ↔
      (∀ s ∈ t.ancestors n, ¬ t.Offers (t.text n) (t.node n).start s) ∧
        ∀ m, ¬ t.NamesFunction (t.text n) m) := by
  refine ⟨?_, h.resolve?_eq_none_iff hn⟩
  intro d hd
  have hscoped := h.scopedBy_of_resolve? hn hd
  obtain ⟨hkind, htext⟩ := hscoped.name
  exact ⟨hkind, htext, hscoped⟩

/-- A definition of each kind, and uses of all of them: a `#define` line, a function with a comment above
    it, two parameters, and an array with the name of the second one. -/
def fourDefinitions : SyntaxTree where
  source := Bytes.ofString ("#define STEP 2\n// Adds up.\nInteger Sum(Integer n, Integer a) \x7b\n" ++
    "    Integer a[2];\n    Sum(n, STEP);\n    a;\n\x7d\nvoid f() \x7b\n    Sum;\n\x7d\n")
  nodes := #[⟨.translationUnit, none, 0, 130, none⟩, ⟨.preprocDef, none, 0, 15, some 0⟩,
    ⟨.other "#define", none, 0, 7, some 1⟩, ⟨.identifier, some .name, 8, 12, some 1⟩,
    ⟨.other "preproc_arg", some (.other "value"), 13, 14, some 1⟩, ⟨.comment, none, 15, 26, some 0⟩,
    ⟨.functionDefinition, none, 27, 107, some 0⟩,
    ⟨.other "type_identifier", some .type, 27, 34, some 6⟩,
    ⟨.functionDeclarator, some .declarator, 35, 60, some 6⟩,
    ⟨.identifier, some .declarator, 35, 38, some 8⟩,
    ⟨parameterListKind, some .parameters, 38, 60, some 8⟩, ⟨.openParen, none, 38, 39, some 10⟩,
    ⟨.parameterDeclaration, none, 39, 48, some 10⟩,
    ⟨.other "type_identifier", some .type, 39, 46, some 12⟩,
    ⟨.identifier, some .declarator, 47, 48, some 12⟩, ⟨.comma, none, 48, 49, some 10⟩,
    ⟨.parameterDeclaration, none, 50, 59, some 10⟩,
    ⟨.other "type_identifier", some .type, 50, 57, some 16⟩,
    ⟨.identifier, some .declarator, 58, 59, some 16⟩, ⟨.closeParen, none, 59, 60, some 10⟩,
    ⟨.compoundStatement, some .body, 61, 107, some 6⟩, ⟨.other "\x7b", none, 61, 62, some 20⟩,
    ⟨.declaration, none, 67, 80, some 20⟩, ⟨.other "type_identifier", some .type, 67, 74, some 22⟩,
    ⟨.arrayDeclarator, some .declarator, 75, 79, some 22⟩,
    ⟨.identifier, some .declarator, 75, 76, some 24⟩, ⟨.other "[", none, 76, 77, some 24⟩,
    ⟨.other "number_literal", some (.other "size"), 77, 78, some 24⟩,
    ⟨.other "]", none, 78, 79, some 24⟩, ⟨.other ";", none, 79, 80, some 22⟩,
    ⟨.other "expression_statement", none, 85, 98, some 20⟩,
    ⟨.callExpression, none, 85, 97, some 30⟩, ⟨.identifier, some .function, 85, 88, some 31⟩,
    ⟨.argumentList, some (.other "arguments"), 88, 97, some 31⟩,
    ⟨.openParen, none, 88, 89, some 33⟩, ⟨.identifier, none, 89, 90, some 33⟩,
    ⟨.comma, none, 90, 91, some 33⟩, ⟨.identifier, none, 92, 96, some 33⟩,
    ⟨.closeParen, none, 96, 97, some 33⟩, ⟨.other ";", none, 97, 98, some 30⟩,
    ⟨.other "expression_statement", none, 103, 105, some 20⟩,
    ⟨.identifier, none, 103, 104, some 40⟩, ⟨.other ";", none, 104, 105, some 40⟩,
    ⟨.closeBrace, none, 106, 107, some 20⟩, ⟨.functionDefinition, none, 108, 129, some 0⟩,
    ⟨.other "primitive_type", some .type, 108, 112, some 44⟩,
    ⟨.functionDeclarator, some .declarator, 113, 116, some 44⟩,
    ⟨.identifier, some .declarator, 113, 114, some 46⟩,
    ⟨parameterListKind, some .parameters, 114, 116, some 46⟩, ⟨.openParen, none, 114, 115, some 48⟩,
    ⟨.closeParen, none, 115, 116, some 48⟩, ⟨.compoundStatement, some .body, 117, 129, some 44⟩,
    ⟨.other "\x7b", none, 117, 118, some 51⟩,
    ⟨.other "expression_statement", none, 123, 127, some 51⟩,
    ⟨.identifier, none, 123, 126, some 53⟩, ⟨.other ";", none, 126, 127, some 53⟩,
    ⟨.closeBrace, none, 128, 129, some 51⟩]
  linksBack := by decide

theorem fourDefinitions_wellFormed : fourDefinitions.WellFormed := by decide +kernel

/-- Names of that document, each with the definition it means. In the order of the list: a called
    function, a parameter, a `#define` name, a variable, and a function in another one and at its own
    definition. -/
def fourDefinitionsUses : List (Nat × Definition) :=
  [(32, ⟨.functionName, 9⟩), (35, ⟨.parameterName, 14⟩), (37, ⟨.defineName, 3⟩),
    (41, ⟨.variableName, 25⟩), (54, ⟨.functionName, 9⟩), (9, ⟨.functionName, 9⟩)]

theorem fourDefinitions_resolve? :
    ∀ u ∈ fourDefinitionsUses, fourDefinitions.resolve? u.1 = some u.2 := by
  unfold resolve? definitionIn?
  simp only [fourDefinitions_wellFormed.findLocal?_eq]
  decide +kernel

theorem resolve?_follows_scopes_fourDefinitions : fourDefinitions.WellFormed ∧
    ∀ u ∈ fourDefinitionsUses, u.1 ≠ 32 → fourDefinitions.isCallee u.1 = false ∧
      fourDefinitions.resolve? u.1 = some u.2 ∧ fourDefinitions.ScopedBy u.1 u.2 := by
  have hcallee : ∀ u ∈ fourDefinitionsUses, u.1 ≠ 32 → fourDefinitions.isCallee u.1 = false := by
    decide
  refine ⟨fourDefinitions_wellFormed, ?_⟩
  intro u hu hne
  obtain ⟨hfound, -⟩ :=
    resolve?_follows_scopes fourDefinitions fourDefinitions_wellFormed u.1 (hcallee u hu hne)
  obtain ⟨-, -, hscoped⟩ := hfound _ (fourDefinitions_resolve? u hu)
  exact ⟨hcallee u hu hne, fourDefinitions_resolve? u hu, hscoped⟩

end TwelveD.SyntaxTree
