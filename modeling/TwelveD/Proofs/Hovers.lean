import Mathlib.Data.Bool.Basic
import TwelveD.Proofs.Scopes
import TwelveD.Proofs.ShownTexts

/-!
# Hover and definition

A description is looked for on the way up from a name. It is that of the node that introduces the
name, `Owns`, and `Describes` says what it is. Where declarations are complete there is one for every
definition: something is shown for exactly the names that have a definition, and for calls of library
functions.
-/

namespace TwelveD

theorem codeBlock_empty (signature : String) :
    codeBlock signature "" = "```12dpl\n" ++ signature ++ "\n```" := rfl

theorem codeBlock_of_ne {description : String} (h : description ≠ "") (signature : String) :
    codeBlock signature description =
      "```12dpl\n" ++ signature ++ "\n```" ++ "\n---\n" ++ description := by
  rw [codeBlock, if_neg (by simpa using h)]

namespace SyntaxTree

variable {t : SyntaxTree} {i m n owner : Nat} {chain : Chain} {d : Definition}

/-- No part is missing of what is shown of a declaration. -/
@[mk_iff]
structure CompleteDeclarations (t : SyntaxTree) : Prop where
  /-- Declarations, parameters and function definitions have a type. -/
  type : ∀ i < t.size, givesType (t.kind i) = true → (t.child? i .type).isSome
  /-- A function declarator has a name and a list of parameters. -/
  heading : ∀ i < t.size, t.kind i = .functionDeclarator →
    (t.child? i .declarator).isSome ∧ (t.child? i .parameters).isSome
  /-- Only a declaration has more than one declarator. -/
  single : t.SingleDeclarators

instance (t : SyntaxTree) : Decidable t.CompleteDeclarations :=
  decidable_of_iff' _ (completeDeclarations_iff t)

/-! ## Owners -/

/-- The node `owner` introduces the name of a definition, behind the declarators `chain`. -/
inductive Owns (t : SyntaxTree) (owner : Nat) : Chain → Definition → Prop where
  | ofFunction {m depth : Nat}
      (hname : t.Behind (.functionDefinition :: Chain.ofFunction depth) owner m) :
      Owns t owner (Chain.ofFunction depth) ⟨.functionName, m⟩
  | ofParameter {m : Nat} {chain : Chain} (hchain : chain.OfParameter)
      (hname : t.Behind (.parameterDeclaration :: chain) owner m) :
      Owns t owner chain ⟨.parameterName, m⟩
  | ofVariable {m : Nat} {chain : Chain} (hchain : chain.OfVariable)
      (hname : t.Behind (.declaration :: chain) owner m) : Owns t owner chain ⟨.variableName, m⟩
  | ofDefine {m : Nat} (hkind : t.kind owner = .preprocDef) (hparent : t.parent m = some owner)
      (hfield : t.field m = some .name) : Owns t owner [] ⟨.defineName, m⟩

theorem NamesFunction.exists_owner {w : String} (h : t.NamesFunction w m) :
    ∃ owner chain, t.Owns owner chain ⟨.functionName, m⟩ := by
  obtain ⟨-, owner, depth, -, hm⟩ := h
  exact ⟨owner, Chain.ofFunction depth, .ofFunction hm⟩

theorem ScopedBy.exists_owner (hd : t.ScopedBy n d) : ∃ owner chain, t.Owns owner chain d := by
  cases hd with
  | @ownName s m _ hname =>
    obtain ⟨hkind, hname, -⟩ := hname
    obtain ⟨depth, hm⟩ := behind_of_functionName? hname
    rw [hkind] at hm
    exact ⟨s, Chain.ofFunction depth, .ofFunction hm⟩
  | parameter _ _ hname =>
    obtain ⟨⟨-, -, _, owner, chain, -, -, hchain, hm⟩, -⟩ := hname
    exact ⟨owner, chain, .ofParameter hchain hm⟩
  | @declared s declaration d _ _ _ _ hname _ =>
    cases hname with
    | @byDeclaration m chain hchain hm _ => exact ⟨declaration, chain, .ofVariable hchain hm⟩
    | byDefine hkind hparent hfield _ _ => exact ⟨declaration, [], .ofDefine hkind hparent hfield⟩
  | function _ hname => exact hname.1.exists_owner

theorem WellFormed.exists_owner (h : t.WellFormed) (hd : t.resolve? n = some d) :
    ∃ owner chain, t.Owns owner chain d := by
  by_cases hn : t.isCallee n = true
  · rw [resolve?, if_pos hn] at hd
    obtain ⟨m, rfl, hname, -⟩ := h.of_findFunction? hd
    exact hname.exists_owner
  · exact (h.scopedBy_of_resolve? (Bool.eq_false_of_not_eq_true hn) hd).exists_owner

/-! ## What is shown of a definition -/

/-- The text that is shown of a definition, put together from the node that introduces its name: a block
    of code, and for a function what the comment above it says. -/
inductive Describes (t : SyntaxTree) (owner : Nat) (chain : Chain) : Definition → String → Prop where
  | function {m : Nat} {heading : String} (hheading : t.IsHeading owner m heading)
      (hcomment : ∀ comment, ¬ t.IsCommentAbove owner comment) :
      Describes t owner chain ⟨.functionName, m⟩ ("```12dpl\n" ++ heading ++ "\n```")
  | commentedFunction {m : Nat} {heading comment : String} (hheading : t.IsHeading owner m heading)
      (hcomment : t.IsCommentAbove owner comment) :
      Describes t owner chain ⟨.functionName, m⟩
        ("```12dpl\n" ++ heading ++ "\n```" ++ "\n---\n" ++ comment)
  | parameter {m : Nat} {text : String} (htext : t.IsParameterText owner text) :
      Describes t owner chain ⟨.parameterName, m⟩ ("```12dpl\n" ++ ("(parameter) " ++ text) ++ "\n```")
  | plainVariable {m type : Nat} (htype : t.child? owner .type = some type)
      (harray : .arrayDeclarator ∉ chain) :
      Describes t owner chain ⟨.variableName, m⟩
        ("```12dpl\n" ++ (t.text type ++ " " ++ t.text m) ++ "\n```")
  | arrayVariable {m type : Nat} (htype : t.child? owner .type = some type)
      (harray : .arrayDeclarator ∈ chain) :
      Describes t owner chain ⟨.variableName, m⟩
        ("```12dpl\n" ++ (t.text type ++ " " ++ t.text m ++ "[]") ++ "\n```")
  | define {m : Nat} :
      Describes t owner chain ⟨.defineName, m⟩
        ("```12dpl\n" ++ String.ofList (Text.trim (t.text owner).toList) ++ "\n```")

theorem enclosing?_of_behind {kind : Kind} (h : t.Behind (kind :: chain) owner m)
    (hchain : kind ∉ chain) : t.enclosing? m kind = some owner := by
  refine h.find?_ancestors (· == kind) ?_ (beq_self_eq_true kind)
  intro k hk
  refine beq_eq_false_iff_ne.mpr ?_
  rintro rfl
  exact hchain hk

theorem declaredType?_of_behind (hchain : chain.OfVariable)
    (h : t.Behind (.declaration :: chain) owner m) :
    t.declaredType? m = (t.child? owner .type).map t.text := by
  refine h.declaredType?_eq ?_ rfl
  intro k hk
  rcases hchain.kind_of_mem hk with rfl | rfl <;> rfl

theorem isArrayName_of_behind (hchain : chain.OfVariable)
    (h : t.Behind (.declaration :: chain) owner m) :
    t.isArrayName m = decide (.arrayDeclarator ∈ chain) := by
  obtain ⟨inner, hinner, hkinds⟩ := h.exists_between
  -- the walk up stops at the owner, so it sees the chain and nothing else
  have htake : (t.ancestors m).takeWhile (fun a =>
      t.kind a != .declaration && t.kind a != .parameterDeclaration) = inner := by
    rw [hinner, List.takeWhile_append_of_pos, List.takeWhile_cons_of_neg, List.append_nil]
    · simp [h.kind_owner]
    · intro a ha
      rcases hchain.kind_of_mem (Behind.kind_mem_chain hkinds ha) with hk | hk <;> rw [hk] <;> rfl
  have hmem : .arrayDeclarator ∈ chain ↔ .arrayDeclarator ∈ inner.map t.kind := by
    rw [hkinds, List.mem_reverse]
  rw [isArrayName, htake]
  simp only [hmem, List.mem_map]
  rw [Bool.eq_iff_iff, List.any_eq_true, decide_eq_true_eq]
  simp only [beq_iff_eq]

namespace CompleteDeclarations

theorem exists_functionSignature? (h : t.CompleteDeclarations) {depth : Nat}
    (hname : t.Behind (.functionDefinition :: Chain.ofFunction depth) owner m) :
    ∃ heading, t.functionSignature? owner = some heading := by
  have hkind := hname.kind_owner
  obtain ⟨type, htype⟩ := Option.isSome_iff_exists.mp
    (h.type owner hname.lt_size (by rw [hkind]; rfl))
  obtain ⟨declarator, hdeclarator, hdkind, hchild⟩ := h.single.functionDeclarator? hname
  have hlt : declarator < t.size :=
    Nat.lt_trans (lt_of_child? hchild).1 (lt_of_child? hchild).2
  obtain ⟨list, hlist⟩ := Option.isSome_iff_exists.mp (h.heading declarator hlt hdkind).2
  simp [functionSignature?, htype, hdeclarator, hchild, hlist]

theorem describes_function (h : t.CompleteDeclarations) {depth : Nat}
    (hname : t.Behind (.functionDefinition :: Chain.ofFunction depth) owner m) :
    ∃ text, t.describe? ⟨.functionName, m⟩ = some text ∧
      t.Describes owner (Chain.ofFunction depth) ⟨.functionName, m⟩ text := by
  have hno : Kind.functionDefinition ∉ Chain.ofFunction depth := by
    simp [Chain.ofFunction, List.mem_replicate]
  obtain ⟨signature, hsignature⟩ := h.exists_functionSignature? hname
  have hheading := (functionSignature?_eq_some_iff (h.single.functionName? hname)).mp hsignature
  simp only [describe?, enclosing?_of_behind hname hno, Option.bind_eq_bind, Option.bind_some,
    hsignature, Option.some.injEq, exists_eq_left']
  cases hcomment : t.docComment? owner with
  | none =>
    rw [Option.getD_none, codeBlock_empty]
    refine .function hheading ?_
    intro comment habove
    rw [docComment?_eq_some_iff.mpr habove] at hcomment
    cases hcomment
  | some comment =>
    have habove := docComment?_eq_some_iff.mp hcomment
    rw [Option.getD_some, codeBlock_of_ne habove.ne_empty]
    exact .commentedFunction hheading habove

theorem describes_parameter (h : t.CompleteDeclarations) (hchain : chain.OfParameter)
    (hname : t.Behind (.parameterDeclaration :: chain) owner m) :
    ∃ text, t.describe? ⟨.parameterName, m⟩ = some text ∧
      t.Describes owner chain ⟨.parameterName, m⟩ text := by
  have hkind := hname.kind_owner
  have hno : Kind.parameterDeclaration ∉ chain := by
    intro hmem
    rcases hchain.kind_of_mem hmem with hk | hk <;> cases hk
  have howner := enclosing?_of_behind hname hno
  obtain ⟨type, htype⟩ := Option.isSome_iff_exists.mp
    (h.type owner hname.lt_size (by rw [hkind]; rfl))
  cases hname with
  | step _ hp hf _ =>
    have hdeclarator := h.single.child?_eq_some hp hf (by rw [hkind]; decide)
    have htext : t.IsParameterText owner _ := ⟨type, _, htype, hdeclarator, rfl⟩
    have hsignature := parameterSignature?_eq_some_iff.mpr htext
    exact ⟨_, by simp only [describe?, howner, hsignature, Option.bind_eq_bind, Option.bind_some,
      codeBlock_empty], .parameter htext⟩

theorem describes_variable (h : t.CompleteDeclarations) (hchain : chain.OfVariable)
    (hname : t.Behind (.declaration :: chain) owner m) :
    ∃ text, t.describe? ⟨.variableName, m⟩ = some text ∧
      t.Describes owner chain ⟨.variableName, m⟩ text := by
  obtain ⟨type, htype⟩ := Option.isSome_iff_exists.mp
    (h.type owner hname.lt_size (by rw [hname.kind_owner]; rfl))
  simp only [describe?, variableSignature?, declaredType?_of_behind hchain hname, htype,
    isArrayName_of_behind hchain hname, Option.map_some, Option.bind_eq_bind, Option.bind_some,
    codeBlock_empty, Option.some.injEq, exists_eq_left', decide_eq_true_eq]
  by_cases harray : Kind.arrayDeclarator ∈ chain
  · rw [if_pos harray]
    exact .arrayVariable htype harray
  · rw [if_neg harray, String.append_empty]
    exact .plainVariable htype harray

/-- The way up from a name leads to its owner, and there everything is found that is shown. -/
theorem exists_describes (h : t.CompleteDeclarations) (hd : t.Owns owner chain d) :
    ∃ text, t.describe? d = some text ∧ t.Describes owner chain d text := by
  cases hd with
  | ofFunction hname => exact h.describes_function hname
  | ofParameter hchain hname => exact h.describes_parameter hchain hname
  | ofVariable hchain hname => exact h.describes_variable hchain hname
  | @ofDefine m hkind hparent hfield =>
    have howner : t.enclosing? m .preprocDef = some owner := by
      rw [enclosing?, ancestors_of_parent_eq_some hparent, List.find?_cons_of_pos]
      simp [hkind]
    exact ⟨_, by simp only [describe?, howner, Option.bind_eq_bind, Option.bind_some,
      codeBlock_empty], .define⟩

end CompleteDeclarations

/-! ## What is shown at a point -/

theorem hoverAt?_of_identifierAt? {p : Point} (hi : t.identifierAt? p = some i) :
    t.hoverAt? p = (t.identifierHelp? i).map fun text => ⟨text, t.span i⟩ := by
  rw [hoverAt?, hi, Option.bind_eq_bind, Option.bind_some]
  cases t.identifierHelp? i with
  | none => rfl
  | some text => rfl

theorem isSome_definitionAt? {p : Point} (hi : t.identifierAt? p = some i) :
    (t.definitionAt? p).isSome = (t.resolve? i).isSome := by
  rw [definitionAt?, hi, Option.bind_eq_bind, Option.bind_some]
  cases t.resolve? i with
  | none => rfl
  | some d => rfl

/-- Every definition is described by what introduces its name. -/
theorem CompleteDeclarations.exists_description (h : t.CompleteDeclarations) (hwf : t.WellFormed)
    (hd : t.resolve? i = some d) :
    ∃ text owner chain, t.identifierHelp? i = some text ∧ t.Owns owner chain d ∧
      t.Describes owner chain d text := by
  obtain ⟨owner, chain, howns⟩ := hwf.exists_owner hd
  obtain ⟨text, htext, hdescribes⟩ := h.exists_describes howns
  refine ⟨text, owner, chain, ?_, howns, hdescribes⟩
  rw [identifierHelp?, hd]
  exact htext

theorem identifierHelp?_of_resolve?_eq_none (hd : t.resolve? i = none) : t.identifierHelp? i =
    if t.isCallee i then (Vocabulary.libraryFunction? (t.text i)).map (·.documentation)
    else none := by
  rw [identifierHelp?, hd]

theorem CompleteDeclarations.isSome_identifierHelp?_iff (h : t.CompleteDeclarations)
    (hwf : t.WellFormed) : (t.identifierHelp? i).isSome ↔ (t.resolve? i).isSome ∨
      t.isCallee i = true ∧ t.resolve? i = none ∧
        (Vocabulary.libraryFunction? (t.text i)).isSome := by
  cases hd : t.resolve? i with
  | some d =>
    obtain ⟨text, -, -, htext, -⟩ := h.exists_description hwf hd
    simp [htext]
  | none =>
    rw [identifierHelp?_of_resolve?_eq_none hd]
    by_cases hcallee : t.isCallee i = true
    · rw [if_pos hcallee, Option.isSome_map]
      simp [hcallee]
    · simp [hcallee]

/-- The signature of a library function is shown as a block of code, and its summary below a line. -/
theorem documentation_eq (f : LibraryFunction) : f.documentation = "```12dpl\n" ++ f.signature ++
    "\n```" ++ if f.summary = "" then "" else "\n---\n" ++ f.summary := by
  rw [LibraryFunction.documentation]
  split
  · rename_i hempty
    rw [hempty, codeBlock_empty, String.append_empty]
  · rename_i hne
    simp only [codeBlock_of_ne hne, String.append_assoc]

/-- Something is shown at a point exactly if the name there has a definition or calls a library
    function without having one. It is about that name, and of a definition it shows what introduces
    the name. -/
theorem hover_agrees_with_definition (t : SyntaxTree) (hwf : t.WellFormed)
    (h : t.CompleteDeclarations) (p : Point) :
    ((t.hoverAt? p).isSome ↔ (t.definitionAt? p).isSome ∨
      ∃ i, t.identifierAt? p = some i ∧ t.isCallee i = true ∧ t.resolve? i = none ∧
        (Vocabulary.libraryFunction? (t.text i)).isSome) ∧
    ∀ hover, t.hoverAt? p = some hover → ∃ i, t.identifierAt? p = some i ∧ hover.span = t.span i ∧
      (∀ d, t.resolve? i = some d → ∃ owner chain, t.Owns owner chain d ∧
        t.Describes owner chain d hover.text) ∧
      (t.resolve? i = none → ∃ f, Vocabulary.libraryFunction? (t.text i) = some f ∧
        hover.text = "```12dpl\n" ++ f.signature ++ "\n```" ++
          if f.summary = "" then "" else "\n---\n" ++ f.summary) := by
  cases hi : t.identifierAt? p with
  | none =>
    have hhover : t.hoverAt? p = none := by
      rw [hoverAt?, hi]
      rfl
    have hdefinition : t.definitionAt? p = none := by
      rw [definitionAt?, hi]
      rfl
    simp [hhover, hdefinition]
  | some i =>
    rw [hoverAt?_of_identifierAt? hi, isSome_definitionAt? hi, Option.isSome_map,
      h.isSome_identifierHelp?_iff hwf]
    refine ⟨by simp, ?_⟩
    intro hover hhover
    obtain ⟨text, htext, rfl⟩ := Option.map_eq_some_iff.mp hhover
    refine ⟨i, rfl, rfl, ?_, ?_⟩
    · intro d hd
      obtain ⟨text', owner, chain, htext', howns, hdescribes⟩ := h.exists_description hwf hd
      obtain rfl := Option.some.inj (htext'.symm.trans htext)
      exact ⟨owner, chain, howns, hdescribes⟩
    · intro hd
      rw [identifierHelp?_of_resolve?_eq_none hd] at htext
      split at htext
      · obtain ⟨f, hf, rfl⟩ := Option.map_eq_some_iff.mp htext
        exact ⟨f, hf, documentation_eq f⟩
      · cases htext

theorem fourDefinitions_completeDeclarations : fourDefinitions.CompleteDeclarations := by
  decide +kernel

/-- What is shown where the names of that document are used. -/
def fourDefinitionsHovers : List (Point × Hover) :=
  [(⟨4, 5⟩, ⟨"```12dpl\nInteger Sum(Integer n, Integer a)\n```\n---\nAdds up.",
      ⟨⟨4, 4⟩, ⟨4, 7⟩⟩⟩),
    (⟨4, 8⟩, ⟨"```12dpl\n(parameter) Integer n\n```", ⟨⟨4, 8⟩, ⟨4, 9⟩⟩⟩),
    (⟨4, 12⟩, ⟨"```12dpl\n#define STEP 2\n```", ⟨⟨4, 11⟩, ⟨4, 15⟩⟩⟩),
    (⟨5, 4⟩, ⟨"```12dpl\nInteger a[]\n```", ⟨⟨5, 4⟩, ⟨5, 5⟩⟩⟩)]

theorem fourDefinitions_hoverAt? : ∀ x ∈ fourDefinitionsHovers,
    fourDefinitions.hoverAt? x.1 = some x.2 ∧ (fourDefinitions.definitionAt? x.1).isSome := by
  unfold hoverAt? identifierHelp? definitionAt? resolve? definitionIn?
  simp only [fourDefinitions_wellFormed.findLocal?_eq]
  decide +kernel

theorem hover_agrees_with_definition_fourDefinitions : fourDefinitions.WellFormed ∧
    fourDefinitions.CompleteDeclarations ∧ ∀ x ∈ fourDefinitionsHovers,
      fourDefinitions.hoverAt? x.1 = some x.2 ∧ ∃ i d owner chain,
        fourDefinitions.identifierAt? x.1 = some i ∧ fourDefinitions.resolve? i = some d ∧
        fourDefinitions.Owns owner chain d ∧ fourDefinitions.Describes owner chain d x.2.text := by
  refine ⟨fourDefinitions_wellFormed, fourDefinitions_completeDeclarations, ?_⟩
  intro x hx
  obtain ⟨hhover, hdefinition⟩ := fourDefinitions_hoverAt? x hx
  obtain ⟨i, hi, -, hshown, -⟩ := (hover_agrees_with_definition fourDefinitions
    fourDefinitions_wellFormed fourDefinitions_completeDeclarations x.1).2 x.2 hhover
  rw [isSome_definitionAt? hi] at hdefinition
  obtain ⟨d, hd⟩ := Option.isSome_iff_exists.mp hdefinition
  obtain ⟨owner, chain, howns, hdescribes⟩ := hshown d hd
  exact ⟨hhover, i, d, owner, chain, hi, hd, howns, hdescribes⟩

end SyntaxTree

end TwelveD
