import TwelveD.Proofs.Declarators

/-!
# Texts that are shown of declarations

What is shown of a declaration is put together from parts of the document. A parameter is shown by its
type and its declarator, `IsParameterText`, a function by its type, its name and its parameters,
`IsHeading`, and by the comment above it, `IsCommentAbove`. The functions that look for these parts
find them wherever they exist.
-/

namespace TwelveD.SyntaxTree

variable {t : SyntaxTree} {i c m p definition list : Nat} {text : String}

/-! ## Parameters -/

/-- A parameter is shown by its type and its declarator, with a space between them. -/
def IsParameterText (t : SyntaxTree) (p : Nat) (text : String) : Prop :=
  ∃ type declarator, t.child? p .type = some type ∧ t.child? p .declarator = some declarator ∧
    text = t.text type ++ " " ++ t.text declarator

/-- The parameters in a list that have a type and a declarator, in the order of the list. -/
def completeParameters (t : SyntaxTree) (list : Nat) : List Nat :=
  (t.children list).filter fun p => t.kind p == .parameterDeclaration &&
    (t.child? p .type).isSome && (t.child? p .declarator).isSome

theorem parameterSignature?_eq_some_iff :
    t.parameterSignature? p = some text ↔ t.IsParameterText p text := by
  rw [parameterSignature?, IsParameterText]
  constructor
  · intro h
    obtain ⟨type, htype, h⟩ := Option.bind_eq_some_iff.mp h
    obtain ⟨declarator, hdeclarator, h⟩ := Option.bind_eq_some_iff.mp h
    exact ⟨type, declarator, htype, hdeclarator, (Option.some.inj h).symm⟩
  · rintro ⟨type, declarator, htype, hdeclarator, rfl⟩
    simp [htype, hdeclarator]

theorem isSome_parameterSignature? (t : SyntaxTree) (p : Nat) : (t.parameterSignature? p).isSome =
    ((t.child? p .type).isSome && (t.child? p .declarator).isSome) := by
  rw [parameterSignature?]
  cases t.child? p .type with
  | none => rfl
  | some type =>
    cases t.child? p .declarator with
    | none => rfl
    | some declarator => rfl

/-- What a partial function gives on a list are its values where it has one. -/
theorem filterMap_eq_iff_forall₂ {f : Nat → Option String} {xs : List Nat} {texts : List String} :
    xs.filterMap f = texts ↔
      List.Forall₂ (fun x text => f x = some text) (xs.filter fun x => (f x).isSome) texts := by
  induction xs generalizing texts with
  | nil => simp [eq_comm]
  | cons x xs ih =>
    cases hx : f x with
    | none => rw [List.filterMap_cons_none hx, List.filter_cons_of_neg (by simp [hx]), ih]
    | some first =>
      rw [List.filterMap_cons_some hx, List.filter_cons_of_pos (by simp [hx]),
        List.forall₂_cons_left_iff]
      constructor
      · rintro rfl
        exact ⟨first, _, hx, ih.mp rfl, rfl⟩
      · rintro ⟨first', rest, hfirst', hrest, rfl⟩
        rw [ih.mpr hrest, Option.some.inj (hx.symm.trans hfirst')]

/-- The texts of the parameters in a list. -/
theorem filterMap_parameterSignature?_eq_iff {texts : List String} :
    ((t.children list).filter fun p => t.kind p == .parameterDeclaration).filterMap
      t.parameterSignature? = texts ↔
    List.Forall₂ t.IsParameterText (t.completeParameters list) texts := by
  rw [filterMap_eq_iff_forall₂, List.filter_filter, completeParameters]
  simp only [parameterSignature?_eq_some_iff, isSome_parameterSignature?, Bool.and_comm,
    Bool.and_assoc]

/-! ## Headings -/

/-- The heading of a function definition on one line: the type, the name `m` and, in parentheses and with
    commas between them, the parameters. -/
def IsHeading (t : SyntaxTree) (definition m : Nat) (text : String) : Prop :=
  ∃ (type declarator list : Nat) (parameters : List String),
    t.child? definition .type = some type ∧ t.parent m = some declarator ∧
    t.child? declarator .parameters = some list ∧
    List.Forall₂ t.IsParameterText (t.completeParameters list) parameters ∧
    text = t.text type ++ " " ++ t.text m ++ "(" ++ ", ".intercalate parameters ++ ")"

theorem functionSignature?_eq_some_iff (hname : t.functionName? definition = some m) :
    t.functionSignature? definition = some text ↔ t.IsHeading definition m text := by
  obtain ⟨declarator, hdeclarator, hchild, -⟩ := functionName?_eq_some_iff.mp hname
  rw [functionSignature?, IsHeading]
  simp only [hdeclarator, hchild, parent_of_child? hchild, Option.bind_eq_bind, Option.bind_some]
  constructor
  · intro h
    obtain ⟨type, htype, h⟩ := Option.bind_eq_some_iff.mp h
    obtain ⟨list, hlist, h⟩ := Option.bind_eq_some_iff.mp h
    exact ⟨type, declarator, list, _, htype, rfl, hlist, filterMap_parameterSignature?_eq_iff.mp rfl,
      (Option.some.inj h).symm⟩
  · rintro ⟨type, declarator', list, parameters, htype, heq, hlist, hparameters, rfl⟩
    obtain rfl := Option.some.inj heq
    rw [htype, Option.bind_some, hlist, Option.bind_some,
      filterMap_parameterSignature?_eq_iff.mpr hparameters]

/-! ## Comments -/

/-- The comment right before a definition ends on the row above it and says `text`. -/
def IsCommentAbove (t : SyntaxTree) (definition : Nat) (text : String) : Prop :=
  ∃ comment, t.IsRightBefore comment definition ∧ t.kind comment = .comment ∧
    (t.span comment).stop.row + 1 = (t.span definition).start.row ∧
    text = Comment.body (t.text comment) ∧ text ≠ ""

theorem IsCommentAbove.ne_empty (h : t.IsCommentAbove definition text) : text ≠ "" := by
  obtain ⟨_, -, -, -, -, hne⟩ := h
  exact hne

theorem docComment?_eq_some_iff :
    t.docComment? definition = some text ↔ t.IsCommentAbove definition text := by
  rw [docComment?, IsCommentAbove]
  constructor
  · intro h
    obtain ⟨comment, hcomment, h⟩ := Option.bind_eq_some_iff.mp h
    dsimp only at h
    split at h
    · rename_i hall
      obtain ⟨hkind, hrow, hne⟩ := hall
      obtain rfl := Option.some.inj h
      exact ⟨comment, previousSibling?_eq_some_iff.mp hcomment, hkind, hrow, rfl, by simpa using hne⟩
    · cases h
  · rintro ⟨comment, hcomment, hkind, hrow, rfl, hne⟩
    rw [previousSibling?_eq_some_iff.mpr hcomment, Option.bind_eq_bind, Option.bind_some,
      if_pos ⟨hkind, hrow, by simpa using hne⟩]

end TwelveD.SyntaxTree
