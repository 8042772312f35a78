import TwelveD.Tree.Basic

/-!
# Declarators

A name is declared inside a chain of declarators, one for each `*`, each array size and each initial
value around it. The functions here follow such chains, always to the first child with the role
`declarator`.
-/

namespace TwelveD.SyntaxTree

theorem lt_of_child? {t : SyntaxTree} {i c : Nat} {f : Field} (h : t.child? i f = some c) :
    i < c ∧ c < t.size :=
  lt_of_mem_children (List.mem_of_find?_eq_some h)

/-- The function declarator at the end of a chain of pointer declarators that starts at `i`. -/
def functionDeclaratorFrom? (t : SyntaxTree) (i : Nat) : Option Nat :=
  match t.kind i with
  | .functionDeclarator => some i
  | .pointerDeclarator =>
    match h : t.child? i .declarator with
    | none => none
    | some c =>
      have := lt_of_child? h
      t.functionDeclaratorFrom? c
  | _ => none
termination_by t.size - i

/-- The function declarator of a function definition, behind any number of pointer declarators. -/
def functionDeclarator? (t : SyntaxTree) (definition : Nat) : Option Nat := do
  t.functionDeclaratorFrom? (← t.child? definition .declarator)

/-- The name of a function definition. -/
def functionName? (t : SyntaxTree) (definition : Nat) : Option Nat := do
  let name ← t.child? (← t.functionDeclarator? definition) .declarator
  if t.kind name = .identifier then some name else none

/-- Whether a kind wraps the declarator of a variable: by an initial value, an array size or a `*`. -/
def wrapsDeclarator : Kind → Bool
  | .initDeclarator | .arrayDeclarator | .pointerDeclarator => true
  | _ => false

/-- The identifier at the end of a chain of declarators that starts at `i`. -/
def declaredName? (t : SyntaxTree) (i : Nat) : Option Nat :=
  if t.kind i = .identifier then some i
  else if wrapsDeclarator (t.kind i) then
    match h : t.child? i .declarator with
    | none => none
    | some c =>
      have := lt_of_child? h
      t.declaredName? c
  else none
termination_by t.size - i

end TwelveD.SyntaxTree
