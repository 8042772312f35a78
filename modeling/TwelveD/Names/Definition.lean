import TwelveD.Tree.Declarator
import TwelveD.Tree.Cursor
import TwelveD.Tree.Query

/-!
# Where a name is defined

The name of a called function belongs to the first function definition with that name. Any other
name is looked for scope by scope from the inside out: a scope that is a function definition offers
its own name and its parameters, and every scope offers the variables and `#define` names that are
declared directly in it and start no later than the name in question. A name that no scope offers is
that of a function, too.

Declarators nest, and a name is only recognised behind certain chains of them (`Chain`).
-/

namespace TwelveD

/-- What kind of declaration introduces a name. -/
inductive DefinitionKind where
  | functionName
  | parameterName
  | variableName
  | defineName
  deriving DecidableEq, Repr

/-- The declaration of a name. -/
structure Definition where
  kind : DefinitionKind
  /-- The declaring identifier. -/
  name : Nat
  deriving DecidableEq, Repr

/-- The kinds of the declarators around a name, outermost first. -/
abbrev Chain := List Kind

namespace Chain

/-- The declarators around the name of a function. -/
def ofFunctions : List Chain := [[.functionDeclarator], [.pointerDeclarator, .functionDeclarator]]

/-- The declarators around the name of a parameter. -/
def ofParameters : List Chain :=
  [[], [.pointerDeclarator], [.arrayDeclarator], [.pointerDeclarator, .arrayDeclarator]]

/-- The declarators around the name of a variable. -/
def ofVariables : List Chain :=
  [[], [.initDeclarator], [.arrayDeclarator], [.initDeclarator, .arrayDeclarator]]

end Chain

namespace SyntaxTree

/-- The identifiers that are reached from `i` behind exactly the given declarators, the first of
    which is `i` itself. -/
def namesBehind (t : SyntaxTree) : Chain → Nat → List Nat
  | [], i => if t.kind i = .identifier then [i] else []
  | k :: ks, i =>
    if t.kind i = k then (t.childrenOf i .declarator).flatMap (t.namesBehind ks) else []

/-- The identifiers that a definition or declaration introduces by its declarators. -/
def namesThrough (t : SyntaxTree) (chains : List Chain) (i : Nat) : List Nat :=
  (t.childrenOf i .declarator).flatMap fun c => chains.flatMap fun chain => t.namesBehind chain c

/-- Those of some identifiers whose text is `name`. -/
def called (t : SyntaxTree) (name : String) (ids : List Nat) : List Nat :=
  ids.filter fun i => t.text i == name

/-- Whether an identifier names the function that is called. -/
def isCallee (t : SyntaxTree) (i : Nat) : Bool :=
  (t.parent i).any (fun p => t.kind p == .callExpression) && t.field i == some .function

/-- The first function definition of that name in the document. -/
def findFunction? (t : SyntaxTree) (name : String) : Option Definition :=
  let definitions := t.allNodes.filter fun i => t.kind i == .functionDefinition
  let names := t.called name (definitions.flatMap (t.namesThrough Chain.ofFunctions))
  (t.inTextOrder names).head?.map fun i => ⟨.functionName, i⟩

/-- The parameter list of a function definition. -/
def parameterList? (t : SyntaxTree) (definition : Nat) : Option Nat := do
  t.child? (← t.functionDeclarator? definition) .parameters

/-- A parameter of a function definition, or of a declarator inside its parameter list. -/
def findParameter? (t : SyntaxTree) (name : String) (definition : Nat) : Option Definition := do
  let parameters := (t.preorder (← t.parameterList? definition)).filter fun i =>
    t.kind i == .parameterDeclaration
  let names := t.called name (parameters.flatMap (t.namesThrough Chain.ofParameters))
  (t.inTextOrder names).head?.map fun i => ⟨.parameterName, i⟩

/-- A function definition's own name. -/
def ownName? (t : SyntaxTree) (name : String) (definition : Nat) : Option Definition := do
  let own ← t.functionName? definition
  if t.text own = name then some ⟨.functionName, own⟩ else none

/-- The definitions of a name by one declaration or `#define` line. -/
def definitionsBy (t : SyntaxTree) (name : String) (declaration : Nat) : List Definition :=
  match t.kind declaration with
  | .declaration =>
    (t.called name (t.namesThrough Chain.ofVariables declaration)).map (⟨.variableName, ·⟩)
  | .preprocDef =>
    let names := (t.childrenOf declaration .name).filter fun c => t.kind c == .identifier
    (t.called name names).map (⟨.defineName, ·⟩)
  | _ => []

/-- The first variable or `#define` of that name directly in a scope that starts no later than
    offset `before`. -/
def findLocal? (t : SyntaxTree) (name : String) (before scope : Nat) : Option Definition :=
  let declarations := (t.inTextOrder (t.children scope)).filter fun d => (t.node d).start ≤ before
  (declarations.flatMap (t.definitionsBy name)).head?

/-- What a name used at offset `before` means in one of the scopes around it. -/
def definitionIn? (t : SyntaxTree) (name : String) (before scope : Nat) : Option Definition :=
  let ofFunction :=
    if t.kind scope = .functionDefinition then
      (t.ownName? name scope).or (t.findParameter? name scope)
    else none
  ofFunction.or (t.findLocal? name before scope)

/-- The definition of an identifier. -/
def resolve? (t : SyntaxTree) (i : Nat) : Option Definition :=
  let name := t.text i
  if t.isCallee i then t.findFunction? name
  else
    ((t.ancestors i).findSome? (t.definitionIn? name (t.node i).start)).or (t.findFunction? name)

/-- Where the name under a point is defined. -/
def definitionAt? (t : SyntaxTree) (p : Point) : Option Span := do
  let definition ← t.resolve? (← t.identifierAt? p)
  some (t.span definition.name)

end SyntaxTree

end TwelveD
