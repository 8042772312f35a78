import TwelveD.Json.Basic
import TwelveD.Names.Description

/-!
# Completion

What may be typed at a point. Nothing is offered where a new name is being made up. At the top of a
document these are keywords and types, and inside it also the names that are visible there and the
library functions.
-/

namespace TwelveD

/-- How a text is to be shown. -/
inductive Markup where
  | plaintext
  | markdown
  deriving DecidableEq, Repr

/-- A description of a completion item. -/
inductive Documentation where
  | text (value : String)
  | markup (kind : Markup) (value : String)
  deriving DecidableEq, Repr

/-- Something that may be typed. -/
structure CompletionItem where
  /-- The word to type. -/
  label : String
  /-- The number of the item's class. -/
  kind : Option Int
  /-- More about the item, on one line. -/
  detail : Option String
  /-- A description of the item. -/
  documentation : Option Documentation
  /-- Other fields of an item that came from a client; they are only handed back. -/
  rest : List (String × Json) := []

namespace CompletionItem

/-- The class of functions. -/
def functionClass : Int := 3

/-- The class of variables. -/
def variableClass : Int := 6

/-- The class of types. -/
def typeClass : Int := 7

/-- The class of keywords. -/
def keywordClass : Int := 14

/-- A keyword. -/
def ofKeyword (word : String) : CompletionItem := ⟨word, some keywordClass, none, none, []⟩

/-- A built-in type. -/
def ofType (name : String) : CompletionItem := ⟨name, some typeClass, none, none, []⟩

/-- A library function. -/
def ofLibrary (f : LibraryFunction) : CompletionItem :=
  ⟨f.name, some functionClass, some f.signature, none, []⟩

/-- All keywords and types. -/
def keywordsAndTypes : List CompletionItem :=
  Vocabulary.keywords.map ofKeyword ++ Vocabulary.types.map ofType

/-- All items that do not depend on a document. -/
def vocabulary : List CompletionItem := keywordsAndTypes ++ Vocabulary.library.map ofLibrary

/-- An item with the documentation of the library function it names, unless it has one already. -/
def withDocumentation (item : CompletionItem) : CompletionItem :=
  match item.documentation, Vocabulary.libraryFunction? item.label with
  | none, some f => { item with documentation := some (.markup .markdown f.documentation) }
  | _, _ => item

/-- The items without those whose label stands in `seen` or on an earlier item. -/
def distinct (seen : List String) : List CompletionItem → List CompletionItem
  | [] => []
  | item :: items =>
    if item.label ∈ seen then distinct seen items
    else item :: distinct (item.label :: seen) items

end CompletionItem

namespace SyntaxTree

/-! ## Names that are visible from a node -/

/-- A declared variable or parameter as an item. -/
def variableItem (t : SyntaxTree) (name : Nat) : CompletionItem :=
  ⟨t.text name, some CompletionItem.variableClass, t.declaredType? name, none, []⟩

/-- A function definition as an item. -/
def functionItem? (t : SyntaxTree) (definition : Nat) : Option CompletionItem := do
  let name ← t.functionName? definition
  some ⟨t.text name, some CompletionItem.functionClass, t.functionSignature? definition,
    (t.docComment? definition).map (.markup .plaintext), []⟩

/-- The names of a function definition's parameters. -/
def parameterNames (t : SyntaxTree) (definition : Nat) : List Nat :=
  match t.parameterList? definition with
  | none => []
  | some list =>
    ((t.children list).filter fun c => t.kind c == .parameterDeclaration).filterMap fun p => do
      t.declaredName? (← t.child? p .declarator)

/-- The items for what one declaration or function definition declares. -/
def itemsOf (t : SyntaxTree) (i : Nat) : List CompletionItem :=
  match t.kind i with
  | .declaration => ((t.childrenOf i .declarator).filterMap t.declaredName?).map t.variableItem
  | .functionDefinition => (t.functionItem? i).toList
  | _ => []

/-- The items that a scope offers to a node on row `row`: the parameters, if the scope is a function
    definition, and what is declared in the scope on earlier rows. -/
def itemsIn (t : SyntaxTree) (row scope : Nat) : List CompletionItem :=
  let parameters :=
    if t.kind scope = .functionDefinition then (t.parameterNames scope).map t.variableItem else []
  let earlier := (t.children scope).takeWhile fun c => (t.span c).start.row < row
  parameters ++ earlier.flatMap t.itemsOf

/-- The declarations that are visible from a node. Inner names come first and hide outer ones. -/
def reachableItems (t : SyntaxTree) (i : Nat) : List CompletionItem :=
  CompletionItem.distinct [] ((t.ancestors i).flatMap (t.itemsIn (t.span i).start.row))

/-! ## The place of the cursor -/

/-- The outermost node with the same span as `i` that encloses `i`. -/
def widen (t : SyntaxTree) (i : Nat) : Nat :=
  match h : t.parent i with
  | none => i
  | some p =>
    have := parent_lt h
    if t.span p = t.span i then t.widen p else i
termination_by i

/-- The node at a cursor, widened over wrappers that cover the same text. -/
def cursorNode (t : SyntaxTree) (p : Point) : Nat := t.widen ((t.nodeAt? p).getD root)

/-- Whether a node stands in a declaration itself, or is the declarator of a wrapping declarator
    that does. -/
def isDeclarationName (t : SyntaxTree) (i : Nat) : Bool :=
  match h : t.parent i with
  | none => false
  | some p =>
    have := parent_lt h
    if t.kind p = .declaration then true
    else if wrapsDeclarator (t.kind p) ∧ t.child? p .declarator = some i then t.isDeclarationName p
    else false
termination_by i

/-- Whether a node is what a function declarator declares. -/
def isFunctionName (t : SyntaxTree) (i : Nat) : Bool :=
  (t.parent i).any fun p => t.kind p == .functionDeclarator && t.child? p .declarator == some i

/-- What may be typed at the node under a cursor. -/
def itemsAtNode (t : SyntaxTree) (i : Nat) : List CompletionItem :=
  if t.isDeclarationName i || t.isFunctionName i then []
  else if i = root ∨ t.parent i = some root then CompletionItem.keywordsAndTypes
  else t.reachableItems i ++ CompletionItem.vocabulary

/-- What may be typed at a point. -/
def itemsAt (t : SyntaxTree) (p : Point) : List CompletionItem := t.itemsAtNode (t.cursorNode p)

end SyntaxTree

end TwelveD
