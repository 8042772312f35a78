import TwelveD.Names.Definition
import TwelveD.Names.Vocabulary
import TwelveD.Text.Blank
import TwelveD.Text.Pieces

/-!
# Descriptions of definitions

The text that is shown for a name: a code block with the heading of its declaration and, for
functions, what the comment above the definition says.
-/

namespace TwelveD

/-- A code block, with a description below a line if there is one. -/
def codeBlock (signature description : String) : String :=
  let block := "```12dpl\n" ++ signature ++ "\n```"
  if description.isEmpty then block else block ++ "\n---\n" ++ description

namespace LibraryFunction

/-- The documentation of a library function. -/
def documentation (f : LibraryFunction) : String := codeBlock f.signature f.summary

end LibraryFunction

namespace Comment

/-- A text without `mark` at its start, if it is there. -/
def dropStart (mark cs : List Char) : List Char :=
  if mark.isPrefixOf cs then cs.drop mark.length else cs

/-- A text without `mark` at its end, if it is there. -/
def dropEnd (mark cs : List Char) : List Char :=
  if mark.isSuffixOf cs then cs.take (cs.length - mark.length) else cs

/-- What a line of a comment says: the line without indentation and without a leading `//`. -/
def lineText (line : List Char) : List Char :=
  Text.trim (dropStart ['/', '/'] (Text.trimStart line))

/-- What a comment says, without its marks. -/
def body (comment : String) : String :=
  let inner := dropEnd ['*', '/'] (dropStart ['/', '*'] comment.toList)
  String.ofList (Text.trim (Text.joined '\n' ((Text.pieces '\n' inner).map lineText)))

end Comment

namespace SyntaxTree

/-- Type and declarator of a parameter, as written. -/
def parameterSignature? (t : SyntaxTree) (parameter : Nat) : Option String := do
  let type ← t.child? parameter .type
  let declarator ← t.child? parameter .declarator
  some (t.text type ++ " " ++ t.text declarator)

/-- The heading of a function definition on one line. -/
def functionSignature? (t : SyntaxTree) (definition : Nat) : Option String := do
  let type ← t.child? definition .type
  let declarator ← t.functionDeclarator? definition
  let name ← t.child? declarator .declarator
  let list ← t.child? declarator .parameters
  let parameters := (t.children list).filter fun c => t.kind c == .parameterDeclaration
  some (t.text type ++ " " ++ t.text name ++ "(" ++
    ", ".intercalate (parameters.filterMap t.parameterSignature?) ++ ")")

/-- What the comment that ends on the line above a definition says. -/
def docComment? (t : SyntaxTree) (definition : Nat) : Option String := do
  let comment ← t.previousSibling? definition
  let isAbove := (t.span comment).stop.row + 1 = (t.span definition).start.row
  let text := Comment.body (t.text comment)
  if t.kind comment = .comment ∧ isAbove ∧ ¬ text.isEmpty then some text else none

/-- Whether a node of this kind gives the names below it their type. -/
def givesType : Kind → Bool
  | .declaration | .parameterDeclaration | .functionDefinition => true
  | _ => false

/-- The type of a declared name, as written. -/
def declaredType? (t : SyntaxTree) (name : Nat) : Option String := do
  let owner ← (t.ancestors name).find? fun a => givesType (t.kind a)
  (t.child? owner .type).map t.text

/-- Whether an array declarator stands between a name and its declaration. -/
def isArrayName (t : SyntaxTree) (name : Nat) : Bool :=
  let inside := (t.ancestors name).takeWhile fun a =>
    t.kind a != .declaration && t.kind a != .parameterDeclaration
  inside.any fun a => t.kind a == .arrayDeclarator

/-- Type and name of a variable. -/
def variableSignature? (t : SyntaxTree) (name : Nat) : Option String := do
  let type ← t.declaredType? name
  some (type ++ " " ++ t.text name ++ if t.isArrayName name then "[]" else "")

/-- The text that describes a definition. -/
def describe? (t : SyntaxTree) (d : Definition) : Option String :=
  match d.kind with
  | .functionName => do
    let definition ← t.enclosing? d.name .functionDefinition
    let signature ← t.functionSignature? definition
    some (codeBlock signature ((t.docComment? definition).getD ""))
  | .parameterName => do
    let parameter ← t.enclosing? d.name .parameterDeclaration
    let signature ← t.parameterSignature? parameter
    some (codeBlock ("(parameter) " ++ signature) "")
  | .variableName => do
    let signature ← t.variableSignature? d.name
    some (codeBlock signature "")
  | .defineName => do
    let define ← t.enclosing? d.name .preprocDef
    some (codeBlock (String.ofList (Text.trim (t.text define).toList)) "")

/-- What is shown for an identifier: the description of its definition, or the documentation of the
    library function that it calls. -/
def identifierHelp? (t : SyntaxTree) (i : Nat) : Option String :=
  match t.resolve? i with
  | some d => t.describe? d
  | none =>
    if t.isCallee i then (Vocabulary.libraryFunction? (t.text i)).map (·.documentation) else none

end SyntaxTree

/-- What is shown for the name under a point. -/
structure Hover where
  /-- The text to show. -/
  text : String
  /-- The name that it is about. -/
  span : Span
  deriving DecidableEq, Repr

/-- What is shown at a point. -/
def SyntaxTree.hoverAt? (t : SyntaxTree) (p : Point) : Option Hover := do
  let i ← t.identifierAt? p
  let text ← t.identifierHelp? i
  some ⟨text, t.span i⟩

end TwelveD
