import TwelveD.Layout.Basic
import TwelveD.Tree.Declarator

/-!
# Headings of function definitions

There is one space between type and declarator and before the body, no space behind the opening
parenthesis and before a comma, one space behind a comma, and one between a parameter's type and
name. A body or parameter that starts a row is indented instead.
-/

namespace TwelveD.SyntaxTree

/-- No space. -/
def noSpace : Bytes := []

/-- One space. -/
def oneSpace : Bytes := [Bytes.space]

/-- Whether one node ends on the row on which the other starts. -/
def meetInRow (t : SyntaxTree) (left right : Nat) : Bool :=
  (t.span left).stop.row == (t.span right).start.row

/-- One space between two nodes of one row; if the second one starts a later row, its indentation. -/
def spaceOrIndent? (t : SyntaxTree) (left right width : Nat) : Option Edit :=
  if t.meetInRow left right then t.respace? left right oneSpace else t.reindent? right width

/-- Whether a node is a `&` that the grammar has no place for: it marks a parameter that is passed by
    reference and belongs to the name behind it. -/
def isReferenceMark (t : SyntaxTree) (i : Nat) : Bool := t.kind i == .error && t.text i == "&"

/-- The edits between the type and the name of a parameter. -/
def parameterEdits (t : SyntaxTree) (parameter : Nat) : List Edit :=
  match t.child? parameter .type, t.child? parameter .declarator with
  | some type, some name =>
    match (t.previousSibling? name).filter t.isReferenceMark with
    | some mark => (t.respace? type mark oneSpace).toList ++ (t.respace? mark name noSpace).toList
    | none => (t.respace? type name oneSpace).toList
  | _, _ => []

/-- The edit between two neighbours in a parameter list; `width` is the indentation of a parameter
    that starts a row. -/
def parameterGapEdit? (t : SyntaxTree) (width left right : Nat) : Option Edit :=
  match t.kind left, t.kind right with
  | .openParen, .parameterDeclaration => t.respace? left right noSpace
  | .parameterDeclaration, .comma => t.respace? left right noSpace
  | .comma, .parameterDeclaration => t.spaceOrIndent? left right width
  | _, _ => none

/-- The edits for the members of a parameter list, each behind the one before it. -/
def parameterListEdits (t : SyntaxTree) (width : Nat) (previous : Option Nat) :
    List Nat → List Edit
  | [] => []
  | i :: rest =>
    (previous.bind fun p => t.parameterGapEdit? width p i).toList ++
      (if t.kind i = .parameterDeclaration then t.parameterEdits i else []) ++
      t.parameterListEdits width (some i) rest

/-- The edits for the heading of a function definition. -/
def headingEdits (t : SyntaxTree) (definition : Nat) : List Edit :=
  match t.child? definition .declarator with
  | none => []
  | some declarator =>
    let depth := t.blockDepth definition
    let type := (t.child? definition .type).bind fun type => t.respace? type declarator oneSpace
    let body := (t.child? definition .body).bind fun body =>
      t.spaceOrIndent? declarator body (depth * indentWidth)
    let list := (t.functionDeclarator? definition).bind fun d => t.child? d .parameters
    let parameters := (list.map t.children).getD []
    type.toList ++ body.toList ++ t.parameterListEdits ((depth + 1) * indentWidth) none parameters

/-- The edits for the headings of all function definitions. -/
def allHeadingEdits (t : SyntaxTree) : List Edit :=
  (t.allNodes.filter fun i => t.kind i == .functionDefinition).flatMap t.headingEdits

end TwelveD.SyntaxTree
