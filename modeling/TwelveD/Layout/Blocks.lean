import TwelveD.Layout.Basic

/-!
# Indentation of blocks

A statement or definition that starts its row is indented by four columns for each block around it,
and the closing brace of a block by four columns for each block around that block. Blocks on one row
are left alone.
-/

namespace TwelveD.SyntaxTree

/-- The indentation of a node that stands in as many blocks as `i`. -/
def blockIndent (t : SyntaxTree) (i : Nat) : Nat := t.blockDepth i * indentWidth

/-- Whether a node is to be indented: a definition, a declaration that is no part of a loop head, or
    a compound statement, where an `if` behind an `else` counts with that `else`. -/
def isIndented (t : SyntaxTree) (i : Nat) : Bool :=
  let parentKind := (t.parent i).map t.kind
  match t.kind i with
  | .declaration => parentKind != some .forStatement
  | .ifStatement => parentKind != some .elseClause && t.field i != some .alternative
  | .whileStatement | .forStatement | .switchStatement | .functionDefinition => true
  | _ => false

/-- Whether the innermost block around a node, if there is one, takes several rows. -/
def isInOpenBlock (t : SyntaxTree) (i : Nat) : Bool :=
  (t.enclosing? i .compoundStatement).all fun b => !(t.span b).isSingleLine

/-- The edit that puts the closing brace of a block in its place. The brace has to be there: one
    that the parser supplied has no text. -/
def closingBraceEdit? (t : SyntaxTree) (block : Nat) : Option Edit := do
  let brace ← (t.children block).getLast?
  if (t.span block).isSingleLine ∨ t.kind brace ≠ .closeBrace ∨ (t.span brace).isEmpty then none
  else t.reindent? brace (t.blockIndent block)

/-- The edit that indents a node, if it is one to be indented. -/
def blockEdit? (t : SyntaxTree) (i : Nat) : Option Edit :=
  if t.kind i = .compoundStatement then t.closingBraceEdit? i
  else if t.isIndented i && t.isInOpenBlock i then t.reindent? i (t.blockIndent i)
  else none

/-- The edits that indent a document's blocks. -/
def blockEdits (t : SyntaxTree) : List Edit := t.allNodes.filterMap t.blockEdit?

end TwelveD.SyntaxTree
