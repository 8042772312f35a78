import TwelveD.Text.Edit
import TwelveD.Tree.Spacing

/-!
# Layout rules

All layout rules come down to two: the blanks between two neighbouring nodes of one row become a
given text (`respace?`), and the blanks before the first node of a row become a given number of
spaces (`reindent?`). Neither gives an edit where the text is already right.
-/

namespace TwelveD.SyntaxTree

/-- The columns by which a block is indented. -/
def indentWidth : Nat := 4

/-- Makes the gap between two nodes of one row the given text, if it holds only blanks. -/
def respace? (t : SyntaxTree) (left right : Nat) (wanted : Bytes) : Option Edit := do
  let gap ← t.gap? left right
  if gap.isBlank ∧ gap ≠ wanted then some ⟨⟨(t.span left).stop, (t.span right).start⟩, wanted⟩
  else none

/-- Indents the row of a node by `width` spaces, if the node is the first of its row. -/
def reindent? (t : SyntaxTree) (i width : Nat) : Option Edit :=
  let start := (t.span i).start
  if t.startsLine i ∧ t.lineLead i ≠ Bytes.spaces width
  then some ⟨⟨⟨start.row, 0⟩, start⟩, Bytes.spaces width⟩
  else none

/-- The neighbours in a list. -/
def neighbours (ids : List Nat) : List (Nat × Nat) := ids.zip ids.tail

end TwelveD.SyntaxTree
