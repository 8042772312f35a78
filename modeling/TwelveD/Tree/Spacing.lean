import TwelveD.Tree.Basic

/-!
# The text around nodes

What stands before a node in its row, and what stands between two nodes of one row.
-/

namespace TwelveD.SyntaxTree

/-- The text between the start of a node's row and the node. -/
def lineLead (t : SyntaxTree) (i : Nat) : Bytes :=
  t.source.slice ((t.node i).start - (t.span i).start.column) (t.node i).start

/-- Whether only blanks stand before a node in its row. -/
def startsLine (t : SyntaxTree) (i : Nat) : Bool := (t.lineLead i).isBlank

/-- The text between the end of one node and the start of another, if they are in this order and
    meet in one row. -/
def gap? (t : SyntaxTree) (left right : Nat) : Option Bytes :=
  if (t.span left).stop.row = (t.span right).start.row ∧ (t.node left).stop ≤ (t.node right).start
  then some (t.source.slice (t.node left).stop (t.node right).start)
  else none

end TwelveD.SyntaxTree
