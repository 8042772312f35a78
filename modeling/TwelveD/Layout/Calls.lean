import TwelveD.Layout.Basic

/-!
# Arguments of calls

No space stands behind the opening parenthesis, before the closing one and before a comma, and one
space behind a comma. Arguments on different rows keep their layout.
-/

namespace TwelveD.SyntaxTree

/-- What should stand between two neighbours in an argument list. -/
def argumentGap? (left right : Kind) : Option Bytes :=
  if left = .openParen ∨ right = .closeParen ∨ right = .comma then some []
  else if left = .comma then some [Bytes.space]
  else none

/-- The edits for one argument list. -/
def argumentListEdits (t : SyntaxTree) (list : Nat) : List Edit :=
  (neighbours (t.children list)).filterMap fun (left, right) => do
    t.respace? left right (← argumentGap? (t.kind left) (t.kind right))

/-- The edits for all argument lists. -/
def callEdits (t : SyntaxTree) : List Edit :=
  (t.allNodes.filter fun i => t.kind i == .argumentList).flatMap t.argumentListEdits

end TwelveD.SyntaxTree
