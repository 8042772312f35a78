import TwelveD.Layout.Blocks
import TwelveD.Layout.Calls
import TwelveD.Layout.Headings
import TwelveD.Layout.LineEnds

/-!
# Layout of a document

All rules together, as one batch of edits.
-/

namespace TwelveD.SyntaxTree

/-- The findings of all layout rules, one rule after the other. -/
def layoutFindings (t : SyntaxTree) : List Edit :=
  t.blockEdits ++ t.source.lineEndEdits ++ t.allHeadingEdits ++ t.callEdits

/-- The edits that lay out a document, sorted and without overlaps. -/
def layoutEdits (t : SyntaxTree) : List Edit := Edit.batch t.layoutFindings

/-- The text of a document after its layout. -/
def laidOut (t : SyntaxTree) : Bytes := Edit.applyAll t.source t.layoutEdits

end TwelveD.SyntaxTree
