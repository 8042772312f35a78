import TwelveD.Text.Edit

/-!
# Spaces at the ends of rows

The spaces at the end of a row are removed. A carriage return in front of the line feed stays, and
spaces in front of it count as the end of the row.
-/

namespace TwelveD.Bytes

/-- A row without one carriage return at its end. -/
def withoutReturn (row : Bytes) : Bytes :=
  if row.getLast? = some carriageReturn then row.dropLast else row

/-- A row without the spaces at its end. -/
def withoutSpaces (row : Bytes) : Bytes := (row.reverse.dropWhile (· == space)).reverse

/-- The edit that removes the spaces at the end of row number `row`. -/
def lineEndEdit? (row : Nat) (line : Bytes) : Option Edit :=
  let line := line.withoutReturn
  let kept := line.withoutSpaces.length
  if kept = line.length then none
  else some ⟨⟨.ofCounts row kept, .ofCounts row line.length⟩, []⟩

/-- The edits for rows that are numbered from `row` on. -/
def lineEndEditsFrom (row : Nat) : List Bytes → List Edit
  | [] => []
  | line :: lines => (lineEndEdit? row line).toList ++ lineEndEditsFrom (row + 1) lines

/-- The edits that remove the spaces at the ends of a text's rows. -/
def lineEndEdits (text : Bytes) : List Edit := lineEndEditsFrom 0 text.rows

end TwelveD.Bytes
