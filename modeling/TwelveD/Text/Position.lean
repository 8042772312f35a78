import TwelveD.Text.Bytes

/-!
# Positions in a text

A `Point` is a row and a byte column, both counted from zero, and a `Span` is what lies between two
points. `Bytes.pointAt` and `Bytes.offsetAt` lead from byte offsets to points and back.
-/

namespace TwelveD

/-- A position in a text. -/
structure Point where
  /-- The number of line feeds before the position. -/
  row : Nat
  /-- The number of bytes between the start of the row and the position. -/
  column : Nat
  deriving DecidableEq, Repr

namespace Point

/-- The position before the first byte. -/
def origin : Point := ⟨0, 0⟩

/-- Points are ordered by row, and within a row by column. -/
instance : LE Point := ⟨fun p q => p.row < q.row ∨ p.row = q.row ∧ p.column ≤ q.column⟩

instance : LT Point := ⟨fun p q => p.row < q.row ∨ p.row = q.row ∧ p.column < q.column⟩

instance (p q : Point) : Decidable (p ≤ q) :=
  inferInstanceAs (Decidable (p.row < q.row ∨ p.row = q.row ∧ p.column ≤ q.column))

instance (p q : Point) : Decidable (p < q) :=
  inferInstanceAs (Decidable (p.row < q.row ∨ p.row = q.row ∧ p.column < q.column))

theorem le_iff {p q : Point} : p ≤ q ↔ p.row < q.row ∨ p.row = q.row ∧ p.column ≤ q.column :=
  Iff.rfl

theorem lt_iff {p q : Point} : p < q ↔ p.row < q.row ∨ p.row = q.row ∧ p.column < q.column :=
  Iff.rfl

/-- The position with the given counts. Rows and columns are numbers of 32 bits, and a greater count
    wraps around. -/
def ofCounts (row column : Nat) : Point := ⟨row % UInt32.size, column % UInt32.size⟩

theorem ofCounts_of_lt {row column : Nat} (hrow : row < UInt32.size)
    (hcolumn : column < UInt32.size) : ofCounts row column = ⟨row, column⟩ := by
  rw [ofCounts, Nat.mod_eq_of_lt hrow, Nat.mod_eq_of_lt hcolumn]

/-- The position after one more byte. -/
def advance (p : Point) (b : UInt8) : Point :=
  if b = Bytes.lineFeed then ⟨p.row + 1, 0⟩ else ⟨p.row, p.column + 1⟩

end Point

/-- The stretch between two points. Nothing keeps `stop` from lying before `start`; such a span
    contains no point. -/
structure Span where
  /-- The first position. -/
  start : Point
  /-- The position just past the stretch. -/
  stop : Point
  deriving DecidableEq, Repr

namespace Span

/-- Whether a point lies inside. The end counts as inside, so that a cursor right behind a word
    still hits the word. -/
def contains (s : Span) (p : Point) : Bool := s.start ≤ p && p ≤ s.stop

/-- Whether the span starts and ends in one row. -/
def isSingleLine (s : Span) : Bool := s.start.row == s.stop.row

/-- Whether the span covers no text. -/
def isEmpty (s : Span) : Bool := s.start == s.stop

/-- The order of spans by start, and by end for equal starts. -/
def le (s t : Span) : Bool := s.start < t.start || s.start == t.start && s.stop ≤ t.stop

end Span

namespace Bytes

/-- The point at a byte offset. -/
def pointAt (bytes : Bytes) (offset : Nat) : Point :=
  (bytes.take offset).foldl Point.advance Point.origin

/-- The byte offset at which a row starts; the end of the text for a row that does not exist. -/
def rowStart : Bytes → Nat → Nat
  | _, 0 => 0
  | [], _ + 1 => 0
  | b :: rest, row + 1 =>
    if b = lineFeed then 1 + rowStart rest row else 1 + rowStart rest (row + 1)

/-- The byte offset of a point. -/
def offsetAt (bytes : Bytes) (p : Point) : Nat := bytes.rowStart p.row + p.column

end Bytes

end TwelveD
