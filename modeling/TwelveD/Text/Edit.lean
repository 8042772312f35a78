import TwelveD.Text.Position

/-!
# Edits

An `Edit` replaces the text of a span. A list of edits against one text is applied all at once:
every span speaks of the text before any of the edits. `Edit.batch` turns the findings of several
independent rules into such a list, sorted and without overlaps.
-/

namespace TwelveD

/-- A replacement of the text of a span. -/
structure Edit where
  /-- The text to replace. -/
  span : Span
  /-- What stands there afterwards. -/
  newText : Bytes
  deriving DecidableEq, Repr

namespace Edit

/-- Applies edits that are sorted by position and do not overlap, from `offset` on. -/
def applyFrom (text : Bytes) (offset : Nat) : List Edit → Bytes
  | [] => text.drop offset
  | e :: es =>
    text.slice offset (text.offsetAt e.span.start) ++ e.newText ++
      applyFrom text (text.offsetAt e.span.stop) es

/-- Applies edits that are sorted by position and do not overlap. -/
def applyAll (text : Bytes) (edits : List Edit) : Bytes := applyFrom text 0 edits

/-- Whether an edit may follow `kept`: it starts no earlier than `kept` ends, and it does not
    address the very same span. -/
def fitsAfter (kept e : Edit) : Bool := !(e.span.start < kept.span.stop || e.span == kept.span)

/-- The edits that fit, each one after the last that was kept before it. -/
def dropOverlapping (kept : Option Edit) : List Edit → List Edit
  | [] => []
  | e :: es =>
    if kept.all (fitsAfter · e) then e :: dropOverlapping (some e) es
    else dropOverlapping kept es

/-- Edits sorted by span, without those that overlap an earlier one. Of several edits of one span
    the first in the list is kept. -/
def batch (edits : List Edit) : List Edit :=
  dropOverlapping none (edits.mergeSort fun e f => e.span.le f.span)

end Edit

end TwelveD
