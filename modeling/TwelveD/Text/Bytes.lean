import TwelveD.Text.Pieces

/-!
# Text as UTF-8 bytes

Documents and message streams are byte lists. Tree nodes address a document by byte offsets, columns
count bytes, and a stream may hold bytes that are no text at all, so bytes are the one
representation under all of them. A `String` appears where text is read or written as a whole.
-/

namespace TwelveD

/-- A text as the bytes of its UTF-8 encoding, or the bytes of a stream. -/
abbrev Bytes := List UInt8

namespace Bytes

/-- The byte that ends a row. -/
def lineFeed : UInt8 := 0x0A

/-- The byte that may stand before a line feed; it belongs to its row like any other byte. -/
def carriageReturn : UInt8 := 0x0D

/-- The space. -/
def space : UInt8 := 0x20

/-- The horizontal tab. -/
def tab : UInt8 := 0x09

/-- The UTF-8 encoding of a string. -/
def ofString (s : String) : Bytes := s.toUTF8.data.toList

/-- The string that the bytes encode, if they are valid UTF-8. -/
def toString? (bytes : Bytes) : Option String := String.fromUTF8? ⟨bytes.toArray⟩

/-- The bytes from offset `start` up to, not including, offset `stop`. -/
def slice (bytes : Bytes) (start stop : Nat) : Bytes := (bytes.drop start).take (stop - start)

/-- The text between two offsets; empty if the offsets do not fall between characters. -/
def textBetween (bytes : Bytes) (start stop : Nat) : String :=
  ((bytes.slice start stop).toString?).getD ""

/-- Whether a byte is a space or a tab. -/
def isBlankByte (b : UInt8) : Bool := b == space || b == tab

/-- Whether there is nothing but spaces and tabs. -/
def isBlank (bytes : Bytes) : Bool := bytes.all isBlankByte

/-- A run of `width` spaces. -/
def spaces (width : Nat) : Bytes := List.replicate width space

/-- The rows of a text: what stands between line feeds. The text after the last line feed is a row
    too. -/
def rows (bytes : Bytes) : List Bytes := Text.pieces lineFeed bytes

end Bytes

end TwelveD
