import TwelveD.Text.Blank
import TwelveD.Text.Decode
import TwelveD.Text.Quoted

/-!
# Frames

A message travels as a block of header lines, a blank line, and as many bytes of body as the header
`Content-Length` says. `Frame.write` makes such a frame and `Frame.read` takes one from the front of
a stream, together with what is left of the stream. A body is read into a buffer that is made first;
whether there is memory for it is a parameter, `Memory`.

Reading is lenient about the form of header lines and strict about the length. A block with a line
that is no header is read to the end of its body and then reported, so that the next frame can be
found; without a length there is no way to find it.
-/

namespace TwelveD

/-- Why a frame could not be read. -/
inductive FramingError where
  /-- A line of the header block has no colon. -/
  | missingDelimiter (line : String)
  /-- No header gives the length of the body. -/
  | missingContentLength
  /-- The last header for the length of the body gives no length. -/
  | invalidContentLength (value : String)
  /-- The stream ends inside the header block. -/
  | unexpectedEnd
  /-- The stream ends inside the body. -/
  | truncatedBody (expected actual : Nat)
  deriving DecidableEq, Repr

namespace FramingError

/-- The wording of a framing error. -/
def message : FramingError → String
  | missingDelimiter line => "header line has no ':' delimiter: " ++ Text.quoted line
  | missingContentLength => "missing Content-Length header"
  | invalidContentLength value => "invalid Content-Length value: " ++ Text.quoted value
  | unexpectedEnd => "stream ended inside the header block"
  | truncatedBody expected actual =>
    "body truncated: expected " ++ toString expected ++ " bytes, got " ++ toString actual

/-- Whether the reader stands at the start of the next frame after the error. -/
def isRecoverable : FramingError → Bool
  | missingDelimiter _ => true
  | _ => false

end FramingError

namespace Frame

/-! ## Writing -/

/-- The name of the header that gives the length of the body. -/
def lengthName : List Char := "Content-Length".toList

/-- Characters of the ASCII range as bytes. -/
def ascii (cs : List Char) : Bytes := cs.map fun c => c.toNat.toUInt8

/-- The header block for a body of `length` bytes. -/
def heading (length : Nat) : Bytes :=
  ascii (lengthName ++ [':', ' '] ++ Nat.toDigits 10 length ++ ['\r', '\n', '\r', '\n'])

/-- A body with its header block. -/
def write (body : Bytes) : Bytes := heading body.length ++ body

/-! ## Header lines -/

/-- Cuts off the first line of a stream, its line feed included. -/
def splitLine : Bytes → Bytes × Bytes
  | [] => ([], [])
  | b :: rest =>
    if b = Bytes.lineFeed then ([b], rest)
    else
      let (line, behind) := splitLine rest
      (b :: line, behind)

theorem length_splitLine_lt {s : Bytes} (h : s ≠ []) : (splitLine s).2.length < s.length := by
  induction s with
  | nil => exact absurd rfl h
  | cons b rest ih =>
    unfold splitLine
    split
    · simp
    · cases rest with
      | nil => simp [splitLine]
      | cons c more =>
        have := ih (List.cons_ne_nil c more)
        simp only [List.length_cons] at this ⊢
        omega

/-- The text of a header line without the blanks around it. -/
def lineText (line : Bytes) : List Char := Text.trim (Text.decode line)

/-- What the lines at the front of a stream are. -/
inductive Block where
  /-- There is no header line up to the end of the stream. -/
  | absent
  /-- The stream ends before the header block does. -/
  | unclosed
  /-- The header lines of a block, and what follows its blank line. -/
  | closed (lines : List (List Char)) (rest : Bytes)
  deriving DecidableEq, Repr

/-- Reads header lines up to a blank line. `seen` are the lines already read, last first; blank lines
    before the first header line are skipped. -/
def readBlock (seen : List (List Char)) (s : Bytes) : Block :=
  if h : s = [] then if seen.isEmpty then .absent else .unclosed
  else
    have := length_splitLine_lt h
    let line := lineText (splitLine s).1
    let rest := (splitLine s).2
    if line.isEmpty then
      if seen.isEmpty then readBlock [] rest else .closed seen.reverse rest
    else readBlock (line :: seen) rest
termination_by s.length

/-- What follows a header block is shorter than the stream. -/
theorem length_lt_of_readBlock {seen : List (List Char)} {s : Bytes} {lines : List (List Char)}
    {rest : Bytes} (h : readBlock seen s = .closed lines rest) : rest.length < s.length := by
  fun_induction readBlock seen s with
  | case1 => cases h
  | case2 => cases h
  | case3 _ _ _ hlt _ _ _ _ ih => exact Nat.lt_trans (ih h) hlt
  | case4 _ _ _ hlt _ _ _ _ =>
    obtain ⟨-, rfl⟩ := Block.closed.inj h
    exact hlt
  | case5 _ _ _ hlt _ _ _ ih => exact Nat.lt_trans (ih h) hlt

/-- The value of a header line that gives the length of the body. -/
def lengthValue? (line : List Char) : Option (List Char) :=
  match Text.cut? ':' line with
  | some (name, value) =>
    if (Text.trim name).map Char.toLower = lengthName.map Char.toLower then some (Text.trim value)
    else none
  | none => none

/-- Whether a header line has no colon. -/
def isMalformed (line : List Char) : Bool := (Text.cut? ':' line).isNone

/-- The number that decimal digits stand for, if there are any and it is below `2 ^ 64`. -/
def digitsValue? (digits : List Char) : Option Nat :=
  if digits.isEmpty || !digits.all Char.isDigit then none
  else
    let n := digits.foldl (fun n d => n * 10 + (d.toNat - '0'.toNat)) 0
    if n < UInt64.size then some n else none

/-- The number that a length stands for: decimal digits, with or without a plus sign. -/
def parseLength? : List Char → Option Nat
  | '+' :: digits => digitsValue? digits
  | digits => digitsValue? digits

/-! ## Reading -/

/-- What reading a frame comes to. -/
inductive Outcome where
  /-- A message body. -/
  | body (bytes : Bytes)
  /-- The stream ends and no frame has started. -/
  | ended
  /-- There is no frame, or it is broken. -/
  | failed (error : FramingError)
  /-- The frame announces a body for which there is no buffer, and the reader gives up for good. -/
  | aborted
  deriving DecidableEq, Repr

/-- The least length that no buffer can have, `2 ^ 63`. -/
def bufferLimit : Nat := 0x8000000000000000

/-- What the memory has to give. -/
structure Memory where
  /-- Whether there is a buffer of a given length. -/
  grants : Nat → Bool
  /-- There is none from the limit on. -/
  lt_of_grants : ∀ length, grants length = true → length < bufferLimit

/-- The memory that has a buffer of every length below `limit`. -/
def Memory.upTo (limit : Nat) (h : limit ≤ bufferLimit) : Memory where
  grants length := decide (length < limit)
  lt_of_grants _ hlt := Nat.lt_of_lt_of_le (of_decide_eq_true hlt) h

/-- The memory that has a buffer of every length that a buffer can have. -/
def Memory.ample : Memory := .upTo bufferLimit (Nat.le_refl _)

/-- What a complete header block says about the bytes behind it, and what is left of them. The length
    given last counts, and a buffer of that length is asked for before any of these bytes are read. -/
def readBody (memory : Memory) (lines : List (List Char)) (rest : Bytes) : Outcome × Bytes :=
  match (lines.filterMap lengthValue?).getLast? with
  | none => (.failed .missingContentLength, rest)
  | some value =>
    match parseLength? value with
    | none => (.failed (.invalidContentLength (String.ofList value)), rest)
    | some length =>
      if memory.grants length = false then (.aborted, rest)
      else if rest.length < length then (.failed (.truncatedBody length rest.length), [])
      else
        match lines.find? isMalformed with
        | some line => (.failed (.missingDelimiter (String.ofList line)), rest.drop length)
        | none => (.body (rest.take length), rest.drop length)

/-- Reads one frame from the front of a stream: what it is, and the rest of the stream. -/
def readIn (memory : Memory) (s : Bytes) : Outcome × Bytes :=
  match readBlock [] s with
  | .absent => (.ended, [])
  | .unclosed => (.failed .unexpectedEnd, [])
  | .closed lines rest => readBody memory lines rest

/-- Reads one frame where memory does not run out. -/
def read (s : Bytes) : Outcome × Bytes := readIn .ample s

theorem length_readBody_le (memory : Memory) (lines : List (List Char)) (rest : Bytes) :
    (readBody memory lines rest).2.length ≤ rest.length := by
  unfold readBody
  split
  · exact Nat.le_refl _
  · split
    · exact Nat.le_refl _
    · split
      · exact Nat.le_refl _
      · split
        · exact Nat.zero_le _
        · split <;> simp

theorem readBlock_nil : readBlock [] [] = .absent := by simp [readBlock]

/-- Unless the stream has ended, reading takes something from it. -/
theorem length_read_lt {s : Bytes} (h : (read s).1 ≠ .ended) : (read s).2.length < s.length := by
  have hs : s ≠ [] := by
    rintro rfl
    exact h (by rw [read, readIn, readBlock_nil])
  have hpos : 0 < s.length := List.length_pos_iff.mpr hs
  unfold read readIn at h ⊢
  split at h
  · exact absurd rfl h
  · exact hpos
  · rename_i lines rest heq
    exact Nat.lt_of_le_of_lt (length_readBody_le .ample lines rest) (length_lt_of_readBlock heq)

end Frame

end TwelveD
