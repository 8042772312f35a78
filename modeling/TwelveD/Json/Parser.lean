import TwelveD.Json.Numeral
import TwelveD.Text.Bytes

/-!
# Reading JSON

Reading is strict: nothing but the grammar of JSON is taken. A text is first cut into tokens. The
tokens are then read one by one, with the list of arrays and objects that have been opened and are
still waiting for their end. The length of that list is how deep the reader is inside the value, and
it is bounded.
-/

namespace TwelveD.Json

/-- A unit of JSON text. -/
inductive Token where
  | openBrace
  | closeBrace
  | openBracket
  | closeBracket
  | comma
  | colon
  /-- A string, which is a value or a key. -/
  | text (s : String)
  /-- A number, a boolean or null. -/
  | atom (v : Json)

namespace Token

/-- The value of a digit to the base sixteen. -/
def hexValue? (c : Char) : Option Nat :=
  if '0' ≤ c ∧ c ≤ '9' then some (c.toNat - '0'.toNat)
  else if 'a' ≤ c ∧ c ≤ 'f' then some (c.toNat - 'a'.toNat + 10)
  else if 'A' ≤ c ∧ c ≤ 'F' then some (c.toNat - 'A'.toNat + 10)
  else none

/-- The number written by four digits to the base sixteen. -/
def hexUnit? (a b c d : Char) : Option Nat := do
  some (((← hexValue? a) * 16 + (← hexValue? b)) * 256 + (← hexValue? c) * 16 + (← hexValue? d))

/-- The character for a single UTF-16 unit; none for half of a pair. -/
def charOfUnit? (unit : Nat) : Option Char :=
  if 0xD800 ≤ unit ∧ unit ≤ 0xDFFF then none else some (Char.ofNat unit)

/-- The character for a pair of UTF-16 units. -/
def charOfPair? (high low : Nat) : Option Char :=
  if 0xD800 ≤ high ∧ high ≤ 0xDBFF ∧ 0xDC00 ≤ low ∧ low ≤ 0xDFFF then
    some (Char.ofNat (0x10000 + (high - 0xD800) * 0x400 + (low - 0xDC00)))
  else none

/-- The character that a letter behind a backslash stands for. -/
def charOfEscape? : Char → Option Char
  | '"' => some '"'
  | '\\' => some '\\'
  | '/' => some '/'
  | 'b' => some '\x08'
  | 'f' => some '\x0C'
  | 'n' => some '\n'
  | 'r' => some '\r'
  | 't' => some '\t'
  | _ => none

/-- Puts a character before a text that has been read. -/
def consText (c : Char) (read : List Char × List Char) : List Char × List Char :=
  (c :: read.1, read.2)

/-- Reads a string after its opening quote: its characters and what follows the closing quote. -/
def scanText : List Char → Option (List Char × List Char)
  | [] => none
  | '"' :: rest => some ([], rest)
  | '\\' :: 'u' :: a :: b :: c :: d :: rest => do
    let unit ← hexUnit? a b c d
    match charOfUnit? unit with
    | some ch => consText ch <$> scanText rest
    | none =>
      match rest with
      | '\\' :: 'u' :: e :: f :: g :: h :: rest =>
        let ch ← charOfPair? unit (← hexUnit? e f g h)
        consText ch <$> scanText rest
      | _ => none
  | '\\' :: c :: rest => do
    let ch ← charOfEscape? c
    consText ch <$> scanText rest
  | c :: rest => if c.toNat < 0x20 ∨ c = '\\' then none else consText c <$> scanText rest

/-- A string ends after it started. -/
theorem length_lt_of_scanText {cs : List Char} {s rest : List Char}
    (h : scanText cs = some (s, rest)) : rest.length < cs.length := by
  fun_induction scanText cs generalizing s rest with
  | case1 => cases h
  | case2 => simp only [Option.some.injEq, Prod.mk.injEq] at h; simp [h]
  | case3 a b c d tail ih₁ ih₂ =>
    obtain ⟨unit, -, h⟩ := Option.bind_eq_some_iff.mp h
    split at h
    · obtain ⟨⟨s', r'⟩, hr, he⟩ := Option.map_eq_some_iff.mp h
      have := ih₁ hr
      simp only [consText, Prod.mk.injEq] at he
      simp only [List.length_cons, ← he.2]
      omega
    · split at h
      · obtain ⟨v, -, h⟩ := Option.bind_eq_some_iff.mp h
        obtain ⟨ch, -, h⟩ := Option.bind_eq_some_iff.mp h
        obtain ⟨⟨s', r'⟩, hr, he⟩ := Option.map_eq_some_iff.mp h
        have := ih₂ hr
        simp only [consText, Prod.mk.injEq] at he
        simp only [List.length_cons, ← he.2] at *
        omega
      · cases h
  | case4 c tail _ ih =>
    obtain ⟨ch, -, h⟩ := Option.bind_eq_some_iff.mp h
    obtain ⟨⟨s', r'⟩, hr, he⟩ := Option.map_eq_some_iff.mp h
    have := ih hr
    simp only [consText, Prod.mk.injEq] at he
    simp only [List.length_cons, ← he.2]
    omega
  | case5 => cases h
  | case6 c tail _ _ _ _ ih =>
    obtain ⟨⟨s', r'⟩, hr, he⟩ := Option.map_eq_some_iff.mp h
    have := ih hr
    simp only [consText, Prod.mk.injEq] at he
    simp only [List.length_cons, ← he.2]
    omega

/-- Whether a character may stand in a numeral. -/
def isNumeralChar (c : Char) : Bool :=
  c.isDigit || c == '-' || c == '+' || c == '.' || c == 'e' || c == 'E'

/-- Whether a character may stand between tokens. -/
def isSeparator (c : Char) : Bool := c == ' ' || c == '\n' || c == '\t' || c == '\r'

/-- The tokens of a text. -/
def scan (cs : List Char) : Option (List Token) :=
  match cs with
  | [] => some []
  | '\x7b' :: rest => (openBrace :: ·) <$> scan rest
  | '\x7d' :: rest => (closeBrace :: ·) <$> scan rest
  | '[' :: rest => (openBracket :: ·) <$> scan rest
  | ']' :: rest => (closeBracket :: ·) <$> scan rest
  | ',' :: rest => (comma :: ·) <$> scan rest
  | ':' :: rest => (colon :: ·) <$> scan rest
  | 't' :: 'r' :: 'u' :: 'e' :: rest => (atom (.bool true) :: ·) <$> scan rest
  | 'f' :: 'a' :: 'l' :: 's' :: 'e' :: rest => (atom (.bool false) :: ·) <$> scan rest
  | 'n' :: 'u' :: 'l' :: 'l' :: rest => (atom .null :: ·) <$> scan rest
  | '"' :: rest =>
    match h : scanText rest with
    | none => none
    | some (s, rest') =>
      have := length_lt_of_scanText h
      (text (String.ofList s) :: ·) <$> scan rest'
  | c :: rest =>
    if isSeparator c then scan rest
    else if isNumeralChar c then do
      let numeral ← Numeral.ofChars? (c :: rest.takeWhile isNumeralChar)
      let number ← numeral.toNumber?
      have := (List.dropWhile_suffix isNumeralChar (l := rest)).length_le
      (atom (.number number) :: ·) <$> scan (rest.dropWhile isNumeralChar)
    else none
termination_by cs.length

end Token

/-- An array or an object of which the reader has seen the start and not yet the end. -/
inductive Unfinished where
  /-- An array with the items read so far, last first. -/
  | array (items : List Json)
  /-- An object with the members read so far, last first, and the key of the next value. -/
  | object (members : List (String × Json)) (key : String)

mutual

/-- Reads a value, inside the arrays and objects of `around`, and then whatever follows it. -/
def readValue (limit : Nat) (around : List Unfinished) : List Token → Option Json
  | .atom v :: rest => readRest limit v around rest
  | .text s :: rest => readRest limit (.string s) around rest
  | .openBracket :: .closeBracket :: rest =>
    if around.length < limit then readRest limit (.array []) around rest else none
  | .openBracket :: rest =>
    if around.length < limit then readValue limit (.array [] :: around) rest else none
  | .openBrace :: .closeBrace :: rest =>
    if around.length < limit then readRest limit (.object []) around rest else none
  | .openBrace :: .text key :: .colon :: rest =>
    if around.length < limit then readValue limit (.object [] key :: around) rest else none
  | _ => none

/-- Reads what follows the value `v`: the end of the text, of the innermost array or object, or
    its next part. -/
def readRest (limit : Nat) (v : Json) (around : List Unfinished) : List Token → Option Json
  | [] => if around.isEmpty then some v else none
  | .comma :: .text key :: .colon :: rest =>
    match around with
    | .object members k :: outer =>
      readValue limit (.object ((k, v) :: members) key :: outer) rest
    | _ => none
  | .comma :: rest =>
    match around with
    | .array items :: outer => readValue limit (.array (v :: items) :: outer) rest
    | _ => none
  | .closeBracket :: rest =>
    match around with
    | .array items :: outer => readRest limit (.array (v :: items).reverse) outer rest
    | _ => none
  | .closeBrace :: rest =>
    match around with
    | .object members k :: outer =>
      readRest limit (.object ((k, v) :: members).reverse) outer rest
    | _ => none
  | _ => none

end

/-- Reads a text that is one value with at most `limit` arrays and objects inside each other. -/
def parse? (limit : Nat) (s : String) : Option Json := do
  readValue limit [] (← Token.scan s.toList)

/-- How many arrays and objects may be open at once in a message. -/
def messageDepth : Nat := 127

/-- Reads the bytes of a message body. -/
def ofBytes? (body : Bytes) : Option Json := do
  parse? messageDepth (← Bytes.toString? body)

end TwelveD.Json
