import TwelveD.Json.Basic
import TwelveD.Json.Decimal

/-!
# Writing JSON

Values are written without blanks. Strings keep every character but the quote, the backslash and
control characters.
-/

namespace TwelveD.Json

/-- A number below 256 as two digits to the base sixteen. -/
def hexPair (n : Nat) : List Char := [Nat.digitChar (n / 16), Nat.digitChar (n % 16)]

/-- How a character is written inside a string. -/
def escapedChar : Char → List Char
  | '"' => ['\\', '"']
  | '\\' => ['\\', '\\']
  | '\x08' => ['\\', 'b']
  | '\x0C' => ['\\', 'f']
  | '\n' => ['\\', 'n']
  | '\r' => ['\\', 'r']
  | '\t' => ['\\', 't']
  | c => if c.toNat < 0x20 then ['\\', 'u', '0', '0'] ++ hexPair c.toNat else [c]

/-- A string with its quotes. -/
def writeString (s : String) : String :=
  String.ofList ('"' :: s.toList.flatMap escapedChar ++ ['"'])

/-- The text of a number. -/
def writeNumber : Number → String
  | .int n => toString n
  | .double x => Decimal.writeDouble x

mutual

/-- The text of a value. -/
def write : Json → String
  | .null => "null"
  | .bool b => if b then "true" else "false"
  | .number n => writeNumber n
  | .string s => writeString s
  | .array [] => "[]"
  | .array (v :: rest) => "[" ++ write v ++ writeItems rest ++ "]"
  | .object [] => "\x7b\x7d"
  | .object ((key, v) :: rest) =>
    "\x7b" ++ writeString key ++ ":" ++ write v ++ writeMembers rest ++ "\x7d"

/-- The text of the items behind the first one. -/
def writeItems : List Json → String
  | [] => ""
  | v :: rest => "," ++ write v ++ writeItems rest

/-- The text of the members behind the first one. -/
def writeMembers : List (String × Json) → String
  | [] => ""
  | (key, v) :: rest => "," ++ writeString key ++ ":" ++ write v ++ writeMembers rest

end

end TwelveD.Json
