import TwelveD.Json.Basic
import TwelveD.Json.Decimal

/-!
# Numerals

The text of a JSON number in its parts, and the number that it stands for.
-/

namespace TwelveD.Json

/-- The parts of a numeral. -/
structure Numeral where
  /-- Whether there is a minus sign. -/
  negative : Bool
  /-- The digits before the point. -/
  whole : List Char
  /-- The digits behind the point; empty if there is no point. -/
  fraction : List Char
  /-- The power of ten, if one is written. -/
  exponent : Option Int
  deriving DecidableEq, Repr

namespace Numeral

/-- The value of a decimal digit. -/
def digitValue (c : Char) : Nat := c.toNat - '0'.toNat

/-- The number written by decimal digits. -/
def natOfDigits (ds : List Char) : Nat := ds.foldl (fun n d => n * 10 + digitValue d) 0

/-- The exponent of a numeral, which starts with `e` or is missing. -/
def exponentOf? : List Char → Option (Option Int)
  | [] => some none
  | e :: rest =>
    if e = 'e' ∨ e = 'E' then
      let (sign, ds) : Int × List Char :=
        match rest with
        | '+' :: ds => (1, ds)
        | '-' :: ds => (-1, ds)
        | ds => (1, ds)
      if ds.isEmpty || !ds.all Char.isDigit then none
      else some (some (sign * (natOfDigits ds : Int)))
    else none

/-- The numeral that a text is. -/
def ofChars? (cs : List Char) : Option Numeral :=
  let (negative, cs) := match cs with
    | '-' :: rest => (true, rest)
    | cs => (false, cs)
  let whole := cs.takeWhile Char.isDigit
  if whole.isEmpty || (1 < whole.length && whole.head? == some '0') then none
  else
    match cs.dropWhile Char.isDigit with
    | '.' :: rest =>
      let fraction := rest.takeWhile Char.isDigit
      if fraction.isEmpty then none
      else (exponentOf? (rest.dropWhile Char.isDigit)).map (⟨negative, whole, fraction, ·⟩)
    | rest => (exponentOf? rest).map (⟨negative, whole, [], ·⟩)

/-- The first number that does not fit 64 bits. -/
def wordLimit : Nat := UInt64.size

/-- Reads digits into a significand as long as it fits 64 bits: the significand and the digits that
    no longer fit. -/
def accumulate (significand : Nat) : List Char → Nat × List Char
  | [] => (significand, [])
  | d :: ds =>
    let next := significand * 10 + digitValue d
    if next < wordLimit then accumulate next ds else (significand, d :: ds)

/-- The double that a numeral stands for, if it is finite. Of the digits, those count that fit
    64 bits; the others before the point still shift it. -/
def toDouble? (n : Numeral) : Option Float :=
  let (whole, unread) := accumulate 0 n.whole
  let (significand, dropped) := accumulate whole n.fraction
  let shift := (unread.length : Int) - ((n.fraction.length - dropped.length : Nat) : Int)
  let magnitude := Decimal.ofParts? significand (shift + n.exponent.getD 0)
  if n.negative then magnitude.map (-·) else magnitude

/-- The number that a numeral stands for; none if it is too great for a double. -/
def toNumber? (n : Numeral) : Option Number :=
  let value := natOfDigits n.whole
  if n.fraction.isEmpty && n.exponent.isNone then
    if !n.negative && value < wordLimit then some (.int value)
    else if n.negative && 0 < value && value ≤ 0x8000000000000000 then some (.int (-(value : Int)))
    else n.toDouble?.map .double
  else n.toDouble?.map .double

end Numeral

end TwelveD.Json
