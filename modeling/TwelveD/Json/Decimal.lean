/-!
# Doubles as decimal text

`Decimal.shortest` finds the decimal number with the fewest digits that still reads back as a given
double, and of several the nearest one. It tests, for one digit, two digits and so on, the two
decimals around the exact value against the interval of numbers that round to the double.
`Decimal.ofParts?` goes the other way, from the digits of a numeral to a double.
-/

namespace TwelveD

/-- The number `digits · 10 ^ exponent`. -/
structure Decimal where
  digits : Nat
  exponent : Int
  deriving DecidableEq, Repr

namespace Decimal

/-- A positive double as a whole number times a power of two, `significand · 2 ^ exponent`. -/
structure Binary where
  significand : Nat
  exponent : Int
  /-- The next smaller double is only half as far away as the next greater one. -/
  atPowerOfTwo : Bool

/-- The binary parts of a double other than zero, its sign left out. -/
def Binary.ofBits (bits : UInt64) : Binary :=
  let fraction : Nat := bits.toNat % Nat.pow 2 52
  let biased : Nat := bits.toNat / Nat.pow 2 52 % Nat.pow 2 11
  if biased = 0 then ⟨fraction, -1074, false⟩
  else ⟨Nat.pow 2 52 + fraction, (biased : Int) - 1075, fraction = 0 ∧ 1 < biased⟩

/-- The power `base ^ e` as a fraction. -/
def fractionPow (base : Nat) (e : Int) : Nat × Nat :=
  if 0 ≤ e then (Nat.pow base e.toNat, 1) else (1, Nat.pow base (-e).toNat)

/-- The least power of ten, as an exponent, that is greater than `num / den`. -/
def magnitude (num den : Nat) : Int :=
  if den ≤ num then ((Nat.toDigits 10 (num / den)).length : Nat)
  else
    let zeros := (List.range 400).find? fun j => den ≤ num * Nat.pow 10 (j + 1)
    Int.negOfNat (zeros.getD 0)

/-- The decimal with `count` digits that lies between the bounds and nearest to the value. All three
    numbers are given in the unit `unitNum / unitDen`; `closed` says whether the bounds count. -/
def onGrid? (low value high unitNum unitDen : Nat) (closed : Bool) (count : Nat) :
    Option Decimal :=
  let exponent := magnitude (value * unitNum) unitDen - count
  let (gridNum, gridDen) := fractionPow 10 exponent
  -- `x · unitNum / unitDen` against `d · gridNum / gridDen`
  let left := unitNum * gridDen
  let right := gridNum * unitDen
  let below := value * left / right
  let inside (d : Nat) : Bool :=
    if closed then low * left ≤ d * right && d * right ≤ high * left
    else low * left < d * right && d * right < high * left
  let distanceBelow := value * left - below * right
  let distanceAbove := (below + 1) * right - value * left
  if inside below && inside (below + 1) then
    if distanceBelow < distanceAbove ∨ distanceBelow = distanceAbove ∧ below % 2 = 0
    then some ⟨below, exponent⟩ else some ⟨below + 1, exponent⟩
  else if inside below then some ⟨below, exponent⟩
  else if inside (below + 1) then some ⟨below + 1, exponent⟩
  else none

/-- A decimal without zeros at the end of its digits. -/
def normalize (d : Decimal) : Decimal :=
  let digits := (Nat.toDigits 10 d.digits).reverse
  let zeros := (digits.takeWhile (· == '0')).length
  if d.digits = 0 then d else ⟨d.digits / Nat.pow 10 zeros, d.exponent + zeros⟩

/-- The shortest decimal for a double other than zero, its sign left out. -/
def shortest (bits : UInt64) : Decimal :=
  let b := Binary.ofBits bits
  let (unitNum, unitDen) := fractionPow 2 (b.exponent - 2)
  let value := 4 * b.significand
  let low := if b.atPowerOfTwo then value - 1 else value - 2
  let found := (List.range 17).findSome? fun n =>
    onGrid? low value (value + 2) unitNum unitDen (b.significand % 2 == 0) (n + 1)
  normalize (found.getD ⟨0, 0⟩)

/-- Decimals whose point falls within these places are written without an exponent. -/
structure Format where
  /-- The point may stand at most this many places behind the first digit. -/
  places : Int
  /-- There may be at most this many zeros between the point and the first digit. -/
  zeros : Int

/-- The format of numbers in messages: without an exponent up to sixteen places, and down to four
    zeros behind the point. -/
def messageFormat : Format := ⟨16, 4⟩

/-- An exponent with its sign, whichever it is. -/
def signedExponent (e : Int) : List Char :=
  (if e < 0 then '-' else '+') :: Nat.toDigits 10 e.natAbs

/-- The text of a decimal. A number without an exponent always has a point. -/
def Format.write (f : Format) (d : Decimal) : String :=
  let digits := Nat.toDigits 10 d.digits
  let point := (digits.length : Int) + d.exponent
  String.ofList <|
    if 0 ≤ d.exponent ∧ point ≤ f.places then
      digits ++ List.replicate d.exponent.toNat '0' ++ ['.', '0']
    else if 0 < point ∧ point ≤ f.places then
      digits.take point.toNat ++ '.' :: digits.drop point.toNat
    else if -f.zeros - 1 < point ∧ point ≤ 0 then
      '0' :: '.' :: List.replicate (-point).toNat '0' ++ digits
    else
      let exponent := signedExponent (point - 1)
      match digits with
      | [d] => d :: 'e' :: exponent
      | d :: more => d :: '.' :: more ++ 'e' :: exponent
      | [] => []

/-- The text of a finite double in a message. -/
def writeDouble (x : Float) : String :=
  let bits := x.toBits
  let sign := if Nat.pow 2 63 ≤ bits.toNat then "-" else ""
  if bits.toNat % Nat.pow 2 63 = 0 then sign ++ "0.0"
  else sign ++ messageFormat.write (shortest bits)

/-- The greatest power of ten that is a double. -/
def maxPower : Nat := 308

/-- `x / 10 ^ n`, by divisors that are doubles. -/
def divideByPower (x : Float) (n : Nat) : Float :=
  if n ≤ maxPower then x / Float.ofScientific 1 false n
  else if x == 0 then x
  else divideByPower (x / Float.ofScientific 1 false maxPower) (n - maxPower)
termination_by n
decreasing_by simp only [maxPower] at *; omega

/-- The double for `significand · 10 ^ exponent`, if it is finite. The significand is made a double
    first and then scaled. -/
def ofParts? (significand : Nat) (exponent : Int) : Option Float :=
  let x := Float.ofNat significand
  if exponent < 0 then some (divideByPower x (-exponent).toNat)
  else if exponent.toNat ≤ maxPower then
    let y := x * Float.ofScientific 1 false exponent.toNat
    if y.isInf then none else some y
  else if x == 0 then some x
  else none

end Decimal

end TwelveD
