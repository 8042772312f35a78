import TwelveD.Json.Basic

/-!
# Reading records from JSON

A reader takes a value and gives what it stands for, or nothing if the value has another form. A
record is written as an object, in which keys that nobody asks for do not matter, or as the list of
its fields in order.
-/

namespace TwelveD.Json

variable {α : Type}

/-- A string. -/
def text? : Json → Option String
  | .string s => some s
  | _ => none

/-- A boolean. -/
def flag? : Json → Option Bool
  | .bool b => some b
  | _ => none

/-- A whole number from `low` up to, not including, `high`. -/
def intBetween? (low high : Int) : Json → Option Int
  | .number (.int n) => if low ≤ n ∧ n < high then some n else none
  | _ => none

/-- A signed number of 32 bits. -/
def int32? : Json → Option Int := intBetween? (-0x80000000) 0x80000000

/-- An unsigned number of 32 bits. -/
def word32? (v : Json) : Option Nat := (intBetween? 0 0x100000000 v).map Int.toNat

/-- A list. -/
def list? (item? : Json → Option α) : Json → Option (List α)
  | .array items => items.mapM item?
  | _ => none

/-- A signed number of 32 bits or a string, as it is. -/
def intOrText? (v : Json) : Option Json :=
  if (int32? v).isSome || (text? v).isSome then some v else none

/-- The fields of a record by their keys. -/
abbrev Fields := String → Option Json

/-- The fields of an object. Of a repeated key the last value counts. -/
def objectFields? : Json → Option Fields
  | .object members => some fun key => lastMember? key members
  | _ => none

/-- The fields of a list that gives the first fields of a record in order, at least `least` of
    them. -/
def listFields? (keys : List String) (least : Nat) (items : List Json) : Option Fields :=
  if least ≤ items.length ∧ items.length ≤ keys.length
  then some fun key => lastMember? key (keys.zip items)
  else none

/-- The fields of a record, written in either way. -/
def record? (keys : List String) : Json → Option Fields
  | .array items => listFields? keys keys.length items
  | v => objectFields? v

/-- The fields of an object in which none of the keys is repeated. -/
def strictFields? (keys : List String) : Json → Option Fields
  | .object members =>
    if keys.all fun key => (members.filter fun m => m.1 == key).length ≤ 1
    then objectFields? (.object members)
    else none
  | _ => none

/-- The name of a choice: a string, or an object with the name as its one key and null behind it. -/
def choice? : Json → Option String
  | .string name => some name
  | .object ((name, value) :: more) =>
    match lastMember? name ((name, value) :: more) with
    | some .null => if more.all fun m => m.1 == name then some name else none
    | _ => none
  | _ => none

namespace Fields

/-- A field that has to be there. -/
def required (fields : Fields) (key : String) (read? : Json → Option α) : Option α := do
  read? (← fields key)

/-- A field that may be missing, or null, which means the same. -/
def optional (fields : Fields) (key : String) (read? : Json → Option α) : Option (Option α) :=
  match fields key with
  | none | some .null => some none
  | some v => (read? v).map some

end Fields

end TwelveD.Json
