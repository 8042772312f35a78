/-!
# JSON values

Objects keep their members as they were written, repeated keys included. `member?` looks a key up,
and `tidy` gives the form in which values are sent: keys sorted and each key once, with the value
that was written last.
-/

namespace TwelveD

/-- A number. Whole numbers between `-2^63` and `2^64 - 1` are exact, all others are doubles. -/
inductive Number where
  | int (value : Int)
  | double (value : Float)

/-- A JSON value. -/
inductive Json where
  | null
  | bool (value : Bool)
  | number (value : Number)
  | string (value : String)
  | array (items : List Json)
  /-- An object with its members in the order of the text. -/
  | object (members : List (String × Json))

namespace Json

instance : Inhabited Json := ⟨.null⟩

/-- A whole number as a value. -/
def ofInt (n : Int) : Json := .number (.int n)

/-- A natural number as a value. -/
def ofNat (n : Nat) : Json := ofInt n

/-- A value that may be missing, which is then null. -/
def ofOption (v : Option Json) : Json := v.getD .null

/-- The members of an object of which some may be missing. -/
def ofMembers (members : List (String × Option Json)) : Json :=
  .object (members.filterMap fun (key, value) => value.map (key, ·))

/-- The last of the members with a given key. -/
def lastMember? (key : String) (members : List (String × Json)) : Option Json :=
  members.foldl (fun found (k, v) => if k == key then some v else found) none

/-- The value of a key in an object. -/
def member? (key : String) : Json → Option Json
  | .object members => lastMember? key members
  | _ => none

/-- Puts a member into a list of members that is sorted by key; a member with the same key is
    replaced. -/
def putMember (key : String) (value : Json) : List (String × Json) → List (String × Json)
  | [] => [(key, value)]
  | (k, v) :: rest =>
    if key < k then (key, value) :: (k, v) :: rest
    else if key = k then (key, value) :: rest
    else (k, v) :: putMember key value rest

mutual

/-- A value in which every object has its keys sorted and each key once. -/
def tidy : Json → Json
  | .array items => .array (tidyItems items)
  | .object members => .object (tidyMembers members [])
  | v => v

/-- The tidy forms of a list of values. -/
def tidyItems : List Json → List Json
  | [] => []
  | v :: rest => tidy v :: tidyItems rest

/-- Puts the tidy forms of members into a sorted list of members. -/
def tidyMembers : List (String × Json) → List (String × Json) → List (String × Json)
  | [], sorted => sorted
  | (key, v) :: rest, sorted => tidyMembers rest (putMember key (tidy v) sorted)

end

end Json

end TwelveD
