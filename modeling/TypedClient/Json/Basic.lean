import TypedClient.Decimal.Binary64
/-!
# JSON values

A value tree with ordered objects: an object is the list of its members
in the order they are written. Readers produce objects without repeated
keys; `insert` keeps them so, replacing a value where its key stands.
-/

namespace TypedClient

/-- A number is an integer or a double; the two are kept apart, so `1` and
`1.0` are different numbers. -/
inductive Number where
  | integer (n : Int)
  | double (x : Binary64)
deriving DecidableEq, Repr

/-- A JSON value. -/
inductive Json where
  | null
  | bool (b : Bool)
  | number (n : Number)
  | string (s : String)
  | array (items : List Json)
  | object (members : List (String × Json))
deriving Repr

namespace Json

instance : Inhabited Json := ⟨.null⟩

/-- The value of the first member with a key. -/
def find? (key : String) : List (String × Json) → Option Json
  | [] => none
  | (k, v) :: rest => if k = key then some v else find? key rest

/-- Whether a key is among the members. -/
def hasKey (key : String) (members : List (String × Json)) : Bool :=
  members.any fun m => m.1 == key

/-- The members with a value under a key: in place of the value that is
there, or at the end. -/
def insert (key : String) (value : Json) : List (String × Json) → List (String × Json)
  | [] => [(key, value)]
  | (k, v) :: rest => if k = key then (k, value) :: rest else (k, v) :: insert key value rest

/-- The members without those of one key. -/
def erase (key : String) (members : List (String × Json)) : List (String × Json) :=
  members.filter fun m => m.1 != key

/-- The value of a key, if this is an object that has it. -/
def get? (key : String) : Json → Option Json
  | .object members => find? key members
  | _ => none

/-- The members of an object. -/
def members? : Json → Option (List (String × Json))
  | .object members => some members
  | _ => none

/-- The items of an array. -/
def items? : Json → Option (List Json)
  | .array items => some items
  | _ => none

/-- The text of a string. -/
def string? : Json → Option String
  | .string s => some s
  | _ => none

/-- The value of a boolean. -/
def bool? : Json → Option Bool
  | .bool b => some b
  | _ => none

end Json

end TypedClient
