import TypedClient.Json.Text
/-!
# Type expressions

The types of a generated client: keywords, literals, names, arrays,
unions, intersections and record types. A record is the list of its
fields in order, each with a label and a type.
-/

namespace TypedClient

/-- The built-in types. -/
inductive Keyword where
  | string
  | number
  | boolean
  | null
  | any
deriving DecidableEq, Repr

/-- The word for a built-in type. -/
def Keyword.text : Keyword → String
  | .string => "string"
  | .number => "number"
  | .boolean => "boolean"
  | .null => "null"
  | .any => "any"

/-- What a record says of a field besides its type. -/
structure FieldLabel where
  name : String
  required : Bool
  readOnly : Bool
  description : Option String
deriving DecidableEq, Repr

/-- A required, writable field without documentation. -/
def FieldLabel.plain (name : String) : FieldLabel := ⟨name, true, false, none⟩

/-- A type expression. -/
inductive TypeExpr where
  | keyword (word : Keyword)
  /-- A literal type in its written form. -/
  | literal (text : String)
  /-- A named type. -/
  | ref (name : String)
  | array (element : TypeExpr)
  | union (members : List TypeExpr)
  | intersection (members : List TypeExpr)
  | record (fields : List (FieldLabel × TypeExpr))
deriving Repr

namespace TypeExpr

instance : Inhabited TypeExpr := ⟨.keyword .any⟩

/-- The type of everything. -/
def any : TypeExpr := .keyword .any

/-- The type of texts. -/
def string : TypeExpr := .keyword .string

/-- The type of numbers. -/
def number : TypeExpr := .keyword .number

/-- The literal type of a JSON value, in the value's own text. -/
def ofJson (value : Json) : TypeExpr := .literal value.text

/-- The literal type of a text. -/
def ofString (value : String) : TypeExpr := .literal (Json.quote value)

/-- Whether a type is written as a single word. -/
def isWord : TypeExpr → Bool
  | .keyword _ => true
  | .ref _ => true
  | _ => false

/-- Whether a type is a record. -/
def isRecord : TypeExpr → Bool
  | .record _ => true
  | _ => false

/-- Whether a type is a union. -/
def isUnion : TypeExpr → Bool
  | .union _ => true
  | _ => false

/-- Whether a type is an intersection. -/
def isIntersection : TypeExpr → Bool
  | .intersection _ => true
  | _ => false

mutual

/-- Equality of type expressions. -/
def same : TypeExpr → TypeExpr → Bool
  | .keyword v, .keyword w => v == w
  | .literal s, .literal t => s == t
  | .ref m, .ref n => m == n
  | .array a, .array b => same a b
  | .union as, .union bs => sameAll as bs
  | .intersection as, .intersection bs => sameAll as bs
  | .record as, .record bs => sameFields as bs
  | _, _ => false
termination_by structural a => a

/-- Equality of lists of type expressions. -/
def sameAll : List TypeExpr → List TypeExpr → Bool
  | [], [] => true
  | a :: as, b :: bs => same a b && sameAll as bs
  | _, _ => false
termination_by structural as => as

/-- Equality of fields: labels, documentation included, and types. -/
def sameFields : List (FieldLabel × TypeExpr) → List (FieldLabel × TypeExpr) → Bool
  | [], [] => true
  | (l, a) :: as, (m, b) :: bs => l == m && same a b && sameFields as bs
  | _, _ => false
termination_by structural as => as

end

end TypeExpr

end TypedClient
