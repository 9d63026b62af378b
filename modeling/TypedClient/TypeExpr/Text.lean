import TypedClient.TypeExpr.Basic
import TypedClient.Text.Comment
import TypedClient.Identifier
/-!
# The text of type expressions

A type is written with the fewest parentheses: only an intersection in a
union and a union in an intersection have them. An array of a single word
is written with brackets behind it and any other array as `Array` of its
element. A record has one line a field, each under its comment.
-/

namespace TypedClient

namespace TypeExpr

/-- A field name as it is written: bare if it is an identifier. -/
def fieldName (name : String) : String :=
  if Identifier.isIdentifier name then name else Json.quote name

/-- What stands before the type of a field. -/
def fieldHead (depth : Nat) (label : FieldLabel) : String :=
  (match label.description with
    | some text => Text.comment text depth
    | none => "") ++
  Text.indentation depth ++ (if label.readOnly then "readonly " else "") ++
  fieldName label.name ++ (if label.required then "" else "?") ++ ": "

/-- A text in parentheses, if they are asked for. -/
def grouped (parentheses : Bool) (text : String) : String :=
  if parentheses then "(" ++ text ++ ")" else text

mutual

/-- The text of a type whose record lines are indented relative to a
depth. -/
def textAt (depth : Nat) : TypeExpr → String
  | .keyword word => word.text
  | .literal text => text
  | .ref name => name
  | .array element =>
    if element.isWord then textAt depth element ++ "[]"
    else "Array<" ++ textAt depth element ++ ">"
  | .union members =>
    if members.isEmpty then "never" else Text.join " | " (textsAt depth isIntersection members)
  | .intersection members =>
    if members.isEmpty then "unknown" else Text.join " & " (textsAt depth isUnion members)
  | .record fields =>
    if fields.isEmpty then "\x7b\x7d"
    else "\x7b\n" ++ fieldLines (depth + 1) fields ++ Text.indentation depth ++ "\x7d"
termination_by structural type => type

/-- The texts of members, in parentheses where they are needed. -/
def textsAt (depth : Nat) (needs : TypeExpr → Bool) : List TypeExpr → List String
  | [] => []
  | member :: rest => grouped (needs member) (textAt depth member) :: textsAt depth needs rest
termination_by structural members => members

/-- The lines of fields. -/
def fieldLines (depth : Nat) : List (FieldLabel × TypeExpr) → String
  | [] => ""
  | (label, type) :: rest =>
    fieldHead depth label ++ textAt depth type ++ ";\n" ++ fieldLines depth rest
termination_by structural fields => fields

end

/-- The text of a type. -/
def text (type : TypeExpr) : String := type.textAt 0

end TypeExpr

end TypedClient
