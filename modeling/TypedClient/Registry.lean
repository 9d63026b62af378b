import TypedClient.TypeExpr.Basic
import TypedClient.Error
/-!
# The registry of named types

A registry binds names in the order of their first mention. A name is
reserved before its type is known and pending until then; once defined,
its type stays. Defining a name again with the same type changes nothing,
and with another type fails.
-/

namespace TypedClient

/-- What a name stands for. -/
structure NamedType where
  type : TypeExpr
  description : Option String

/-- Names in the order of their first mention, each with its definition or
pending. -/
structure Registry where
  entries : List (String × Option NamedType)

namespace Registry

/-- The registry without names. -/
def empty : Registry := ⟨[]⟩

instance : Inhabited Registry := ⟨empty⟩

/-- The entry of a name in a list of entries. -/
def find? (name : String) : List (String × Option NamedType) → Option (Option NamedType)
  | [] => none
  | (n, entry) :: rest => if n = name then some entry else find? name rest

/-- The entries with a definition under a name: where the name stands, or
at the end. -/
def bind (name : String) (definition : NamedType) :
    List (String × Option NamedType) → List (String × Option NamedType)
  | [] => [(name, some definition)]
  | (n, entry) :: rest =>
    if n = name then (n, some definition) :: rest else (n, entry) :: bind name definition rest

/-- The entry of a name: `none` for an unknown name, `some none` for a
pending one. -/
def binding? (r : Registry) (name : String) : Option (Option NamedType) := find? name r.entries

/-- Whether a name is bound, defined or pending. -/
def contains (r : Registry) (name : String) : Bool := (r.binding? name).isSome

/-- Whether a name is pending. -/
def isPending (r : Registry) (name : String) : Bool :=
  match r.binding? name with
  | some none => true
  | _ => false

/-- The definition of a name. -/
def lookup? (r : Registry) (name : String) : Option NamedType :=
  match r.binding? name with
  | some entry => entry
  | none => none

/-- The registry with a name pending, unless it is bound. -/
def reserve (r : Registry) (name : String) : Registry :=
  if r.contains name then r else ⟨r.entries ++ [(name, none)]⟩

/-- The registry with a definition of a name. A pending name keeps its
place; descriptions do not count when types are compared. -/
def register (r : Registry) (name : String) (definition : NamedType) : Except Error Registry :=
  match r.binding? name with
  | some (some existing) =>
    if existing.type.same definition.type then .ok r else .error (.conflicting name)
  | _ => .ok ⟨bind name definition r.entries⟩

/-- The defined names in order. -/
def definitions (r : Registry) : List (String × NamedType) :=
  r.entries.filterMap fun (name, entry) => entry.map fun definition => (name, definition)

/-- The number of bound names. -/
def size (r : Registry) : Nat := r.entries.length

end Registry

end TypedClient
