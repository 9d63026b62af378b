import TypedClient.Proofs.TypeExpr.Same
/-!
# Types without documentation

Only the labels of fields carry documentation. `TypeExpr.undocumented` drops
it at every depth and leaves a type as it is otherwise.
-/

namespace TypedClient

/-- The label without its documentation. -/
def FieldLabel.undocumented (label : FieldLabel) : FieldLabel := { label with description := none }

@[simp] theorem FieldLabel.undocumented_plain (name : String) :
    (FieldLabel.plain name).undocumented = .plain name := rfl

namespace TypeExpr

mutual

/-- The type without the documentation of its fields. -/
def undocumented : TypeExpr → TypeExpr
  | .keyword word => .keyword word
  | .literal text => .literal text
  | .ref name => .ref name
  | .array element => .array (undocumented element)
  | .union members => .union (undocumentedAll members)
  | .intersection members => .intersection (undocumentedAll members)
  | .record fields => .record (undocumentedFields fields)
termination_by structural type => type

/-- The types without the documentation of their fields. -/
def undocumentedAll : List TypeExpr → List TypeExpr
  | [] => []
  | member :: rest => undocumented member :: undocumentedAll rest
termination_by structural members => members

/-- The fields without documentation, inside their types neither. -/
def undocumentedFields : List (FieldLabel × TypeExpr) → List (FieldLabel × TypeExpr)
  | [] => []
  | (label, type) :: rest => (label.undocumented, undocumented type) :: undocumentedFields rest
termination_by structural fields => fields

end

variable {type : TypeExpr} {members : List TypeExpr} {fields : List (FieldLabel × TypeExpr)}

theorem undocumentedAll_eq : undocumentedAll members = members.map undocumented := by
  induction members with
  | nil => rfl
  | cons member rest ih => rw [undocumentedAll, ih, List.map_cons]

theorem undocumentedFields_eq : undocumentedFields fields =
    fields.map fun f => (f.1.undocumented, f.2.undocumented) := by
  induction fields with
  | nil => rfl
  | cons f rest ih => rw [undocumentedFields, ih, List.map_cons]

@[simp] theorem undocumented_literal (text : String) :
    (literal text).undocumented = .literal text := rfl

@[simp] theorem undocumented_ref (name : String) : (ref name).undocumented = .ref name := rfl

@[simp] theorem undocumented_array (element : TypeExpr) :
    (array element).undocumented = .array element.undocumented := rfl

@[simp] theorem undocumented_union :
    (union members).undocumented = .union (members.map undocumented) :=
  congrArg union undocumentedAll_eq

@[simp] theorem undocumented_intersection :
    (intersection members).undocumented = .intersection (members.map undocumented) :=
  congrArg intersection undocumentedAll_eq

@[simp] theorem undocumented_record : (record fields).undocumented =
    .record (fields.map fun f => (f.1.undocumented, f.2.undocumented)) :=
  congrArg record undocumentedFields_eq

@[simp] theorem undocumented_any : any.undocumented = any := rfl

/-! ## What stays -/

@[simp] theorem isWord_undocumented : type.undocumented.isWord = type.isWord := by
  cases type <;> rfl

@[simp] theorem isRecord_undocumented : type.undocumented.isRecord = type.isRecord := by
  cases type <;> rfl

@[simp] theorem isUnion_undocumented : type.undocumented.isUnion = type.isUnion := by
  cases type <;> rfl

@[simp] theorem isIntersection_undocumented :
    type.undocumented.isIntersection = type.isIntersection := by
  cases type <;> rfl

end TypeExpr

end TypedClient
