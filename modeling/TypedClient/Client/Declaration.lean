import TypedClient.Api.Basic
import TypedClient.Naming
import TypedClient.Options.Basic
import TypedClient.TypeExpr.Text
/-!
# Declarations of a client

A named type is declared as an interface if it is a record and as a type
otherwise. An endpoint declares the type of its arguments, the type of its
results, one type for each status, and its function. `Binding` gathers
them before anything is laid out.
-/

namespace TypedClient

/-- The declaration of a named type, after its comment. -/
def NamedType.declaration (name : String) (named : NamedType) : String :=
  (match named.description with
    | some text => Text.comment text 0
    | none => "") ++
  (if named.type.isRecord then "export interface " ++ name ++ " " ++ named.type.text
    else "export type " ++ name ++ " = " ++ named.type.text ++ ";")

/-- The declarations of one endpoint. -/
structure Binding where
  endpoint : Endpoint
  names : Names
  /-- The type of the arguments. -/
  params : TypeExpr
  /-- The types for the statuses with their names, in order. -/
  variants : List (String × NamedType)

namespace Binding

/-- A description, if comments are wanted. -/
def documented (withDoc : Bool) (description : Option String) : Option String :=
  if withDoc then description else none

/-- The field for an argument. -/
def argumentField (withDoc : Bool) (a : Argument) : FieldLabel × TypeExpr :=
  (⟨a.name, a.required, false, documented withDoc a.description⟩, a.type.typeExpr)

/-- The field for the body. -/
def bodyField (withDoc : Bool) (b : Body) : FieldLabel × TypeExpr :=
  (⟨"data", b.required, false, documented withDoc b.description⟩, b.type)

/-- The field for a group of arguments, required if one of them is. An
empty group has none. -/
def groupField (withDoc : Bool) (name : String) (group : List Argument) :
    List (FieldLabel × TypeExpr) :=
  if group.isEmpty then []
  else [(⟨name, group.any (·.required), false, none⟩,
    .record (group.map (argumentField withDoc)))]

/-- The type of the arguments of an endpoint. -/
def paramsType (withDoc : Bool) (e : Endpoint) : TypeExpr :=
  .record (e.pathArguments.map (argumentField withDoc) ++
    (e.body.map (bodyField withDoc)).toList ++
    groupField withDoc "query" e.queryArguments ++
    groupField withDoc "headers" e.headerArguments)

/-- The type of a result with a status and data. -/
def resultRecord (status data : TypeExpr) : TypeExpr :=
  .record [(.plain "status", status), (.plain "headers", .ref "Headers"), (.plain "data", data)]

/-- The type of the result for one status. -/
def variantType (o : Outcome) : TypeExpr :=
  resultRecord o.status.fieldType
    (match Media.preferred? o.mediaTypes with
      | some (_, type) => type
      | none => .any)

/-- The result type for a status with its name. -/
def variant (withDoc : Bool) (names : Names) (o : Outcome) : String × NamedType :=
  (names.variant o.status, ⟨variantType o, documented withDoc o.description⟩)

/-- The declarations of an endpoint. -/
def ofEndpoint (withDoc : Bool) (e : Endpoint) : Binding :=
  let names := Names.ofPath e.method e.path
  ⟨e, names, paramsType withDoc e, e.outcomes.map (variant withDoc names)⟩

/-- The type of the results: one of the types for the statuses, or a
record of anything if there are none. -/
def resultType (b : Binding) : TypeExpr :=
  if b.variants.isEmpty then resultRecord .number .any
  else .union (b.variants.map fun (name, _) => .ref name)

/-- The named types that an endpoint declares, in order. -/
def typeDeclarations (b : Binding) : List (String × NamedType) :=
  (b.names.params, ⟨b.params, none⟩) :: (b.names.result, ⟨b.resultType, none⟩) :: b.variants

end Binding

end TypedClient
