import TypedClient.Schema.Basic
import TypedClient.Pointer
import TypedClient.Registry
/-!
# Synthesis of types

A schema becomes a type expression. A reference becomes the name of its
target and puts the target's type into the registry, unless the name is
bound already. The name is reserved before the target is read, so a cycle
of references ends at its own name, and every step into a target binds one
name more: no chain of steps is longer than the number of references
written in the document, and one more for the first.
-/

namespace TypedClient

/-- Computations that may fail and that keep the registry they have
reached in any case. -/
abbrev Synthesis (α : Type) := ExceptT Error (StateM Registry) α

namespace Synthesis

/-- Binds a name to its definition. -/
def define (name : String) (definition : NamedType) : Synthesis Unit := do
  match (← get).register name definition with
  | .ok registry => set registry
  | .error e => throw e

/-- The built-in type of a simple kind. -/
def keyword : Primitive → Keyword
  | .string => .string
  | .number => .number
  | .boolean => .boolean
  | .null => .null

/-- The value that the discriminating property has for a member. -/
def tagValue (discriminator : Discriminator) : Schema → TypeExpr
  | .reference pointer =>
    match discriminator.valueFor? pointer with
    | some value => .ofString value
    | none => .string
  | _ => .string

/-- A member's type together with the value of the discriminating
property. -/
def tagged (discriminator : Discriminator) (member : Schema) (type : TypeExpr) : TypeExpr :=
  .intersection [type,
    .record [(.plain discriminator.propertyName, tagValue discriminator member)]]

/-- The type of a member of a composition, tagged unless all members hold
at once. -/
def memberType (kind : Composition) (discriminator : Option Discriminator) (member : Schema)
    (type : TypeExpr) : TypeExpr :=
  match discriminator, kind with
  | some _, .allOf => type
  | some d, _ => tagged d member type
  | none, _ => type

/-- The type of a composition from those of its members. -/
def composed : Composition → List TypeExpr → TypeExpr
  | .allOf, members => .intersection members
  | _, members => .union members

/-- The label of the field for a property. -/
def fieldLabel (withDoc : Bool) (required : List String) (label : PropertyLabel) : FieldLabel :=
  ⟨label.name, required.contains label.name, label.readOnly,
   if withDoc then label.description else none⟩

mutual

/-- The type of a schema, where `named` says what references stand for. -/
def inline (withDoc : Bool) (named : String → Synthesis TypeExpr) : Schema → Synthesis TypeExpr
  | .reference pointer => named pointer
  | .primitive kind => return .keyword (keyword kind)
  | .enum values => return .union (values.map .ofJson)
  | .array items => return .array (← inline withDoc named items)
  | .object properties presence =>
    return .record (← inlineFields withDoc named presence.names properties)
  | .composition kind members discriminator => do
    if members.isEmpty then return .any
    else return composed kind (← inlineMembers withDoc named kind discriminator members)
  | .any => return .any
termination_by structural schema => schema

/-- The fields for properties, in order. -/
def inlineFields (withDoc : Bool) (named : String → Synthesis TypeExpr) (required : List String) :
    List (PropertyLabel × Schema) → Synthesis (List (FieldLabel × TypeExpr))
  | [] => return []
  | (label, schema) :: rest => do
    let type ← inline withDoc named schema
    let fields ← inlineFields withDoc named required rest
    return (fieldLabel withDoc required label, type) :: fields
termination_by structural properties => properties

/-- The types of the members of a composition, in order. -/
def inlineMembers (withDoc : Bool) (named : String → Synthesis TypeExpr) (kind : Composition)
    (discriminator : Option Discriminator) : List Schema → Synthesis (List TypeExpr)
  | [] => return []
  | member :: rest => do
    let type ← inline withDoc named member
    let types ← inlineMembers withDoc named kind discriminator rest
    return memberType kind discriminator member type :: types
termination_by structural members => members

end

/-- The description of a target. -/
def description (withDoc : Bool) (target : Json) : Option String :=
  if withDoc then (target.get? "description").bind Json.string? else none

/-- The named type for a pointer. The name is reserved before the target
is read. The first argument bounds the number of references open at the
same time. -/
def referenceWithin (document : Json) (withDoc : Bool) : Nat → String → Synthesis TypeExpr
  | depth, pointer => do
    if (← get).contains (Pointer.typeName pointer) then
      return .ref (Pointer.typeName pointer)
    else
      match depth with
      | 0 => throw (.unresolved pointer)
      | depth + 1 =>
        modify fun registry => registry.reserve (Pointer.typeName pointer)
        match Pointer.resolve? document pointer with
        | none => throw (.unresolved pointer)
        | some target =>
          let type ← inline withDoc (referenceWithin document withDoc depth) (Schema.ofJson target)
          define (Pointer.typeName pointer) ⟨type, description withDoc target⟩
          return .ref (Pointer.typeName pointer)

mutual

/-- The number of references written in a value. -/
def referenceCount : Json → Nat
  | .array items => itemReferenceCount items
  | .object members => memberReferenceCount members
  | _ => 0
termination_by structural value => value

/-- The number of references written in values. -/
def itemReferenceCount : List Json → Nat
  | [] => 0
  | item :: rest => referenceCount item + itemReferenceCount rest
termination_by structural items => items

/-- The number of references written in members, the members themselves
included. -/
def memberReferenceCount : List (String × Json) → Nat
  | [] => 0
  | (key, value) :: rest =>
    (match key, value with
      | "$ref", .string _ => 1
      | _, _ => referenceCount value) + memberReferenceCount rest
termination_by structural members => members

end

/-- The named type for a pointer. -/
def reference (document : Json) (withDoc : Bool) (pointer : String) : Synthesis TypeExpr :=
  referenceWithin document withDoc (referenceCount document + 1) pointer

/-- The type of a schema. -/
def synthesize (document : Json) (withDoc : Bool) (schema : Schema) : Synthesis TypeExpr :=
  inline withDoc (reference document withDoc) schema

end Synthesis

end TypedClient
