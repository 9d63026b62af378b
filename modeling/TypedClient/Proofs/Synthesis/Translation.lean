import TypedClient.Synthesis
import TypedClient.Proofs.Schema.Reading
import TypedClient.Proofs.TypeExpr.Part
/-!
# The plain translation of schemas

`translate` reads the type of a schema off without a registry: a reference
is the name of its target, wherever it leads. A synthesis gives the same
type by way of a registry, and the registry collects the plain definitions
of the targets. The translation of a filled schema is well formed over the
names of the schema's references (`wellFormed_translate`).
-/

namespace TypedClient

namespace Synthesis

mutual

/-- The type of a schema, where a reference is the name of its target. -/
def translate (withDoc : Bool) : Schema → TypeExpr
  | .reference pointer => .ref (Pointer.typeName pointer)
  | .primitive kind => .keyword (keyword kind)
  | .enum values => .union (values.map .ofJson)
  | .array items => .array (translate withDoc items)
  | .object properties presence =>
    .record (translateFields withDoc presence.names properties)
  | .composition kind members discriminator =>
    if members.isEmpty then .any
    else composed kind (translateMembers withDoc kind discriminator members)
  | .any => .any
termination_by structural schema => schema

/-- The fields for properties, in order. -/
def translateFields (withDoc : Bool) (required : List String) :
    List (PropertyLabel × Schema) → List (FieldLabel × TypeExpr)
  | [] => []
  | (label, schema) :: rest =>
    (fieldLabel withDoc required label, translate withDoc schema) ::
      translateFields withDoc required rest
termination_by structural properties => properties

/-- The types of the members of a composition, in order. -/
def translateMembers (withDoc : Bool) (kind : Composition) (discriminator : Option Discriminator) :
    List Schema → List TypeExpr
  | [] => []
  | member :: rest =>
    memberType kind discriminator member (translate withDoc member) ::
      translateMembers withDoc kind discriminator rest
termination_by structural members => members

end

/-- What the name of a target stands for. -/
def definition (withDoc : Bool) (target : Json) : NamedType :=
  ⟨translate withDoc (Schema.ofJson target), description withDoc target⟩

/-- Two targets that a synthesis cannot tell apart: one schema, and one
description. -/
structure Alike (target other : Json) : Prop where
  schema : Schema.ofJson target = Schema.ofJson other
  description : description true target = description true other

theorem Alike.refl (target : Json) : Alike target target := ⟨rfl, rfl⟩

variable {withDoc : Bool} {required : List String} {kind : Composition}
variable {discriminator : Option Discriminator}

theorem Alike.definition_eq {target other : Json} (h : Alike target other) :
    definition withDoc target = definition withDoc other := by
  rw [definition, definition, h.schema]
  cases withDoc with
  | true => rw [h.description]
  | false => rfl

theorem translateFields_eq {properties : List (PropertyLabel × Schema)} :
    translateFields withDoc required properties =
      properties.map fun e => (fieldLabel withDoc required e.1, translate withDoc e.2) := by
  induction properties with
  | nil => rfl
  | cons e rest ih => rw [translateFields, ih, List.map_cons]

theorem translateMembers_eq {members : List Schema} :
    translateMembers withDoc kind discriminator members =
      members.map fun m => memberType kind discriminator m (translate withDoc m) := by
  induction members with
  | nil => rfl
  | cons m rest ih => rw [translateMembers, ih, List.map_cons]

/-! ## The types are well formed -/

variable {known : String → Prop} {schema : Schema} {type : TypeExpr}

theorem wellFormed_tagValue {d : Discriminator} {member : Schema} :
    (tagValue d member).WellFormed known := by
  cases member with
  | reference pointer =>
    rw [tagValue]
    split
    · exact .literal
    · exact .keyword
  | _ => exact .keyword

/-- A member stays well formed when it is tagged. -/
theorem wellFormed_memberType {member : Schema} (h : type.WellFormed known) :
    (memberType kind discriminator member type).WellFormed known := by
  cases discriminator with
  | none => exact h
  | some d =>
    have htagged : (tagged d member type).WellFormed known := by
      refine .intersection (by simp) fun part hpart => ?_
      rcases List.mem_cons.1 hpart with rfl | hpart
      · exact h
      · obtain rfl := List.mem_singleton.1 hpart
        refine .record fun field hfield => ?_
        obtain rfl := List.mem_singleton.1 hfield
        exact wellFormed_tagValue
    cases kind with
    | allOf => exact h
    | oneOf => exact htagged
    | anyOf => exact htagged

/-- **The translation of a filled schema is well formed** over the names of
its references. -/
theorem wellFormed_translate (hfilled : schema.Filled)
    (h : ∀ p ∈ schema.references, known (Pointer.typeName p)) :
    (translate withDoc schema).WellFormed known := by
  induction hfilled with
  | primitive => exact .keyword
  | any => exact .keyword
  | reference => exact .ref (h _ List.mem_cons_self)
  | enum hne =>
    refine .union (by simpa using hne) fun m hm => ?_
    obtain ⟨value, -, rfl⟩ := List.mem_map.1 hm
    exact .literal
  | array _ ih => exact .array (ih h)
  | object _ ih =>
    rw [translate, translateFields_eq]
    refine .record fun field hfield => ?_
    obtain ⟨e, he, rfl⟩ := List.mem_map.1 hfield
    exact ih e he fun p hp => h p (Schema.mem_references_object.2 ⟨e, he, hp⟩)
  | @composition kind members discriminator _ ih =>
    have hmembers : ∀ m ∈ translateMembers withDoc kind discriminator members,
        m.WellFormed known := by
      rw [translateMembers_eq]
      intro m hm
      obtain ⟨member, hmember, rfl⟩ := List.mem_map.1 hm
      exact wellFormed_memberType (ih member hmember fun p hp =>
        h p (Schema.mem_references_composition.2 ⟨member, hmember, hp⟩))
    rw [translate]
    split
    · exact .keyword
    · rename_i hne
      have hsome : translateMembers withDoc kind discriminator members ≠ [] := by
        rw [translateMembers_eq]
        simpa using hne
      cases kind with
      | allOf => exact .intersection hsome hmembers
      | oneOf => exact .union hsome hmembers
      | anyOf => exact .union hsome hmembers

end Synthesis

end TypedClient
