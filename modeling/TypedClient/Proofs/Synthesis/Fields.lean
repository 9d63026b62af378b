import TypedClient.Proofs.Json.Members
import TypedClient.Proofs.Synthesis.Translation
/-!
# The fields of synthesized records

The properties of an object schema are the members of one value. So where no
object of a document has a key twice, no object schema has two properties of one
name (`distinctProperties_ofJson`), and no record of a translation has two
fields of one name (`distinctFields_translate`).
-/

namespace TypedClient

namespace Schema

variable {v : Json} {fields : List (String × Json)}

/-- **No object has two properties of one name**, at any depth. -/
inductive DistinctProperties : Schema → Prop
  | primitive {kind : Primitive} : DistinctProperties (.primitive kind)
  | enum {values : List Json} : DistinctProperties (.enum values)
  | array {items : Schema} : DistinctProperties items → DistinctProperties (.array items)
  | object {properties : List (PropertyLabel × Schema)} {presence : Presence} :
      (properties.map (·.1.name)).Nodup → (∀ e ∈ properties, DistinctProperties e.2) →
      DistinctProperties (.object properties presence)
  | composition {kind : Composition} {members : List Schema}
      {discriminator : Option Discriminator} :
      (∀ m ∈ members, DistinctProperties m) →
      DistinctProperties (.composition kind members discriminator)
  | reference {pointer : String} : DistinctProperties (.reference pointer)
  | any : DistinctProperties .any

/-- The properties of an object are called by the keys of one value. -/
theorem nodup_propertySchemas (h : Json.Regular (.object fields)) :
    ((propertySchemas fields).map (·.1.name)).Nodup := by
  have hkeys : (propertySchemas fields).map (·.1.name) =
      Json.keys ((Json.object? "properties" fields).getD []) := by
    rw [propertySchemas_eq, List.map_map]
    rfl
  rw [hkeys]
  exact h.under.nodup_keys

/-- **A schema that is read from a regular value has distinct properties.** -/
theorem distinctProperties_ofJson (h : v.Regular) : (ofJson v).DistinctProperties := by
  induction v using Json.induction_inside with
  | step v ih =>
    have inside : ∀ schema, ReadInside v schema → schema.DistinctProperties := by
      rintro _ ⟨w, hw, rfl⟩
      exact ih w hw (h.part hw.1)
    refine ofJson_cases .any (fun _ => .primitive) (fun _ _ _ _ => .reference) (fun _ _ => .enum)
      ?_ ?_ (fun _ _ _ hread => .composition fun m hm => inside _ (hread m hm))
    · rintro items (rfl | hread)
      · exact .array .any
      · exact .array (inside _ hread)
    · rintro fields rfl
      exact .object (nodup_propertySchemas h) fun e he =>
        inside _ (readInside_of_propertySchemas e he)

end Schema

namespace Synthesis

open TypeExpr (DistinctFields)

variable {withDoc : Bool} {kind : Composition} {discriminator : Option Discriminator}
variable {schema member : Schema} {type : TypeExpr}

theorem distinctFields_tagValue {d : Discriminator} : (tagValue d member).DistinctFields := by
  cases member with
  | reference pointer =>
    rw [tagValue]
    split
    · exact .literal
    · exact .keyword
  | _ => exact .keyword

/-- A member keeps distinct fields when it is tagged: the tag is a record of its
own. -/
theorem distinctFields_memberType (h : type.DistinctFields) :
    (memberType kind discriminator member type).DistinctFields := by
  cases discriminator with
  | none => exact h
  | some d =>
    have hrecord : (TypeExpr.record [(.plain d.propertyName, tagValue d member)]).DistinctFields :=
      .record (List.nodup_singleton _)
        (List.forall_mem_singleton.2 distinctFields_tagValue)
    have htagged : (tagged d member type).DistinctFields :=
      .intersection (List.forall_mem_cons.2 ⟨h, List.forall_mem_singleton.2 hrecord⟩)
    cases kind with
    | allOf => exact h
    | oneOf => exact htagged
    | anyOf => exact htagged

/-- **The translation of a schema with distinct properties has distinct
fields.** -/
theorem distinctFields_translate (h : schema.DistinctProperties) :
    (translate withDoc schema).DistinctFields := by
  induction h with
  | primitive => exact .keyword
  | any => exact .keyword
  | reference => exact .ref
  | enum =>
    refine .union fun m hm => ?_
    obtain ⟨value, -, rfl⟩ := List.mem_map.1 hm
    exact .literal
  | array _ ih => exact .array ih
  | @object properties presence hnames _ ih =>
    rw [translate, translateFields_eq]
    refine .record ?_ fun field hfield => ?_
    · rw [List.map_map]
      exact hnames
    · obtain ⟨e, he, rfl⟩ := List.mem_map.1 hfield
      exact ih e he
  | @composition kind members discriminator _ ih =>
    have hmembers : ∀ m ∈ translateMembers withDoc kind discriminator members,
        m.DistinctFields := by
      rw [translateMembers_eq]
      intro m hm
      obtain ⟨member, hmember, rfl⟩ := List.mem_map.1 hm
      exact distinctFields_memberType (ih member hmember)
    rw [translate]
    split
    · exact .keyword
    · cases kind with
      | allOf => exact .intersection hmembers
      | oneOf => exact .union hmembers
      | anyOf => exact .union hmembers

end Synthesis

end TypedClient
