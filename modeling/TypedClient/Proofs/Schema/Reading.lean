import TypedClient.Schema.Basic
import TypedClient.Proofs.Json.Part
/-!
# Schemas as they are read

`Schema.references` lists the pointers of a schema in the order in which a
synthesis meets them, and `Schema.Filled` says that no list of values in
it is empty. A schema that is read from a value is made of schemas read
from values inside it (`ofJson_cases`), so its pointers are written in the
value (`written_of_mem_references`) and its lists are filled
(`filled_ofJson`).
-/

namespace TypedClient

namespace Schema

variable {pointer : String} {items schema : Schema} {members : List Schema} {kind : Composition}
variable {properties : List (PropertyLabel × Schema)} {required : Presence}
variable {discriminator : Option Discriminator}

/-- What holds of a schema when it holds of those it is made of holds of
every schema. -/
@[elab_as_elim]
theorem induction {P : Schema → Prop} (primitive : ∀ kind, P (.primitive kind))
    (enum : ∀ values, P (.enum values)) (array : ∀ items, P items → P (.array items))
    (object : ∀ properties presence, (∀ e ∈ properties, P e.2) → P (.object properties presence))
    (composition : ∀ kind members discriminator, (∀ m ∈ members, P m) →
      P (.composition kind members discriminator))
    (reference : ∀ pointer, P (.reference pointer)) (any : P .any) (schema : Schema) : P schema :=
  match schema with
  | .primitive kind => primitive kind
  | .enum values => enum values
  | .array items =>
    array items (induction primitive enum array object composition reference any items)
  | .object properties presence => object properties presence fun e _ =>
    induction primitive enum array object composition reference any e.2
  | .composition kind members discriminator => composition kind members discriminator fun m _ =>
    induction primitive enum array object composition reference any m
  | .reference pointer => reference pointer
  | .any => any
termination_by sizeOf schema
decreasing_by
  · simp only [Schema.array.sizeOf_spec]
    omega
  · rename_i he
    have hlt := List.sizeOf_lt_of_mem he
    obtain ⟨label, s⟩ := e
    simp only [Schema.object.sizeOf_spec, Prod.mk.sizeOf_spec] at hlt ⊢
    omega
  · rename_i hm
    have hlt := List.sizeOf_lt_of_mem hm
    simp only [Schema.composition.sizeOf_spec]
    omega

/-! ## The references of a schema -/

mutual

/-- The pointers of a schema, in the order in which they are met. -/
def references : Schema → List String
  | .reference pointer => [pointer]
  | .array items => references items
  | .object properties _ => propertyReferences properties
  | .composition _ members _ => memberReferences members
  | _ => []
termination_by structural schema => schema

/-- The pointers of properties. -/
def propertyReferences : List (PropertyLabel × Schema) → List String
  | [] => []
  | (_, schema) :: rest => references schema ++ propertyReferences rest
termination_by structural properties => properties

/-- The pointers of members. -/
def memberReferences : List Schema → List String
  | [] => []
  | member :: rest => references member ++ memberReferences rest
termination_by structural members => members

end

theorem propertyReferences_eq :
    propertyReferences properties = properties.flatMap fun e => references e.2 := by
  induction properties with
  | nil => rfl
  | cons e rest ih => rw [propertyReferences, ih, List.flatMap_cons]

theorem memberReferences_eq : memberReferences members = members.flatMap references := by
  induction members with
  | nil => rfl
  | cons m rest ih => rw [memberReferences, ih, List.flatMap_cons]

theorem mem_references_object :
    pointer ∈ references (.object properties required) ↔
      ∃ e ∈ properties, pointer ∈ references e.2 := by
  rw [references, propertyReferences_eq, List.mem_flatMap]

theorem mem_references_composition :
    pointer ∈ references (.composition kind members discriminator) ↔
      ∃ m ∈ members, pointer ∈ references m := by
  rw [references, memberReferences_eq, List.mem_flatMap]

/-- No list of values is empty, at any depth. -/
inductive Filled : Schema → Prop
  | primitive {kind : Primitive} : Filled (.primitive kind)
  | enum {values : List Json} : values ≠ [] → Filled (.enum values)
  | array {items : Schema} : Filled items → Filled (.array items)
  | object {properties : List (PropertyLabel × Schema)} {presence : Presence} :
      (∀ e ∈ properties, Filled e.2) → Filled (.object properties presence)
  | composition {kind : Composition} {members : List Schema}
      {discriminator : Option Discriminator} :
      (∀ m ∈ members, Filled m) → Filled (.composition kind members discriminator)
  | reference {pointer : String} : Filled (.reference pointer)
  | any : Filled .any

/-! ## What a schema is read from

The readers of lists and members, written with the library's own
operations. -/

variable {fields : List (String × Json)} {key : String}

theorem ofItems_eq {items : List Json} : ofItems items = items.map ofJson := by
  induction items with
  | nil => rfl
  | cons item rest ih => rw [ofItems, ih, List.map_cons]

theorem ofProperties_eq :
    ofProperties fields = fields.map fun e => (propertyLabel e.1 e.2, ofJson e.2) := by
  induction fields with
  | nil => rfl
  | cons e rest ih => rw [ofProperties, ih, List.map_cons]

theorem itemSchema_eq :
    itemSchema fields = ((Json.find? "items" fields).map ofJson).getD .any := by
  induction fields with
  | nil => rfl
  | cons e rest ih =>
    obtain ⟨k, value⟩ := e
    rw [itemSchema, Json.find?]
    split
    · rfl
    · exact ih

theorem schemasUnder_eq :
    schemasUnder key fields = (arrayUnder key fields).map (·.map ofJson) := by
  simp only [arrayUnder]
  induction fields with
  | nil => rfl
  | cons e rest ih =>
    obtain ⟨k, value⟩ := e
    by_cases hk : k = key
    · cases value <;> simp [schemasUnder, Json.find?, Json.items?, hk, ofItems_eq]
    · cases value <;> simp [schemasUnder, Json.find?, hk, ih]

theorem propertySchemas_eq :
    propertySchemas fields =
      (((Json.find? "properties" fields).bind Json.members?).getD []).map
        fun e => (propertyLabel e.1 e.2, ofJson e.2) := by
  induction fields with
  | nil => rfl
  | cons e rest ih =>
    obtain ⟨k, value⟩ := e
    by_cases hk : k = "properties"
    · cases value <;> simp [propertySchemas, Json.find?, Json.members?, hk, ofProperties_eq]
    · cases value <;> simp [propertySchemas, Json.find?, hk, ih]

theorem hasKey_eq : Json.hasKey key fields = (Json.find? key fields).isSome := by
  induction fields with
  | nil => rfl
  | cons e rest ih =>
    obtain ⟨k, value⟩ := e
    rw [Json.hasKey, List.any_cons, Json.find?]
    by_cases hk : k = key
    · simp [hk]
    · rw [if_neg hk, ← ih, Json.hasKey]
      simp [hk]

/-! ## Schemas are read from the inside of values -/

theorem mem_of_arrayUnder {items : List Json} (h : arrayUnder key fields = some items) :
    (key, Json.array items) ∈ fields := by
  rw [arrayUnder, Option.bind_eq_some_iff] at h
  obtain ⟨value, hvalue, hitems⟩ := h
  cases value with
  | array _ =>
    rw [Json.items?, Option.some.injEq] at hitems
    exact hitems ▸ Json.mem_of_find? hvalue
  | _ => cases hitems

theorem find?_of_stringUnder {text : String} (h : stringUnder key fields = some text) :
    Json.find? key fields = some (.string text) := by
  rw [stringUnder, Option.bind_eq_some_iff] at h
  obtain ⟨value, hvalue, htext⟩ := h
  cases value with
  | string _ =>
    rw [Json.string?, Option.some.injEq] at htext
    exact htext ▸ hvalue
  | _ => cases htext

theorem ne_nil_of_enumValues {values : List Json} (h : enumValues fields = some values) :
    values ≠ [] := by
  rw [enumValues, Option.bind_eq_some_iff] at h
  obtain ⟨listed, -, hlisted⟩ := h
  split at hlisted
  · cases hlisted
  · rename_i hne
    rw [Option.some.injEq] at hlisted
    subst hlisted
    simpa using hne

/-- A schema read from a value inside another. -/
def ReadInside (value : Json) (schema : Schema) : Prop :=
  ∃ w, Json.Inside w value ∧ schema = ofJson w

theorem readInside_of_schemasUnder {parts : List Schema}
    (h : schemasUnder key fields = some parts) :
    ∀ part ∈ parts, ReadInside (.object fields) part := by
  rw [schemasUnder_eq, Option.map_eq_some_iff] at h
  obtain ⟨items, hitems, rfl⟩ := h
  intro part hpart
  obtain ⟨item, hitem, rfl⟩ := List.mem_map.1 hpart
  exact ⟨item, (Json.inside_item hitem).trans (Json.inside_member (mem_of_arrayUnder hitems)), rfl⟩

theorem readInside_of_propertySchemas :
    ∀ e ∈ propertySchemas fields, ReadInside (.object fields) e.2 := by
  rw [propertySchemas_eq]
  intro e he
  obtain ⟨field, hfield, rfl⟩ := List.mem_map.1 he
  cases hfind : Json.find? "properties" fields with
  | none => simp [hfind] at hfield
  | some value =>
    cases value with
    | object members =>
      have hmem : (field.1, field.2) ∈ members := by simpa [hfind, Json.members?] using hfield
      exact ⟨field.2,
        (Json.inside_member hmem).trans (Json.inside_member (Json.mem_of_find? hfind)), rfl⟩
    | _ => simp [hfind, Json.members?] at hfield

theorem itemSchema_eq_any_or : itemSchema fields = .any ∨
    ReadInside (.object fields) (itemSchema fields) := by
  rw [itemSchema_eq]
  cases hfind : Json.find? "items" fields with
  | none => exact .inl rfl
  | some value => exact .inr ⟨value, Json.inside_member (Json.mem_of_find? hfind), rfl⟩

/-- **What a schema is made of when it is read from a value**: the schema
of any type, a pointer written in the value, a filled list, the properties of
the value, or schemas read from values inside. -/
theorem ofJson_cases {v : Json} {P : Schema → Prop} (any : P .any)
    (primitive : ∀ kind, P (.primitive kind))
    (reference : ∀ fields pointer, v = .object fields →
      Json.find? "$ref" fields = some (.string pointer) → P (.reference pointer))
    (enum : ∀ values, values ≠ [] → P (.enum values))
    (array : ∀ items, items = .any ∨ ReadInside v items → P (.array items))
    (object : ∀ fields, v = .object fields →
      P (.object (propertySchemas fields) (presence fields)))
    (composition : ∀ kind members discriminator, (∀ m ∈ members, ReadInside v m) →
      P (.composition kind members discriminator)) : P (ofJson v) := by
  cases v with
  | object fields =>
    rw [ofJson]
    split
    · rename_i pointer href
      exact reference fields pointer rfl (find?_of_stringUnder href)
    split
    · exact primitive _
    · exact primitive _
    · exact primitive _
    · exact primitive _
    · split
      · rename_i values hvalues
        exact enum _ (by simpa using ne_nil_of_enumValues hvalues)
      · exact primitive _
    · exact array _ itemSchema_eq_any_or
    split
    · rename_i values hvalues
      exact enum _ (ne_nil_of_enumValues hvalues)
    split
    · rename_i parts hparts
      exact composition _ _ _ (readInside_of_schemasUnder hparts)
    split
    · rename_i parts hparts
      split
      · exact object fields rfl
      · exact composition _ _ _ (readInside_of_schemasUnder hparts)
    split
    · rename_i parts hparts
      exact composition _ _ _ (readInside_of_schemasUnder hparts)
    split
    · exact object fields rfl
    · exact any
  | _ => exact any

/-- **A schema that is read has no empty list of values.** -/
theorem filled_ofJson (v : Json) : (ofJson v).Filled := by
  induction v using Json.induction_inside with
  | step v ih =>
    have inside : ∀ schema, ReadInside v schema → schema.Filled := by
      rintro _ ⟨w, hw, rfl⟩
      exact ih w hw
    refine ofJson_cases .any (fun _ => .primitive) (fun _ _ _ _ => .reference)
      (fun _ hne => .enum hne) ?_ ?_ (fun _ _ _ h => .composition fun m hm => inside _ (h m hm))
    · rintro items (rfl | h)
      · exact .array .any
      · exact .array (inside _ h)
    · rintro fields rfl
      exact .object fun e he => inside _ (readInside_of_propertySchemas e he)

/-- **The pointers of a schema that is read are written in the value**, as
the `$ref` of one of its objects. -/
theorem written_of_mem_references {v : Json} (h : pointer ∈ references (ofJson v)) :
    ∃ fields, Json.Part (.object fields) v ∧
      Json.find? "$ref" fields = some (.string pointer) := by
  induction v using Json.induction_inside with
  | step v ih =>
    have inside : ∀ schema, ReadInside v schema → pointer ∈ references schema →
        ∃ fields, Json.Part (.object fields) v ∧
          Json.find? "$ref" fields = some (.string pointer) := by
      rintro _ ⟨w, hw, rfl⟩ hp
      obtain ⟨fields, hpart, href⟩ := ih w hw hp
      exact ⟨fields, hpart.trans hw.1, href⟩
    revert h
    refine ofJson_cases (P := fun schema => pointer ∈ references schema →
      ∃ fields, Json.Part (.object fields) v ∧
        Json.find? "$ref" fields = some (.string pointer)) ?_ ?_ ?_ ?_ ?_ ?_ ?_
    · simp [references]
    · simp [references]
    · rintro fields p rfl href hp
      rw [references, List.mem_singleton] at hp
      exact ⟨fields, .self, hp ▸ href⟩
    · simp [references]
    · rintro items (rfl | hitems) hp
      · simp [references] at hp
      · exact inside items hitems hp
    · rintro fields rfl hp
      obtain ⟨e, he, hpe⟩ := mem_references_object.1 hp
      exact inside e.2 (readInside_of_propertySchemas e he) hpe
    · intro kind members discriminator hread hp
      obtain ⟨m, hm, hpm⟩ := mem_references_composition.1 hp
      exact inside m (hread m hm) hpm

end Schema

end TypedClient
