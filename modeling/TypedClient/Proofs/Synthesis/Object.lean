import TypedClient.Proofs.Json.Members
import TypedClient.Proofs.Synthesis.Run
/-!
# Objects become records

Which values are object schemas (`DeclaresObject`), and which properties they
require (`Requires`), said of the values themselves. An object schema that is
synthesized is a record with a field for each of its properties, in their order
(`record_of_object`).
-/

namespace TypedClient

namespace Schema

variable {v branch : Json} {fields : List (String × Json)} {key name : String}
variable {items : List Json} {properties : List (PropertyLabel × Schema)} {required : Presence}
variable {p : Presence}

/-- A value lists a name among the required ones. -/
def Names (v : Json) (name : String) : Prop :=
  ∃ listed, v.get? "required" = some (.array listed) ∧ .string name ∈ listed

/-- **Which properties a value requires**: those that it lists. If it has no list,
those that each branch lists which lists any, where there is such a branch. -/
def Requires (v : Json) (name : String) : Prop :=
  Names v name ∨
    (∀ listed, v.get? "required" ≠ some (.array listed)) ∧
      ∃ branches, v.get? "oneOf" = some (.array branches) ∧
        (∃ b ∈ branches, ∃ other, Names b other) ∧
        ∀ b ∈ branches, (∃ other, Names b other) → Names b name

/-- An object that says nothing of a shape. -/
def Shapeless (v : Json) : Prop :=
  ∃ members, v = .object members ∧ ∀ key ∈ shapeKeys, key ∉ Json.keys members

/-- The words for types that are no objects. -/
def typeWords : List String := ["integer", "number", "boolean", "null", "string", "array"]

/-- **A value that is read as an object schema.** It is an object, since it has
properties. -/
structure DeclaresObject (v : Json) : Prop where
  /-- It is no reference. -/
  reference : ∀ pointer, v.get? "$ref" ≠ some (.string pointer)
  /-- Its type, if it has one, is none of the words for other types. -/
  type : ∀ word ∈ typeWords, v.get? "type" ≠ some (.string word)
  /-- It lists no values. -/
  enum : ∀ values, v.get? "enum" = some (.array values) → values = []
  /-- It is not composed of parts that hold together. -/
  allOf : ∀ parts, v.get? "allOf" ≠ some (.array parts)
  properties : v.get? "properties" ≠ none
  /-- If it has alternatives they have no shape. -/
  branches : (∃ parts, v.get? "oneOf" = some (.array parts) ∧ ∀ part ∈ parts, Shapeless part) ∨
    (∀ parts, v.get? "oneOf" ≠ some (.array parts)) ∧
      ∀ parts, v.get? "anyOf" ≠ some (.array parts)

/-! ## What stands under a key -/

theorem stringUnder_eq_some_iff {text : String} :
    stringUnder key fields = some text ↔ Json.find? key fields = some (.string text) := by
  refine ⟨find?_of_stringUnder, fun h => ?_⟩
  rw [stringUnder, h]
  rfl

theorem stringUnder_eq_none_iff :
    stringUnder key fields = none ↔ ∀ text, Json.find? key fields ≠ some (.string text) := by
  rw [Option.eq_none_iff_forall_ne_some]
  exact forall_congr' fun text => not_congr stringUnder_eq_some_iff

theorem items?_eq_some_iff : v.items? = some items ↔ v = .array items := by
  cases v <;> simp [Json.items?]

theorem arrayUnder_eq_some_iff :
    arrayUnder key fields = some items ↔ Json.find? key fields = some (.array items) := by
  simp [arrayUnder, Option.bind_eq_some_iff, items?_eq_some_iff]

theorem arrayUnder_eq_none_iff :
    arrayUnder key fields = none ↔ ∀ items, Json.find? key fields ≠ some (.array items) := by
  rw [Option.eq_none_iff_forall_ne_some]
  exact forall_congr' fun items => not_congr arrayUnder_eq_some_iff

theorem enumValues_eq_none_iff : enumValues fields = none ↔
    ∀ values, Json.find? "enum" fields = some (.array values) → values = [] := by
  rw [enumValues, Option.bind_eq_none_iff]
  refine forall_congr' fun values => ?_
  rw [arrayUnder_eq_some_iff]
  simp

theorem schemasUnder_eq_none_iff :
    schemasUnder key fields = none ↔ ∀ items, Json.find? key fields ≠ some (.array items) := by
  rw [schemasUnder_eq, Option.map_eq_none_iff, arrayUnder_eq_none_iff]

theorem saysPresenceOnly_iff : saysPresenceOnly v = true ↔ Shapeless v := by
  cases v with
  | object members =>
    simp [saysPresenceOnly, Shapeless, ← Json.hasKey_iff_mem_keys]
  | _ => simp [saysPresenceOnly, Shapeless]

/-! ## Object schemas -/

/-- The alternatives of an object schema, if it has some, have no shape. -/
theorem all_saysPresenceOnly_iff {parts : List Json}
    (h : Json.find? "oneOf" fields = some (.array parts)) :
    ((arrayUnder "oneOf" fields).getD []).all saysPresenceOnly = true ↔
      ∀ part ∈ parts, Shapeless part := by
  rw [arrayUnder_eq_some_iff.2 h, Option.getD_some, List.all_eq_true]
  exact forall₂_congr fun part _ => saysPresenceOnly_iff

/-- References and the words for other types are no object schemas. -/
theorem untyped_of_ofJson (h : ofJson (.object fields) = .object properties required) :
    stringUnder "$ref" fields = none ∧
      ∀ word ∈ typeWords, stringUnder "type" fields ≠ some word := by
  rw [ofJson] at h
  split at h
  · cases h
  rename_i href
  split at h
  case h_7 hinteger hnumber hboolean hnull hstring harray =>
    refine ⟨href, fun word hword => ?_⟩
    simp only [typeWords, List.mem_cons, List.not_mem_nil, or_false] at hword
    obtain rfl | rfl | rfl | rfl | rfl | rfl := hword
    exacts [hinteger, hnumber, hboolean, hnull, hstring, harray]
  case h_5 => split at h <;> cases h
  all_goals cases h

/-- **What declares an object is read as one.** -/
theorem ofJson_of_declaresObject (h : DeclaresObject (.object fields)) :
    ofJson (.object fields) = .object (propertySchemas fields) (presence fields) := by
  have href : stringUnder "$ref" fields = none := stringUnder_eq_none_iff.2 h.reference
  have henum : enumValues fields = none := enumValues_eq_none_iff.2 h.enum
  have hallOf : schemasUnder "allOf" fields = none := schemasUnder_eq_none_iff.2 h.allOf
  have hproperties : Json.hasKey "properties" fields = true := by
    rw [hasKey_eq, Option.isSome_iff_ne_none]
    exact h.properties
  rw [ofJson, href]
  dsimp only
  split
  case h_7 =>
    rw [henum, hallOf]
    obtain ⟨parts, hparts, hshapeless⟩ | ⟨honeOf, hanyOf⟩ := h.branches
    · have hsome : schemasUnder "oneOf" fields = some (parts.map ofJson) := by
        rw [schemasUnder_eq, arrayUnder_eq_some_iff.2 hparts, Option.map_some]
      rw [hsome]
      dsimp only
      rw [hproperties, (all_saysPresenceOnly_iff hparts).2 hshapeless]
      rfl
    · rw [schemasUnder_eq_none_iff.2 honeOf, schemasUnder_eq_none_iff.2 hanyOf]
      exact if_pos hproperties
  -- the words for other types
  all_goals
    rename_i htype
    exact absurd (find?_of_stringUnder htype) (h.type _ (by decide))

/-- What is read as an object has properties, lists no values, and has no parts
with a shape. -/
theorem parts_of_ofJson (h : ofJson (.object fields) = .object properties required) :
    enumValues fields = none ∧ schemasUnder "allOf" fields = none ∧
      Json.hasKey "properties" fields = true ∧
      ((∃ parts, Json.find? "oneOf" fields = some (.array parts) ∧
          ∀ part ∈ parts, Shapeless part) ∨
        schemasUnder "oneOf" fields = none ∧ schemasUnder "anyOf" fields = none) ∧
      properties = propertySchemas fields ∧ required = presence fields := by
  obtain ⟨href, htype⟩ := untyped_of_ofJson h
  rw [ofJson, href] at h
  dsimp only at h
  split at h
  case h_7 =>
    split at h
    · cases h
    rename_i henum
    split at h
    · cases h
    rename_i hallOf
    split at h
    · -- alternatives that say nothing of a shape
      rename_i parts hparts
      split at h
      · rename_i hboth
        cases h
        obtain ⟨hproperties, hall⟩ := Bool.and_eq_true_iff.1 hboth
        rw [schemasUnder_eq, Option.map_eq_some_iff] at hparts
        obtain ⟨items, hitems, -⟩ := hparts
        have hfind := arrayUnder_eq_some_iff.1 hitems
        exact ⟨henum, hallOf, hproperties,
          .inl ⟨items, hfind, (all_saysPresenceOnly_iff hfind).1 hall⟩, rfl, rfl⟩
      · cases h
    rename_i honeOf
    split at h
    · cases h
    rename_i hanyOf
    split at h
    · rename_i hproperties
      cases h
      exact ⟨henum, hallOf, hproperties, .inr ⟨honeOf, hanyOf⟩, rfl, rfl⟩
    · cases h
  -- the words for other types
  all_goals
    rename_i hword
    exact absurd hword (htype _ (by decide))

/-- **What is read as an object declares one.** -/
theorem declaresObject_of_ofJson (h : ofJson v = .object properties required) :
    DeclaresObject v ∧ ∃ fields, v = .object fields ∧ properties = propertySchemas fields ∧
      required = presence fields := by
  cases v with
  | object fields =>
    obtain ⟨href, htype⟩ := untyped_of_ofJson h
    obtain ⟨henum, hallOf, hproperties, hbranches, rfl, rfl⟩ := parts_of_ofJson h
    refine ⟨?_, fields, rfl, rfl, rfl⟩
    exact
      { reference := stringUnder_eq_none_iff.1 href
        type := fun word hword hfound => htype word hword (stringUnder_eq_some_iff.2 hfound)
        enum := enumValues_eq_none_iff.1 henum
        allOf := schemasUnder_eq_none_iff.1 hallOf
        properties := Option.isSome_iff_ne_none.1 (hasKey_eq.symm.trans hproperties)
        branches := hbranches.imp_right fun hnone =>
          ⟨schemasUnder_eq_none_iff.1 hnone.1, schemasUnder_eq_none_iff.1 hnone.2⟩ }
  | _ => cases h

/-- **Which values are object schemas.** -/
theorem ofJson_eq_object_iff :
    (∃ properties required, ofJson v = .object properties required) ↔ DeclaresObject v := by
  constructor
  · rintro ⟨properties, required, h⟩
    exact (declaresObject_of_ofJson h).1
  · intro h
    cases v with
    | object fields => exact ⟨_, _, ofJson_of_declaresObject h⟩
    | _ => exact absurd rfl h.properties

/-! ## Required properties -/

/-- The names that a value lists as required, if it has a list. -/
def requiredNames (v : Json) : Option (List String) := (v.get? "required").bind strings

theorem requiredNames_eq_some_iff {names : List String} : requiredNames v = some names ↔
    ∃ listed, v.get? "required" = some (.array listed) ∧ listed.filterMap Json.string? = names := by
  simp only [requiredNames, strings, Option.bind_eq_some_iff, Option.map_eq_some_iff,
    items?_eq_some_iff]
  constructor
  · rintro ⟨_, hfind, listed, rfl, hnames⟩
    exact ⟨listed, hfind, hnames⟩
  · rintro ⟨listed, hfind, hnames⟩
    exact ⟨_, hfind, listed, rfl, hnames⟩

theorem requiredNames_eq_none_iff :
    requiredNames v = none ↔ ∀ listed, v.get? "required" ≠ some (.array listed) := by
  rw [Option.eq_none_iff_forall_ne_some]
  constructor
  · exact fun h listed hfind => h _ (requiredNames_eq_some_iff.2 ⟨listed, hfind, rfl⟩)
  · rintro h names hnames
    obtain ⟨listed, hfind, -⟩ := requiredNames_eq_some_iff.1 hnames
    exact h listed hfind

theorem mem_strings_iff {listed : List Json} :
    name ∈ listed.filterMap Json.string? ↔ .string name ∈ listed := by
  rw [List.mem_filterMap]
  constructor
  · rintro ⟨value, hvalue, hname⟩
    cases value with
    | string s =>
      cases hname
      exact hvalue
    | _ => cases hname
  · exact fun h => ⟨_, h, rfl⟩

theorem names_iff : Names v name ↔ ∃ names, requiredNames v = some names ∧ name ∈ names := by
  constructor
  · rintro ⟨listed, hfind, hname⟩
    exact ⟨_, requiredNames_eq_some_iff.2 ⟨listed, hfind, rfl⟩, mem_strings_iff.2 hname⟩
  · rintro ⟨names, hnames, hname⟩
    obtain ⟨listed, hfind, rfl⟩ := requiredNames_eq_some_iff.1 hnames
    exact ⟨listed, hfind, mem_strings_iff.1 hname⟩

theorem exists_names_iff :
    (∃ other, Names v other) ↔ ∃ names, requiredNames v = some names ∧ names ≠ [] := by
  simp only [names_iff]
  constructor
  · rintro ⟨other, names, hnames, hother⟩
    exact ⟨names, hnames, List.ne_nil_of_mem hother⟩
  · rintro ⟨names, hnames, hne⟩
    obtain ⟨other, hother⟩ := List.exists_mem_of_ne_nil names hne
    exact ⟨other, names, hnames, hother⟩

/-- Without a list of the object's own, a name is required that is in each branch
that is not empty, if there is such a branch. -/
theorem mem_names_of_none (h : p.required = none) :
    name ∈ p.names ↔ (∃ b ∈ p.branches, b ≠ []) ∧ ∀ b ∈ p.branches, b ≠ [] → name ∈ b := by
  have hbranch : ∀ b, b ∈ p.branches.filter (!·.isEmpty) ↔ b ∈ p.branches ∧ b ≠ [] := by simp
  rw [Presence.names, h]
  dsimp only
  cases hfilter : p.branches.filter (!·.isEmpty) with
  | nil =>
    refine ⟨fun hname => (by cases hname), ?_⟩
    rintro ⟨⟨b, hb, hne⟩, -⟩
    have hmem := (hbranch b).2 ⟨hb, hne⟩
    rw [hfilter] at hmem
    cases hmem
  | cons first others =>
    rw [hfilter] at hbranch
    have hfirst := (hbranch first).1 List.mem_cons_self
    simp only [List.mem_filter, List.all_eq_true, List.contains_iff_mem]
    constructor
    · rintro ⟨hname, hothers⟩
      refine ⟨⟨first, hfirst⟩, fun b hb hne => ?_⟩
      rcases List.mem_cons.1 ((hbranch b).2 ⟨hb, hne⟩) with rfl | hmem
      · exact hname
      · exact hothers b hmem
    · rintro ⟨-, hall⟩
      refine ⟨hall first hfirst.1 hfirst.2, fun b hb => ?_⟩
      obtain ⟨hmem, hne⟩ := (hbranch b).1 (List.mem_cons_of_mem _ hb)
      exact hall b hmem hne

/-- Branches are told by what they name. -/
theorem named_by_branches_iff {parts : List Json} :
    ((∃ b ∈ parts.filterMap requiredNames, b ≠ []) ∧
      ∀ b ∈ parts.filterMap requiredNames, b ≠ [] → name ∈ b) ↔
    (∃ b ∈ parts, ∃ other, Names b other) ∧
      ∀ b ∈ parts, (∃ other, Names b other) → Names b name := by
  simp only [List.mem_filterMap, exists_names_iff]
  refine and_congr ⟨?_, ?_⟩ ⟨?_, ?_⟩
  · rintro ⟨names, ⟨b, hb, hnames⟩, hne⟩
    exact ⟨b, hb, names, hnames, hne⟩
  · rintro ⟨b, hb, names, hnames, hne⟩
    exact ⟨names, ⟨b, hb, hnames⟩, hne⟩
  · rintro h b hb ⟨names, hnames, hne⟩
    exact names_iff.2 ⟨names, hnames, h names ⟨b, hb, hnames⟩ hne⟩
  · rintro h names ⟨b, hb, hnames⟩ hne
    obtain ⟨other, hother, hname⟩ := names_iff.1 (h b hb ⟨names, hnames, hne⟩)
    rw [hnames] at hother
    cases hother
    exact hname

/-- **The names that an object schema requires** are those that its value
does. -/
theorem mem_presence_names_iff :
    name ∈ (presence fields).names ↔ Requires (.object fields) name := by
  cases hown : requiredNames (.object fields) with
  | some names =>
    have hrequired : (presence fields).required = some names := hown
    have hlisted : ¬ ∀ listed, (Json.object fields).get? "required" ≠ some (.array listed) := by
      rw [← requiredNames_eq_none_iff, hown]
      exact Option.some_ne_none _
    rw [Presence.names, hrequired, Requires, names_iff, hown]
    simp [hlisted]
  | none =>
    have hrequired : (presence fields).required = none := hown
    have hbranches : (presence fields).branches =
        ((arrayUnder "oneOf" fields).getD []).filterMap requiredNames := rfl
    have hnever : ¬ Names (.object fields) name := by
      rw [names_iff, hown]
      simp
    rw [mem_names_of_none hrequired, hbranches, named_by_branches_iff, Requires,
      or_iff_right hnever, and_iff_right (requiredNames_eq_none_iff.1 hown)]
    cases hparts : arrayUnder "oneOf" fields with
    | none =>
      refine ⟨?_, ?_⟩
      · rintro ⟨⟨b, hb, -⟩, -⟩
        cases hb
      · rintro ⟨parts, hfind, -⟩
        exact absurd hfind (arrayUnder_eq_none_iff.1 hparts parts)
    | some parts =>
      have hfind : ∀ other, (Json.object fields).get? "oneOf" = some (.array other) ↔
          parts = other := by
        intro other
        rw [Json.get?, ← arrayUnder_eq_some_iff, hparts, Option.some.injEq]
      simp only [hfind, exists_eq_left', Option.getD_some]

end Schema

namespace Synthesis

open Schema (DeclaresObject Requires)

variable {withDoc : Bool} {v : Json} {fields : List (String × Json)}
variable {properties : List (PropertyLabel × Schema)} {required : Presence}

/-- The properties that a value declares, by name. There are none if they are
not written as an object. -/
def propertyEntries (v : Json) : List (String × Json) :=
  ((v.get? "properties").bind Json.members?).getD []

/-- **The field for a property of an object.** -/
structure FieldFor (withDoc : Bool) (v : Json) (entry : String × Json)
    (field : FieldLabel × TypeExpr) : Prop where
  name : field.1.name = entry.1
  readOnly : field.1.readOnly = true ↔ entry.2.get? "readOnly" = some (.bool true)
  required : field.1.required = true ↔ Requires v entry.1
  description : field.1.description =
    if withDoc then (entry.2.get? "description").bind Json.string? else none
  type : field.2 = translate withDoc (Schema.ofJson entry.2)

theorem readOnly_propertyLabel (name : String) (v : Json) :
    (Schema.propertyLabel name v).readOnly = true ↔ v.get? "readOnly" = some (.bool true) := by
  rw [Schema.propertyLabel]
  cases v.get? "readOnly" with
  | none => simp
  | some value => cases value <;> simp [Json.bool?]

/-- The fields of an object schema are those for its properties. -/
theorem forall₂_translateFields : List.Forall₂ (FieldFor withDoc (.object fields))
    (propertyEntries (.object fields))
    (translateFields withDoc (Schema.presence fields).names (Schema.propertySchemas fields)) := by
  rw [translateFields_eq, Schema.propertySchemas_eq, List.map_map, List.forall₂_map_right_iff,
    propertyEntries, Json.get?, List.forall₂_same]
  intro entry _
  refine ⟨rfl, readOnly_propertyLabel entry.1 entry.2, ?_, rfl, rfl⟩
  rw [← Schema.mem_presence_names_iff, ← List.contains_iff_mem]
  rfl

/-- **Objects become records.** The values that are read as object schemas are
those that declare one. Where such a schema is synthesized, the type is a record
with one field for each property, in their order. It is read-only exactly if the
property says so with a truth value, and required exactly if the value requires
the name of the property. -/
theorem record_of_object (v : Json) :
    ((∃ properties required, Schema.ofJson v = .object properties required) ↔ DeclaresObject v) ∧
    ∀ properties required, Schema.ofJson v = .object properties required →
      ∀ document withDoc r type r',
        (synthesize document withDoc (Schema.ofJson v)).run r = (.ok type, r') →
        ∃ fields, type = .record fields ∧
          List.Forall₂ (FieldFor withDoc v) (propertyEntries v) fields := by
  refine ⟨Schema.ofJson_eq_object_iff, fun properties required hobject => ?_⟩
  intro document withDoc r type r' hrun
  obtain ⟨-, fields, rfl, rfl, rfl⟩ := Schema.declaresObject_of_ofJson hobject
  have htype : type = translate withDoc (Schema.ofJson (.object fields)) := type_of_run hrun
  rw [hobject, translate] at htype
  exact ⟨_, htype, forall₂_translateFields⟩

/-- Alternatives that only say what must be present, next to one that says
nothing of it. -/
def parcel : Json :=
  .object [("type", .string "object"),
    ("properties", .object [
      ("id", .object [("type", .string "string"), ("readOnly", .bool true)]),
      ("note", .object [("type", .string "string")])]),
    ("oneOf", .array [.object [("required", .array [.string "id"])],
      .object [("required", .array [.string "note", .string "id"])],
      .object [("title", .string "Empty")]])]

/-- Its fields. -/
def parcelFields : List (FieldLabel × TypeExpr) :=
  [(⟨"id", true, true, none⟩, .string), (⟨"note", false, false, none⟩, .string)]

/-- The property that is in both lists is required, and the other is not. -/
theorem record_of_object_of_parcel : DeclaresObject parcel ∧
    (synthesize .null true (Schema.ofJson parcel)).run Registry.empty =
      (.ok (.record parcelFields), Registry.empty) ∧
    List.Forall₂ (FieldFor true parcel) (propertyEntries parcel) parcelFields ∧
    Requires parcel "id" ∧ ¬ Requires parcel "note" := by
  have hobject : ∃ properties required, Schema.ofJson parcel = .object properties required :=
    ⟨_, _, rfl⟩
  have hrun : (synthesize .null true (Schema.ofJson parcel)).run Registry.empty =
      (.ok (.record parcelFields), Registry.empty) := rfl
  obtain ⟨hdeclares, hrecord⟩ := record_of_object parcel
  obtain ⟨properties, required, hread⟩ := hobject
  obtain ⟨fields, hfields, hall⟩ := hrecord properties required hread _ _ _ _ _ hrun
  obtain rfl := TypeExpr.record.inj hfields
  refine ⟨hdeclares.1 ⟨_, _, hread⟩, hrun, hall, ?_⟩
  cases hall with
  | cons hid hrest =>
    cases hrest with
    | cons hnote _ => exact ⟨hid.required.1 rfl, fun h => Bool.false_ne_true (hnote.required.2 h)⟩

end Synthesis

end TypedClient
