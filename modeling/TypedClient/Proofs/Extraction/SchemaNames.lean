import TypedClient.Proofs.Extraction.Unresolved
import TypedClient.Proofs.Pointer
/-!
# Component schemas and the pointers to them

A description is read twice: once as a record, whose component schemas have
their names, and again by pointer for every schema that is used. The two agree
where the description and its components are written as objects (`ByName`).
A record may also be written as an array of its fields in their own order; what
stands in it is read all the same, but no pointer by name leads there
(`schemas_by_name`).
-/

namespace TypedClient

open Shape (field_eq_ok)

variable {raw value : Json} {members fields : List (String × Json)} {entry : String × Json}
variable {name : String} {components : Components} {document : Document}

/-! ## What the record holds -/

/-- The component schemas are the members of the member for them. -/
theorem Components.mem_of_ofJson (h : ofJson (.object fields) = .ok components)
    (hentry : entry ∈ components.schemas) :
    ∃ schemas, ("schemas", .object schemas) ∈ fields ∧ entry ∈ schemas := by
  refine Shape.steps_keep (P := fun components => ∀ entry ∈ components.schemas,
    ∃ schemas, ("schemas", .object schemas) ∈ fields ∧ entry ∈ schemas) (by simp) ?_ h entry hentry
  intro components key value next hmem hkept hnext
  unfold Components.step at hnext
  split at hnext
  · obtain ⟨found, hfound, rfl⟩ := field_eq_ok hnext
    cases value with
    | object inner =>
      rw [Shape.map, Shape.eachMember_value] at hfound
      cases hfound
      exact fun entry hentry => ⟨found, hmem, hentry⟩
    | _ => cases hfound
  · obtain ⟨_, -, rfl⟩ := field_eq_ok hnext
    exact hkept
  · cases hnext
    exact hkept

/-- The components are read from the member for them. -/
theorem Document.components_of_ofJson (h : ofJson (.object members) = .ok document)
    (hcomponents : document.components = some components) :
    ∃ value, ("components", value) ∈ members ∧ Components.ofJson value = .ok components := by
  refine Shape.steps_keep (P := fun document => ∀ components, document.components = some components →
    ∃ value, ("components", value) ∈ members ∧ Components.ofJson value = .ok components)
    (fun _ hblank => by cases hblank) ?_ h components hcomponents
  intro document key value next hmem hkept hnext
  unfold Document.step at hnext
  split at hnext
  case h_5 =>
    obtain ⟨found, hfound, rfl⟩ := field_eq_ok hnext
    rintro components rfl
    exact ⟨value, hmem, Shape.optional_eq_some hfound⟩
  case h_7 =>
    cases hnext
    exact hkept
  all_goals
    obtain ⟨_, -, rfl⟩ := field_eq_ok hnext
    exact hkept

/-! ## What the pointer leads to -/

namespace Pointer

theorem toList_ofSchemaName :
    (ofSchemaName name).toList = "#/components/schemas/".toList ++ (escapeToken name).toList :=
  String.toList_append

/-- The pointer to a component schema spells out the path by its name. -/
theorem ofSchemaName_eq_ofPath :
    ofSchemaName name = ofPath [.member "components", .member "schemas", .member name] := by
  have hfront : "#/components/schemas/".toList = '#' :: '/' ::
      (escapeToken "components").toList ++ '/' :: (escapeToken "schemas").toList ++ ['/'] := by
    simp [escapeToken, escape]
  rw [← String.toList_inj, toList_ofSchemaName, hfront, ofPath, ofTokens, String.toList_ofList]
  simp [Step.token]

/-- The token of a key that is no numeral leads to members only. -/
theorem step?_member (hkey : position? name.toList = none) :
    step? (Step.member name).token.toList value = value.get? name := by
  have hread : String.ofList (unescape (Step.member name).token.toList) = name :=
    denotes_member_iff.1 (denotes_token (.member name))
  have hposition : position? (unescape (Step.member name).token.toList) = none := by
    rw [← hread, String.toList_ofList] at hkey
    exact hkey
  cases value with
  | object members => rw [step?, hread, Json.get?]
  | array items => rw [step?, hposition, Json.get?]; simp
  | _ => rfl

end Pointer

namespace Source

open Synthesis (written)

variable {source : Source}

/-- A description and its components are both written as objects. -/
def ByName (raw : Json) : Prop := ∃ fields, raw.get? "components" = some (.object fields)

/-- By name, the pointer to a component schema leads to what the record
holds. -/
theorem resolve_of_byName (hregular : raw.Regular) (hbyName : ByName raw)
    (hdocument : Document.ofJson raw = .ok document)
    (hcomponents : document.components = some components) (hentry : entry ∈ components.schemas) :
    Pointer.resolve raw (Pointer.ofSchemaName entry.1) = .ok entry.2 := by
  rw [Pointer.ofSchemaName_eq_ofPath]
  refine Pointer.resolve_ofPath hregular ?_
  obtain ⟨fields, hfields⟩ := hbyName
  cases raw with
  | object members =>
    obtain ⟨value, hvalue, hread⟩ := Document.components_of_ofJson hdocument hcomponents
    -- the member that was read is the one that the key leads to
    have hfind : Json.find? "components" members = some value :=
      (Json.find?_eq_some_iff hregular.nodup_keys).2 hvalue
    obtain rfl := Option.some.inj (hfind.symm.trans hfields)
    obtain ⟨schemas, hschemas, hmem⟩ := Components.mem_of_ofJson hread hentry
    exact .member hvalue (.member hschemas (.member hmem .root))
  | _ => cases hfields

/-- Where one of the two is written as an array, the pointer leads nowhere. -/
theorem resolve_of_not_byName (h : ¬ ByName raw) (name : String) :
    Pointer.resolve raw (Pointer.ofSchemaName name) =
      .error (.unresolved (Pointer.ofSchemaName name)) := by
  have hnone : Pointer.resolve? raw (Pointer.ofSchemaName name) = none := by
    rw [Pointer.ofSchemaName_eq_ofPath, Pointer.ofPath, Pointer.resolve?_ofTokens
      (List.forall_mem_map.2 fun step _ => Pointer.slash_not_mem_token step), List.map_cons,
      Pointer.walk?, Pointer.step?_member (by decide)]
    cases hfields : raw.get? "components" with
    | none => rfl
    | some value =>
      simp only [List.map_cons, Pointer.walk?]
      rw [Pointer.step?_member (by decide)]
      cases value with
      | object fields => exact absurd ⟨fields, hfields⟩ h
      | _ => rfl
  rw [Pointer.resolve, hnone]

/-! ## Runs -/

/-- A schema name is the name of a component schema. -/
theorem exists_schema_of_mem (h : name ∈ source.schemaNames) :
    ∃ components, source.document.components = some components ∧
      ∃ entry ∈ components.schemas, entry.1 = name := by
  rw [schemaNames] at h
  split at h
  · rename_i components hcomponents
    exact ⟨components, hcomponents, List.mem_map.1 h⟩
  · cases h

/-- **Component schemas under their names.** In a description that is written
by name, the pointer to the name of a component schema leads to the schema that
the record holds; in any other it leads nowhere. An unresolved reference that
ends a run is written in the document, except that a run over all component
schemas of a description that is not written by name may end at the pointer to
one of their names. -/
theorem schemas_by_name (hregular : raw.Regular) (hread : ofJson raw = .ok source) :
    (∀ components ∈ source.document.components, ∀ entry ∈ components.schemas,
      (ByName raw → Pointer.resolve raw (Pointer.ofSchemaName entry.1) = .ok entry.2) ∧
      (¬ ByName raw → Pointer.resolve raw (Pointer.ofSchemaName entry.1) =
        .error (.unresolved (Pointer.ofSchemaName entry.1)))) ∧
    ∀ options lost, source.api options = .error (.unresolved lost) →
      lost ∈ written raw ∨ ¬ ByName raw ∧ options.allComponents = true ∧
        ∃ name ∈ source.schemaNames, lost = Pointer.ofSchemaName name := by
  obtain ⟨-, hdocument⟩ := document_of_ofJson hread
  refine ⟨fun components hcomponents entry hentry =>
    ⟨fun hbyName => resolve_of_byName hregular hbyName hdocument hcomponents hentry,
      fun hnot => resolve_of_not_byName hnot entry.1⟩, fun options lost h => ?_⟩
  rcases mem_written_of_api hread h with hwritten | ⟨hcomponent, hnone⟩
  · exact .inl hwritten
  · rw [componentPointers] at hcomponent
    split at hcomponent
    · rename_i hall
      obtain ⟨name, hname, rfl⟩ := List.mem_map.1 hcomponent
      refine .inr ⟨fun hbyName => ?_, hall, name, hname, rfl⟩
      -- by name the pointer leads to the schema of that name
      obtain ⟨components, hcomponents, entry, hentry, rfl⟩ := exists_schema_of_mem hname
      have hleads := resolve_of_byName hregular hbyName hdocument hcomponents hentry
      rw [Pointer.resolve_eq_ok_iff, hnone] at hleads
      cases hleads
    · cases hcomponent

/-- The pointers to the pet and to the zoo, whose name has a slash, lead to
their schemas. -/
theorem schemas_by_name_of_unreferredZoo : ∃ source components,
    ofJson unreferredZoo = .ok source ∧ source.document.components = some components ∧
    components.schemas.map (·.1) = ["Zoo/all", "Pet"] ∧
    ∀ entry ∈ components.schemas,
      Pointer.resolve unreferredZoo (Pointer.ofSchemaName entry.1) = .ok entry.2 := by
  have hregular : unreferredZoo.Regular := by
    have htext : ∀ s, (Json.string s).Regular := fun s => Json.regular_of_leaf rfl rfl
    simp [unreferredZoo, Json.regular_object_iff, htext]
  have hbyName : ByName unreferredZoo := ⟨_, rfl⟩
  have hread : ofJson unreferredZoo = .ok _ := rfl
  exact ⟨_, _, hread, rfl, rfl, fun entry hentry =>
    ((schemas_by_name hregular hread).1 _ rfl entry hentry).1 hbyName⟩

/-- Components written as an array of their fields, with a pet among the
schemas. -/
def positionalComponents : Json :=
  .object [("components", .array [.object [("Pet", .object [("type", .string "string")])]])]

/-- The record holds the pet, but the pointer to its name, which is written
nowhere, ends the run. -/
theorem exists_schema_unresolved : ∃ source components value,
    positionalComponents.Regular ∧ ofJson positionalComponents = .ok source ∧
    source.document.components = some components ∧ ("Pet", value) ∈ components.schemas ∧
    Pointer.resolve positionalComponents (Pointer.ofSchemaName "Pet") =
      .error (.unresolved "#/components/schemas/Pet") ∧
    source.api (Options.default.withComponents true) =
      .error (.unresolved "#/components/schemas/Pet") ∧
    "#/components/schemas/Pet" ∉ written positionalComponents := by
  have hregular : positionalComponents.Regular := by
    have htext : (Json.string "string").Regular := Json.regular_of_leaf rfl rfl
    simp [positionalComponents, Json.regular_object_iff, Json.regular_array_iff, htext]
  have hnone : written positionalComponents = [] := rfl
  exact ⟨_, _, _, hregular, rfl, rfl, List.mem_cons_self, rfl, rfl, by rw [hnone]; simp⟩

end Source

end TypedClient
