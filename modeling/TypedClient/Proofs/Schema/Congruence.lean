import TypedClient.Proofs.Schema.Reading
/-!
# What a schema depends on

A schema is read from the values under its keywords, and from some of these
only in part: of the items their schema counts, of the properties their
labels and schemas, of the members of a composition what `ReadAlike` lists.
Objects that agree in this are the same schema (`ofJson_eq_of_alikeUnder`).
-/

namespace TypedClient

namespace Schema

variable {fields more : List (String × Json)} {front back : List Json}
variable {v w : Json} {key name : String}

/-- The keys of the compositions. -/
def partKeys : List String := ["allOf", "oneOf", "anyOf"]

/-- The keys that a schema is read from. -/
def keywords : List String :=
  ["$ref", "type", "enum", "items", "allOf", "oneOf", "anyOf", "properties", "required",
    "discriminator"]

theorem mem_keywords_of_mem_partKeys (h : key ∈ partKeys) : key ∈ keywords := by
  revert key
  decide

/-! ## What is read of a value -/

/-- **Nothing that is read of two values tells them apart**: neither their
schemas, nor what is read of a property or of an alternative. -/
structure ReadAlike (v w : Json) : Prop where
  schema : ofJson v = ofJson w
  label : ∀ name, propertyLabel name v = propertyLabel name w
  required : v.get? "required" = w.get? "required"
  presenceOnly : saysPresenceOnly v = saysPresenceOnly w

/-- Nothing that is read of the parts of a composition tells two values apart. -/
structure PartsAlike (v w : Json) : Prop where
  schemas : v.items?.map (·.map ofJson) = w.items?.map (·.map ofJson)
  required : (v.items?.getD []).filterMap (fun branch => (branch.get? "required").bind strings) =
    (w.items?.getD []).filterMap fun branch => (branch.get? "required").bind strings
  presenceOnly : (v.items?.getD []).all saysPresenceOnly = (w.items?.getD []).all saysPresenceOnly

/-- Nothing that is read of a value under a key tells two values apart. -/
structure AlikeUnder (key : String) (v w : Json) : Prop where
  items : key = "items" → ofJson v = ofJson w
  properties : key = "properties" →
    (v.members?.getD []).map (fun e => (propertyLabel e.1 e.2, ofJson e.2)) =
      (w.members?.getD []).map fun e => (propertyLabel e.1 e.2, ofJson e.2)
  parts : key ∈ partKeys → PartsAlike v w
  /-- Other values are read as they are. -/
  plain : key ∉ "items" :: "properties" :: partKeys → v = w

theorem AlikeUnder.refl (v : Json) : AlikeUnder key v v :=
  ⟨fun _ => rfl, fun _ => rfl, fun _ => ⟨rfl, rfl, rfl⟩, fun _ => rfl⟩

theorem AlikeUnder.rel_of_eq {found found' : Option Json} (h : found = found') :
    Option.Rel (AlikeUnder key) found found' := by
  subst h
  cases found with
  | none => exact .none
  | some v => exact .some (.refl v)

/-- Items that are read alike are so in their place. -/
theorem ReadAlike.items (h : ReadAlike v w) : AlikeUnder "items" v w where
  items _ := h.schema
  properties hkey := absurd hkey (by decide)
  parts hkey := absurd hkey (by decide)
  plain hkey := absurd List.mem_cons_self hkey

/-- Properties that are read alike are so among the others. -/
theorem ReadAlike.property {front back : List (String × Json)} (h : ReadAlike v w) :
    AlikeUnder "properties" (.object (front ++ (name, v) :: back))
      (.object (front ++ (name, w) :: back)) where
  items hkey := absurd hkey (by decide)
  properties _ := by simp [Json.members?, h.label, h.schema]
  parts hkey := absurd hkey (by decide)
  plain hkey := absurd (List.mem_cons_of_mem _ List.mem_cons_self) hkey

/-- Parts that are read alike are so among the others. -/
theorem ReadAlike.part (h : ReadAlike v w) (hkey : key ∈ partKeys) :
    AlikeUnder key (.array (front ++ v :: back)) (.array (front ++ w :: back)) where
  items heq := absurd hkey (by rw [heq]; decide)
  properties heq := absurd hkey (by rw [heq]; decide)
  parts _ :=
    { schemas := by simp [Json.items?, h.schema]
      required := by simp [Json.items?, List.filterMap_cons, h.required]
      presenceOnly := by simp [Json.items?, h.presenceOnly] }
  plain hplain := absurd (List.mem_cons_of_mem _ (List.mem_cons_of_mem _ hkey)) hplain

/-! ## Objects that are the same schema -/

/-- What is read of the value that a key leads to, where it does not tell two
values apart. -/
theorem read_eq_of_rel {α : Type} {R : Json → Json → Prop} {found found' : Option Json}
    (read : Option Json → α) (h : Option.Rel R found found')
    (hread : ∀ v w, R v w → read (some v) = read (some w)) : read found = read found' := by
  cases h with
  | some h => exact hread _ _ h
  | none => rfl

theorem find?_eq_of_rel
    (h : Option.Rel (AlikeUnder key) (Json.find? key fields) (Json.find? key more))
    (hplain : key ∉ "items" :: "properties" :: partKeys) :
    Json.find? key fields = Json.find? key more :=
  read_eq_of_rel id h fun _ _ hvw => congrArg some (hvw.plain hplain)

theorem hasKey_eq_of_rel
    (h : Option.Rel (AlikeUnder key) (Json.find? key fields) (Json.find? key more)) :
    Json.hasKey key fields = Json.hasKey key more := by
  rw [hasKey_eq, hasKey_eq]
  exact read_eq_of_rel Option.isSome h fun _ _ _ => rfl

theorem itemSchema_eq_of_rel
    (h : Option.Rel (AlikeUnder "items") (Json.find? "items" fields) (Json.find? "items" more)) :
    itemSchema fields = itemSchema more := by
  rw [itemSchema_eq, itemSchema_eq]
  exact read_eq_of_rel (fun found => (found.map ofJson).getD .any) h fun _ _ hvw => hvw.items rfl

theorem propertySchemas_eq_of_rel
    (h : Option.Rel (AlikeUnder "properties") (Json.find? "properties" fields)
      (Json.find? "properties" more)) :
    propertySchemas fields = propertySchemas more := by
  rw [propertySchemas_eq, propertySchemas_eq]
  exact read_eq_of_rel
    (fun found => ((found.bind Json.members?).getD []).map fun e =>
      (propertyLabel e.1 e.2, ofJson e.2))
    h fun _ _ hvw => hvw.properties rfl

theorem schemasUnder_eq_of_rel (hkey : key ∈ partKeys)
    (h : Option.Rel (AlikeUnder key) (Json.find? key fields) (Json.find? key more)) :
    schemasUnder key fields = schemasUnder key more := by
  rw [schemasUnder_eq, schemasUnder_eq]
  exact read_eq_of_rel (fun found => (found.bind Json.items?).map (·.map ofJson)) h
    fun _ _ hvw => (hvw.parts hkey).schemas

/-- The alternatives have a shape in both or in neither. -/
theorem all_saysPresenceOnly_eq_of_rel
    (h : Option.Rel (AlikeUnder "oneOf") (Json.find? "oneOf" fields) (Json.find? "oneOf" more)) :
    ((arrayUnder "oneOf" fields).getD []).all saysPresenceOnly =
      ((arrayUnder "oneOf" more).getD []).all saysPresenceOnly :=
  read_eq_of_rel (fun found => ((found.bind Json.items?).getD []).all saysPresenceOnly) h
    fun _ _ hvw => (hvw.parts (by decide)).presenceOnly

theorem presence_eq_of_rel (hrequired : Json.find? "required" fields = Json.find? "required" more)
    (h : Option.Rel (AlikeUnder "oneOf") (Json.find? "oneOf" fields) (Json.find? "oneOf" more)) :
    presence fields = presence more := by
  have hbranches := read_eq_of_rel
    (fun found => ((found.bind Json.items?).getD []).filterMap fun branch =>
      (branch.get? "required").bind strings)
    h fun _ _ hvw => (hvw.parts (by decide)).required
  rw [presence, presence, hrequired]
  exact congrArg (Presence.mk _) hbranches

/-- **Objects whose keywords lead to values that are read alike are the same
schema.** -/
theorem ofJson_eq_of_alikeUnder (h : ∀ key ∈ keywords,
      Option.Rel (AlikeUnder key) (Json.find? key fields) (Json.find? key more)) :
    ofJson (.object fields) = ofJson (.object more) := by
  have hword : ∀ key, keywords.contains key = true →
      Option.Rel (AlikeUnder key) (Json.find? key fields) (Json.find? key more) :=
    fun key hkey => h key (List.contains_iff_mem.1 hkey)
  have href := find?_eq_of_rel (hword "$ref" rfl) (by decide)
  have htype := find?_eq_of_rel (hword "type" rfl) (by decide)
  have hdiscriminator := find?_eq_of_rel (hword "discriminator" rfl) (by decide)
  have hrequired := find?_eq_of_rel (hword "required" rfl) (by decide)
  have henum : enumValues fields = enumValues more := by
    rw [enumValues, enumValues, arrayUnder, arrayUnder,
      find?_eq_of_rel (hword "enum" rfl) (by decide)]
  have hparts : ∀ key, partKeys.contains key = true →
      schemasUnder key fields = schemasUnder key more := fun key hkey => by
    have hmem : key ∈ partKeys := List.contains_iff_mem.1 hkey
    exact schemasUnder_eq_of_rel hmem (h key (mem_keywords_of_mem_partKeys hmem))
  simp only [ofJson, stringUnder, href, htype, hdiscriminator, henum, hparts "allOf" rfl,
    hparts "oneOf" rfl, hparts "anyOf" rfl, hasKey_eq_of_rel (hword "properties" rfl),
    all_saysPresenceOnly_eq_of_rel (hword "oneOf" rfl), itemSchema_eq_of_rel (hword "items" rfl),
    propertySchemas_eq_of_rel (hword "properties" rfl),
    presence_eq_of_rel hrequired (hword "oneOf" rfl)]

/-- **A schema depends on the members under its keywords only.** -/
theorem ofJson_congr (h : ∀ key ∈ keywords, Json.find? key fields = Json.find? key more) :
    ofJson (.object fields) = ofJson (.object more) :=
  ofJson_eq_of_alikeUnder fun key hkey => AlikeUnder.rel_of_eq (h key hkey)

end Schema

end TypedClient
