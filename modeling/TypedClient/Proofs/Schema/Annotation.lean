import Mathlib.Logic.Relation
import TypedClient.Proofs.Json.Members
import TypedClient.Proofs.Schema.Congruence
/-!
# Annotations and the order of keys

An edit of a value (`Edit`) writes the members of one of its schemas in
another order, or adds a member with a key that says nothing of a schema. What
is read of the value stays the same, its schema and what an object that holds it
reads of it (`Edit.readAlike`). So does what is read after any number of edits
(`ofJson_of_edits`).
-/

namespace TypedClient

namespace Schema

variable {fields more before after : List (String × Json)} {v w : Json} {key : String}

/-- The keys that say something of a schema, or of the property whose schema
it is. -/
def vocabulary : List String := keywords ++ ["readOnly", "description"]

/-- **One edit of a schema**: of its own members, or within a schema that it
holds as its items, as a part, or as that of a property. -/
inductive Edit : Json → Json → Prop
  /-- The members are written in another order. -/
  | permute {fields more : List (String × Json)} :
      (Json.keys fields).Nodup → fields.Perm more → Edit (.object fields) (.object more)
  /-- A member is added. -/
  | add {fields : List (String × Json)} {key : String} {value : Json} :
      key ∉ vocabulary → Edit (.object fields) (.object (fields ++ [(key, value)]))
  | items {before after : List (String × Json)} {v w : Json} : Edit v w →
      Edit (.object (before ++ ("items", v) :: after)) (.object (before ++ ("items", w) :: after))
  | part {before after : List (String × Json)} {front back : List Json} {key : String}
      {v w : Json} : key ∈ partKeys → Edit v w →
      Edit (.object (before ++ (key, .array (front ++ v :: back)) :: after))
        (.object (before ++ (key, .array (front ++ w :: back)) :: after))
  | property {before after front back : List (String × Json)} {name : String} {v w : Json} :
      Edit v w →
      Edit (.object (before ++ ("properties", .object (front ++ (name, v) :: back)) :: after))
        (.object (before ++ ("properties", .object (front ++ (name, w) :: back)) :: after))

theorem mem_vocabulary_of_mem_keywords (h : key ∈ keywords) : key ∈ vocabulary :=
  List.mem_append_left _ h

theorem mem_vocabulary_of_mem_shapeKeys (h : key ∈ shapeKeys) : key ∈ vocabulary := by
  revert key
  decide

/-! ## What one edit keeps -/

/-- **Objects whose words lead to values that are read alike are read alike.** -/
theorem readAlike_object (h : ∀ key ∈ vocabulary,
      Option.Rel (AlikeUnder key) (Json.find? key fields) (Json.find? key more)) :
    ReadAlike (.object fields) (.object more) where
  schema := ofJson_eq_of_alikeUnder fun key hkey => h key (mem_vocabulary_of_mem_keywords hkey)
  label name := by
    have hreadOnly := find?_eq_of_rel (h "readOnly" (by decide)) (by decide)
    have hdescription := find?_eq_of_rel (h "description" (by decide)) (by decide)
    rw [propertyLabel, propertyLabel, Json.get?, Json.get?, Json.get?, Json.get?, hreadOnly,
      hdescription]
  required := find?_eq_of_rel (h "required" (by decide)) (by decide)
  presenceOnly := by
    have hshape : (shapeKeys.any fun key => Json.hasKey key fields) =
        shapeKeys.any fun key => Json.hasKey key more := by
      rw [Bool.eq_iff_iff, List.any_eq_true, List.any_eq_true]
      refine exists_congr fun key => and_congr_right fun hkey => ?_
      rw [hasKey_eq_of_rel (h key (mem_vocabulary_of_mem_shapeKeys hkey))]
    rw [saysPresenceOnly, saysPresenceOnly, hshape]

/-- Objects are read alike when the value under one key is replaced with one that
is read alike there. -/
theorem readAlike_of_replaced (h : AlikeUnder key v w) :
    ReadAlike (.object (before ++ (key, v) :: after)) (.object (before ++ (key, w) :: after)) := by
  refine readAlike_object fun other _ => ?_
  by_cases hother : other = key
  · subst hother
    rw [Json.find?_append, Json.find?_append]
    cases Json.find? other before with
    | some found => exact .some (.refl found)
    | none =>
      rw [Option.none_or, Option.none_or, Json.find?, Json.find?, if_pos rfl, if_pos rfl]
      exact .some h
  · exact AlikeUnder.rel_of_eq (by rw [Json.find?_past hother, Json.find?_past hother])

/-- **One edit keeps what is read of a value.** -/
theorem Edit.readAlike (h : Edit v w) : ReadAlike v w := by
  induction h with
  | permute hnodup hperm =>
    exact readAlike_object fun key _ => AlikeUnder.rel_of_eq (Json.find?_perm hnodup hperm key)
  | @add fields key value hkey =>
    refine readAlike_object fun word hword => AlikeUnder.rel_of_eq ?_
    have hne : word ≠ key := fun heq => hkey (heq ▸ hword)
    rw [Json.find?_past hne]
    simp [Json.find?]
  | items _ ih => exact readAlike_of_replaced ih.items
  | part hkey _ ih => exact readAlike_of_replaced (ih.part hkey)
  | property _ ih => exact readAlike_of_replaced ih.property

/-! ## What any number of edits keeps -/

/-- **Annotations and the order of keys do not change a schema.** -/
theorem ofJson_of_edits (h : Relation.ReflTransGen Edit v w) : ofJson w = ofJson v := by
  induction h with
  | refl => rfl
  | tail _ hedit ih => rw [← hedit.readAlike.schema, ih]

/-- A parcel, by what its weight and its alternative say. -/
def weighedParcel (weight branch : List (String × Json)) : List (String × Json) :=
  [("properties", .object [("weight", .object weight)]), ("oneOf", .array [.object branch])]

/-- The weight gets an example, the alternative a title, and the keys stand in the
other order. -/
theorem ofJson_of_edits_of_parcel :
    Relation.ReflTransGen Edit
      (.object (weighedParcel [("type", .string "number")]
        [("required", .array [.string "weight"])]))
      (.object (weighedParcel [("type", .string "number"), ("example", .null)]
        [("required", .array [.string "weight"]), ("title", .string "by weight")]).reverse) ∧
    ofJson (.object (weighedParcel [("type", .string "number"), ("example", .null)]
        [("required", .array [.string "weight"]), ("title", .string "by weight")]).reverse) =
      ofJson (.object (weighedParcel [("type", .string "number")]
        [("required", .array [.string "weight"])])) := by
  have hweight : ∀ branch, Edit (.object (weighedParcel [("type", .string "number")] branch))
      (.object (weighedParcel [("type", .string "number"), ("example", .null)] branch)) :=
    fun _ => @Edit.property [] _ [] _ _ _ _ (.add (by decide))
  have hbranch : ∀ weight,
      Edit (.object (weighedParcel weight [("required", .array [.string "weight"])]))
        (.object (weighedParcel weight
          [("required", .array [.string "weight"]), ("title", .string "by weight")])) :=
    fun weight => @Edit.part [("properties", .object [("weight", .object weight)])] [] [] [] _ _ _
      (by decide) (.add (by decide))
  have hkeys : ∀ weight branch, Edit (.object (weighedParcel weight branch))
      (.object (weighedParcel weight branch).reverse) :=
    fun _ _ => .permute (by simp [weighedParcel]) (List.reverse_perm _).symm
  have hedits := ((Relation.ReflTransGen.single (hweight _)).tail (hbranch _)).tail (hkeys _ _)
  exact ⟨hedits, ofJson_of_edits hedits⟩

end Schema

end TypedClient
