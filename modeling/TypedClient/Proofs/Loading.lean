import TypedClient.Loading
import TypedClient.Proofs.Json.Members
/-!
# What readers produce

Both readers put the members of an object in by key, which replaces the
value of a key that is there. So no object in a value that is read has a key
twice (`readText_regular`).
-/

namespace TypedClient

namespace Json

variable {members before : List (String × Json)} {value : Json}

namespace Reader

/-- What is read in a number of steps: a value, items up to a bracket, and
members up to a brace behind some that are there. -/
structure Reads (steps : Nat) : Prop where
  value : ∀ limit s v rest, value? limit steps s = some (v, rest) → Regular v
  items : ∀ limit s items rest, items? limit steps s = some (items, rest) →
    ∀ item ∈ items, Regular item
  members : ∀ limit before s members rest, Regular (.object before) →
    members? limit steps before s = some (members, rest) → Regular (.object members)

variable {steps limit : Nat} {s rest : List Char} {v : Json}

theorem value_regular (ih : Reads steps) (h : value? limit (steps + 1) s = some (v, rest)) :
    Regular v := by
  rw [value?] at h
  split at h
  · -- a string
    obtain ⟨_, -, heq⟩ := Option.map_eq_some_iff.1 h
    cases heq
    exact regular_of_leaf rfl rfl
  · -- an array, if another level may be opened
    split at h
    · cases h
    · split at h
      · cases h
        exact regular_array_iff.2 (by simp)
      · obtain ⟨_, hitems, heq⟩ := Option.map_eq_some_iff.1 h
        cases heq
        exact regular_array_iff.2 (ih.items _ _ _ _ hitems)
  · -- an object, in the same way
    split at h
    · cases h
    · split at h
      · cases h
        exact regular_nil
      · obtain ⟨_, hmembers, heq⟩ := Option.map_eq_some_iff.1 h
        cases heq
        exact ih.members _ _ _ _ _ regular_nil hmembers
  -- a word or a number
  all_goals
    obtain ⟨_, -, heq⟩ := Option.map_eq_some_iff.1 h
    cases heq
    exact regular_of_leaf rfl rfl

theorem items_regular (ih : Reads steps) {items : List Json}
    (h : items? limit (steps + 1) s = some (items, rest)) : ∀ item ∈ items, Regular item := by
  rw [items?] at h
  split at h
  · cases h
  · rename_i item after hitem
    have hfirst := ih.value _ _ _ _ hitem
    split at h
    · obtain ⟨_, hothers, heq⟩ := Option.map_eq_some_iff.1 h
      cases heq
      exact List.forall_mem_cons.2 ⟨hfirst, ih.items _ _ _ _ hothers⟩
    · cases h
      exact List.forall_mem_cons.2 ⟨hfirst, by simp⟩
    · cases h

theorem members_regular (ih : Reads steps) (hbefore : Regular (.object before))
    (h : members? limit (steps + 1) before s = some (members, rest)) :
    Regular (.object members) := by
  rw [members?] at h
  split at h
  · split at h
    · cases h
    · split at h
      · split at h
        · cases h
        · rename_i value after hvalue
          -- the member goes in by its key before the next one is read
          have hnext : ∀ key, Regular (.object (insert key value before)) := fun _ =>
            hbefore.insert (ih.value _ _ _ _ hvalue)
          dsimp only at h
          split at h
          · exact ih.members _ _ _ _ _ (hnext _) h
          · cases h
            exact hnext _
          · cases h
      · cases h
  · cases h

/-- **Whatever is read in any number of steps is regular.** -/
theorem reads (steps : Nat) : Reads steps := by
  induction steps with
  | zero =>
    constructor
    · intro limit s v rest h
      rw [value?] at h
      cases h
    · intro limit s items rest h
      rw [items?] at h
      cases h
    · intro limit before s members rest _ h
      rw [members?] at h
      cases h
  | succ steps ih =>
    exact ⟨fun _ _ _ _ h => value_regular ih h, fun _ _ _ _ h => items_regular ih h,
      fun _ _ _ _ _ hbefore h => members_regular ih hbefore h⟩

end Reader

theorem read?_regular {text : String} (h : read? text = some value) : Regular value := by
  rw [read?] at h
  split at h
  · rename_i v rest hread
    have hregular := (Reader.reads _).value _ _ _ _ hread
    split at h
    · cases h
      exact hregular
    · cases h
  · cases h

end Json

namespace Yaml

namespace Value

open Json (Regular)

mutual

/-- The value for a YAML value is regular. -/
theorem toJson_regular : ∀ v : Value, Regular (toJson v)
  | .null => Json.regular_of_leaf rfl rfl
  | .bool _ => Json.regular_of_leaf rfl rfl
  | .integer _ => Json.regular_of_leaf rfl rfl
  | .real (.finite _) => Json.regular_of_leaf rfl rfl
  | .real (.infinite _) => Json.regular_of_leaf rfl rfl
  | .real .nan => Json.regular_of_leaf rfl rfl
  | .string _ => Json.regular_of_leaf rfl rfl
  | .sequence items => Json.regular_array_iff.2 (itemsToJson_regular items)
  | .mapping entries => entriesToJson_regular entries Json.regular_nil
  | .tagged _ v => toJson_regular v

theorem itemsToJson_regular : ∀ items : List Value, ∀ item ∈ itemsToJson items, Regular item
  | [] => by simp [itemsToJson]
  | item :: rest => List.forall_mem_cons.2 ⟨toJson_regular item, itemsToJson_regular rest⟩

theorem entriesToJson_regular : ∀ (entries : List (Value × Value)) {before : List (String × Json)},
    Regular (.object before) → Regular (.object (entriesToJson before entries))
  | [], _, h => h
  | (_, value) :: rest, _, h => entriesToJson_regular rest (h.insert (toJson_regular value))

end

end Value

theorem read?_regular {text : String} {value : Json} (h : read? text = some value) :
    value.Regular := by
  obtain ⟨v, -, rfl⟩ := Option.map_eq_some_iff.1 h
  exact v.toJson_regular

end Yaml

/-- **What a text writes is regular** in either format. -/
theorem readText_regular {format : Format} {text : String} {value : Json}
    (h : readText format text = .ok value) : value.Regular := by
  unfold readText at h
  dsimp only at h
  split at h
  · rename_i v hread
    obtain rfl := Except.ok.inj h
    cases format with
    | json => exact Json.read?_regular hread
    | yaml => exact Yaml.read?_regular hread
  · cases h

end TypedClient
