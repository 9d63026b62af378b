import TypedClient.Proofs.Distinct
import TypedClient.Proofs.Json.Part
/-!
# Members of objects

What a key leads to when members are put together and when one of them is
replaced. Two values are equal when their objects are equal as maps from keys
(`Equal`). A value is regular when no object in it has a key twice. The
objects under its keys are regular too (`Regular.under`), and members that
are put in by key keep it so (`Regular.insert`).
-/

namespace TypedClient

namespace Json

variable {members more : List (String × Json)} {items : List Json} {key other : String}
variable {value : Json}

/-- The keys of members, in order. -/
def keys (members : List (String × Json)) : List String := members.map (·.1)

@[simp] theorem keys_nil : keys [] = [] := rfl

@[simp] theorem keys_cons {m : String × Json} : keys (m :: members) = m.1 :: keys members := rfl

@[simp] theorem keys_append : keys (members ++ more) = keys members ++ keys more :=
  List.map_append

/-- The object under a key, if there is one. -/
def object? (key : String) (members : List (String × Json)) : Option (List (String × Json)) :=
  (find? key members).bind members?

@[simp] theorem insert_nil : insert key value [] = [(key, value)] := rfl

theorem insert_cons {v : Json} : insert key value ((other, v) :: members) =
    if other = key then (other, value) :: members else (other, v) :: insert key value members := rfl

/-! ## What a key leads to -/

theorem find?_append : find? key (members ++ more) = (find? key members).or (find? key more) := by
  induction members with
  | nil => rfl
  | cons m rest ih =>
    obtain ⟨k, v⟩ := m
    rw [List.cons_append, find?_cons, find?_cons]
    by_cases hk : k = key
    · rw [if_pos hk, if_pos hk]
      rfl
    · rw [if_neg hk, if_neg hk, ih]

theorem hasKey_iff_mem_keys : hasKey key members = true ↔ key ∈ keys members := by
  simp only [hasKey, keys, List.any_eq_true, beq_iff_eq, List.mem_map]

theorem find?_isSome_iff : (find? key members).isSome = true ↔ key ∈ keys members := by
  induction members with
  | nil => simp
  | cons m rest ih =>
    obtain ⟨k, v⟩ := m
    rw [find?_cons, keys_cons, List.mem_cons]
    by_cases hk : k = key
    · simp [hk]
    · rw [if_neg hk, ih]
      exact ⟨.inr, fun h => h.resolve_left fun heq => hk heq.symm⟩

theorem find?_eq_none_iff : find? key members = none ↔ key ∉ keys members := by
  rw [← find?_isSome_iff, Bool.not_eq_true, Option.isSome_eq_false_iff, Option.isNone_iff_eq_none]

/-- Another key leads past a member. -/
theorem find?_past (h : other ≠ key) : find? other (members ++ (key, value) :: more) =
    (find? other members).or (find? other more) := by
  rw [find?_append, find?_cons, if_neg h.symm]

/-- A key leads to its first member. -/
theorem find?_first (h : key ∉ keys members) :
    find? key (members ++ (key, value) :: more) = some value := by
  rw [find?_append, find?_eq_none_iff.2 h, find?_cons, if_pos rfl, Option.none_or]

/-- Where no key stands twice, the members are what the keys lead to. -/
theorem find?_eq_some_iff (hnodup : (keys members).Nodup) :
    find? key members = some value ↔ (key, value) ∈ members := by
  refine ⟨mem_of_find?, fun h => ?_⟩
  induction members with
  | nil => cases h
  | cons m rest ih =>
    obtain ⟨k, v⟩ := m
    rw [keys_cons, List.nodup_cons] at hnodup
    rcases List.mem_cons.1 h with heq | hrest
    · cases heq
      rw [find?_cons, if_pos rfl]
    · have hne : k ≠ key := fun heq => hnodup.1 (List.mem_map.2 ⟨_, hrest, heq.symm⟩)
      rw [find?_cons, if_neg hne]
      exact ih hnodup.2 hrest

/-- **The order of members does not count** for what keys lead to. -/
theorem find?_perm (hnodup : (keys members).Nodup) (hperm : members.Perm more) (key : String) :
    find? key members = find? key more := by
  have hnodup' : (keys more).Nodup := (hperm.map Prod.fst).nodup_iff.1 hnodup
  ext value
  rw [find?_eq_some_iff hnodup, find?_eq_some_iff hnodup', hperm.mem_iff]

theorem find?_insert_self : find? key (insert key value members) = some value := by
  induction members with
  | nil => simp [find?_cons]
  | cons m rest ih =>
    obtain ⟨k, v⟩ := m
    rw [insert_cons]
    by_cases hk : k = key
    · rw [if_pos hk, find?_cons, if_pos hk]
    · rw [if_neg hk, find?_cons, if_neg hk, ih]

theorem find?_insert_of_ne (h : other ≠ key) :
    find? other (insert key value members) = find? other members := by
  induction members with
  | nil => simp [find?_cons, h.symm]
  | cons m rest ih =>
    obtain ⟨k, v⟩ := m
    rw [insert_cons]
    by_cases hk : k = key
    · subst hk
      rw [if_pos rfl, find?_cons, find?_cons, if_neg h.symm, if_neg h.symm]
    · rw [if_neg hk, find?_cons, find?_cons, ih]

/-- Members whose key is not among some keys stay as they are when one of
these gets a value. -/
theorem filter_insert_of_mem {names : List String} (h : key ∈ names) :
    (insert key value members).filter (·.1 ∉ names) = members.filter (·.1 ∉ names) := by
  induction members with
  | nil => simp [h]
  | cons m rest ih =>
    obtain ⟨k, v⟩ := m
    rw [insert_cons]
    by_cases hk : k = key
    · subst hk
      simp [h]
    · rw [if_neg hk, List.filter_cons, List.filter_cons, ih]

theorem keys_insert : keys (insert key value members) =
    if key ∈ keys members then keys members else keys members ++ [key] := by
  induction members with
  | nil => simp
  | cons m rest ih =>
    obtain ⟨k, v⟩ := m
    rw [insert_cons]
    by_cases hk : k = key
    · simp [hk]
    · have hk' : ¬ key = k := fun heq => hk heq.symm
      rw [if_neg hk, keys_cons, ih]
      by_cases hmem : key ∈ keys rest
      · simp [hmem]
      · simp [hmem, hk']

theorem mem_insert {m : String × Json} (h : m ∈ insert key value members) :
    m ∈ members ∨ m.2 = value := by
  induction members with
  | nil =>
    rw [insert_nil, List.mem_singleton] at h
    exact .inr (by rw [h])
  | cons n rest ih =>
    obtain ⟨k, v⟩ := n
    rw [insert_cons] at h
    split at h
    · rcases List.mem_cons.1 h with rfl | h
      · exact .inr rfl
      · exact .inl (List.mem_cons_of_mem _ h)
    · rcases List.mem_cons.1 h with rfl | h
      · exact .inl List.mem_cons_self
      · exact (ih h).imp_left (List.mem_cons_of_mem _)

/-- Putting in the value that is there changes nothing. -/
theorem insert_eq_self (h : find? key members = some value) :
    insert key value members = members := by
  induction members with
  | nil => cases h
  | cons m rest ih =>
    obtain ⟨k, v⟩ := m
    rw [find?_cons] at h
    rw [insert_cons]
    split at h
    · rename_i hk
      rw [if_pos hk, hk, Option.some.inj h]
    · rename_i hk
      rw [if_neg hk, ih h]

/-- The value put in last is the one that stays. -/
theorem insert_insert {before : Json} :
    insert key value (insert key before members) = insert key value members := by
  induction members with
  | nil => simp [insert_cons]
  | cons m rest ih =>
    obtain ⟨k, v⟩ := m
    rw [insert_cons, insert_cons]
    by_cases hk : k = key
    · simp [hk, insert_cons]
    · rw [if_neg hk, if_neg hk, insert_cons, if_neg hk, ih]

/-! ## Equal values -/

/-- **Equal values.** Objects are compared as maps from their keys to values,
so the order of their members does not count. -/
inductive Equal : Json → Json → Prop
  /-- The same value. -/
  | same {v : Json} : Equal v v
  /-- Arrays of equal items, in the same order. -/
  | array {items others : List Json} :
      List.Forall₂ Equal items others → Equal (.array items) (.array others)
  /-- Objects whose keys lead to equal values. -/
  | object {members more : List (String × Json)} :
      (∀ key, Option.Rel Equal (find? key members) (find? key more)) →
      Equal (.object members) (.object more)

/-! ## Regular values -/

/-- A value none of whose objects has a key twice. -/
def Regular (v : Json) : Prop := ∀ members, Part (.object members) v → (keys members).Nodup

theorem regular_object_iff :
    Regular (.object members) ↔ (keys members).Nodup ∧ ∀ m ∈ members, Regular m.2 := by
  constructor
  · intro h
    exact ⟨h members .self, fun m hm inner hinner => h inner (.member hm hinner)⟩
  · rintro ⟨hkeys, hvalues⟩ inner hpart
    cases hpart with
    | self => exact hkeys
    | member hm hinner => exact hvalues _ hm inner hinner

theorem regular_nil : Regular (.object []) :=
  regular_object_iff.2 ⟨List.nodup_nil, by simp⟩

theorem regular_array_iff : Regular (.array items) ↔ ∀ item ∈ items, Regular item := by
  constructor
  · exact fun h item hitem inner hinner => h inner (.item hitem hinner)
  · intro h inner hpart
    cases hpart with
    | item hitem hinner => exact h _ hitem inner hinner

theorem Regular.nodup_keys (h : Regular (.object members)) : (keys members).Nodup :=
  h members .self

/-- The parts of a regular value are regular. -/
theorem Regular.part {part : Json} (h : Regular value) (hpart : Part part value) : Regular part :=
  fun inner hinner => h inner (hinner.trans hpart)

/-- A value without members and items is regular. -/
theorem regular_of_leaf (hmembers : value.members? = none) (hitems : value.items? = none) :
    Regular value := by
  intro inner hpart
  cases hpart with
  | self => cases hmembers
  | item => cases hitems
  | member => cases hmembers

/-- **The object under a key of a regular object is regular.** -/
theorem Regular.under (h : Regular (.object members)) :
    Regular (.object ((object? key members).getD [])) := by
  rw [object?]
  cases hfind : find? key members with
  | none => exact regular_nil
  | some v =>
    have hv : Regular v := (regular_object_iff.1 h).2 _ (mem_of_find? hfind)
    cases v with
    | object inner => exact hv
    | _ => exact regular_nil

/-- A member with a key of its own is added. -/
theorem Regular.append_singleton (h : Regular (.object members)) (hnew : key ∉ keys members)
    (hvalue : Regular value) : Regular (.object (members ++ [(key, value)])) := by
  obtain ⟨hkeys, hvalues⟩ := regular_object_iff.1 h
  refine regular_object_iff.2 ⟨?_, fun m hm => ?_⟩
  · rw [keys_append]
    exact nodup_append_singleton_iff.2 ⟨hkeys, hnew⟩
  · rcases List.mem_append.1 hm with hold | hlast
    · exact hvalues m hold
    · rw [List.mem_singleton.1 hlast]
      exact hvalue

/-- **Members that are put in by key are never repeated.** -/
theorem Regular.insert (h : Regular (.object members)) (hvalue : Regular value) :
    Regular (.object (Json.insert key value members)) := by
  obtain ⟨hkeys, hvalues⟩ := regular_object_iff.1 h
  refine regular_object_iff.2 ⟨?_, fun m hm => ?_⟩
  · rw [keys_insert]
    split
    · exact hkeys
    · rename_i hnew
      exact nodup_append_singleton_iff.2 ⟨hkeys, hnew⟩
  · rcases mem_insert hm with hold | hnew
    · exact hvalues m hold
    · rw [hnew]
      exact hvalue

end Json

end TypedClient
