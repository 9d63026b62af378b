import Mathlib.Data.List.Nodup
import TypedClient.Registry
/-!
# Registries as growing lists of names

The names of a registry stand in the order of their first mention, and
`binding?` says what each stands for. The two operations of a synthesis
are stated through these two: reserving a name puts it at the end
(`names_reserve`), and registering a pending name changes what it stands
for and nothing else (`register_of_pending`).
-/

namespace TypedClient

namespace Registry

variable {r r' : Registry} {name other : String} {definition : NamedType}

/-- The bound names, in the order of their first mention. -/
def names (r : Registry) : List String := r.entries.map (·.1)

@[simp] theorem names_empty : empty.names = [] := rfl

@[simp] theorem find?_nil : find? name [] = none := rfl

theorem find?_cons {entry : Option NamedType} {entries : List (String × Option NamedType)} :
    find? name ((other, entry) :: entries) =
      if other = name then some entry else find? name entries := rfl

@[simp] theorem bind_nil : bind name definition [] = [(name, some definition)] := rfl

theorem bind_cons {entry : Option NamedType} {entries : List (String × Option NamedType)} :
    bind name definition ((other, entry) :: entries) =
      if other = name then (other, some definition) :: entries
      else (other, entry) :: bind name definition entries := rfl

theorem find?_isSome {entries : List (String × Option NamedType)} :
    (find? name entries).isSome = true ↔ name ∈ entries.map (·.1) := by
  induction entries with
  | nil => simp
  | cons e rest ih =>
    obtain ⟨n, entry⟩ := e
    rw [find?_cons]
    by_cases h : n = name
    · simp [h]
    · rw [if_neg h, ih]
      simp [Ne.symm h]

/-- A registry contains the names it has. -/
theorem contains_iff : r.contains name = true ↔ name ∈ r.names := find?_isSome

theorem not_contains_iff : r.contains name = false ↔ name ∉ r.names := by
  rw [← contains_iff, Bool.not_eq_true]

theorem mem_names_iff : name ∈ r.names ↔ ∃ entry, r.binding? name = some entry := by
  rw [← contains_iff, contains, Option.isSome_iff_exists]

theorem mem_names_of_binding {entry : Option NamedType} (h : r.binding? name = some entry) :
    name ∈ r.names := mem_names_iff.2 ⟨entry, h⟩

/-- A name with a definition is looked up as that. -/
theorem lookup?_of_binding (h : r.binding? name = some (some definition)) :
    r.lookup? name = some definition := by
  rw [lookup?, h]

/-- The defined names are among the bound ones, in the same order. -/
theorem definitions_sublist : (r.definitions.map (·.1)).Sublist r.names := by
  rw [definitions, names]
  induction r.entries with
  | nil => exact .slnil
  | cons e rest ih =>
    obtain ⟨n, entry⟩ := e
    cases entry with
    | none => exact ih.cons n
    | some definition => exact ih.cons_cons n

/-! ## Entries -/

/-- What a name stands for is the entry of the name. -/
theorem mem_entries_of_binding {entry : Option NamedType} (h : r.binding? name = some entry) :
    (name, entry) ∈ r.entries := by
  rw [binding?] at h
  generalize r.entries = entries at h ⊢
  induction entries with
  | nil => cases h
  | cons e rest ih =>
    obtain ⟨n, found⟩ := e
    rw [find?_cons] at h
    split at h
    · rename_i hn
      rw [hn, Option.some.inj h]
      exact List.mem_cons_self
    · exact List.mem_cons_of_mem _ (ih h)

/-- What is looked up is an entry. -/
theorem mem_entries_of_lookup? (h : r.lookup? name = some definition) :
    (name, some definition) ∈ r.entries := by
  rw [lookup?] at h
  split at h
  · rename_i entry hbinding
    subst h
    exact mem_entries_of_binding hbinding
  · cases h

/-- And its name is bound. -/
theorem mem_names_of_lookup? (h : r.lookup? name = some definition) : name ∈ r.names :=
  List.mem_map_of_mem (f := Prod.fst) (mem_entries_of_lookup? h)

/-- What is looked up is among the definitions. -/
theorem mem_definitions_of_lookup? (h : r.lookup? name = some definition) :
    name ∈ r.definitions.map (·.1) := by
  have hmem : (name, definition) ∈ r.definitions :=
    List.mem_filterMap.2 ⟨_, mem_entries_of_lookup? h, rfl⟩
  exact List.mem_map_of_mem hmem

/-- **No entry is hidden** by one before it where no name is bound twice. -/
theorem binding_of_mem_entries {entry : Option NamedType} (hnodup : r.names.Nodup)
    (h : (name, entry) ∈ r.entries) : r.binding? name = some entry := by
  rw [names] at hnodup
  rw [binding?]
  generalize r.entries = entries at h hnodup ⊢
  induction entries with
  | nil => cases h
  | cons e rest ih =>
    obtain ⟨n, found⟩ := e
    rw [List.map_cons, List.nodup_cons] at hnodup
    rcases List.mem_cons.1 h with heq | hrest
    · cases heq
      rw [find?_cons, if_pos rfl]
    · have hne : n ≠ name := fun heq => hnodup.1 (List.mem_map.2 ⟨_, hrest, heq.symm⟩)
      rw [find?_cons, if_neg hne]
      exact ih hrest hnodup.2

/-! ## Reserving a name -/

theorem find?_append {entries more : List (String × Option NamedType)} :
    find? name (entries ++ more) = (find? name entries).or (find? name more) := by
  induction entries with
  | nil => simp
  | cons e rest ih =>
    obtain ⟨n, entry⟩ := e
    by_cases h : n = name
    · simp [find?_cons, h]
    · simp [find?_cons, h, ih]

/-- A name that is new goes to the end. -/
theorem names_reserve (h : name ∉ r.names) : (r.reserve name).names = r.names ++ [name] := by
  rw [reserve, if_neg (by simpa [contains_iff] using h)]
  simp [names]

/-- A reserved name is bound. -/
theorem mem_names_reserve : name ∈ (r.reserve name).names := by
  by_cases h : name ∈ r.names
  · rw [reserve, if_pos (contains_iff.2 h)]
    exact h
  · rw [names_reserve h]
    simp

/-- A new name is pending once it is reserved. -/
theorem binding_reserve (h : name ∉ r.names) :
    (r.reserve name).binding? name = some none := by
  have hnone : find? name r.entries = none := by
    rw [← Option.not_isSome_iff_eq_none, find?_isSome]
    exact h
  rw [reserve, if_neg (by simpa [contains_iff] using h), binding?, find?_append, hnone]
  simp [find?_cons]

/-- What another name stands for does not change. -/
theorem binding_reserve_of_mem (h : other ∈ r.names) :
    (r.reserve name).binding? other = r.binding? other := by
  obtain ⟨entry, he⟩ := mem_names_iff.1 h
  rw [reserve]
  split
  · rfl
  · rw [binding?, find?_append]
    rw [binding?] at he
    simp [binding?, he]

theorem binding?_eq_none_iff : r.binding? name = none ↔ name ∉ r.names := by
  rw [← contains_iff, contains, Bool.not_eq_true, Option.isSome_eq_false_iff,
    Option.isNone_iff_eq_none]

/-- What names stand for once one of them is reserved. -/
theorem binding?_reserve : (r.reserve name).binding? other =
    (r.binding? other).or (if name = other then some none else none) := by
  by_cases hname : name ∈ r.names
  · rw [reserve, if_pos (contains_iff.2 hname)]
    by_cases heq : name = other
    · obtain ⟨entry, hentry⟩ := mem_names_iff.1 (heq ▸ hname)
      rw [hentry, Option.some_or]
    · rw [if_neg heq, Option.or_none]
  · rw [reserve, if_neg (by simpa [contains_iff] using hname), binding?, find?_append]
    rfl

/-- Reserving a name puts nothing before the entries. -/
theorem entries_prefix_reserve : r.entries <+: (r.reserve name).entries := by
  rw [reserve]
  split
  · exact List.prefix_refl _
  · exact List.prefix_append _ _

/-! ## Defining a pending name -/

theorem map_fst_bind {entries : List (String × Option NamedType)}
    (h : name ∈ entries.map (·.1)) :
    (bind name definition entries).map (·.1) = entries.map (·.1) := by
  induction entries with
  | nil => simp at h
  | cons e rest ih =>
    obtain ⟨n, entry⟩ := e
    by_cases hn : n = name
    · simp [bind_cons, hn]
    · have hrest : name ∈ rest.map (·.1) := by simpa [Ne.symm hn] using h
      simp [bind_cons, hn, ih hrest]

theorem find?_bind_self {entries : List (String × Option NamedType)} :
    find? name (bind name definition entries) = some (some definition) := by
  induction entries with
  | nil => simp [find?_cons]
  | cons e rest ih =>
    obtain ⟨n, entry⟩ := e
    by_cases hn : n = name
    · simp [bind_cons, find?_cons, hn]
    · simp [bind_cons, find?_cons, hn, ih]

theorem find?_bind_of_ne {entries : List (String × Option NamedType)} (h : other ≠ name) :
    find? other (bind name definition entries) = find? other entries := by
  induction entries with
  | nil => simp [find?_cons, Ne.symm h]
  | cons e rest ih =>
    obtain ⟨n, entry⟩ := e
    by_cases hn : n = name
    · subst hn
      simp [bind_cons, find?_cons, Ne.symm h]
    · rw [bind_cons, if_neg hn, find?_cons, find?_cons]
      split
      · rfl
      · exact ih

/-- **A pending name can be defined.** -/
theorem register_of_pending (h : r.binding? name = some none) :
    ∃ r', r.register name definition = .ok r' := by
  rw [register, h]
  exact ⟨_, rfl⟩

/-- Its definition keeps its place, and every other name keeps what it
stands for. -/
theorem of_register_pending (h : r.binding? name = some none)
    (hr : r.register name definition = .ok r') :
    r'.names = r.names ∧ r'.binding? name = some (some definition) ∧
      ∀ other, other ≠ name → r'.binding? other = r.binding? other := by
  rw [register, h] at hr
  obtain rfl := Except.ok.inj hr
  exact ⟨map_fst_bind (mem_names_of_binding h), find?_bind_self, fun _ hne => find?_bind_of_ne hne⟩

theorem bind_append_of_not_mem {entries more : List (String × Option NamedType)}
    (h : name ∉ entries.map (·.1)) :
    bind name definition (entries ++ more) = entries ++ bind name definition more := by
  induction entries with
  | nil => rfl
  | cons e rest ih =>
    obtain ⟨n, entry⟩ := e
    rw [List.map_cons, List.mem_cons, not_or] at h
    rw [List.cons_append, bind_cons, if_neg (Ne.symm h.1), ih h.2, List.cons_append]

/-- **Entries of other names stay as they are and where they are** when a
name behind them is defined. -/
theorem entries_prefix_register (hnew : name ∉ r.names) (hfront : r.entries <+: r'.entries)
    (hpending : r'.binding? name = some none) {r₂ : Registry}
    (h : r'.register name definition = .ok r₂) : r.entries <+: r₂.entries := by
  obtain ⟨more, hmore⟩ := hfront
  rw [register, hpending] at h
  obtain rfl := Except.ok.inj h
  rw [← hmore, bind_append_of_not_mem hnew]
  exact List.prefix_append _ _

/-! ## Registries that say the same -/

/-- Every name stands for the same in both, wherever it was met first. -/
def Same (r r' : Registry) : Prop := ∀ name, r.binding? name = r'.binding? name

namespace Same

variable {s s' : Registry}

theorem mem_names_iff (h : Same r s) : name ∈ r.names ↔ name ∈ s.names := by
  rw [Registry.mem_names_iff, Registry.mem_names_iff, h]

theorem reserve (h : Same r s) : Same (r.reserve name) (s.reserve name) := by
  intro other
  rw [binding?_reserve, binding?_reserve, h]

theorem register (h : Same r s) (hpending : r.binding? name = some none)
    (hr : r.register name definition = .ok r') :
    ∃ s', s.register name definition = .ok s' ∧ Same r' s' := by
  have hpending' : s.binding? name = some none := by rw [← h, hpending]
  obtain ⟨s', hs⟩ : ∃ s', s.register name definition = .ok s' := register_of_pending hpending'
  obtain ⟨-, hself, hothers⟩ := of_register_pending hpending hr
  obtain ⟨-, hself', hothers'⟩ := of_register_pending hpending' hs
  refine ⟨s', hs, fun other => ?_⟩
  by_cases hother : other = name
  · rw [hother, hself, hself']
  · rw [hothers other hother, hothers' other hother, h]

/-- **Where no name is bound twice**, the entries are the same in another
order. -/
theorem entries_perm (h : Same r s) (hr : r.names.Nodup) (hs : s.names.Nodup) :
    r.entries.Perm s.entries := by
  rw [List.perm_ext_iff_of_nodup (List.Nodup.of_map _ hr) (List.Nodup.of_map _ hs)]
  rintro ⟨name, entry⟩
  constructor
  · intro hentry
    have hbinding := binding_of_mem_entries hr hentry
    rw [h name] at hbinding
    exact mem_entries_of_binding hbinding
  · intro hentry
    have hbinding := binding_of_mem_entries hs hentry
    rw [← h name] at hbinding
    exact mem_entries_of_binding hbinding

end Same

end Registry

end TypedClient
