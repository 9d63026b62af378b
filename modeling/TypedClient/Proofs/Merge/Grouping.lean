import TypedClient.Proofs.Merge
/-!
# Merging in groups

Documents may be merged in groups. A document that is itself a merge adds what
its parts add one after another (`addMembers_assoc`), up to the order of the
members of the root and of the components: a later document that is added by
itself can bring a section that an earlier one lacks, and in a group it comes
with the others. Everything below these two levels is the same, in its order.
A document that has been merged already adds nothing more
(`Holds.addMembers_eq`).
-/

namespace TypedClient

namespace Merge

open Json (find? insert keys object?)

variable {acc acc' middle source source' first target entries more members : List (String × Json)}
variable {later : List (List (String × Json))} {key name : String}

/-! ## Missing entries -/

theorem mem_keys_addMissing_iff :
    key ∈ keys (addMissing acc entries) ↔ key ∈ keys acc ∨ key ∈ keys entries := by
  rw [← Json.find?_isSome_iff, find?_addMissing, Option.isSome_or, Bool.or_eq_true,
    Json.find?_isSome_iff, Json.find?_isSome_iff]

theorem addMissing_append :
    addMissing acc (entries ++ more) = addMissing (addMissing acc entries) more := by
  induction entries generalizing acc with
  | nil => rfl
  | cons entry rest ih =>
    rw [List.cons_append, addMissing_cons, addMissing_cons]
    split
    · exact ih
    · exact ih

/-- **Missing entries are added in groups.** To add what one list lacks of
another to a third is to add both, one after the other. -/
theorem addMissing_assoc :
    addMissing acc (addMissing middle entries) = addMissing (addMissing acc middle) entries := by
  induction entries generalizing middle with
  | nil => rfl
  | cons entry rest ih =>
    obtain ⟨k, v⟩ := entry
    rw [addMissing_cons]
    by_cases hmiddle : k ∈ keys middle
    · -- the key is there in both groupings
      have hboth : k ∈ keys (addMissing acc middle) := mem_keys_addMissing_iff.2 (.inr hmiddle)
      rw [if_pos (Json.hasKey_iff_mem_keys.2 hmiddle), ih, addMissing_cons,
        if_pos (Json.hasKey_iff_mem_keys.2 hboth)]
    · rw [if_neg fun hhas => hmiddle (Json.hasKey_iff_mem_keys.1 hhas), ih,
        ← addMissing_append, ← addMissing_append, List.append_assoc, List.singleton_append]

/-- Where no key is missing, nothing is added. -/
theorem addMissing_eq_self (h : keys entries ⊆ keys acc) : addMissing acc entries = acc := by
  induction entries with
  | nil => rfl
  | cons entry rest ih =>
    obtain ⟨hfirst, hrest⟩ := List.cons_subset.1 h
    rw [addMissing_cons, if_pos (Json.hasKey_iff_mem_keys.2 hfirst), ih hrest]

/-! ## One key -/

/-- What is added under a key depends on what the key leads to only. -/
theorem addUnder_congr (h : find? key source = find? key source') :
    addUnder key source acc = addUnder key source' acc := by
  rw [addUnder, addUnder, h]

theorem membersUnder_of_some (h : object? key acc = some entries) :
    membersUnder key acc = entries := by
  rw [membersUnder_eq, h]
  rfl

theorem object?_insert_self : object? key (insert key (.object entries) acc) = some entries :=
  object?_eq_some_iff.2 Json.find?_insert_self

/-- **The objects under one key are added in groups.** -/
theorem addUnder_assoc :
    addUnder key (addUnder key source middle) acc =
      addUnder key source (addUnder key middle acc) := by
  cases hsource : object? key source with
  | none => rw [addUnder_of_none hsource, addUnder_of_none hsource]
  | some entries =>
    have hgroup : object? key (addUnder key source middle) =
        some (addMissing (membersUnder key middle) entries) := by
      rw [addUnder_of_some hsource, object?_insert_self]
    rw [addUnder_of_some hgroup, addUnder_of_some hsource]
    cases hmiddle : object? key middle with
    | none =>
      have hnone : membersUnder key middle = [] := by
        rw [membersUnder_eq, hmiddle]
        rfl
      rw [addUnder_of_none hmiddle, hnone, addMissing_assoc]
      rfl
    | some inner =>
      rw [addUnder_of_some hmiddle, membersUnder_of_some hmiddle,
        membersUnder_of_some object?_insert_self, Json.insert_insert, addMissing_assoc]

/-! ## The sections -/

/-- Two lists of members are one map: every key leads to the same in both. -/
def SameMap (members more : List (String × Json)) : Prop :=
  ∀ key, find? key members = find? key more

theorem SameMap.addSections (h : SameMap acc acc') :
    SameMap (addSections source sections acc) (addSections source sections acc') := by
  intro name
  by_cases hname : name ∈ sections
  · rw [find?_addSections_of_mem nodup_sections hname,
      find?_addSections_of_mem nodup_sections hname]
    exact find?_addUnder_congr (h name)
  · rw [find?_addSections_of_not_mem hname, find?_addSections_of_not_mem hname, h name]

/-- **Sections are added in groups**, up to their order. -/
theorem addSections_assoc :
    SameMap (addSections (addSections source sections middle) sections acc)
      (addSections source sections (addSections middle sections acc)) := by
  intro name
  by_cases hname : name ∈ sections
  · have hgroup : find? name (addSections source sections middle) =
        find? name (addUnder name source middle) :=
      find?_addSections_of_mem nodup_sections hname
    have hflat : find? name (addUnder name middle acc) =
        find? name (addSections middle sections acc) :=
      (find?_addSections_of_mem nodup_sections hname).symm
    calc find? name (addSections (addSections source sections middle) sections acc)
        = find? name (addUnder name (addSections source sections middle) acc) :=
          find?_addSections_of_mem nodup_sections hname
      _ = find? name (addUnder name (addUnder name source middle) acc) := by
          rw [addUnder_congr hgroup]
      _ = find? name (addUnder name source (addUnder name middle acc)) := by
          rw [addUnder_assoc]
      _ = find? name (addUnder name source (addSections middle sections acc)) :=
          find?_addUnder_congr hflat
      _ = find? name (addSections source sections (addSections middle sections acc)) :=
          (find?_addSections_of_mem nodup_sections hname).symm
  · rw [find?_addSections_of_not_mem hname, find?_addSections_of_not_mem hname,
      find?_addSections_of_not_mem hname]

/-- An object without sections adds none. -/
theorem addSections_nil (names : List String) : addSections [] names acc = acc := by
  induction names with
  | nil => rfl
  | cons n rest ih => rw [addSections, addUnder_of_none rfl, ih]

/-! ## The components -/

/-- What a key leads to is the same in both, or two objects that are one
map. -/
inductive ShuffledAt (key : String) (members more : List (String × Json)) : Prop
  /-- The same value. -/
  | same : find? key members = find? key more → ShuffledAt key members more
  /-- Two objects that are one map. -/
  | object {inner others : List (String × Json)} : find? key members = some (.object inner) →
      find? key more = some (.object others) → SameMap inner others → ShuffledAt key members more

namespace ShuffledAt

theorem trans (h : ShuffledAt key acc middle) (h' : ShuffledAt key middle target) :
    ShuffledAt key acc target := by
  cases h with
  | same heq =>
    cases h' with
    | same heq' => exact .same (heq.trans heq')
    | object hinner hothers hmap => exact .object (heq.trans hinner) hothers hmap
  | object hinner hothers hmap =>
    cases h' with
    | same heq' => exact .object hinner (heq'.symm.trans hothers) hmap
    | object hinner' hothers' hmap' =>
      rw [hothers] at hinner'
      cases hinner'
      exact .object hinner hothers' fun key => (hmap key).trans (hmap' key)

/-- The members of the two objects are one map. -/
theorem membersUnder (h : ShuffledAt key acc acc') :
    SameMap (membersUnder key acc) (membersUnder key acc') := by
  cases h with
  | same heq =>
    rw [Merge.membersUnder, Merge.membersUnder, heq]
    exact fun _ => rfl
  | object hinner hothers hmap =>
    rw [membersUnder_of_some (object?_eq_some_iff.2 hinner),
      membersUnder_of_some (object?_eq_some_iff.2 hothers)]
    exact hmap

/-- Components added to what is one map come to one map. -/
theorem addComponents (h : ShuffledAt "components" acc acc') :
    ShuffledAt "components" (addComponents source acc) (addComponents source acc') := by
  cases hsource : object? "components" source with
  | none => rwa [addComponents_of_none hsource, addComponents_of_none hsource]
  | some components =>
    rw [addComponents_of_some hsource, addComponents_of_some hsource]
    exact .object Json.find?_insert_self Json.find?_insert_self h.membersUnder.addSections

end ShuffledAt

/-- What is added to the components depends on the components only. -/
theorem addComponents_congr (h : find? "components" source = find? "components" source') :
    addComponents source acc = addComponents source' acc := by
  rw [addComponents, addComponents, h]

/-- **Components are added in groups**, up to the order of the sections. -/
theorem addComponents_assoc :
    ShuffledAt "components" (addComponents (addComponents source middle) acc)
      (addComponents source (addComponents middle acc)) := by
  cases hsource : object? "components" source with
  | none =>
    rw [addComponents_of_none hsource, addComponents_of_none hsource]
    exact .same rfl
  | some components =>
    have hgroup : object? "components" (addComponents source middle) =
        some (addSections components sections (membersUnder "components" middle)) := by
      rw [addComponents_of_some hsource, object?_insert_self]
    rw [addComponents_of_some hgroup, addComponents_of_some hsource]
    refine .object Json.find?_insert_self Json.find?_insert_self ?_
    have hassoc : SameMap
        (addSections (addSections components sections (membersUnder "components" middle))
          sections (membersUnder "components" acc))
        (addSections components sections (addSections (membersUnder "components" middle)
          sections (membersUnder "components" acc))) := addSections_assoc
    cases hmiddle : object? "components" middle with
    | none =>
      have hnone : membersUnder "components" middle = [] := by
        rw [membersUnder_eq, hmiddle]
        rfl
      rw [hnone, addSections_nil sections] at hassoc
      rwa [addComponents_of_none hmiddle, hnone]
    | some inner =>
      rw [membersUnder_of_some hmiddle] at hassoc ⊢
      rwa [addComponents_of_some hmiddle, membersUnder_of_some object?_insert_self]

/-! ## Documents -/

/-- The members of one document added to those of another. -/
def addMembers (target source : List (String × Json)) : List (String × Json) :=
  addComponents source (addUnder "paths" source target)

theorem addAll_objects :
    addAll (.object acc) (later.map .object) = .ok (.object (later.foldl addMembers acc)) := by
  induction later generalizing acc with
  | nil => rfl
  | cons source rest ih => exact ih

theorem find?_addMembers_paths :
    find? "paths" (addMembers acc source) = find? "paths" (addUnder "paths" source acc) :=
  find?_addComponents_of_ne (by decide)

theorem find?_addMembers_components :
    find? "components" (addMembers acc source) = find? "components" (addComponents source acc) :=
  find?_addComponents_congr (find?_addUnder_of_ne (by decide))

theorem find?_addMembers_of_ne (hpaths : key ≠ "paths") (hcomponents : key ≠ "components") :
    find? key (addMembers acc source) = find? key acc :=
  (find?_addComponents_of_ne hcomponents).trans (find?_addUnder_of_ne hpaths)

/-- **Two merges of the same documents** in different groups: the components
are one map, and every other key leads to the same. -/
structure Regrouped (members more : List (String × Json)) : Prop where
  others : ∀ key, key ≠ "components" → find? key members = find? key more
  components : ShuffledAt "components" members more

theorem Regrouped.refl (members : List (String × Json)) : Regrouped members members :=
  ⟨fun _ _ => rfl, .same rfl⟩

theorem Regrouped.trans (h : Regrouped acc middle) (h' : Regrouped middle target) :
    Regrouped acc target where
  others key hkey := (h.others key hkey).trans (h'.others key hkey)
  components := h.components.trans h'.components

/-- One document more keeps merges alike. -/
theorem Regrouped.addMembers (h : Regrouped acc acc') :
    Regrouped (addMembers acc source) (addMembers acc' source) where
  others key hkey := by
    by_cases hpaths : key = "paths"
    · rw [hpaths, find?_addMembers_paths, find?_addMembers_paths]
      exact find?_addUnder_congr (h.others "paths" (by decide))
    · rw [find?_addMembers_of_ne hpaths hkey, find?_addMembers_of_ne hpaths hkey,
        h.others key hkey]
  components := by
    have hadded : ShuffledAt "components" (addComponents source acc)
        (addComponents source acc') := h.components.addComponents
    have hfirst : ShuffledAt "components" (Merge.addMembers acc source)
        (addComponents source acc) := .same find?_addMembers_components
    have hsecond : ShuffledAt "components" (addComponents source acc')
        (Merge.addMembers acc' source) := .same find?_addMembers_components.symm
    exact hfirst.trans (hadded.trans hsecond)

theorem Regrouped.foldl (h : Regrouped acc acc') :
    Regrouped (later.foldl Merge.addMembers acc) (later.foldl Merge.addMembers acc') := by
  induction later generalizing acc acc' with
  | nil => exact h
  | cons source rest ih => exact ih h.addMembers

/-- **Documents are added in groups.** To add a document with another added to
it is to add both, one after the other. -/
theorem addMembers_assoc :
    Regrouped (addMembers acc (addMembers middle source))
      (addMembers (addMembers acc middle) source) where
  others key hkey := by
    by_cases hpaths : key = "paths"
    · subst hpaths
      calc find? "paths" (addMembers acc (addMembers middle source))
          = find? "paths" (addUnder "paths" (addMembers middle source) acc) :=
            find?_addMembers_paths
        _ = find? "paths" (addUnder "paths" (addUnder "paths" source middle) acc) := by
            rw [addUnder_congr find?_addMembers_paths]
        _ = find? "paths" (addUnder "paths" source (addUnder "paths" middle acc)) := by
            rw [addUnder_assoc]
        _ = find? "paths" (addUnder "paths" source (addMembers acc middle)) :=
            find?_addUnder_congr find?_addMembers_paths.symm
        _ = find? "paths" (addMembers (addMembers acc middle) source) :=
            find?_addMembers_paths.symm
    · rw [find?_addMembers_of_ne hpaths hkey, find?_addMembers_of_ne hpaths hkey,
        find?_addMembers_of_ne hpaths hkey]
  components := by
    have hgroup : find? "components" (addMembers acc (addMembers middle source)) =
        find? "components" (addComponents (addComponents source middle) acc) := by
      rw [find?_addMembers_components, addComponents_congr find?_addMembers_components]
    have hflat : find? "components" (addComponents source (addComponents middle acc)) =
        find? "components" (addMembers (addMembers acc middle) source) := by
      rw [find?_addMembers_components]
      exact find?_addComponents_congr find?_addMembers_components.symm
    exact (ShuffledAt.same hgroup).trans (addComponents_assoc.trans (.same hflat))

/-- **A merge adds what its documents add**, one after another. -/
theorem regrouped_foldl :
    Regrouped (addMembers acc (later.foldl addMembers first))
      (later.foldl addMembers (addMembers acc first)) := by
  induction later generalizing first with
  | nil => exact .refl _
  | cons source rest ih => exact ih.trans addMembers_assoc.foldl

/-! ## Documents that have been merged -/

/-- What a document has under a key is in the members of another. -/
def HoldsUnder (key : String) (source acc : List (String × Json)) : Prop :=
  ∀ entries, object? key source = some entries →
    ∃ members, find? key acc = some (.object members) ∧ keys entries ⊆ keys members

namespace HoldsUnder

theorem self : HoldsUnder key source source :=
  fun entries h => ⟨entries, object?_eq_some_iff.1 h, List.Subset.refl _⟩

theorem congr (h : HoldsUnder key source acc) (hfind : find? key acc' = find? key acc) :
    HoldsUnder key source acc' := fun entries hentries => hfind ▸ h entries hentries

/-- A document that is added is held from then on. -/
theorem added : HoldsUnder key source (addUnder key source acc) := by
  intro entries h
  refine ⟨_, by rw [addUnder_of_some h, Json.find?_insert_self], fun k hk => ?_⟩
  exact mem_keys_addMissing_iff.2 (.inr hk)

/-- What is held stays so when another document is added. -/
theorem addUnder (h : HoldsUnder key source acc) :
    HoldsUnder key source (Merge.addUnder key middle acc) := by
  intro entries hentries
  obtain ⟨members, hmembers, hsub⟩ := h entries hentries
  cases hmiddle : object? key middle with
  | none =>
    rw [addUnder_of_none hmiddle]
    exact ⟨members, hmembers, hsub⟩
  | some inner =>
    refine ⟨_, by rw [addUnder_of_some hmiddle, Json.find?_insert_self], fun k hk => ?_⟩
    rw [membersUnder_of_some (object?_eq_some_iff.2 hmembers)]
    exact mem_keys_addMissing_iff.2 (.inl (hsub hk))

/-- **What is held is not added again.** -/
theorem addUnder_eq (h : HoldsUnder key source acc) : Merge.addUnder key source acc = acc := by
  cases hsource : object? key source with
  | none => rw [addUnder_of_none hsource]
  | some entries =>
    obtain ⟨members, hmembers, hsub⟩ := h entries hsource
    rw [addUnder_of_some hsource, membersUnder_of_some (object?_eq_some_iff.2 hmembers),
      addMissing_eq_self hsub, Json.insert_eq_self hmembers]

end HoldsUnder

/-- The components of a document are in the members of another, section by
section. -/
def HoldsComponents (source acc : List (String × Json)) : Prop :=
  ∀ components, object? "components" source = some components →
    ∃ members, find? "components" acc = some (.object members) ∧
      ∀ name ∈ sections, HoldsUnder name components members

namespace HoldsComponents

theorem self : HoldsComponents source source :=
  fun components h => ⟨components, object?_eq_some_iff.1 h, fun _ _ => .self⟩

theorem congr (h : HoldsComponents source acc)
    (hfind : find? "components" acc' = find? "components" acc) : HoldsComponents source acc' :=
  fun components hcomponents => hfind ▸ h components hcomponents

theorem added : HoldsComponents source (addComponents source acc) := by
  intro components h
  refine ⟨_, by rw [addComponents_of_some h, Json.find?_insert_self], fun name hname => ?_⟩
  exact HoldsUnder.added.congr (find?_addSections_of_mem nodup_sections hname)

theorem addComponents (h : HoldsComponents source acc) :
    HoldsComponents source (Merge.addComponents middle acc) := by
  intro components hcomponents
  obtain ⟨members, hmembers, hholds⟩ := h components hcomponents
  cases hmiddle : object? "components" middle with
  | none =>
    rw [addComponents_of_none hmiddle]
    exact ⟨members, hmembers, hholds⟩
  | some inner =>
    refine ⟨_, by rw [addComponents_of_some hmiddle, Json.find?_insert_self],
      fun name hname => ?_⟩
    rw [membersUnder_of_some (object?_eq_some_iff.2 hmembers)]
    exact (hholds name hname).addUnder.congr (find?_addSections_of_mem nodup_sections hname)

/-- Sections that are held are not added again. -/
theorem addSections_eq {names : List String} (h : ∀ name ∈ names, HoldsUnder name source acc) :
    addSections source names acc = acc := by
  induction names with
  | nil => rfl
  | cons n rest ih =>
    obtain ⟨hfirst, hrest⟩ := List.forall_mem_cons.1 h
    rw [addSections, hfirst.addUnder_eq, ih hrest]

theorem addComponents_eq (h : HoldsComponents source acc) :
    Merge.addComponents source acc = acc := by
  cases hsource : object? "components" source with
  | none => rw [addComponents_of_none hsource]
  | some components =>
    obtain ⟨members, hmembers, hholds⟩ := h components hsource
    rw [addComponents_of_some hsource, membersUnder_of_some (object?_eq_some_iff.2 hmembers),
      addSections_eq hholds, Json.insert_eq_self hmembers]

end HoldsComponents

/-- All that a document adds to others is in the members of one. -/
structure Holds (source acc : List (String × Json)) : Prop where
  paths : HoldsUnder "paths" source acc
  components : HoldsComponents source acc

namespace Holds

theorem self : Holds source source := ⟨.self, .self⟩

theorem added : Holds source (addMembers acc source) where
  paths := HoldsUnder.added.congr find?_addMembers_paths
  components := HoldsComponents.added.congr find?_addMembers_components

theorem addMembers (h : Holds source acc) : Holds source (addMembers acc middle) where
  paths := h.paths.addUnder.congr find?_addMembers_paths
  components := h.components.addComponents.congr find?_addMembers_components

theorem foldl (h : Holds source acc) : Holds source (later.foldl Merge.addMembers acc) := by
  induction later generalizing acc with
  | nil => exact h
  | cons middle rest ih => exact ih h.addMembers

/-- A merge holds all of its documents. -/
theorem of_mem (h : source ∈ later) : Holds source (later.foldl Merge.addMembers acc) := by
  induction later generalizing acc with
  | nil => cases h
  | cons middle rest ih =>
    rcases List.mem_cons.1 h with rfl | hrest
    · exact added.foldl
    · exact ih hrest

/-- **A document that is held adds nothing.** -/
theorem addMembers_eq (h : Holds source acc) : Merge.addMembers acc source = acc := by
  rw [Merge.addMembers, h.paths.addUnder_eq, h.components.addComponents_eq]

end Holds

/-- Equal values are found under a key that leads to the same. -/
theorem rel_equal (h : find? key acc = find? key acc') :
    Option.Rel Json.Equal (find? key acc) (find? key acc') := by
  rw [h]
  cases find? key acc' with
  | none => exact .none
  | some v => exact .some .same

/-- Members that differ by the grouping are equal as objects. -/
theorem Regrouped.equal (h : Regrouped acc acc') : Json.Equal (.object acc) (.object acc') := by
  refine .object fun key => ?_
  by_cases hkey : key = "components"
  · subst hkey
    cases h.components with
    | same heq => exact rel_equal heq
    | object hinner hothers hmap =>
      rw [hinner, hothers]
      exact .some (.object fun name => rel_equal (hmap name))
  · exact rel_equal (h.others key hkey)

/-- The entries of the components are the same, each with all that is in
it. -/
theorem Regrouped.entry (h : Regrouped acc acc') (name : String) :
    (find? "components" acc).bind (·.get? name) = (find? "components" acc').bind (·.get? name) := by
  cases h.components with
  | same heq => rw [heq]
  | object hinner hothers hmap =>
    rw [hinner, hothers]
    exact hmap name

/-! ## Failures -/

theorem merge_error_iff {documents : List Json} (h : 2 ≤ documents.length) :
    (∃ e, merge documents = .error e) ↔ ∃ d ∈ documents, d.members? = none := by
  match documents, h with
  | first :: second :: rest, _ =>
    rw [merge, addAll_error_iff, and_iff_right (List.cons_ne_nil _ _)]

/-- One document is merged, whatever it is. -/
theorem two_le_length {documents : List Json} {e : Error} (hne : documents ≠ [])
    (h : merge documents = .error e) : 2 ≤ documents.length := by
  match documents, h with
  | [], _ => exact absurd rfl hne
  | _ :: _ :: _, _ => exact Nat.le_add_left ..

/-- The merge of objects is their members added one after another. -/
theorem merge_objects :
    merge (.object first :: later.map .object) =
      .ok (.object (later.foldl addMembers first)) := addAll_objects

theorem exists_objects {documents : List Json} (h : ∀ d ∈ documents, d.members? ≠ none) :
    ∃ objects : List (List (String × Json)), documents = objects.map .object := by
  induction documents with
  | nil => exact ⟨[], rfl⟩
  | cons d rest ih =>
    obtain ⟨hd, hrest⟩ := List.forall_mem_cons.1 h
    obtain ⟨objects, rfl⟩ := ih hrest
    cases d with
    | object members => exact ⟨members :: objects, rfl⟩
    | _ => exact absurd rfl hd

/-- Two documents or more are merged if all of them are objects. -/
theorem exists_objects_of_merge {documents : List Json} {result : Json}
    (htwo : 2 ≤ documents.length) (h : merge documents = .ok result) :
    ∃ objects : List (List (String × Json)), documents = objects.map .object := by
  refine exists_objects fun d hd hnone => ?_
  obtain ⟨e, he⟩ := (merge_error_iff htwo).2 ⟨d, hd, hnone⟩
  rw [h] at he
  cases he

/-! ## Groups and repetitions -/

/-- What a group comes to behind other documents, merged as one and document
by document. -/
theorem merge_group {xs ys : List Json} {group : Json} (hys : ys ≠ []) (hxs : xs ≠ [])
    (hgroup : merge ys = .ok group) :
    ((∃ e, merge (xs ++ ys) = .error e) ∧ ∃ e, merge (xs ++ [group]) = .error e) ∨
    ∃ flat grouped, merge (xs ++ ys) = .ok flat ∧ merge (xs ++ [group]) = .ok grouped ∧
      grouped.Equal flat ∧ grouped.get? "paths" = flat.get? "paths" ∧
      ∀ name, (grouped.get? "components").bind (·.get? name) =
        (flat.get? "components").bind (·.get? name) := by
  have hlength : 1 ≤ xs.length := List.length_pos_iff.2 hxs
  rcases Nat.lt_or_ge ys.length 2 with hshort | htwo
  · -- one document is its own merge
    obtain ⟨y, rfl⟩ : ∃ y, ys = [y] := by
      have hone : 1 ≤ ys.length := List.length_pos_iff.2 hys
      exact List.length_eq_one_iff.1 (by omega)
    cases hgroup
    cases hmerge : merge (xs ++ [group]) with
    | error e => exact .inl ⟨⟨e, rfl⟩, e, rfl⟩
    | ok result => exact .inr ⟨result, result, rfl, rfl, .same, rfl, fun _ => rfl⟩
  obtain ⟨objects, rfl⟩ := exists_objects_of_merge htwo hgroup
  have hflat : 2 ≤ (xs ++ objects.map Json.object).length := by rw [List.length_append]; omega
  have hgrouped : 2 ≤ (xs ++ [group]).length := by
    rw [List.length_append, List.length_singleton]
    omega
  by_cases hall : ∃ d ∈ xs, d.members? = none
  · obtain ⟨d, hd, hnone⟩ := hall
    exact .inl ⟨(merge_error_iff hflat).2 ⟨d, List.mem_append_left _ hd, hnone⟩,
      (merge_error_iff hgrouped).2 ⟨d, List.mem_append_left _ hd, hnone⟩⟩
  · push Not at hall
    obtain ⟨before, rfl⟩ := exists_objects hall
    obtain ⟨first, later, rfl⟩ := List.exists_cons_of_ne_nil (mt (congrArg (List.map _)) hxs)
    obtain ⟨middle, others, rfl⟩ := List.exists_cons_of_ne_nil (mt (congrArg (List.map _)) hys)
    rw [List.map_cons, merge_objects] at hgroup
    cases hgroup
    have hdocuments : (first :: later).map Json.object ++ (middle :: others).map .object =
        .object first :: (later ++ middle :: others).map .object := by simp
    have hgroups : (first :: later).map Json.object ++
        [.object (others.foldl addMembers middle)] =
        .object first :: (later ++ [others.foldl addMembers middle]).map .object := by simp
    have hregrouped : Regrouped
        (addMembers (later.foldl addMembers first) (others.foldl addMembers middle))
        (others.foldl addMembers (addMembers (later.foldl addMembers first) middle)) :=
      regrouped_foldl
    rw [hdocuments, hgroups, merge_objects, merge_objects, List.foldl_append, List.foldl_append]
    exact .inr ⟨_, _, rfl, rfl, hregrouped.equal, hregrouped.others "paths" (by decide),
      hregrouped.entry⟩

/-- A document that is repeated behind objects that it is one of adds
nothing. -/
theorem merge_repeated {xs : List Json} {d : Json} (hxs : xs ≠ [])
    (hobjects : ∀ d ∈ xs, d.members? ≠ none) (hd : d ∈ xs) : merge (xs ++ [d]) = merge xs := by
  obtain ⟨objects, rfl⟩ := exists_objects hobjects
  obtain ⟨source, hsource, rfl⟩ := List.mem_map.1 hd
  cases objects with
  | nil => exact absurd rfl hxs
  | cons first later =>
    have hholds : Holds source (later.foldl addMembers first) := by
      rcases List.mem_cons.1 hsource with rfl | hlater
      · exact Holds.self.foldl
      · exact .of_mem hlater
    have hall : (first :: later).map Json.object ++ [.object source] =
        .object first :: (later ++ [source]).map .object := by simp
    rw [hall, List.map_cons, merge_objects, merge_objects, List.foldl_append, List.foldl_cons,
      List.foldl_nil, hholds.addMembers_eq]

end Merge

/-- **Groups and repetitions do not matter to a merge.** If a group cannot be
merged, neither can any documents with the group behind them. If it can, then
to merge it into other documents as one and to merge its documents one after
another either both fail, or both give equal values, where the paths and every
entry of the components are the same, in the same order. And a document that is
repeated behind objects that it is one of changes nothing, not even an
order. -/
theorem merge_groups (xs ys : List Json) :
    (ys ≠ [] → (∃ e, merge ys = .error e) → ∃ e, merge (xs ++ ys) = .error e) ∧
    (ys ≠ [] → xs ≠ [] → ∀ group, merge ys = .ok group →
      ((∃ e, merge (xs ++ ys) = .error e) ∧ ∃ e, merge (xs ++ [group]) = .error e) ∨
      ∃ flat grouped, merge (xs ++ ys) = .ok flat ∧ merge (xs ++ [group]) = .ok grouped ∧
        grouped.Equal flat ∧ grouped.get? "paths" = flat.get? "paths" ∧
        ∀ name, (grouped.get? "components").bind (·.get? name) =
          (flat.get? "components").bind (·.get? name)) ∧
    (xs ≠ [] → (∀ d ∈ xs, d.members? ≠ none) → ∀ d ∈ xs, merge (xs ++ [d]) = merge xs) := by
  refine ⟨fun hys ⟨e, hfails⟩ => ?_, fun hys hxs group hgroup => ?_, fun hxs hobjects d hd => ?_⟩
  · have htwo : 2 ≤ ys.length := Merge.two_le_length hys hfails
    obtain ⟨d, hd, hnone⟩ := (Merge.merge_error_iff htwo).1 ⟨e, hfails⟩
    have hall : 2 ≤ (xs ++ ys).length := by rw [List.length_append]; omega
    exact (Merge.merge_error_iff hall).2 ⟨d, List.mem_append_right _ hd, hnone⟩
  · exact Merge.merge_group hys hxs hgroup
  · exact Merge.merge_repeated hxs hobjects hd

/-- Responses without schemas. -/
def responsesOnly : Json :=
  .object [("components", .object [("responses", .object [("Gone", .null)])])]

/-- Schemas, and a path. -/
def schemasAndPath : Json :=
  .object [("paths", .object [("/pets", .null)]),
    ("components", .object [("schemas", .object [("Pet", .null)]),
      ("responses", .object [("Gone", .bool true), ("Found", .null)])])]

/-- In a group the paths come before the components and the schemas before the
responses; the values are equal, and the responses have one order. -/
theorem merge_groups_of_responsesOnly : ∃ group flat grouped responses,
    merge [responsesOnly, schemasAndPath] = .ok group ∧
    merge [.object [], responsesOnly, schemasAndPath] = .ok flat ∧
    merge [.object [], group] = .ok grouped ∧ grouped.Equal flat ∧
    flat.members?.map Json.keys = some ["components", "paths"] ∧
    grouped.members?.map Json.keys = some ["paths", "components"] ∧
    (grouped.get? "components").bind (·.get? "responses") = some (.object responses) ∧
    (flat.get? "components").bind (·.get? "responses") = some (.object responses) ∧
    Json.keys responses = ["Gone", "Found"] ∧
    merge [group, flat, grouped, flat] = merge [group, flat, grouped] := by
  obtain ⟨-, hgroup, -⟩ := merge_groups [.object []] [responsesOnly, schemasAndPath]
  have hmerged : merge [responsesOnly, schemasAndPath] = .ok _ := rfl
  rcases hgroup (by simp) (by simp) _ hmerged with ⟨⟨e, hfails⟩, -⟩ | hboth
  · cases hfails
  obtain ⟨flat, grouped, hflat, hgrouped, hequal, -, hentries⟩ := hboth
  cases hflat
  cases hgrouped
  obtain ⟨-, -, hrepeated⟩ := merge_groups [_, _, _] []
  exact ⟨_, _, _, _, hmerged, rfl, rfl, hequal, rfl, rfl, rfl, hentries "responses", rfl,
    hrepeated (by simp) (by simp [Json.members?]) _ (by simp)⟩

end TypedClient
