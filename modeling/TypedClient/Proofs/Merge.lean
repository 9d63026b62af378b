import TypedClient.Merge
import TypedClient.Proofs.Distinct
import TypedClient.Proofs.Json.Members
/-!
# What merging gives

Merging several documents is first write wins, at three levels: the root of
the first document, the paths, and the entries of the component sections.
`FirstWriteWins` says so of a result without mention of how it is reached.
One document added keeps it (`FirstWriteWins.add`), so merging any number of
documents gives it (`merge_firstWriteWins`). No object of the result has a
key twice if this is so in the documents (`merge_regular`).
-/

namespace TypedClient

namespace Merge

open Json (find? insert keys object?)

variable {first acc source target entries members : List (String × Json)}
variable {objects later : List (List (String × Json))} {key name other : String}
variable {names : List String}

/-- **Objects joined into one.** Its keys are all of theirs in the order of
first occurrence, and each has the value it has in the first object that has
the key. -/
structure Joined (objects : List (List (String × Json))) (result : List (String × Json)) :
    Prop where
  keys : keys result = (objects.flatMap keys).eraseDups
  value : ∀ key, find? key result = objects.findSome? (find? key)

/-- What a key leads to in a result: what it leads to in the first object
if no later one has an object there, and otherwise all objects there joined
into one. -/
structure Under (key : String) (first : List (String × Json))
    (later : List (List (String × Json))) (result : List (String × Json)) : Prop where
  kept : (∀ source ∈ later, object? key source = none) → find? key result = find? key first
  joined : (∃ source ∈ later, object? key source ≠ none) →
    ∃ members, find? key result = some (.object members) ∧
      Joined ((first :: later).filterMap (object? key)) members

/-- The members of other keys than some are the same. -/
def SameOutside (names : List String) (first result : List (String × Json)) : Prop :=
  result.filter (·.1 ∉ names) = first.filter (·.1 ∉ names)

/-- What the components are in a result: those of the first document if no
later one has an object there, and otherwise an object where each section
joins those of all documents, and all else comes from the first. -/
structure Components (first : List (String × Json)) (later : List (List (String × Json)))
    (result : List (String × Json)) : Prop where
  kept : (∀ source ∈ later, object? "components" source = none) →
    find? "components" result = find? "components" first
  merged : (∃ source ∈ later, object? "components" source ≠ none) →
    ∃ components, find? "components" result = some (.object components) ∧
      (∀ name ∈ sections, Under name (membersUnder "components" first)
        (later.filterMap (object? "components")) components) ∧
      SameOutside sections (membersUnder "components" first) components

/-- **First write wins** in the members of a result, given those of the
first document and of the later ones. -/
structure FirstWriteWins (first : List (String × Json)) (later : List (List (String × Json)))
    (result : List (String × Json)) : Prop where
  outside : SameOutside ["paths", "components"] first result
  paths : Under "paths" first later result
  components : Components first later result

/-! ## Entries that are missing -/

theorem addMissing_cons {value : Json} : addMissing target ((key, value) :: entries) =
    if Json.hasKey key target then addMissing target entries
    else addMissing (target ++ [(key, value)]) entries := rfl

theorem removeAll_append_singleton {α : Type} [BEq α] [LawfulBEq α] {xs ys : List α} {a : α} :
    xs.removeAll (ys ++ [a]) = (xs.removeAll ys).filter fun x => !x == a := by
  rw [List.removeAll, List.removeAll, List.filter_filter]
  congr 1
  funext x
  rw [Bool.eq_iff_iff]
  simp [and_comm]

/-- The keys that are added are those that were missing, in the order of
their first occurrence. -/
theorem keys_addMissing :
    keys (addMissing target entries) =
      keys target ++ ((keys entries).removeAll (keys target)).eraseDups := by
  induction entries generalizing target with
  | nil => simp [addMissing]
  | cons entry rest ih =>
    obtain ⟨k, v⟩ := entry
    rw [addMissing_cons, Json.keys_cons]
    by_cases hk : k ∈ keys target
    · rw [if_pos (Json.hasKey_iff_mem_keys.2 hk), ih]
      simp [List.removeAll, hk]
    · -- a new key is the first that is missing, and is missing no more behind it
      have hkeys : keys (target ++ [(k, v)]) = keys target ++ [k] := Json.keys_append
      have hremoved : (k :: keys rest).removeAll (keys target) =
          k :: (keys rest).removeAll (keys target) := by
        simp [List.removeAll, hk]
      rw [if_neg fun hhas => hk (Json.hasKey_iff_mem_keys.1 hhas), ih, hkeys, hremoved,
        List.eraseDups_cons, removeAll_append_singleton, List.append_assoc, List.singleton_append]

/-- A key leads to what it led to, or else to the first value it has among
the entries. -/
theorem find?_addMissing :
    find? key (addMissing target entries) = (find? key target).or (find? key entries) := by
  induction entries generalizing target with
  | nil => simp [addMissing]
  | cons entry rest ih =>
    obtain ⟨k, v⟩ := entry
    rw [addMissing_cons]
    by_cases hhas : Json.hasKey k target = true
    · rw [if_pos hhas, ih, Json.find?_cons]
      by_cases hk : k = key
      · -- the value that is there wins
        subst hk
        have hsome := Json.find?_isSome_iff.2 (Json.hasKey_iff_mem_keys.1 hhas)
        obtain ⟨w, hw⟩ := Option.isSome_iff_exists.1 hsome
        simp [hw]
      · rw [if_neg hk]
    · rw [if_neg hhas, ih, Json.find?_append, Option.or_assoc, Json.find?_cons, Json.find?_cons,
        Json.find?_nil]
      by_cases hk : k = key
      · simp [hk]
      · simp [hk]

/-! ## Objects joined -/

theorem joined_nil : Joined [] [] where
  keys := rfl
  value _ := rfl

/-- An object whose keys are different is joined of itself. -/
theorem joined_singleton (h : (keys members).Nodup) : Joined [members] members where
  keys := by
    have hsingle : [members].flatMap keys = keys members := by simp
    rw [hsingle, eraseDups_of_nodup h]
  value key := by
    cases hfind : find? key members <;> simp [hfind]

/-- Adding what is missing joins one object more. -/
theorem Joined.addMissing (h : Joined objects acc) :
    Joined (objects ++ [entries]) (addMissing acc entries) where
  keys := by
    have hremoved : (Json.keys entries).removeAll (Json.keys acc) =
        (Json.keys entries).removeAll (objects.flatMap Json.keys) := by
      rw [h.keys]
      simp [List.removeAll]
    have hflat : (objects ++ [entries]).flatMap Json.keys =
        objects.flatMap Json.keys ++ Json.keys entries := by
      simp
    rw [keys_addMissing, hremoved, hflat, List.eraseDups_append, h.keys]
  value key := by
    rw [find?_addMissing, h.value, List.findSome?_append]
    cases hfind : find? key entries <;> simp [hfind]

/-! ## One key -/

theorem membersUnder_eq : membersUnder key members = (object? key members).getD [] := rfl

theorem object?_eq_some_iff :
    object? key source = some entries ↔ find? key source = some (.object entries) := by
  rw [object?]
  cases find? key source with
  | none => simp
  | some v => cases v <;> simp [Json.members?]

theorem addUnder_of_none (h : object? key source = none) : addUnder key source acc = acc := by
  rw [addUnder]
  split
  · rename_i entries hentries
    rw [object?_eq_some_iff.2 hentries] at h
    cases h
  · rfl

theorem addUnder_of_some (h : object? key source = some entries) :
    addUnder key source acc =
      insert key (.object (addMissing (membersUnder key acc) entries)) acc := by
  rw [addUnder, object?_eq_some_iff.1 h]

/-- Other keys lead to what they led to. -/
theorem find?_addUnder_of_ne (h : other ≠ key) :
    find? other (addUnder key source acc) = find? other acc := by
  cases hsource : object? key source with
  | none => rw [addUnder_of_none hsource]
  | some entries => rw [addUnder_of_some hsource, Json.find?_insert_of_ne h]

/-- What the key leads to depends on what it led to only. -/
theorem find?_addUnder_congr (h : find? key acc = find? key target) :
    find? key (addUnder key source acc) = find? key (addUnder key source target) := by
  cases hsource : object? key source with
  | none => rw [addUnder_of_none hsource, addUnder_of_none hsource, h]
  | some entries =>
    have hmembers : membersUnder key acc = membersUnder key target := by
      rw [membersUnder, membersUnder, h]
    rw [addUnder_of_some hsource, addUnder_of_some hsource, Json.find?_insert_self,
      Json.find?_insert_self, hmembers]

theorem sameOutside_addUnder (h : key ∈ names) :
    SameOutside names acc (addUnder key source acc) := by
  cases hsource : object? key source with
  | none => rw [addUnder_of_none hsource]; rfl
  | some entries =>
    rw [addUnder_of_some hsource]
    exact Json.filter_insert_of_mem h

theorem SameOutside.trans (h : SameOutside names first acc) (h' : SameOutside names acc target) :
    SameOutside names first target := Eq.trans h' h

theorem under_nil : Under key first [] first where
  kept _ := rfl
  joined := by simp

theorem Under.congr (h : Under key first later acc) (hfind : find? key target = find? key acc) :
    Under key first later target where
  kept hnone := hfind.trans (h.kept hnone)
  joined hsome := by
    rw [hfind]
    exact h.joined hsome

/-- A document without an object under a key adds none to those that have
one. -/
theorem exists_object_of_append (hsource : object? key source = none)
    (h : ∃ s ∈ later ++ [source], object? key s ≠ none) : ∃ s ∈ later, object? key s ≠ none := by
  obtain ⟨s, hs, hne⟩ := h
  rcases List.mem_append.1 hs with hs | hs
  · exact ⟨s, hs, hne⟩
  · rw [List.mem_singleton.1 hs] at hne
    exact absurd hsource hne

/-- And no object. -/
theorem filterMap_append_of_none (hsource : object? key source = none) :
    (later ++ [source]).filterMap (object? key) = later.filterMap (object? key) := by
  simp [hsource]

theorem filterMap_append_of_some (hsource : object? key source = some entries) :
    (later ++ [source]).filterMap (object? key) = later.filterMap (object? key) ++ [entries] := by
  simp [hsource]

/-- A document without an object under the key is passed by. -/
theorem Under.append_of_none (h : Under key first later acc) (hsource : object? key source = none) :
    Under key first (later ++ [source]) acc where
  kept hnone := h.kept fun s hs => hnone s (List.mem_append_left _ hs)
  joined hsome := by
    rw [← List.cons_append, filterMap_append_of_none hsource]
    exact h.joined (exists_object_of_append hsource hsome)

/-- The members under a key are those of all objects there, joined, if the
keys in the first of them are different. -/
theorem Under.joined_membersUnder (h : Under key first later acc)
    (hfirst : (keys (membersUnder key first)).Nodup) :
    Joined ((first :: later).filterMap (object? key)) (membersUnder key acc) := by
  by_cases hlater : ∃ source ∈ later, object? key source ≠ none
  · obtain ⟨members, hfind, hjoined⟩ := h.joined hlater
    rw [membersUnder_eq, object?_eq_some_iff.2 hfind]
    exact hjoined
  · -- only the first document can have an object there
    push Not at hlater
    have hobjects : later.filterMap (object? key) = [] := List.filterMap_eq_nil_iff.2 hlater
    have hsame : object? key acc = object? key first := by
      rw [object?, object?, h.kept hlater]
    rw [membersUnder_eq] at hfirst
    rw [List.filterMap_cons, hobjects, membersUnder_eq, hsame]
    cases hobject : object? key first with
    | none => exact joined_nil
    | some members =>
      rw [hobject] at hfirst
      exact joined_singleton hfirst

/-- **One document more under a key.** -/
theorem Under.addUnder (h : Under key first later acc)
    (hfirst : (keys (membersUnder key first)).Nodup) :
    Under key first (later ++ [source]) (addUnder key source acc) := by
  cases hsource : object? key source with
  | none =>
    rw [addUnder_of_none hsource]
    exact h.append_of_none hsource
  | some entries =>
    rw [addUnder_of_some hsource]
    constructor
    · intro hnone
      rw [hnone source (by simp)] at hsource
      cases hsource
    · intro _
      rw [← List.cons_append, filterMap_append_of_some hsource]
      exact ⟨_, Json.find?_insert_self, (h.joined_membersUnder hfirst).addMissing⟩

/-! ## The sections -/

theorem find?_addSections_of_not_mem (h : name ∉ names) :
    find? name (addSections source names acc) = find? name acc := by
  induction names generalizing acc with
  | nil => rfl
  | cons n rest ih =>
    rw [List.mem_cons, not_or] at h
    rw [addSections, ih h.2, find?_addUnder_of_ne h.1]

/-- Each section is added to by itself. -/
theorem find?_addSections_of_mem (hnodup : names.Nodup) (h : name ∈ names) :
    find? name (addSections source names acc) = find? name (addUnder name source acc) := by
  induction names generalizing acc with
  | nil => cases h
  | cons n rest ih =>
    obtain ⟨hn, hrest⟩ := List.nodup_cons.1 hnodup
    rw [addSections]
    by_cases hname : name = n
    · -- no section behind it touches it again
      subst hname
      exact find?_addSections_of_not_mem hn
    · rw [ih hrest ((List.mem_cons.1 h).resolve_left hname)]
      exact find?_addUnder_congr (find?_addUnder_of_ne hname)

theorem sameOutside_addSections (h : ∀ name ∈ names, name ∈ sections) :
    SameOutside sections acc (addSections source names acc) := by
  induction names generalizing acc with
  | nil => rfl
  | cons n rest ih =>
    rw [addSections]
    exact (sameOutside_addUnder (h n List.mem_cons_self)).trans
      (ih fun name hname => h name (List.mem_cons_of_mem _ hname))

theorem nodup_sections : sections.Nodup := by decide

/-! ## The components -/

variable (hfirst : ∀ name, (keys (membersUnder name (membersUnder "components" first))).Nodup)

theorem addComponents_of_none (h : object? "components" source = none) :
    addComponents source acc = acc := by
  rw [addComponents]
  split
  · rename_i entries hentries
    rw [object?_eq_some_iff.2 hentries] at h
    cases h
  · rfl

theorem addComponents_of_some {components : List (String × Json)}
    (h : object? "components" source = some components) :
    addComponents source acc = insert "components"
      (.object (addSections components sections (membersUnder "components" acc))) acc := by
  rw [addComponents, object?_eq_some_iff.1 h]

theorem find?_addComponents_of_ne (h : other ≠ "components") :
    find? other (addComponents source acc) = find? other acc := by
  cases hsource : object? "components" source with
  | none => rw [addComponents_of_none hsource]
  | some components => rw [addComponents_of_some hsource, Json.find?_insert_of_ne h]

theorem find?_addComponents_congr (h : find? "components" acc = find? "components" target) :
    find? "components" (addComponents source acc) =
      find? "components" (addComponents source target) := by
  cases hsource : object? "components" source with
  | none => rw [addComponents_of_none hsource, addComponents_of_none hsource, h]
  | some components =>
    have hmembers : membersUnder "components" acc = membersUnder "components" target := by
      rw [membersUnder, membersUnder, h]
    rw [addComponents_of_some hsource, addComponents_of_some hsource, Json.find?_insert_self,
      Json.find?_insert_self, hmembers]

theorem sameOutside_addComponents (h : "components" ∈ names) :
    SameOutside names acc (addComponents source acc) := by
  cases hsource : object? "components" source with
  | none => rw [addComponents_of_none hsource]; rfl
  | some components =>
    rw [addComponents_of_some hsource]
    exact Json.filter_insert_of_mem h

theorem components_nil : Components first [] first where
  kept _ := rfl
  merged := by simp

theorem Components.congr (h : Components first later acc)
    (hfind : find? "components" target = find? "components" acc) :
    Components first later target where
  kept hnone := hfind.trans (h.kept hnone)
  merged hsome := by
    rw [hfind]
    exact h.merged hsome

/-- The sections under the components, whether or not a later document has
components. -/
theorem Components.under (h : Components first later acc) :
    (∀ name ∈ sections, Under name (membersUnder "components" first)
      (later.filterMap (object? "components")) (membersUnder "components" acc)) ∧
    SameOutside sections (membersUnder "components" first) (membersUnder "components" acc) := by
  by_cases hlater : ∃ source ∈ later, object? "components" source ≠ none
  · obtain ⟨components, hfind, hunder, hsame⟩ := h.merged hlater
    have hmembers : membersUnder "components" acc = components := by
      rw [membersUnder_eq, object?_eq_some_iff.2 hfind]
      rfl
    rw [hmembers]
    exact ⟨hunder, hsame⟩
  · push Not at hlater
    have hnone : later.filterMap (object? "components") = [] := List.filterMap_eq_nil_iff.2 hlater
    have hmembers : membersUnder "components" acc = membersUnder "components" first := by
      rw [membersUnder, membersUnder, h.kept hlater]
    rw [hnone, hmembers]
    exact ⟨fun name _ => under_nil, rfl⟩

include hfirst in
/-- **The components of one document more.** -/
theorem Components.addComponents (h : Components first later acc) :
    Components first (later ++ [source]) (addComponents source acc) := by
  cases hsource : object? "components" source with
  | none =>
    rw [addComponents_of_none hsource]
    constructor
    · exact fun hnone => h.kept fun s hs => hnone s (List.mem_append_left _ hs)
    · intro hsome
      rw [filterMap_append_of_none hsource]
      exact h.merged (exists_object_of_append hsource hsome)
  | some components =>
    rw [addComponents_of_some hsource]
    constructor
    · intro hnone
      rw [hnone source (by simp)] at hsource
      cases hsource
    · intro _
      obtain ⟨hunder, hsame⟩ := h.under
      rw [filterMap_append_of_some hsource]
      refine ⟨_, Json.find?_insert_self, fun name hname => ?_, ?_⟩
      · have hadded : Under name (membersUnder "components" first)
            (later.filterMap (object? "components") ++ [components])
            (Merge.addUnder name components (membersUnder "components" acc)) :=
          (hunder name hname).addUnder (hfirst name)
        exact hadded.congr (find?_addSections_of_mem nodup_sections hname)
      · exact hsame.trans (sameOutside_addSections fun name hname => hname)

/-! ## Documents one after another -/

theorem firstWriteWins_nil : FirstWriteWins first [] first :=
  ⟨rfl, under_nil, components_nil⟩

include hfirst in
/-- **One document added** to what first write wins gave for those before
it. -/
theorem FirstWriteWins.add (h : FirstWriteWins first later acc)
    (hpaths : (keys (membersUnder "paths" first)).Nodup) (source : List (String × Json)) :
    ∃ result, Merge.add (.object acc) (.object source) = .ok (.object result) ∧
      FirstWriteWins first (later ++ [source]) result := by
  refine ⟨_, rfl, ?_, ?_, ?_⟩
  · have hunder : SameOutside ["paths", "components"] acc (addUnder "paths" source acc) :=
      sameOutside_addUnder (by simp)
    exact (h.outside.trans hunder).trans (sameOutside_addComponents (by simp))
  · exact (h.paths.addUnder hpaths).congr (find?_addComponents_of_ne (by decide))
  · have hbefore : find? "components" (addUnder "paths" source acc) = find? "components" acc :=
      find?_addUnder_of_ne (by decide)
    exact (h.components.addComponents hfirst).congr (find?_addComponents_congr hbefore)

include hfirst in
theorem FirstWriteWins.addAll (h : FirstWriteWins first later acc)
    (hpaths : (keys (membersUnder "paths" first)).Nodup)
    (more : List (List (String × Json))) :
    ∃ result, Merge.addAll (.object acc) (more.map .object) = .ok (.object result) ∧
      FirstWriteWins first (later ++ more) result := by
  induction more generalizing later acc with
  | nil => exact ⟨acc, rfl, by rwa [List.append_nil]⟩
  | cons source rest ih =>
    obtain ⟨next, hnext, hlaw⟩ := h.add hfirst hpaths source
    obtain ⟨result, hresult, hlaw⟩ := ih hlaw
    refine ⟨result, ?_, ?_⟩
    · rw [List.map_cons, Merge.addAll, hnext]
      exact hresult
    · rw [List.append_cons]
      exact hlaw

/-! ## Merging keeps objects regular -/

section Regular

open Json (Regular)

theorem addMissing_regular (htarget : Regular (.object target))
    (hentries : ∀ m ∈ entries, Regular m.2) : Regular (.object (addMissing target entries)) := by
  induction entries generalizing target with
  | nil => exact htarget
  | cons entry rest ih =>
    obtain ⟨k, v⟩ := entry
    obtain ⟨hv, hrest⟩ := List.forall_mem_cons.1 hentries
    rw [addMissing_cons]
    by_cases hhas : Json.hasKey k target = true
    · rw [if_pos hhas]
      exact ih htarget hrest
    · rw [if_neg hhas]
      have hnew : k ∉ keys target := fun hk => hhas (Json.hasKey_iff_mem_keys.2 hk)
      exact ih (htarget.append_singleton hnew hv) hrest

/-- What a regular object has under a key is a regular object. -/
theorem regular_of_object? (hsource : Regular (.object source))
    (h : object? key source = some entries) : Regular (.object entries) := by
  have hunder : Regular (.object ((object? key source).getD [])) := hsource.under
  rwa [h] at hunder

theorem addUnder_regular (hacc : Regular (.object acc)) (hsource : Regular (.object source)) :
    Regular (.object (addUnder key source acc)) := by
  cases hobject : object? key source with
  | none => rwa [addUnder_of_none hobject]
  | some entries =>
    rw [addUnder_of_some hobject]
    have hentries := Json.regular_object_iff.1 (regular_of_object? hsource hobject)
    exact hacc.insert (addMissing_regular hacc.under hentries.2)

theorem addSections_regular (hacc : Regular (.object acc)) (hsource : Regular (.object source)) :
    Regular (.object (addSections source names acc)) := by
  induction names generalizing acc with
  | nil => exact hacc
  | cons n rest ih => exact ih (addUnder_regular hacc hsource)

theorem addComponents_regular (hacc : Regular (.object acc))
    (hsource : Regular (.object source)) : Regular (.object (addComponents source acc)) := by
  cases hobject : object? "components" source with
  | none => rwa [addComponents_of_none hobject]
  | some components =>
    rw [addComponents_of_some hobject]
    exact hacc.insert (addSections_regular hacc.under (regular_of_object? hsource hobject))

theorem addAll_regular {target result : Json} {more : List Json} (htarget : Regular target)
    (hmore : ∀ d ∈ more, Regular d) (h : Merge.addAll target more = .ok result) :
    Regular result := by
  induction more generalizing target with
  | nil =>
    obtain rfl := Except.ok.inj h
    exact htarget
  | cons source rest ih =>
    obtain ⟨hsource, hrest⟩ := List.forall_mem_cons.1 hmore
    rw [Merge.addAll] at h
    split at h
    · rename_i next hnext
      refine ih ?_ hrest h
      cases target <;> cases source <;> simp only [Merge.add, reduceCtorEq] at hnext
      obtain rfl := Except.ok.inj hnext
      exact addComponents_regular (addUnder_regular htarget hsource) hsource
    · cases h

end Regular

/-! ## Failures -/

theorem add_eq_ok_iff {target source : Json} :
    (∃ result, Merge.add target source = .ok result) ↔
      target.members? ≠ none ∧ source.members? ≠ none := by
  cases target <;> cases source <;> simp [Merge.add, Json.members?]

/-- Adding documents fails exactly if one of them is no object, or the
target is none. -/
theorem addAll_error_iff {target : Json} {more : List Json} :
    (∃ e, Merge.addAll target more = .error e) ↔
      more ≠ [] ∧ ∃ d ∈ target :: more, d.members? = none := by
  induction more generalizing target with
  | nil => simp [Merge.addAll]
  | cons source rest ih =>
    rw [Merge.addAll]
    cases hadd : Merge.add target source with
    | error e =>
      have hnot : ¬ ∃ result, Merge.add target source = .ok result := by simp [hadd]
      rw [add_eq_ok_iff] at hnot
      simp only [not_and_or, not_not] at hnot
      refine ⟨fun _ => ⟨by simp, ?_⟩, fun _ => ⟨e, rfl⟩⟩
      rcases hnot with htarget | hsource
      · exact ⟨target, List.mem_cons_self, htarget⟩
      · exact ⟨source, by simp, hsource⟩
    | ok next =>
      obtain ⟨htarget, hsource⟩ := add_eq_ok_iff.1 ⟨next, hadd⟩
      -- an object was added to an object, so what fails is among the rest
      have hnext : next.members? ≠ none := by
        cases target <;> cases source <;> simp [Merge.add] at hadd
        rw [← hadd]
        simp [Json.members?]
      simp only [ih]
      simp only [List.mem_cons, exists_eq_or_imp, htarget, hsource, hnext, false_or, ne_eq,
        List.cons_ne_nil, not_false_eq_true, true_and]
      constructor
      · exact fun h => h.2
      · rintro ⟨d, hd, hnone⟩
        exact ⟨List.ne_nil_of_mem hd, d, hd, hnone⟩

end Merge

/-- **A merge of regular documents is regular.** -/
theorem merge_regular {documents : List Json} {result : Json}
    (hregular : ∀ d ∈ documents, d.Regular) (h : merge documents = .ok result) :
    result.Regular := by
  cases documents with
  | nil => cases h
  | cons first rest =>
    obtain ⟨hfirst, hrest⟩ := List.forall_mem_cons.1 hregular
    exact Merge.addAll_regular hfirst hrest h

open Merge in
/-- **Merging is first write wins.** It fails exactly for no documents, and
for several of which one is no object; one document is left as it is. The
members of a merge of objects follow the law `FirstWriteWins`, where no
object in the first has a key twice. -/
theorem merge_firstWriteWins (documents : List Json) :
    ((∃ e, merge documents = .error e) ↔
      documents = [] ∨ (2 ≤ documents.length ∧ ∃ d ∈ documents, d.members? = none)) ∧
    (∀ d, documents = [d] → merge documents = .ok d) ∧
    ∀ first later, documents = .object first :: later.map .object →
      (Json.object first).Regular →
      ∃ result, merge documents = .ok (.object result) ∧ FirstWriteWins first later result := by
  refine ⟨?_, ?_, ?_⟩
  · cases documents with
    | nil => simp [merge]
    | cons first rest =>
      have hlength : 2 ≤ (first :: rest).length ↔ rest ≠ [] := by
        cases rest <;> simp
      rw [merge, addAll_error_iff, hlength, or_iff_right (List.cons_ne_nil _ _)]
  · rintro d rfl
    rfl
  · rintro first later rfl hregular
    have hcomponents : (Json.object (membersUnder "components" first)).Regular := hregular.under
    have hsections : ∀ name,
        (Json.keys (membersUnder name (membersUnder "components" first))).Nodup :=
      fun name => hcomponents.under.nodup_keys
    have hpaths : (Json.keys (membersUnder "paths" first)).Nodup := hregular.under.nodup_keys
    exact firstWriteWins_nil.addAll hsections hpaths later

/-- The first of two documents that share a path. -/
def earlierPaths : List (String × Json) :=
  [("paths", .object [("/b", .string "first"), ("/a", .string "first")])]

/-- The second of them, with components. -/
def laterPaths : List (String × Json) :=
  [("paths", .object [("/c", .string "second"), ("/a", .string "second")]),
   ("components", .object [("schemas", .object [("Pet", .null)]), ("x-more", .null)])]

/-- The shared path is that of the first document. -/
theorem merge_firstWriteWins_of_sharedPath : (Json.object earlierPaths).Regular ∧
    ∃ result, merge [.object earlierPaths, .object laterPaths] = .ok (.object result) ∧
      Merge.FirstWriteWins earlierPaths [laterPaths] result ∧
      ∃ paths, Json.find? "paths" result = some (.object paths) ∧
        Json.keys paths = ["/b", "/a", "/c"] ∧ Json.find? "/a" paths = some (.string "first") := by
  have htext : ∀ s, (Json.string s).Regular := fun s => Json.regular_of_leaf rfl rfl
  have hregular : (Json.object earlierPaths).Regular := by
    simp [earlierPaths, Json.regular_object_iff, htext]
  obtain ⟨result, hresult, hlaw⟩ :=
    (merge_firstWriteWins [.object earlierPaths, .object laterPaths]).2.2 earlierPaths [laterPaths]
      rfl hregular
  have hsecond : ∃ source ∈ [laterPaths], Json.object? "paths" source ≠ none := by
    refine ⟨laterPaths, List.mem_singleton_self _, ?_⟩
    simp [laterPaths, Json.object?, Json.find?, Json.members?]
  obtain ⟨paths, hpaths, hjoined⟩ := hlaw.paths.joined hsecond
  refine ⟨hregular, result, hresult, hlaw, paths, hpaths, ?_, ?_⟩
  · rw [hjoined.keys]
    rfl
  · rw [hjoined.value]
    rfl

end TypedClient
