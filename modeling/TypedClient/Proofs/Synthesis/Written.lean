import Mathlib.Data.Finset.Card
import TypedClient.Synthesis
import TypedClient.Proofs.Registry
import TypedClient.Proofs.Schema.Reading
/-!
# The references written in a document

`written` lists what `referenceCount` counts. Every pointer that a
synthesis meets behind its first one is on the list
(`mem_written_of_mem_references`), so the names of the list that are still
unbound (`unbound`) bound how deep references can be open: each step into a
target binds one of them (`card_unbound_lt`).
-/

namespace TypedClient

namespace Synthesis

variable {pointer : String} {document v w : Json} {items : List Json}
variable {members : List (String × Json)} {r r' : Registry}

mutual

/-- The references written in a value. -/
def written : Json → List String
  | .array items => writtenInItems items
  | .object members => writtenInMembers members
  | _ => []
termination_by structural value => value

/-- The references written in values. -/
def writtenInItems : List Json → List String
  | [] => []
  | item :: rest => written item ++ writtenInItems rest
termination_by structural items => items

/-- The references written in members, the members themselves included. -/
def writtenInMembers : List (String × Json) → List String
  | [] => []
  | (key, value) :: rest =>
    (match key, value with
      | "$ref", .string pointer => [pointer]
      | _, _ => written value) ++ writtenInMembers rest
termination_by structural members => members

end

/-! ## The list and its length -/

theorem length_writtenInItems (h : ∀ w ∈ items, (written w).length = referenceCount w) :
    (writtenInItems items).length = itemReferenceCount items := by
  induction items with
  | nil => rfl
  | cons item rest ih =>
    rw [writtenInItems, itemReferenceCount, List.length_append, h item List.mem_cons_self,
      ih fun w hw => h w (List.mem_cons_of_mem _ hw)]

variable {key : String} {value : Json} {rest : List (String × Json)}

theorem writtenInMembers_reference :
    writtenInMembers (("$ref", .string pointer) :: rest) = pointer :: writtenInMembers rest := by
  rw [writtenInMembers, List.singleton_append]

theorem writtenInMembers_cons (h : ¬ ∃ pointer, key = "$ref" ∧ value = .string pointer) :
    writtenInMembers ((key, value) :: rest) = written value ++ writtenInMembers rest := by
  rw [writtenInMembers]
  intro pointer hkey hvalue
  exact h ⟨pointer, hkey, hvalue⟩

theorem memberReferenceCount_cons (h : ¬ ∃ pointer, key = "$ref" ∧ value = .string pointer) :
    memberReferenceCount ((key, value) :: rest) =
      referenceCount value + memberReferenceCount rest := by
  rw [memberReferenceCount]
  intro pointer hkey hvalue
  exact h ⟨pointer, hkey, hvalue⟩

theorem length_writtenInMembers
    (h : ∀ m ∈ members, (written m.2).length = referenceCount m.2) :
    (writtenInMembers members).length = memberReferenceCount members := by
  induction members with
  | nil => rfl
  | cons m rest ih =>
    obtain ⟨key, value⟩ := m
    have hrest := ih fun m hm => h m (List.mem_cons_of_mem _ hm)
    by_cases href : ∃ pointer, key = "$ref" ∧ value = .string pointer
    · obtain ⟨pointer, rfl, rfl⟩ := href
      rw [writtenInMembers_reference, memberReferenceCount, List.length_cons, hrest]
      omega
    · rw [writtenInMembers_cons href, memberReferenceCount_cons href, List.length_append, hrest,
        h (key, value) List.mem_cons_self]

/-- The list of references is as long as their number. -/
theorem length_written (v : Json) : (written v).length = referenceCount v := by
  induction v using Json.induction_inside with
  | step v ih =>
    cases v with
    | array items => exact length_writtenInItems fun w hw => ih w (Json.inside_item hw)
    | object members => exact length_writtenInMembers fun m hm => ih m.2 (Json.inside_member hm)
    | _ => rfl

theorem mem_writtenInItems (hw : w ∈ items) (h : pointer ∈ written w) :
    pointer ∈ writtenInItems items := by
  induction items with
  | nil => cases hw
  | cons item rest ih =>
    rw [writtenInItems, List.mem_append]
    rcases List.mem_cons.1 hw with rfl | hrest
    · exact .inl h
    · exact .inr (ih hrest)

theorem mem_writtenInMembers (hw : (key, w) ∈ members) (h : pointer ∈ written w) :
    pointer ∈ writtenInMembers members := by
  induction members with
  | nil => cases hw
  | cons m rest ih =>
    obtain ⟨k, value⟩ := m
    by_cases href : ∃ p, k = "$ref" ∧ value = .string p
    · obtain ⟨p, rfl, rfl⟩ := href
      rw [writtenInMembers_reference]
      rcases List.mem_cons.1 hw with heq | hrest
      · -- a text has no references of its own
        rw [(Prod.mk.inj heq).2, written] at h
        · cases h
        · simp
        · simp
      · exact List.mem_cons_of_mem _ (ih hrest)
    · rw [writtenInMembers_cons href, List.mem_append]
      rcases List.mem_cons.1 hw with heq | hrest
      · exact .inl ((Prod.mk.inj heq).2 ▸ h)
      · exact .inr (ih hrest)

theorem mem_writtenInMembers_of_find?
    (h : Json.find? "$ref" members = some (.string pointer)) :
    pointer ∈ writtenInMembers members := by
  induction members with
  | nil => cases h
  | cons m rest ih =>
    obtain ⟨k, value⟩ := m
    by_cases hk : k = "$ref"
    · rw [Json.find?, if_pos hk, Option.some.injEq] at h
      rw [hk, h, writtenInMembers_reference]
      exact List.mem_cons_self
    · rw [Json.find?, if_neg hk] at h
      have hother : ¬ ∃ pointer, k = "$ref" ∧ value = .string pointer := by
        rintro ⟨_, hkey, _⟩
        exact hk hkey
      rw [writtenInMembers_cons hother]
      exact List.mem_append_right _ (ih h)

/-- The reference of an object is on the list of every value that the
object is a part of. -/
theorem mem_written_of_part (hpart : Json.Part (.object members) v)
    (h : Json.find? "$ref" members = some (.string pointer)) : pointer ∈ written v := by
  generalize hobject : Json.object members = o at hpart
  induction hpart with
  | self =>
    subst hobject
    exact mem_writtenInMembers_of_find? h
  | item hw _ ih => exact mem_writtenInItems hw ih
  | member hw _ ih => exact mem_writtenInMembers hw ih

/-- **What a target refers to is written in the document.** -/
theorem mem_written_of_mem_references {start : String} {target : Json}
    (htarget : Pointer.resolve? document start = some target)
    (h : pointer ∈ (Schema.ofJson target).references) : pointer ∈ written document := by
  obtain ⟨fields, hpart, href⟩ := Schema.written_of_mem_references h
  exact mem_written_of_part (hpart.trans (Json.part_of_resolve? htarget)) href

/-! ## Names that are still unbound -/

/-- The names of the references written in a document that a registry does
not bind. -/
def unbound (document : Json) (r : Registry) : Finset String :=
  ((written document).map Pointer.typeName).toFinset \ r.names.toFinset

theorem card_unbound_le : (unbound document r).card ≤ referenceCount document := by
  have hlist := List.toFinset_card_le ((written document).map Pointer.typeName)
  rw [List.length_map, length_written] at hlist
  exact le_trans (Finset.card_le_card Finset.sdiff_subset) hlist

/-- A registry that binds more leaves less unbound. -/
theorem card_unbound_mono (h : r.names ⊆ r'.names) :
    (unbound document r').card ≤ (unbound document r).card := by
  apply Finset.card_le_card
  intro name hname
  simp only [unbound, Finset.mem_sdiff, List.mem_toFinset] at hname ⊢
  exact ⟨hname.1, fun hbound => hname.2 (h hbound)⟩

/-- **Reserving the name of a written reference leaves fewer unbound.** -/
theorem card_unbound_lt (hwritten : pointer ∈ written document)
    (hnew : Pointer.typeName pointer ∉ r.names) :
    (unbound document (r.reserve (Pointer.typeName pointer))).card <
      (unbound document r).card := by
  apply Finset.card_lt_card
  rw [Finset.ssubset_iff_of_subset]
  · refine ⟨Pointer.typeName pointer, ?_, ?_⟩
    · simp only [unbound, Finset.mem_sdiff, List.mem_toFinset]
      exact ⟨List.mem_map_of_mem hwritten, hnew⟩
    · simp only [unbound, Finset.mem_sdiff, List.mem_toFinset, not_and, not_not]
      exact fun _ => Registry.mem_names_reserve
  · intro name hname
    simp only [unbound, Finset.mem_sdiff, List.mem_toFinset] at hname ⊢
    refine ⟨hname.1, fun hbound => hname.2 ?_⟩
    rw [Registry.names_reserve hnew]
    exact List.mem_append_left _ hbound

end Synthesis

end TypedClient
