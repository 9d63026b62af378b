import TypedClient.Proofs.Distinct
import TypedClient.Proofs.Reference
/-!
# Where chains of references end

A chain goes from a pointer to the reference that it leads to, and on from there
(`Chain`). It comes to its end at a pointer that is met again or that leads to no
reference (`Stops`). Following a reference gives what the one such chain ends
with (`follow_eq_iff`), and no chain without a repetition is longer than the
number of references written in the document allows (`Chain.length_le`).
-/

namespace TypedClient

namespace RefOr

variable {α : Type} {document : Json} {read : Json → Shape α} {pointer last next : String}
variable {passed visited : List String} {result : Except Error α} {value : Json}

/-- The reference that a pointer leads to, if it leads to one. -/
def link? (document : Json) (pointer : String) : Option String :=
  (Pointer.resolve? document pointer).bind fun value => (value.get? "$ref").bind Json.string?

/-- **A chain of references**: from a pointer over those it passes to the last
one. Each pointer that is passed leads to the reference that comes after it. -/
inductive Chain (document : Json) : String → List String → String → Prop
  /-- The pointer is the last one. -/
  | here {pointer : String} : Chain document pointer [] pointer
  /-- The pointer is passed. -/
  | link {pointer next last : String} {passed : List String} :
      link? document pointer = some next → Chain document next passed last →
      Chain document pointer (pointer :: passed) last

/-- **What a pointer gives that leads to no reference.** -/
inductive Stops (document : Json) (read : Json → Shape α) (pointer : String) :
    Except Error α → Prop
  /-- It leads nowhere. -/
  | lost : Pointer.resolve? document pointer = none →
      Stops document read pointer (.error (.unresolved pointer))
  /-- The value is no item either. -/
  | misread {value : Json} : Pointer.resolve? document pointer = some value →
      link? document pointer = none → (∀ a, read value ≠ .ok a) →
      Stops document read pointer (.error (.parse (.target pointer .noVariant)))
  /-- The value is an item. -/
  | item {value : Json} {a : α} : Pointer.resolve? document pointer = some value →
      link? document pointer = none → read value = .ok a → Stops document read pointer (.ok a)

/-! ## What a pointer leads to -/

theorem link?_of_lost (h : Pointer.resolve? document pointer = none) :
    link? document pointer = none := by
  rw [link?, h, Option.bind_none]

theorem link?_of_resolve? (h : Pointer.resolve? document pointer = some value) :
    link? document pointer = (value.get? "$ref").bind Json.string? := by
  rw [link?, h, Option.bind_some]

/-- A reference that is written is read as one. -/
theorem target_of_link? (h : link? document pointer = some next) :
    target document read pointer = .ok (.reference next) := by
  obtain ⟨value, hvalue, hnext⟩ := Option.bind_eq_some_iff.1 h
  obtain ⟨found, hfound, hstring⟩ := Option.bind_eq_some_iff.1 hnext
  cases found with
  | string s =>
    cases hstring
    rw [target, hvalue]
    simp only [Shape.refOr, hfound]
  | _ => cases hstring

/-- A value that is no reference is read as an item, or not at all. -/
theorem target_of_value (hvalue : Pointer.resolve? document pointer = some value)
    (hlink : link? document pointer = none) :
    target document read pointer = match read value with
      | .ok a => .ok (.item a)
      | .error _ => .error (.parse (.target pointer .noVariant)) := by
  have hplain : Shape.refOr read value = match read value with
      | .ok a => .ok (.item a)
      | .error _ => .error .noVariant := by
    rw [Shape.refOr]
    split
    · rename_i s hs
      rw [link?_of_resolve? hvalue, hs] at hlink
      cases hlink
    · rfl
  rw [target, hvalue]
  simp only [hplain]
  cases read value <;> rfl

/-- What a pointer gives is its target. -/
theorem Stops.target_eq (h : Stops document read pointer result) :
    target document read pointer = result.map .item := by
  cases h with
  | lost hnone =>
    rw [target, hnone]
    rfl
  | @misread value hvalue hlink hread =>
    rw [target_of_value hvalue hlink]
    cases hfound : read value with
    | ok a => exact absurd hfound (hread a)
    | error e => rfl
  | item hvalue hlink hread =>
    rw [target_of_value hvalue hlink, hread]
    rfl

theorem Stops.link?_eq_none (h : Stops document read pointer result) :
    link? document pointer = none := by
  cases h with
  | lost hnone => exact link?_of_lost hnone
  | misread _ hlink _ => exact hlink
  | item _ hlink _ => exact hlink

/-- **A pointer leads to a reference or stops.** -/
theorem link?_or_stops (document : Json) (read : Json → Shape α) (pointer : String) :
    (∃ next, link? document pointer = some next) ∨
      ∃ result, Stops document read pointer result := by
  cases hlink : link? document pointer with
  | some next => exact .inl ⟨next, rfl⟩
  | none =>
    refine .inr ?_
    cases hvalue : Pointer.resolve? document pointer with
    | none => exact ⟨_, .lost hvalue⟩
    | some value =>
      cases hread : read value with
      | ok a => exact ⟨_, .item hvalue hlink hread⟩
      | error e => exact ⟨_, .misread hvalue hlink fun a ha => by rw [hread] at ha; cases ha⟩

theorem link?_of_target (h : target document read pointer = .ok (.reference next)) :
    link? document pointer = some next := by
  obtain ⟨other, hlink⟩ | ⟨result, hstops⟩ := link?_or_stops document read pointer
  · rw [target_of_link? hlink] at h
    cases h
    exact hlink
  · rw [hstops.target_eq] at h
    cases result <;> cases h

theorem stops_of_target (h : target document read pointer = result.map .item) :
    Stops document read pointer result := by
  obtain ⟨next, hlink⟩ | ⟨other, hstops⟩ := link?_or_stops document read pointer
  · rw [target_of_link? hlink] at h
    cases result <;> cases h
  · rw [hstops.target_eq] at h
    cases result <;> cases other <;> cases h <;> exact hstops

/-! ## Chains are walked to their end -/

/-- A chain that is walked over, where `visited` are the pointers met before, has
no repetition, and ends at a pointer that is met again or that stops. -/
theorem Follows.exists_chain (h : Follows document read visited pointer result)
    (hvisited : visited.Nodup) : ∃ passed last, Chain document pointer passed last ∧
      (passed.reverse ++ visited).Nodup ∧
      (last ∈ passed.reverse ++ visited ∧ result = .error (.unresolved last) ∨
        last ∉ passed.reverse ++ visited ∧ Stops document read last result) := by
  induction h with
  | again hmem => exact ⟨[], _, .here, hvisited, .inl ⟨hmem, rfl⟩⟩
  | failed hnew htarget => exact ⟨[], _, .here, hvisited, .inr ⟨hnew, stops_of_target htarget⟩⟩
  | ended hnew htarget => exact ⟨[], _, .here, hvisited, .inr ⟨hnew, stops_of_target htarget⟩⟩
  | @next visited pointer next result hnew htarget _ ih =>
    obtain ⟨passed, last, hchain, hrest⟩ := ih (List.nodup_cons.2 ⟨hnew, hvisited⟩)
    refine ⟨pointer :: passed, last, .link (link?_of_target htarget) hchain, ?_⟩
    rwa [List.reverse_cons, List.append_assoc, List.singleton_append]

/-- **A chain without a repetition is walked over.** -/
theorem Chain.follows (h : Chain document pointer passed last)
    (hnodup : (passed.reverse ++ visited).Nodup)
    (hend : last ∈ passed.reverse ++ visited ∧ result = .error (.unresolved last) ∨
      last ∉ passed.reverse ++ visited ∧ Stops document read last result) :
    Follows document read visited pointer result := by
  induction h generalizing visited with
  | here =>
    rw [List.reverse_nil, List.nil_append] at hend
    obtain ⟨hmem, rfl⟩ | ⟨hnew, hstops⟩ := hend
    · exact .again hmem
    · cases result with
      | ok a => exact .ended hnew hstops.target_eq
      | error e => exact .failed hnew hstops.target_eq
  | @link pointer next last passed hlink _ ih =>
    rw [List.reverse_cons, List.append_assoc, List.singleton_append] at hnodup hend
    have hnew : pointer ∉ visited :=
      (List.nodup_cons.1 (List.nodup_append.1 hnodup).2.1).1
    exact .next hnew (target_of_link? hlink) (ih hnodup hend)

/-- **Following a reference gives what its chain ends with.** -/
theorem follow_eq_iff : (RefOr.reference pointer).follow document read = result ↔
    ∃ passed last, Chain document pointer passed last ∧ passed.Nodup ∧
      (last ∈ passed ∧ result = .error (.unresolved last) ∨
        last ∉ passed ∧ Stops document read last result) := by
  have hwalk := follow_follows document read pointer
  constructor
  · rintro rfl
    simpa using hwalk.exists_chain List.nodup_nil
  · rintro ⟨passed, last, hchain, hnodup, hend⟩
    exact hwalk.deterministic (hchain.follows (by simpa using hnodup) (by simpa using hend))

/-! ## The length of chains -/

/-- What a chain passes behind its first pointer is written in the document. -/
theorem Chain.passed_subset (h : Chain document pointer passed last) :
    passed ⊆ pointer :: Synthesis.written document := by
  induction h with
  | here => exact List.nil_subset _
  | @link pointer next last passed hlink _ ih =>
    refine List.cons_subset.2 ⟨List.mem_cons_self, fun p hp => List.mem_cons_of_mem _ ?_⟩
    have htarget : target document Shape.value pointer = .ok (.reference next) :=
      target_of_link? hlink
    have hnext : next ∈ Synthesis.written document := mem_written_of_target htarget
    rcases List.mem_cons.1 (ih hp) with rfl | hwritten
    · exact hnext
    · exact hwritten

/-- **A chain without a repetition is short.** -/
theorem Chain.length_le (h : Chain document pointer passed last) (hnodup : passed.Nodup) :
    passed.length ≤ Synthesis.referenceCount document + 1 := by
  have hle := (List.subperm_of_subset hnodup h.passed_subset).length_le
  rwa [List.length_cons, Synthesis.length_written] at hle

/-! ## The end of a chain -/

theorem stops_ok_iff {a : α} : Stops document read pointer (.ok a) ↔
    ∃ value, Pointer.resolve? document pointer = some value ∧ link? document pointer = none ∧
      read value = .ok a := by
  constructor
  · intro h
    cases h with
    | item hvalue hlink hread => exact ⟨_, hvalue, hlink, hread⟩
  · rintro ⟨value, hvalue, hlink, hread⟩
    exact .item hvalue hlink hread

theorem stops_error_iff {e : Error} : Stops document read pointer (.error e) ↔
    (Pointer.resolve? document pointer = none ∧ e = .unresolved pointer) ∨
    ∃ value, Pointer.resolve? document pointer = some value ∧ link? document pointer = none ∧
      (∀ a, read value ≠ .ok a) ∧ e = .parse (.target pointer .noVariant) := by
  constructor
  · intro h
    cases h with
    | lost hnone => exact .inl ⟨hnone, rfl⟩
    | misread hvalue hlink hread => exact .inr ⟨_, hvalue, hlink, hread, rfl⟩
  · rintro (⟨hnone, rfl⟩ | ⟨value, hvalue, hlink, hread, rfl⟩)
    · exact .lost hnone
    · exact .misread hvalue hlink hread

/-- **Following finds exactly the end of a chain.** An item in place is what is
followed to. From a pointer there is a chain, no longer than the number of
references written in the document allows, that comes to its end: at a pointer
that it has passed, or at one that leads to no reference. Following gives an item
exactly if the chain reaches it before a pointer is met again. It fails exactly
with the first pointer that is met again, with the one that leads nowhere, or
with the one whose value is neither a reference nor an item. -/
theorem follow_chain (document : Json) (read : Json → Shape α) :
    (∀ a, (RefOr.item a).follow document read = .ok a) ∧
    ∀ pointer,
      (∃ passed last, Chain document pointer passed last ∧ passed.Nodup ∧
        passed.length ≤ Synthesis.referenceCount document + 1 ∧
        (last ∈ passed ∨ link? document last = none)) ∧
      (∀ a, (RefOr.reference pointer).follow document read = .ok a ↔
        ∃ passed last, Chain document pointer passed last ∧ (passed ++ [last]).Nodup ∧
          ∃ value, Pointer.resolve? document last = some value ∧
            link? document last = none ∧ read value = .ok a) ∧
      ∀ e, (RefOr.reference pointer).follow document read = .error e ↔
        ∃ passed last, Chain document pointer passed last ∧
          (passed.Nodup ∧ last ∈ passed ∧ e = .unresolved last ∨
            (passed ++ [last]).Nodup ∧
              (Pointer.resolve? document last = none ∧ e = .unresolved last ∨
                ∃ value, Pointer.resolve? document last = some value ∧
                  link? document last = none ∧ (∀ a, read value ≠ .ok a) ∧
                  e = .parse (.target last .noVariant))) := by
  refine ⟨fun _ => rfl, fun pointer => ⟨?_, fun a => ?_, fun e => ?_⟩⟩
  · have hfollow : (RefOr.reference pointer).follow document read = _ := rfl
    obtain ⟨passed, last, hchain, hnodup, hend⟩ := follow_eq_iff.1 hfollow
    refine ⟨passed, last, hchain, hnodup, hchain.length_le hnodup, ?_⟩
    exact hend.imp And.left fun h => h.2.link?_eq_none
  · rw [follow_eq_iff]
    refine exists_congr fun passed => exists_congr fun last => and_congr_right fun _ => ?_
    rw [nodup_append_singleton_iff, and_assoc, ← stops_ok_iff]
    simp
  · rw [follow_eq_iff]
    refine exists_congr fun passed => exists_congr fun last => and_congr_right fun _ => ?_
    rw [nodup_append_singleton_iff, and_assoc, ← stops_error_iff, Except.error.injEq, and_or_left]

end RefOr

end TypedClient
