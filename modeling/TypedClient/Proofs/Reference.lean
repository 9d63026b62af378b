import TypedClient.Reference
import TypedClient.Proofs.Document.Reading
import TypedClient.Proofs.Synthesis.Written
/-!
# Chains of references end

`RefOr.follow` bounds the length of a chain by the number of references
written in the document. `Follows` is the same walk without a bound: it
ends where an item stands, where it fails, and at the first pointer met
again. The bound is never met (`follow_follows`): all pointers of a chain
but the first are written in the document, and each is met once.
-/

namespace TypedClient

/-- **Another document keeps what a pointer leads to**, if it leads anywhere. -/
def Pointer.Keeps (document other : Json) (pointer : String) : Prop :=
  ∀ value, resolve? document pointer = some value → resolve? other pointer = some value

namespace RefOr

variable {α : Type} {document : Json} {read : Json → Shape α} {pointer next : String}
variable {visited : List String} {left : Nat} {result other : Except Error α}

/-- **The walk along a chain of references**, where `visited` are the
pointers met before. -/
inductive Follows (document : Json) (read : Json → Shape α) :
    List String → String → Except Error α → Prop
  /-- The pointer is met again. -/
  | again {visited : List String} {pointer : String} : pointer ∈ visited →
      Follows document read visited pointer (.error (.unresolved pointer))
  /-- The pointer leads nowhere, or to what is neither a reference nor an
  item. -/
  | failed {visited : List String} {pointer : String} {e : Error} : pointer ∉ visited →
      target document read pointer = .error e →
      Follows document read visited pointer (.error e)
  /-- The pointer leads to an item. -/
  | ended {visited : List String} {pointer : String} {value : α} : pointer ∉ visited →
      target document read pointer = .ok (.item value) →
      Follows document read visited pointer (.ok value)
  /-- The pointer leads to a reference. -/
  | next {visited : List String} {pointer next : String} {result : Except Error α} :
      pointer ∉ visited → target document read pointer = .ok (.reference next) →
      Follows document read (pointer :: visited) next result →
      Follows document read visited pointer result

/-- The walk has one end. -/
theorem Follows.deterministic (h : Follows document read visited pointer result)
    (h' : Follows document read visited pointer other) : result = other := by
  induction h with
  | again hmem =>
    cases h' with
    | again _ => rfl
    | failed hnew _ => exact absurd hmem hnew
    | ended hnew _ => exact absurd hmem hnew
    | next hnew _ _ => exact absurd hmem hnew
  | failed hnew htarget =>
    cases h' with
    | again hmem => exact absurd hmem hnew
    | failed _ htarget' => rw [htarget] at htarget'; cases htarget'; rfl
    | ended _ htarget' => rw [htarget] at htarget'; cases htarget'
    | next _ htarget' _ => rw [htarget] at htarget'; cases htarget'
  | ended hnew htarget =>
    cases h' with
    | again hmem => exact absurd hmem hnew
    | failed _ htarget' => rw [htarget] at htarget'; cases htarget'
    | ended _ htarget' => rw [htarget] at htarget'; cases htarget'; rfl
    | next _ htarget' _ => rw [htarget] at htarget'; cases htarget'
  | next hnew htarget _ ih =>
    cases h' with
    | again hmem => exact absurd hmem hnew
    | failed _ htarget' => rw [htarget] at htarget'; cases htarget'
    | ended _ htarget' => rw [htarget] at htarget'; cases htarget'
    | next _ htarget' hrest =>
      rw [htarget] at htarget'
      cases htarget'
      exact ih hrest

/-- A chain depends on the document by what its pointers lead to. -/
theorem Follows.of_target {other : Json} (h : Follows document read visited pointer result)
    (htarget : ∀ p, target document read p = target other read p) :
    Follows other read visited pointer result := by
  induction h with
  | again hmem => exact .again hmem
  | failed hnew hfailed => exact .failed hnew (htarget _ ▸ hfailed)
  | ended hnew hended => exact .ended hnew (htarget _ ▸ hended)
  | next hnew hnext _ ih => exact .next hnew (htarget _ ▸ hnext) ih

/-- **What a target refers to is written in the document.** -/
theorem mem_written_of_target (h : target document read pointer = .ok (.reference next)) :
    next ∈ Synthesis.written document := by
  rw [target] at h
  cases hvalue : Pointer.resolve? document pointer with
  | none => rw [hvalue] at h; cases h
  | some value =>
    rw [hvalue] at h
    simp only [Shape.refOr] at h
    split at h
    · rename_i found hfound
      split at hfound
      · rename_i p href
        cases hfound
        cases h
        cases value with
        | object members =>
          exact Synthesis.mem_written_of_part (Json.part_of_resolve? hvalue) href
        | _ => cases href
      · split at hfound <;> cases hfound
        cases h
    · cases h

/-- The references written in a document that a chain has not met. -/
def unmet (document : Json) (visited : List String) : Finset String :=
  (Synthesis.written document).toFinset \ visited.toFinset

theorem card_unmet_le : (unmet document visited).card ≤ Synthesis.referenceCount document := by
  have hlist := List.toFinset_card_le (Synthesis.written document)
  rw [Synthesis.length_written] at hlist
  exact le_trans (Finset.card_le_card Finset.sdiff_subset) hlist

/-- **Meeting a written pointer leaves fewer unmet.** -/
theorem card_unmet_lt (hwritten : pointer ∈ Synthesis.written document)
    (hnew : pointer ∉ visited) :
    (unmet document (pointer :: visited)).card < (unmet document visited).card := by
  apply Finset.card_lt_card
  rw [Finset.ssubset_iff_of_subset]
  · refine ⟨pointer, ?_, ?_⟩
    · simp [unmet, hwritten, hnew]
    · simp [unmet]
  · intro p hp
    simp only [unmet, Finset.mem_sdiff, List.mem_toFinset, List.mem_cons, not_or] at hp ⊢
    exact ⟨hp.1, hp.2.2⟩

/-- One step of the bounded walk is one of the walk without a bound, if the
rest is. -/
theorem followFrom_step
    (h : ∀ next, pointer ∉ visited → target document read pointer = .ok (.reference next) →
      Follows document read (pointer :: visited) next
        (followFrom document read left (pointer :: visited) next)) :
    Follows document read visited pointer
      (followFrom document read (left + 1) visited pointer) := by
  rw [followFrom]
  by_cases hmem : pointer ∈ visited
  · rw [if_pos (List.contains_iff_mem.2 hmem)]
    exact .again hmem
  rw [if_neg (by simpa using hmem)]
  cases htarget : target document read pointer with
  | error e => exact .failed hmem htarget
  | ok found =>
    cases found with
    | item value => exact .ended hmem htarget
    | reference next => exact .next hmem htarget (h next hmem htarget)

/-- **A chain of written pointers is followed to its end** when the bound
exceeds the number of those that are unmet. -/
theorem followFrom_follows (hwritten : pointer ∈ Synthesis.written document)
    (h : (unmet document visited).card < left) :
    Follows document read visited pointer (followFrom document read left visited pointer) := by
  induction left generalizing visited pointer with
  | zero => omega
  | succ left ih =>
    refine followFrom_step fun next hnew htarget => ?_
    have hlt := card_unmet_lt hwritten hnew
    exact ih (mem_written_of_target htarget) (by omega)

/-- **Every chain of references ends**, from whatever pointer. -/
theorem follow_follows (document : Json) (read : Json → Shape α) (pointer : String) :
    Follows document read [] pointer ((RefOr.reference pointer).follow document read) := by
  refine followFrom_step fun next _ htarget => ?_
  have hle : (unmet document [pointer]).card ≤ Synthesis.referenceCount document := card_unmet_le
  exact followFrom_follows (mem_written_of_target htarget) (by omega)

/-- **Documents whose pointers lead to the same items** have the same chains of
references. -/
theorem follow_eq_of_target {other : Json} {item : RefOr α}
    (htarget : ∀ p, target document read p = target other read p) :
    item.follow document read = item.follow other read := by
  cases item with
  | item value => rfl
  | reference pointer =>
    have hthere : Follows other read [] pointer ((RefOr.reference pointer).follow document read) :=
      (follow_follows document read pointer).of_target htarget
    exact hthere.deterministic (follow_follows other read pointer)

/-! ## What a chain reads -/

/-- **The pointers that a chain passes**, from an item or a reference to its
end. -/
inductive Passes (document : Json) (read : Json → Shape α) : RefOr α → String → Prop
  /-- The pointer of the reference. -/
  | here {pointer : String} : Passes document read (.reference pointer) pointer
  /-- A pointer behind what the reference leads to. -/
  | behind {pointer next : String} {found : RefOr α} :
      target document read pointer = .ok found → Passes document read found next →
      Passes document read (.reference pointer) next

theorem target_of_keeps {other : Json} {found : RefOr α}
    (hkeeps : Pointer.Keeps document other pointer)
    (h : target document read pointer = .ok found) : target other read pointer = .ok found := by
  rw [target] at h ⊢
  cases hvalue : Pointer.resolve? document pointer with
  | none =>
    rw [hvalue] at h
    cases h
  | some value =>
    rw [hvalue] at h
    rw [hkeeps value hvalue]
    exact h

/-- A chain to an item reads the document at the pointers it passes only. -/
theorem Follows.of_keeps {other : Json} {value : α}
    (h : Follows document read visited pointer result) (hresult : result = .ok value)
    (hkeeps : ∀ p, Passes document read (.reference pointer) p → Pointer.Keeps document other p) :
    Follows other read visited pointer result := by
  induction h with
  | again _ => cases hresult
  | failed _ _ => cases hresult
  | ended hnew htarget => exact .ended hnew (target_of_keeps (hkeeps _ .here) htarget)
  | next hnew htarget _ ih =>
    have hrest := ih hresult fun p hp => hkeeps p (.behind htarget hp)
    exact .next hnew (target_of_keeps (hkeeps _ .here) htarget) hrest

/-- **What is followed to an item is followed to the same item** in a document
that keeps what the pointers on the way lead to. -/
theorem follow_of_keeps {other : Json} {item : RefOr α} {value : α}
    (hkeeps : ∀ p, Passes document read item p → Pointer.Keeps document other p)
    (h : item.follow document read = .ok value) : item.follow other read = .ok value := by
  cases item with
  | item found => exact h
  | reference pointer =>
    have hfollows := (follow_follows document read pointer).of_keeps h hkeeps
    rw [h] at hfollows
    exact (follow_follows other read pointer).deterministic hfollows

/-! ## What a chain ends with -/

variable {P : α → Prop} {e : Error} {value : α} {item : RefOr α}

/-- What a chain fails with: a pointer that leads nowhere or is met again,
or a value of the wrong shape. -/
inductive Failure : Error → Prop
  | unresolved {pointer : String} : Failure (.unresolved pointer)
  | target {pointer : String} {shape : ShapeError} : Failure (.parse (.target pointer shape))

theorem target_failure (h : target document read pointer = .error e) : Failure e := by
  rw [target] at h
  split at h
  · cases h
    exact .unresolved
  · split at h
    · cases h
    · cases h
      exact .target

/-- What a pointer leads to is read from a part of the document. -/
theorem target_holds (hread : Shape.YieldsIn document read P)
    (h : target document read pointer = .ok (.item value)) : P value := by
  rw [target] at h
  split at h
  · cases h
  · rename_i part hpart
    split at h
    · rename_i found hfound
      cases h
      exact hread.refOr _ _ (Json.part_of_resolve? hpart) hfound
    · cases h

/-- **A chain ends with an item that was read, or fails as references
do.** -/
theorem Follows.ends (h : Follows document read visited pointer result)
    (hread : Shape.YieldsIn document read P) :
    (∀ value, result = .ok value → P value) ∧ ∀ e, result = .error e → Failure e := by
  induction h with
  | again _ =>
    refine ⟨fun _ heq => (by cases heq), fun e heq => ?_⟩
    cases heq
    exact .unresolved
  | failed _ htarget =>
    refine ⟨fun _ heq => (by cases heq), fun e heq => ?_⟩
    cases heq
    exact target_failure htarget
  | ended _ htarget =>
    refine ⟨fun value heq => ?_, fun _ heq => (by cases heq)⟩
    cases heq
    exact target_holds hread htarget
  | next _ _ _ ih => exact ih

/-- **What is followed to its end** has the properties of what is read from
the document, and following fails as references do. -/
theorem follow_ends (hread : Shape.YieldsIn document read P) (hitem : item.Holds P) :
    (∀ value, item.follow document read = .ok value → P value) ∧
      ∀ e, item.follow document read = .error e → Failure e := by
  cases item with
  | item found =>
    refine ⟨fun value heq => ?_, fun _ heq => (by cases heq)⟩
    cases heq
    exact hitem
  | reference pointer => exact (follow_follows document read pointer).ends hread

end RefOr

end TypedClient
