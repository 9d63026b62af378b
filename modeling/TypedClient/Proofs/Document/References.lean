import TypedClient.Proofs.Reference
/-!
# The references of a description

Where a description refers to a parameter, a body, a response or a security
scheme, the reference is written in the value that the description was read
from (`Document.ofJson_refersIn`), and so is every reference that a chain goes
on with. A chain that leads nowhere is therefore reported by a reference that
is written there (`RefOr.mem_written_of_follow`).
-/

namespace TypedClient

open Shape (YieldsIn field_eq_ok)
open Synthesis (written)

/-- What stands in place, or a reference that is one of some. -/
def RefOr.RefersIn {α : Type} (within : List String) : RefOr α → Prop
  | .reference pointer => pointer ∈ within
  | .item _ => True

/-- The references of an operation are among some. -/
def Operation.RefersIn (within : List String) (operation : Operation) : Prop :=
  (∀ p ∈ operation.parameters, p.RefersIn within) ∧
    (∀ b ∈ operation.requestBody, b.RefersIn within) ∧
    ∀ e ∈ operation.responses, e.2.RefersIn within

/-- And those of the operations of a path, and of the path itself. -/
def PathItem.RefersIn (within : List String) (item : PathItem) : Prop :=
  (∀ p ∈ item.parameters, p.RefersIn within) ∧
    ∀ method, ∀ operation ∈ item.operation? method, operation.RefersIn within

/-- And those of the security schemes. -/
def Components.RefersIn (within : List String) (components : Components) : Prop :=
  ∀ e ∈ components.securitySchemes, e.2.RefersIn within

/-- And those of a description. -/
def Document.RefersIn (within : List String) (document : Document) : Prop :=
  (∀ e ∈ document.paths, e.2.RefersIn within) ∧
    ∀ components ∈ document.components, components.RefersIn within

/-! ## Reading -/

section Reading

variable {α : Type} {raw : Json}

/-- **A reference that is read is written in the document**, whatever it is
read in place of. -/
theorem refOr_refersIn (read : Json → Shape α) :
    YieldsIn raw (Shape.refOr read) (RefOr.RefersIn (written raw)) := by
  intro value found hpart h
  rw [Shape.refOr] at h
  split at h
  · rename_i pointer href
    cases h
    cases value with
    | object members => exact Synthesis.mem_written_of_part hpart href
    | _ => cases href
  · split at h <;> cases h
    exact trivial

theorem Operation.ofJson_refersIn :
    YieldsIn raw Operation.ofJson (Operation.RefersIn (written raw)) := by
  refine YieldsIn.record
    ⟨by simp [Operation.blank], by simp [Operation.blank], by simp [Operation.blank]⟩
    fun operation key value next hpart hoperation hnext => ?_
  obtain ⟨hparameters, hbody, hresponses⟩ := hoperation
  unfold Operation.step at hnext
  split at hnext
  case h_4 =>
    obtain ⟨found, hfound, rfl⟩ := field_eq_ok hnext
    exact ⟨(refOr_refersIn _).list _ _ hpart hfound, hbody, hresponses⟩
  case h_5 =>
    obtain ⟨found, hfound, rfl⟩ := field_eq_ok hnext
    exact ⟨hparameters, (refOr_refersIn _).optional _ _ hpart hfound, hresponses⟩
  case h_6 =>
    obtain ⟨found, hfound, rfl⟩ := field_eq_ok hnext
    exact ⟨hparameters, hbody, (refOr_refersIn _).map _ _ hpart hfound⟩
  case h_8 =>
    cases hnext
    exact ⟨hparameters, hbody, hresponses⟩
  -- the other fields have no references of their own
  all_goals
    obtain ⟨_, -, rfl⟩ := field_eq_ok hnext
    exact ⟨hparameters, hbody, hresponses⟩

theorem PathItem.ofJson_refersIn :
    YieldsIn raw PathItem.ofJson (PathItem.RefersIn (written raw)) := by
  refine YieldsIn.record ⟨by simp [PathItem.blank], ?_⟩
    fun item key value next hpart hitem hnext => ?_
  · intro method operation hoperation
    cases method <;> cases hoperation
  obtain ⟨hparameters, hoperations⟩ := hitem
  unfold PathItem.step at hnext
  split at hnext
  case h_6 =>
    obtain ⟨found, hfound, rfl⟩ := field_eq_ok hnext
    exact ⟨(refOr_refersIn _).list _ _ hpart hfound, fun method => hoperations method⟩
  case h_7 =>
    cases hnext
    exact ⟨hparameters, hoperations⟩
  all_goals
    obtain ⟨found, hfound, rfl⟩ := field_eq_ok hnext
    have hread := Operation.ofJson_refersIn.optional _ _ hpart hfound
    refine ⟨hparameters, ?_⟩
    -- a method has the operation that is read or the one it had
    rintro (_ | _ | _ | _ | _)
    all_goals first | exact hread | exact hoperations .get | exact hoperations .post |
      exact hoperations .put | exact hoperations .patch | exact hoperations .delete

theorem Components.ofJson_refersIn :
    YieldsIn raw Components.ofJson (Components.RefersIn (written raw)) := by
  refine YieldsIn.record (by simp [Components.RefersIn])
    fun components key value next hpart hcomponents hnext => ?_
  unfold Components.step at hnext
  split at hnext
  · obtain ⟨_, -, rfl⟩ := field_eq_ok hnext
    exact hcomponents
  · obtain ⟨found, hfound, rfl⟩ := field_eq_ok hnext
    exact (refOr_refersIn _).map _ _ hpart hfound
  · cases hnext
    exact hcomponents

/-- **The references of a description are written in the document** that it is
read from. -/
theorem Document.ofJson_refersIn :
    YieldsIn raw Document.ofJson (Document.RefersIn (written raw)) := by
  refine YieldsIn.record ⟨by simp [Document.blank], by simp [Document.blank]⟩
    fun document key value next hpart hdocument hnext => ?_
  obtain ⟨hpaths, hcomponents⟩ := hdocument
  unfold Document.step at hnext
  split at hnext
  case h_4 =>
    obtain ⟨found, hfound, rfl⟩ := field_eq_ok hnext
    exact ⟨PathItem.ofJson_refersIn.map _ _ hpart hfound, hcomponents⟩
  case h_5 =>
    obtain ⟨found, hfound, rfl⟩ := field_eq_ok hnext
    exact ⟨hpaths, Components.ofJson_refersIn.optional _ _ hpart hfound⟩
  case h_7 =>
    cases hnext
    exact ⟨hpaths, hcomponents⟩
  all_goals
    obtain ⟨_, -, rfl⟩ := field_eq_ok hnext
    exact ⟨hpaths, hcomponents⟩

end Reading

/-! ## Chains that lead nowhere -/

namespace RefOr

variable {α : Type} {document : Json} {read : Json → Shape α} {pointer lost : String}
variable {visited : List String} {result : Except Error α} {item : RefOr α}

/-- A target that leads nowhere is reported by its own pointer. -/
theorem eq_of_target_unresolved (h : target document read pointer = .error (.unresolved lost)) :
    lost = pointer := by
  rw [target] at h
  split at h
  · cases h
    rfl
  · split at h <;> cases h

/-- What is reported behind a written pointer is written. -/
theorem Follows.mem_written (h : Follows document read visited pointer result)
    (hpointer : pointer ∈ written document) (hlost : result = .error (.unresolved lost)) :
    lost ∈ written document := by
  induction h with
  | again _ =>
    cases hlost
    exact hpointer
  | failed _ htarget =>
    cases hlost
    rw [eq_of_target_unresolved htarget]
    exact hpointer
  | ended => cases hlost
  | next _ htarget _ ih => exact ih (mem_written_of_target htarget) hlost

/-- **A chain that leads nowhere** is reported by a reference written in the
document. -/
theorem mem_written_of_follow (hitem : item.RefersIn (written document))
    (h : item.follow document read = .error (.unresolved lost)) : lost ∈ written document := by
  cases item with
  | item value => cases h
  | reference pointer => exact (follow_follows document read pointer).mem_written hitem h

/-- What a target refers to is written in the document, too. -/
theorem refersIn_of_target {found : RefOr α} (h : target document read pointer = .ok found) :
    found.RefersIn (written document) := by
  cases found with
  | item value => trivial
  | reference next => exact mem_written_of_target h

/-- **What a chain passes is written in the document.** -/
theorem Passes.mem_written (h : Passes document read item pointer)
    (hitem : item.RefersIn (written document)) : pointer ∈ written document := by
  induction h with
  | here => exact hitem
  | behind htarget _ ih => exact ih (refersIn_of_target htarget)

end RefOr

end TypedClient
