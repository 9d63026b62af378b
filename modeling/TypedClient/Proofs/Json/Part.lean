import TypedClient.Pointer
/-!
# Parts of a value

A part of a value is the value itself or a part of one of its items or
members. Every pointer leads to a part (`part_of_resolve?`), which is why
nothing outside a document is ever read; and the parts inside a value are
smaller than it (`induction_inside`).
-/

namespace TypedClient

namespace Json

variable {u v w : Json} {key : String} {items : List Json} {members : List (String × Json)}

/-- The parts of a value. -/
inductive Part : Json → Json → Prop
  /-- The value itself. -/
  | self {v : Json} : Part v v
  /-- A part of an item. -/
  | item {u w : Json} {items : List Json} : w ∈ items → Part u w → Part u (.array items)
  /-- A part of the value of a member. -/
  | member {u w : Json} {key : String} {members : List (String × Json)} :
      (key, w) ∈ members → Part u w → Part u (.object members)

/-- A part of a part is a part. -/
theorem Part.trans (huv : Part u v) (hvw : Part v w) : Part u w := by
  induction hvw with
  | self => exact huv
  | item hmem _ ih => exact .item hmem ih
  | member hmem _ ih => exact .member hmem ih

@[simp] theorem find?_nil : find? key [] = none := rfl

theorem find?_cons {other : String} : find? key ((other, v) :: members) =
    if other = key then some v else find? key members := rfl

/-- What a key leads to is the value of a member. -/
theorem mem_of_find? (h : find? key members = some v) : (key, v) ∈ members := by
  induction members with
  | nil => cases h
  | cons m rest ih =>
    obtain ⟨k, value⟩ := m
    rw [find?_cons] at h
    split at h
    · rename_i hk
      rw [hk, Option.some.inj h]
      exact List.mem_cons_self
    · exact List.mem_cons_of_mem _ (ih h)

/-! ## Where pointers lead -/

theorem part_of_step? {token : List Char} (h : Pointer.step? token v = some w) : Part w v := by
  cases v with
  | object members => exact .member (mem_of_find? h) .self
  | array items =>
    simp only [Pointer.step?] at h
    split at h
    · exact .item (List.mem_of_getElem? h) .self
    · cases h
  | _ => simp [Pointer.step?] at h

theorem part_of_walk? {tokens : List (List Char)} (h : Pointer.walk? tokens v = some w) :
    Part w v := by
  induction tokens generalizing v with
  | nil =>
    rw [Pointer.walk?, Option.some.injEq] at h
    rw [h]
    exact .self
  | cons token rest ih =>
    rw [Pointer.walk?] at h
    split at h
    · rename_i next hnext
      exact (ih h).trans (part_of_step? hnext)
    · cases h

/-- **A pointer leads to a part of the document.** -/
theorem part_of_resolve? {document : Json} {pointer : String}
    (h : Pointer.resolve? document pointer = some w) : Part w document := by
  rw [Pointer.resolve?] at h
  split at h
  · exact part_of_walk? h
  · cases h

/-! ## The parts inside a value -/

/-- A part that is smaller than the whole. -/
def Inside (w v : Json) : Prop := Part w v ∧ sizeOf w < sizeOf v

theorem inside_item (h : w ∈ items) : Inside w (.array items) := by
  refine ⟨.item h .self, ?_⟩
  have hlt := List.sizeOf_lt_of_mem h
  simp only [Json.array.sizeOf_spec]
  omega

theorem inside_member (h : (key, w) ∈ members) : Inside w (.object members) := by
  refine ⟨.member h .self, ?_⟩
  have hlt := List.sizeOf_lt_of_mem h
  simp only [Json.object.sizeOf_spec, Prod.mk.sizeOf_spec] at hlt ⊢
  omega

theorem Inside.trans (huv : Inside u v) (hvw : Inside v w) : Inside u w :=
  ⟨huv.1.trans hvw.1, Nat.lt_trans huv.2 hvw.2⟩

/-- What holds of a value when it holds of all inside it holds of every
value. -/
theorem induction_inside {P : Json → Prop} (step : ∀ v, (∀ w, Inside w v → P w) → P v)
    (v : Json) : P v :=
  step v fun w _ => induction_inside step w
termination_by sizeOf v
decreasing_by rename_i h; exact h.2

end Json

end TypedClient
