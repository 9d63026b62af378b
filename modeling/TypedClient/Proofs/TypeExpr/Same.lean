import TypedClient.TypeExpr.Basic
/-!
# Equality of type expressions

`TypeExpr.same` compares two types part by part. It holds exactly of equal
types (`same_iff`), where the documentation of fields counts as everything
else does. The induction principle here is the one for all proofs about
types at every depth.
-/

namespace TypedClient

namespace TypeExpr

/-- What holds of a type when it holds of those it is made of holds of every
type. -/
@[elab_as_elim]
theorem induction {P : TypeExpr → Prop} (keyword : ∀ word, P (.keyword word))
    (literal : ∀ text, P (.literal text)) (ref : ∀ name, P (.ref name))
    (array : ∀ element, P element → P (.array element))
    (union : ∀ members, (∀ m ∈ members, P m) → P (.union members))
    (intersection : ∀ members, (∀ m ∈ members, P m) → P (.intersection members))
    (record : ∀ fields, (∀ f ∈ fields, P f.2) → P (.record fields)) (type : TypeExpr) :
    P type :=
  match type with
  | .keyword word => keyword word
  | .literal text => literal text
  | .ref name => ref name
  | .array element =>
    array element (induction keyword literal ref array union intersection record element)
  | .union members => union members fun m _ =>
    induction keyword literal ref array union intersection record m
  | .intersection members => intersection members fun m _ =>
    induction keyword literal ref array union intersection record m
  | .record fields => record fields fun f _ =>
    induction keyword literal ref array union intersection record f.2
termination_by sizeOf type
decreasing_by
  · simp only [TypeExpr.array.sizeOf_spec]
    omega
  · rename_i hm
    have hlt := List.sizeOf_lt_of_mem hm
    simp only [TypeExpr.union.sizeOf_spec]
    omega
  · rename_i hm
    have hlt := List.sizeOf_lt_of_mem hm
    simp only [TypeExpr.intersection.sizeOf_spec]
    omega
  · rename_i hf
    have hlt := List.sizeOf_lt_of_mem hf
    obtain ⟨label, t⟩ := f
    simp only [TypeExpr.record.sizeOf_spec, Prod.mk.sizeOf_spec] at hlt ⊢
    omega

variable {members others : List TypeExpr} {fields more : List (FieldLabel × TypeExpr)}

/-- Lists of types are compared in order, where `same` decides equality of
the members. -/
theorem sameAll_iff (h : ∀ m ∈ members, ∀ type, same m type = true ↔ m = type) :
    sameAll members others = true ↔ members = others := by
  induction members generalizing others with
  | nil => cases others <;> simp [sameAll]
  | cons m rest ih =>
    cases others with
    | nil => simp [sameAll]
    | cons type others =>
      have hfirst := h m List.mem_cons_self type
      have hrest := @ih others fun m hm => h m (List.mem_cons_of_mem _ hm)
      simp [sameAll, hfirst, hrest]

/-- And so are fields, labels included. -/
theorem sameFields_iff (h : ∀ f ∈ fields, ∀ type, same f.2 type = true ↔ f.2 = type) :
    sameFields fields more = true ↔ fields = more := by
  induction fields generalizing more with
  | nil => cases more <;> simp [sameFields]
  | cons f rest ih =>
    obtain ⟨label, type⟩ := f
    cases more with
    | nil => simp [sameFields]
    | cons g more =>
      obtain ⟨other, another⟩ := g
      have hfirst := h (label, type) List.mem_cons_self another
      have hrest := @ih more fun f hf => h f (List.mem_cons_of_mem _ hf)
      simp [sameFields, hfirst, hrest]

/-- **Types are the same exactly if they are equal.** -/
theorem same_iff (type other : TypeExpr) : same type other = true ↔ type = other := by
  induction type using induction generalizing other with
  | keyword word => cases other <;> simp [same]
  | literal text => cases other <;> simp [same]
  | ref name => cases other <;> simp [same]
  | array element ih =>
    cases other with
    | array another => simp [same, ih]
    | _ => simp [same]
  | union members ih =>
    cases other with
    | union others => simp [same, sameAll_iff ih]
    | _ => simp [same]
  | intersection members ih =>
    cases other with
    | intersection others => simp [same, sameAll_iff ih]
    | _ => simp [same]
  | record fields ih =>
    cases other with
    | record more => simp [same, sameFields_iff ih]
    | _ => simp [same]

end TypeExpr

end TypedClient
