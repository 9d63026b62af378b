import TypedClient.TypeExpr.Basic
/-!
# Parts of a type

A part of a type is the type itself or a part of what it is made of, at any
depth. A type is well formed over some names when every name in it is one
of them and no union and no intersection in it is empty; it has distinct fields
when no record in it has two fields of one name. There is one lemma for each way
to build a type.
-/

namespace TypedClient

namespace TypeExpr

variable {bound known : String → Prop} {part inner type : TypeExpr} {members : List TypeExpr}
variable {fields : List (FieldLabel × TypeExpr)}

/-- The parts of a type. -/
inductive Part : TypeExpr → TypeExpr → Prop
  /-- The type itself. -/
  | self {type : TypeExpr} : Part type type
  /-- A part of the elements of an array. -/
  | array {part element : TypeExpr} : Part part element → Part part (.array element)
  /-- A part of a member of a union. -/
  | union {part member : TypeExpr} {members : List TypeExpr} :
      member ∈ members → Part part member → Part part (.union members)
  /-- A part of a member of an intersection. -/
  | intersection {part member : TypeExpr} {members : List TypeExpr} :
      member ∈ members → Part part member → Part part (.intersection members)
  /-- A part of the type of a field. -/
  | record {part : TypeExpr} {field : FieldLabel × TypeExpr}
      {fields : List (FieldLabel × TypeExpr)} :
      field ∈ fields → Part part field.2 → Part part (.record fields)

/-- A part of a part is a part. -/
theorem Part.trans (h : Part part inner) (hinner : Part inner type) : Part part type := by
  induction hinner with
  | self => exact h
  | array _ ih => exact .array ih
  | union hm _ ih => exact .union hm ih
  | intersection hm _ ih => exact .intersection hm ih
  | record hf _ ih => exact .record hf ih

/-- **A well-formed type over some names**, at every depth. -/
structure WellFormed (bound : String → Prop) (type : TypeExpr) : Prop where
  /-- Every name in the type is one of them. -/
  names : ∀ name, Part (.ref name) type → bound name
  /-- No union is empty. -/
  unions : ¬ Part (.union []) type
  /-- No intersection is empty. -/
  intersections : ¬ Part (.intersection []) type

namespace WellFormed

theorem mono (h : type.WellFormed bound) (hsub : ∀ name, bound name → known name) :
    type.WellFormed known :=
  ⟨fun name hpart => hsub name (h.names name hpart), h.unions, h.intersections⟩

theorem keyword {word : Keyword} : (TypeExpr.keyword word).WellFormed bound :=
  ⟨fun _ h => (by cases h), fun h => (by cases h), fun h => (by cases h)⟩

theorem literal {text : String} : (TypeExpr.literal text).WellFormed bound :=
  ⟨fun _ h => (by cases h), fun h => (by cases h), fun h => (by cases h)⟩

theorem ref {name : String} (h : bound name) : (TypeExpr.ref name).WellFormed bound := by
  refine ⟨fun other hpart => ?_, fun hpart => ?_, fun hpart => ?_⟩
  · cases hpart
    exact h
  · cases hpart
  · cases hpart

theorem array (h : type.WellFormed bound) : (TypeExpr.array type).WellFormed bound := by
  refine ⟨fun name hpart => ?_, fun hpart => ?_, fun hpart => ?_⟩
  · cases hpart with
    | array hpart => exact h.names name hpart
  · cases hpart with
    | array hpart => exact h.unions hpart
  · cases hpart with
    | array hpart => exact h.intersections hpart

theorem union (hne : members ≠ []) (h : ∀ m ∈ members, m.WellFormed bound) :
    (TypeExpr.union members).WellFormed bound := by
  refine ⟨fun name hpart => ?_, fun hpart => ?_, fun hpart => ?_⟩
  · cases hpart with
    | union hm hpart => exact (h _ hm).names name hpart
  · cases hpart with
    | self => exact hne rfl
    | union hm hpart => exact (h _ hm).unions hpart
  · cases hpart with
    | union hm hpart => exact (h _ hm).intersections hpart

theorem intersection (hne : members ≠ []) (h : ∀ m ∈ members, m.WellFormed bound) :
    (TypeExpr.intersection members).WellFormed bound := by
  refine ⟨fun name hpart => ?_, fun hpart => ?_, fun hpart => ?_⟩
  · cases hpart with
    | intersection hm hpart => exact (h _ hm).names name hpart
  · cases hpart with
    | intersection hm hpart => exact (h _ hm).unions hpart
  · cases hpart with
    | self => exact hne rfl
    | intersection hm hpart => exact (h _ hm).intersections hpart

theorem record (h : ∀ f ∈ fields, f.2.WellFormed bound) :
    (TypeExpr.record fields).WellFormed bound := by
  refine ⟨fun name hpart => ?_, fun hpart => ?_, fun hpart => ?_⟩
  · cases hpart with
    | record hf hpart => exact (h _ hf).names name hpart
  · cases hpart with
    | record hf hpart => exact (h _ hf).unions hpart
  · cases hpart with
    | record hf hpart => exact (h _ hf).intersections hpart

end WellFormed

/-- **No record has two fields of one name**, at any depth. -/
def DistinctFields (type : TypeExpr) : Prop :=
  ∀ fields, Part (.record fields) type → (fields.map (·.1.name)).Nodup

namespace DistinctFields

theorem keyword {word : Keyword} : (TypeExpr.keyword word).DistinctFields := by
  intro inner hpart
  cases hpart

theorem literal {text : String} : (TypeExpr.literal text).DistinctFields := by
  intro inner hpart
  cases hpart

theorem ref {name : String} : (TypeExpr.ref name).DistinctFields := by
  intro inner hpart
  cases hpart

theorem array (h : type.DistinctFields) : (TypeExpr.array type).DistinctFields := by
  intro inner hpart
  cases hpart with
  | array hpart => exact h inner hpart

theorem union (h : ∀ m ∈ members, m.DistinctFields) :
    (TypeExpr.union members).DistinctFields := by
  intro inner hpart
  cases hpart with
  | union hm hpart => exact h _ hm inner hpart

theorem intersection (h : ∀ m ∈ members, m.DistinctFields) :
    (TypeExpr.intersection members).DistinctFields := by
  intro inner hpart
  cases hpart with
  | intersection hm hpart => exact h _ hm inner hpart

theorem record (hnames : (fields.map (·.1.name)).Nodup) (h : ∀ f ∈ fields, f.2.DistinctFields) :
    (TypeExpr.record fields).DistinctFields := by
  intro inner hpart
  cases hpart with
  | self => exact hnames
  | record hf hpart => exact h _ hf inner hpart

end DistinctFields

end TypeExpr

end TypedClient
