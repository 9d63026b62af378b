import Mathlib.Data.List.Basic
import TypedClient.Proofs.TypeExpr.Undocumented
/-!
# The normal form of types

Types that are written alike may still differ. Documentation is written as
comments only, a union or an intersection of one member is written as the
member, and the members of a union inside a union are written as if they were
its own. `TypeExpr.normal` removes these differences at every depth. What it
gives has none of them (`normal_normal`), and a type without them is its own
normal form (`Normal.normal_eq`).
-/

namespace TypedClient

/-- The two ways to put members together. -/
inductive Connective where
  | union
  | intersection
deriving DecidableEq, Repr

namespace Connective

variable {c : Connective} {types : List TypeExpr} {type : TypeExpr}

/-- The type of some members. -/
def compound : Connective → List TypeExpr → TypeExpr
  | .union => .union
  | .intersection => .intersection

/-- The types that a type becomes when it is a member: its own members if it
is of the same kind, and otherwise itself. -/
def members : Connective → TypeExpr → List TypeExpr
  | .union, .union members => members
  | .intersection, .intersection members => members
  | _, type => [type]

/-- The type of some members, where a single one needs no other type around
it. -/
def join (c : Connective) : List TypeExpr → TypeExpr
  | [type] => type
  | types => c.compound types

@[simp] theorem members_compound : c.members (c.compound types) = types := by
  cases c <;> rfl

theorem join_of_length (h : types.length ≠ 1) : c.join types = c.compound types := by
  match types with
  | [] => rfl
  | [_] => exact absurd rfl h
  | _ :: _ :: _ => rfl

/-- **Members can be told from their type**, as long as each is one
member. -/
theorem members_join (h : ∀ t ∈ types, c.members t = [t]) : c.members (c.join types) = types := by
  match types with
  | [] => exact members_compound
  | [t] => exact h t List.mem_cons_self
  | _ :: _ :: _ => exact members_compound

end Connective

namespace TypeExpr

variable {c : Connective} {type : TypeExpr} {types : List TypeExpr}
variable {fields : List (FieldLabel × TypeExpr)}

mutual

/-- The type without the differences that its text does not show. -/
def normal : TypeExpr → TypeExpr
  | .keyword word => .keyword word
  | .literal text => .literal text
  | .ref name => .ref name
  | .array element => .array (normal element)
  | .union members => Connective.union.join (normalMembers .union members)
  | .intersection members => Connective.intersection.join (normalMembers .intersection members)
  | .record fields => .record (normalFields fields)
termination_by structural type => type

/-- What members become, one after another. -/
def normalMembers (c : Connective) : List TypeExpr → List TypeExpr
  | [] => []
  | member :: rest => c.members (normal member) ++ normalMembers c rest
termination_by structural members => members

/-- The fields with their types in normal form. -/
def normalFields : List (FieldLabel × TypeExpr) → List (FieldLabel × TypeExpr)
  | [] => []
  | (label, type) :: rest => (label.undocumented, normal type) :: normalFields rest
termination_by structural fields => fields

end

theorem normalMembers_eq :
    normalMembers c types = types.flatMap fun member => c.members member.normal := by
  induction types with
  | nil => rfl
  | cons member rest ih => rw [normalMembers, ih, List.flatMap_cons]

theorem normalFields_eq :
    normalFields fields = fields.map fun f => (f.1.undocumented, f.2.normal) := by
  induction fields with
  | nil => rfl
  | cons f rest ih => rw [normalFields, ih, List.map_cons]

theorem normal_compound : (c.compound types).normal = c.join (normalMembers c types) := by
  cases c <;> rfl

/-- A type in normal form: no field has documentation, no union and no
intersection has a single member, and none stands directly inside one of its
own kind. -/
inductive Normal : TypeExpr → Prop
  | keyword {word : Keyword} : Normal (.keyword word)
  | literal {text : String} : Normal (.literal text)
  | ref {name : String} : Normal (.ref name)
  | array {element : TypeExpr} : Normal element → Normal (.array element)
  | compound {c : Connective} {types : List TypeExpr} : types.length ≠ 1 →
      (∀ t ∈ types, Normal t) → (∀ t ∈ types, c.members t = [t]) → Normal (c.compound types)
  | record {fields : List (FieldLabel × TypeExpr)} :
      (∀ f ∈ fields, f.1.description = none) → (∀ f ∈ fields, Normal f.2) →
      Normal (.record fields)

namespace Normal

theorem join (h : ∀ t ∈ types, Normal t ∧ c.members t = [t]) : Normal (c.join types) := by
  match types with
  | [] => exact .compound (by simp) (fun t ht => (h t ht).1) fun t ht => (h t ht).2
  | [t] => exact (h t List.mem_cons_self).1
  | _ :: _ :: _ => exact .compound (by simp) (fun t ht => (h t ht).1) fun t ht => (h t ht).2

/-- The members of a normal form are normal, and each is one member. -/
theorem members (h : Normal type) : ∀ t ∈ c.members type, Normal t ∧ c.members t = [t] := by
  by_cases hsingle : c.members type = [type]
  · rw [hsingle]
    intro t ht
    obtain rfl := List.mem_singleton.1 ht
    exact ⟨h, hsingle⟩
  · cases h with
    | compound hlength hnormal hone =>
      rename_i d types
      -- of the other kind it would be one member
      cases c <;> cases d <;>
        first | exact fun t ht => ⟨hnormal t ht, hone t ht⟩ | exact absurd rfl hsingle
    | _ => cases c <;> exact absurd rfl hsingle

/-- A normal form is put together again from its members. -/
theorem join_members (h : Normal type) : c.join (c.members type) = type := by
  by_cases hsingle : c.members type = [type]
  · rw [hsingle]
    rfl
  · cases h with
    | compound hlength hnormal hone =>
      rename_i d types
      cases c <;> cases d <;>
        first | exact Connective.join_of_length hlength | exact absurd rfl hsingle
    | _ => cases c <;> exact absurd rfl hsingle

end Normal

/-- **The normal form is normal.** -/
theorem normal_normal (type : TypeExpr) : Normal type.normal := by
  induction type using induction with
  | keyword word => exact .keyword
  | literal text => exact .literal
  | ref name => exact .ref
  | array element ih => exact .array ih
  | union types ih =>
    rw [normal, normalMembers_eq]
    refine .join fun t ht => ?_
    obtain ⟨m, hm, ht⟩ := List.mem_flatMap.1 ht
    exact (ih m hm).members t ht
  | intersection types ih =>
    rw [normal, normalMembers_eq]
    refine .join fun t ht => ?_
    obtain ⟨m, hm, ht⟩ := List.mem_flatMap.1 ht
    exact (ih m hm).members t ht
  | record fields ih =>
    rw [normal, normalFields_eq]
    refine .record (fun f hf => ?_) fun f hf => ?_
    · obtain ⟨g, -, rfl⟩ := List.mem_map.1 hf
      rfl
    · obtain ⟨g, hg, rfl⟩ := List.mem_map.1 hf
      exact ih g hg

/-- **A normal type is its own normal form.** -/
theorem Normal.normal_eq (h : Normal type) : type.normal = type := by
  induction h with
  | keyword => rfl
  | literal => rfl
  | ref => rfl
  | array _ ih => rw [normal, ih]
  | @compound c types hlength _ hone ih =>
    have hmembers : normalMembers c types = types := by
      rw [normalMembers_eq, List.flatMap_congr fun t ht => by rw [ih t ht, hone t ht],
        List.flatMap_singleton']
    rw [normal_compound, hmembers, Connective.join_of_length hlength]
  | @record fields hnone _ ih =>
    have heq : ∀ f ∈ fields, (f.1.undocumented, f.2.normal) = f := by
      rintro ⟨⟨name, required, readOnly, description⟩, t⟩ hf
      cases hnone _ hf
      rw [ih _ hf]
      rfl
    rw [normal, normalFields_eq, List.map_congr_left heq, List.map_id']

/-- What a member becomes inside a type is told by that type. -/
theorem members_join_normalMembers :
    c.members (c.join (normalMembers c types)) = normalMembers c types := by
  refine Connective.members_join fun t ht => ?_
  rw [normalMembers_eq] at ht
  obtain ⟨m, -, ht⟩ := List.mem_flatMap.1 ht
  exact ((normal_normal m).members t ht).2

end TypeExpr

end TypedClient
