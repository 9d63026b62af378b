import Mathlib.Data.Fintype.Order
import Mathlib.Logic.Relation
import TypedClient.Proofs.Registry
import TypedClient.Proofs.TypeExpr.Part
import TypedClient.Proofs.TypeExpr.Same
/-!
# Aliases

The bare names of a type stand neither in a field nor in the elements of an
array, so what the type is cannot be told before they are unfolded. A defined
name refers to the bare names of its type. Where every name that is referred
to is defined, all names unfold in finitely many steps exactly if none refers
to itself by way of others (`acyclic_iff`).
-/

namespace TypedClient

namespace TypeExpr

variable {name : String} {type : TypeExpr} {members : List TypeExpr}

mutual

/-- The names of a type that stand outside its records and arrays. -/
def bareNames : TypeExpr → List String
  | .ref name => [name]
  | .union members => memberBareNames members
  | .intersection members => memberBareNames members
  | _ => []
termination_by structural type => type

/-- The bare names of members. -/
def memberBareNames : List TypeExpr → List String
  | [] => []
  | member :: rest => bareNames member ++ memberBareNames rest
termination_by structural members => members

end

theorem memberBareNames_eq : memberBareNames members = members.flatMap bareNames := by
  induction members with
  | nil => rfl
  | cons m rest ih => rw [memberBareNames, ih, List.flatMap_cons]

theorem mem_bareNames_union :
    name ∈ bareNames (.union members) ↔ ∃ m ∈ members, name ∈ bareNames m := by
  rw [bareNames, memberBareNames_eq, List.mem_flatMap]

theorem mem_bareNames_intersection :
    name ∈ bareNames (.intersection members) ↔ ∃ m ∈ members, name ∈ bareNames m := by
  rw [bareNames, memberBareNames_eq, List.mem_flatMap]

/-- The bare names are parts of the type. -/
theorem part_of_mem_bareNames (h : name ∈ type.bareNames) : Part (.ref name) type := by
  induction type using induction with
  | keyword word => cases h
  | literal text => cases h
  | array element _ => cases h
  | record fields _ => cases h
  | ref other =>
    obtain rfl := List.mem_singleton.1 h
    exact .self
  | union members ih =>
    obtain ⟨m, hm, hname⟩ := mem_bareNames_union.1 h
    exact .union hm (ih m hm hname)
  | intersection members ih =>
    obtain ⟨m, hm, hname⟩ := mem_bareNames_intersection.1 h
    exact .intersection hm (ih m hm hname)

end TypeExpr

namespace Registry

variable {types : Registry} {name other : String} {type : TypeExpr} {definition : NamedType}

/-- A defined name has the other as a bare name of its type. -/
def RefersTo (types : Registry) (name other : String) : Prop :=
  ∃ definition, types.lookup? name = some definition ∧ other ∈ definition.type.bareNames

/-- No name refers to itself, directly or by way of others. -/
def Acyclic (types : Registry) : Prop := ∀ name, ¬ Relation.TransGen types.RefersTo name name

/-- Every name that is referred to is defined. -/
def Closed (types : Registry) : Prop :=
  ∀ name other, types.RefersTo name other → ∃ definition, types.lookup? other = some definition

/-- **A type that unfolds in finitely many steps** to keywords, literals,
arrays and records. -/
inductive Unfolds (types : Registry) : TypeExpr → Prop
  | keyword {word : Keyword} : Unfolds types (.keyword word)
  | literal {text : String} : Unfolds types (.literal text)
  | array {element : TypeExpr} : Unfolds types (.array element)
  | record {fields : List (FieldLabel × TypeExpr)} : Unfolds types (.record fields)
  | ref {name : String} {definition : NamedType} : types.lookup? name = some definition →
      Unfolds types definition.type → Unfolds types (.ref name)
  | union {members : List TypeExpr} : (∀ m ∈ members, Unfolds types m) →
      Unfolds types (.union members)
  | intersection {members : List TypeExpr} : (∀ m ∈ members, Unfolds types m) →
      Unfolds types (.intersection members)

/-- A type unfolds where its bare names do. -/
theorem unfolds_of_bareNames (h : ∀ name ∈ type.bareNames, types.Unfolds (.ref name)) :
    types.Unfolds type := by
  induction type using TypeExpr.induction with
  | keyword word => exact .keyword
  | literal text => exact .literal
  | array element _ => exact .array
  | record fields _ => exact .record
  | ref name => exact h name (List.mem_singleton_self name)
  | union members ih =>
    exact .union fun m hm => ih m hm fun name hname =>
      h name (TypeExpr.mem_bareNames_union.2 ⟨m, hm, hname⟩)
  | intersection members ih =>
    exact .intersection fun m hm => ih m hm fun name hname =>
      h name (TypeExpr.mem_bareNames_intersection.2 ⟨m, hm, hname⟩)

/-- What unfolds can be followed from its bare names to an end. -/
theorem Unfolds.acc (h : types.Unfolds type) :
    ∀ name ∈ type.bareNames, Acc (fun other name => types.RefersTo name other) name := by
  induction h with
  | keyword => exact fun _ hname => by cases hname
  | literal => exact fun _ hname => by cases hname
  | array => exact fun _ hname => by cases hname
  | record => exact fun _ hname => by cases hname
  | ref hlookup _ ih =>
    intro name hname
    obtain rfl := List.mem_singleton.1 hname
    refine ⟨_, fun other hrefers => ?_⟩
    obtain ⟨definition, hfound, hother⟩ := hrefers
    obtain rfl := Option.some.inj (hlookup.symm.trans hfound)
    exact ih other hother
  | union _ ih =>
    intro name hname
    obtain ⟨m, hm, hname⟩ := TypeExpr.mem_bareNames_union.1 hname
    exact ih m hm name hname
  | intersection _ ih =>
    intro name hname
    obtain ⟨m, hm, hname⟩ := TypeExpr.mem_bareNames_intersection.1 hname
    exact ih m hm name hname

/-- A name that unfolds does not refer to itself. -/
theorem Unfolds.not_transGen (h : types.Unfolds (.ref name)) :
    ¬ Relation.TransGen types.RefersTo name name := by
  have hacc := (h.acc name (List.mem_singleton_self name)).transGen
  intro hcycle
  have hback := Relation.transGen_swap.2 hcycle
  clear h hcycle
  induction hacc with
  | intro name _ ih => exact ih name hback hback

/-- **Where names are closed they unfold exactly if none refers to
itself.** -/
theorem acyclic_iff (hclosed : types.Closed) : types.Acyclic ↔
    ∀ name definition, types.lookup? name = some definition → types.Unfolds (.ref name) := by
  constructor
  · intro hacyclic
    -- among finitely many names a relation without cycles is followed to an end
    let Below (a b : {name // name ∈ types.names}) : Prop :=
      Relation.TransGen types.RefersTo b.1 a.1
    have htrans : IsTrans _ Below := ⟨fun _ _ _ hab hbc => hbc.trans hab⟩
    have hirrefl : Std.Irrefl Below := ⟨fun a => hacyclic a.1⟩
    have hwf : WellFounded Below := Finite.wellFounded_of_trans_of_irrefl Below
    have hall : ∀ a : {name // name ∈ types.names}, ∀ definition,
        types.lookup? a.1 = some definition → types.Unfolds (.ref a.1) := by
      intro a
      induction a using hwf.induction with
      | _ a ih =>
        intro definition hlookup
        refine .ref hlookup (unfolds_of_bareNames fun other hother => ?_)
        have hrefers : types.RefersTo a.1 other := ⟨definition, hlookup, hother⟩
        obtain ⟨found, hfound⟩ := hclosed a.1 other hrefers
        exact ih ⟨other, mem_names_of_lookup? hfound⟩ (.single hrefers) found hfound
    exact fun name definition hlookup => hall ⟨name, mem_names_of_lookup? hlookup⟩ definition hlookup
  · intro hunfolds name hcycle
    obtain ⟨other, ⟨definition, hlookup, _⟩, _⟩ := Relation.TransGen.head'_iff.1 hcycle
    exact (hunfolds name definition hlookup).not_transGen hcycle

end Registry

end TypedClient
