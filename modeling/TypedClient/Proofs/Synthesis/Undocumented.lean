import TypedClient.Proofs.Synthesis.Visit
import TypedClient.Proofs.TypeExpr.Undocumented
/-!
# Syntheses without documentation

Without comments a synthesis drops the descriptions of fields and of named
types as it goes. It might as well drop them afterwards: the translation of
a schema differs in the documentation only (`translate_false`), and a walk
leads to the registry that it leads to with comments, without their texts
(`Visits.undocumented`).
-/

namespace TypedClient

/-- The named type without documentation. -/
def NamedType.undocumented (named : NamedType) : NamedType := ⟨named.type.undocumented, none⟩

@[simp] theorem NamedType.type_undocumented (named : NamedType) :
    named.undocumented.type = named.type.undocumented := rfl

namespace Registry

variable {r r' : Registry} {name : String} {definition : NamedType}

/-- The registry without documentation. -/
def undocumented (r : Registry) : Registry :=
  ⟨r.entries.map fun entry => (entry.1, entry.2.map NamedType.undocumented)⟩

@[simp] theorem undocumented_empty : empty.undocumented = empty := rfl

@[simp] theorem names_undocumented : r.undocumented.names = r.names := by
  rw [names, undocumented, List.map_map, names]
  rfl

@[simp] theorem binding?_undocumented : r.undocumented.binding? name =
    (r.binding? name).map fun entry => entry.map NamedType.undocumented := by
  rw [binding?, binding?, undocumented]
  generalize r.entries = entries
  induction entries with
  | nil => rfl
  | cons e rest ih =>
    obtain ⟨n, entry⟩ := e
    rw [List.map_cons, find?, find?]
    by_cases h : n = name
    · rw [if_pos h, if_pos h]
      rfl
    · rw [if_neg h, if_neg h, ih]

@[simp] theorem contains_undocumented : r.undocumented.contains name = r.contains name := by
  rw [contains, contains, binding?_undocumented, Option.isSome_map]

@[simp] theorem reserve_undocumented :
    r.undocumented.reserve name = (r.reserve name).undocumented := by
  rw [reserve, reserve, contains_undocumented]
  by_cases h : r.contains name = true
  · rw [if_pos h, if_pos h]
  · rw [if_neg h, if_neg h]
    simp [undocumented]

theorem bind_undocumented {entries : List (String × Option NamedType)} :
    bind name definition.undocumented
        (entries.map fun entry => (entry.1, entry.2.map NamedType.undocumented)) =
      (bind name definition entries).map
        fun entry => (entry.1, entry.2.map NamedType.undocumented) := by
  induction entries with
  | nil => rfl
  | cons e rest ih =>
    obtain ⟨n, entry⟩ := e
    rw [List.map_cons, bind, bind]
    by_cases h : n = name
    · rw [if_pos h, if_pos h]
      rfl
    · rw [if_neg h, if_neg h, ih]
      rfl

/-- **What can be registered can be without documentation.** -/
theorem register_undocumented (h : r.register name definition = .ok r') :
    r.undocumented.register name definition.undocumented = .ok r'.undocumented := by
  rw [register, binding?_undocumented]
  rw [register] at h
  cases hbinding : r.binding? name with
  | none =>
    rw [hbinding] at h
    obtain rfl := Except.ok.inj h
    simp [undocumented, bind_undocumented]
  | some entry =>
    rw [hbinding] at h
    cases entry with
    | none =>
      obtain rfl := Except.ok.inj h
      simp [undocumented, bind_undocumented]
    | some existing =>
      by_cases hsame : existing.type.same definition.type = true
      · have heq := (TypeExpr.same_iff _ _).1 hsame
        have hplain : existing.undocumented.type.same definition.undocumented.type = true := by
          rw [TypeExpr.same_iff, NamedType.type_undocumented, heq]
          rfl
        simp only [hsame, if_true] at h
        obtain rfl := Except.ok.inj h
        simp only [Option.map_some, hplain, if_true]
      · simp only [hsame] at h
        cases h

end Registry

namespace Synthesis

variable {withDoc : Bool} {kind : Composition} {discriminator : Option Discriminator}
variable {member : Schema} {type : TypeExpr} {document : Json} {pointers : List String}
variable {r r' : Registry} {trace : List Visit} {stop : Option String}

/-! ## The plain translation -/

@[simp] theorem undocumented_tagValue (d : Discriminator) :
    (tagValue d member).undocumented = tagValue d member := by
  cases member with
  | reference pointer =>
    rw [tagValue]
    split <;> rfl
  | _ => rfl

@[simp] theorem undocumented_memberType :
    (memberType kind discriminator member type).undocumented =
      memberType kind discriminator member type.undocumented := by
  cases discriminator with
  | none => rfl
  | some d => cases kind <;> simp [memberType, tagged]

theorem undocumented_composed (types : List TypeExpr) :
    (composed kind types).undocumented = composed kind (types.map TypeExpr.undocumented) := by
  cases kind <;> simp [composed]

/-- **Without comments a schema has the same type without documentation.** -/
theorem translate_false (schema : Schema) :
    translate false schema = (translate withDoc schema).undocumented := by
  induction schema using Schema.induction with
  | primitive kind => rfl
  | enum values => simp [translate, TypeExpr.ofJson]
  | array items ih => rw [translate, translate, ih, TypeExpr.undocumented_array]
  | object properties presence ih =>
    rw [translate, translate, translateFields_eq, translateFields_eq,
      TypeExpr.undocumented_record, List.map_map]
    congr 1
    refine List.map_congr_left fun e he => ?_
    rw [ih e he]
    rfl
  | composition kind members discriminator ih =>
    rw [translate, translate]
    by_cases hnone : members.isEmpty = true
    · rw [if_pos hnone, if_pos hnone, TypeExpr.undocumented_any]
    · rw [if_neg hnone, if_neg hnone, undocumented_composed, translateMembers_eq,
        translateMembers_eq, List.map_map]
      congr 1
      refine List.map_congr_left fun m hm => ?_
      rw [ih m hm]
      exact undocumented_memberType.symm
  | reference pointer => rfl
  | any => rfl

theorem definition_false (target : Json) :
    definition false target = (definition withDoc target).undocumented := by
  rw [definition, translate_false, NamedType.undocumented]
  rfl

/-! ## Walks -/

/-- **A walk leads to the same registry without documentation**, and stops
where it stops with comments. -/
theorem Visits.undocumented (h : Visits document withDoc pointers r trace stop r') :
    ∃ trace', Visits document false pointers r.undocumented trace' stop r'.undocumented := by
  induction h with
  | done => exact ⟨[], .done⟩
  | bound hbound _ ih =>
    obtain ⟨trace', ih⟩ := ih
    exact ⟨_, .bound (by simpa using hbound) ih⟩
  | lost hnew hnone =>
    rw [← Registry.reserve_undocumented]
    exact ⟨_, .lost (by simpa using hnew) hnone⟩
  | stuck hnew htarget _ ih =>
    obtain ⟨inner, ih⟩ := ih
    rw [← Registry.reserve_undocumented] at ih
    exact ⟨_, .stuck (by simpa using hnew) htarget ih⟩
  | entered hnew htarget _ hdefine _ ihi iho =>
    obtain ⟨inner, ihi⟩ := ihi
    obtain ⟨outer, iho⟩ := iho
    rw [← Registry.reserve_undocumented] at ihi
    have hplain := Registry.register_undocumented hdefine
    rw [← definition_false] at hplain
    exact ⟨_, .entered (by simpa using hnew) htarget ihi hplain iho⟩

end Synthesis

end TypedClient
