import TypedClient.Proofs.Synthesis.Plan
import TypedClient.Proofs.Synthesis.Written
/-!
# Syntheses carry out walks

`reference` and `synthesize` bound the number of references open at once by
the number of references written in the document. This file shows that the
bound is never met: from every registry, both carry out a walk that knows
no bound (`reference_realizes`, `synthesize_realizes`). What the bound must
exceed is the number of written names still unbound once the pointer's own
name is reserved; a step into a target lowers both by one.
-/

namespace TypedClient

namespace Synthesis

variable {document : Json} {withDoc : Bool} {named : String → Synthesis TypeExpr}
variable {pointer : String} {depth : Nat} {r r₁ r₂ : Registry} {target : Json}

/-! ## Schemas -/

/-- Each pointer of a list is named by a walk, from every registry that has
grown from a given one. -/
def NamesFrom (document : Json) (withDoc : Bool) (named : String → Synthesis TypeExpr)
    (r : Registry) (pointers : List String) : Prop :=
  ∀ p ∈ pointers, ∀ r', r.names ⊆ r'.names →
    Realizes document withDoc (named p) ⟨[p], .ok (.ref (Pointer.typeName p))⟩ r'

theorem NamesFrom.mono {pointers fewer : List String} {r' : Registry}
    (h : NamesFrom document withDoc named r pointers) (hsub : fewer ⊆ pointers)
    (hgrown : r.names ⊆ r'.names) : NamesFrom document withDoc named r' fewer :=
  fun p hp r'' hr'' => h p (hsub hp) r'' (List.Subset.trans hgrown hr'')

/-- The fields for properties carry out the plans of their schemas, one
after another. -/
theorem inlineFields_realizes {required : List String} {properties : List (PropertyLabel × Schema)}
    (hschemas : ∀ e ∈ properties, ∀ r, NamesFrom document withDoc named r e.2.references →
      Realizes document withDoc (inline withDoc named e.2) (.ofSchema withDoc e.2) r)
    (h : NamesFrom document withDoc named r (Schema.propertyReferences properties)) :
    Realizes document withDoc (inlineFields withDoc named required properties)
      ⟨Schema.propertyReferences properties, .ok (translateFields withDoc required properties)⟩
      r := by
  induction properties generalizing r with
  | nil => exact .pure []
  | cons e rest ih =>
    obtain ⟨label, schema⟩ := e
    rw [Schema.propertyReferences] at h
    have hfirst := hschemas (label, schema) List.mem_cons_self r
      (h.mono (List.subset_append_left _ _) (List.Subset.refl _))
    exact hfirst.cons (fun type => (fieldLabel withDoc required label, type)) fun r' hgrown =>
      ih (fun e he => hschemas e (List.mem_cons_of_mem _ he))
        (h.mono (List.subset_append_right _ _) hgrown)

/-- And so do the types of members. -/
theorem inlineMembers_realizes {kind : Composition} {discriminator : Option Discriminator}
    {members : List Schema}
    (hschemas : ∀ m ∈ members, ∀ r, NamesFrom document withDoc named r m.references →
      Realizes document withDoc (inline withDoc named m) (.ofSchema withDoc m) r)
    (h : NamesFrom document withDoc named r (Schema.memberReferences members)) :
    Realizes document withDoc (inlineMembers withDoc named kind discriminator members)
      ⟨Schema.memberReferences members,
        .ok (translateMembers withDoc kind discriminator members)⟩ r := by
  induction members generalizing r with
  | nil => exact .pure []
  | cons member rest ih =>
    rw [Schema.memberReferences] at h
    have hfirst := hschemas member List.mem_cons_self r
      (h.mono (List.subset_append_left _ _) (List.Subset.refl _))
    exact hfirst.cons (memberType kind discriminator member) fun r' hgrown =>
      ih (fun m hm => hschemas m (List.mem_cons_of_mem _ hm))
        (h.mono (List.subset_append_right _ _) hgrown)

/-- **A schema carries out its plan** when its pointers are named by
walks. -/
theorem inline_realizes (schema : Schema)
    (h : NamesFrom document withDoc named r schema.references) :
    Realizes document withDoc (inline withDoc named schema) (.ofSchema withDoc schema) r := by
  induction schema using Schema.induction generalizing r with
  | primitive kind => exact .pure _
  | enum values => exact .pure _
  | any => exact .pure _
  | reference pointer => exact h pointer (List.mem_singleton_self _) r (List.Subset.refl _)
  | array items ih => exact (ih h).map TypeExpr.array
  | object properties presence ih =>
    exact (inlineFields_realizes (fun e he r => ih e he) h).map TypeExpr.record
  | composition kind members discriminator ih =>
    rw [inline]
    cases members with
    | nil => exact .pure _
    | cons m rest => exact (inlineMembers_realizes (fun m hm r => ih m hm) h).map (composed kind)

/-! ## References -/

/-- Where the name is bound it is the answer. -/
theorem referenceWithin_run_of_bound (h : Pointer.typeName pointer ∈ r.names) :
    (referenceWithin document withDoc depth pointer).run r =
      (.ok (.ref (Pointer.typeName pointer)), r) := by
  rw [referenceWithin.eq_def, run_bind_of_ok (run_get r), if_pos (Registry.contains_iff.2 h)]
  rfl

/-- How a reference goes on with its target once its name is reserved. -/
def goInto (document : Json) (withDoc : Bool) (depth : Nat) (pointer : String) :
    Option Json → Synthesis TypeExpr
  | none => throw (.unresolved pointer)
  | some target => do
    let type ← inline withDoc (referenceWithin document withDoc depth) (Schema.ofJson target)
    define (Pointer.typeName pointer) ⟨type, description withDoc target⟩
    return .ref (Pointer.typeName pointer)

/-- Where it is not bound the name is reserved, and the target decides. -/
theorem referenceWithin_run_of_new (h : Pointer.typeName pointer ∉ r.names) :
    (referenceWithin document withDoc (depth + 1) pointer).run r =
      (goInto document withDoc depth pointer (Pointer.resolve? document pointer)).run
        (r.reserve (Pointer.typeName pointer)) := by
  have hnew : ¬ r.contains (Pointer.typeName pointer) = true := by
    rw [Registry.contains_iff]
    exact h
  rw [referenceWithin.eq_def, run_bind_of_ok (run_get r), if_neg hnew,
    run_bind_of_ok (run_modify _ r)]
  cases Pointer.resolve? document pointer with
  | none => rfl
  | some target => rfl

theorem define_run {name : String} {named : NamedType} (h : r.register name named = .ok r₁) :
    (define name named).run r = (.ok (), r₁) := by
  rw [define, run_bind_of_ok (run_get r), h]
  rfl

/-- **A reference carries out its walk** when the bound exceeds the number
of written names that are unbound behind it. -/
theorem referenceWithin_realizes
    (h : (unbound document (r.reserve (Pointer.typeName pointer))).card < depth) :
    Realizes document withDoc (referenceWithin document withDoc depth pointer)
      ⟨[pointer], .ok (.ref (Pointer.typeName pointer))⟩ r := by
  induction depth generalizing pointer r with
  | zero => omega
  | succ depth ih =>
    by_cases hbound : Pointer.typeName pointer ∈ r.names
    · exact ⟨_, none, r, .bound hbound .done, referenceWithin_run_of_bound hbound⟩
    cases htarget : Pointer.resolve? document pointer with
    | none =>
      refine ⟨_, some pointer, _, .lost hbound htarget, ?_⟩
      rw [referenceWithin_run_of_new hbound, htarget]
      rfl
    | some target =>
      have hnamed : NamesFrom document withDoc (referenceWithin document withDoc depth)
          (r.reserve (Pointer.typeName pointer)) (Schema.ofJson target).references := by
        intro p hp r' hgrown
        by_cases hp' : Pointer.typeName p ∈ r'.names
        · exact ⟨_, none, r', .bound hp' .done, referenceWithin_run_of_bound hp'⟩
        · -- the name is written in the document, so reserving it lowers the measure
          have hlt := card_unbound_lt (mem_written_of_mem_references htarget hp) hp'
          have hle : (unbound document r').card ≤
              (unbound document (r.reserve (Pointer.typeName pointer))).card :=
            card_unbound_mono hgrown
          exact ih (by omega)
      obtain ⟨trace, stop, r₁, hvisits, hinner⟩ := inline_realizes (Schema.ofJson target) hnamed
      have hrun := @referenceWithin_run_of_new document withDoc pointer depth r hbound
      rw [htarget] at hrun
      cases stop with
      | some q =>
        exact ⟨_, some q, r₁, .stuck hbound htarget hvisits,
          hrun.trans (run_bind_of_error hinner)⟩
      | none =>
        obtain ⟨r₂, hdefine⟩ : ∃ r₂, r₁.register (Pointer.typeName pointer)
            (definition withDoc target) = .ok r₂ :=
          Registry.register_of_pending (hvisits.pending_inside hbound)
        exact ⟨_, none, r₂, .entered hbound htarget hvisits hdefine .done,
          hrun.trans ((run_bind_of_ok hinner).trans (run_bind_of_ok (define_run hdefine)))⟩

/-- **The named type for a pointer comes from a walk over it**, from every
registry. -/
theorem reference_realizes (document : Json) (withDoc : Bool) (pointer : String) (r : Registry) :
    Realizes document withDoc (reference document withDoc pointer)
      ⟨[pointer], .ok (.ref (Pointer.typeName pointer))⟩ r :=
  referenceWithin_realizes (Nat.lt_succ_of_le card_unbound_le)

/-- **The type of a schema comes from a walk over its pointers**, from every
registry. -/
theorem synthesize_realizes (document : Json) (withDoc : Bool) (schema : Schema) (r : Registry) :
    Realizes document withDoc (synthesize document withDoc schema) (.ofSchema withDoc schema) r :=
  inline_realizes schema fun p _ r' _ => reference_realizes document withDoc p r'

/-- A synthesis that succeeds gives the translation. -/
theorem type_of_run {schema : Schema} {type : TypeExpr} {r' : Registry}
    (h : (synthesize document withDoc schema).run r = (.ok type, r')) :
    type = translate withDoc schema := by
  obtain ⟨trace, stop, r₁, -, hrun⟩ := synthesize_realizes document withDoc schema r
  obtain ⟨hanswer, -⟩ := Prod.mk.inj (hrun.symm.trans h)
  cases stop with
  | some p => cases hanswer
  | none => exact (Except.ok.inj hanswer).symm

/-- **The bound is never met**: every larger one gives the same run. -/
theorem referenceWithin_run_eq (h : referenceCount document < depth) :
    (referenceWithin document withDoc depth pointer).run r =
      (reference document withDoc pointer).run r :=
  (referenceWithin_realizes (Nat.lt_of_le_of_lt card_unbound_le h)).run_eq
    (reference_realizes document withDoc pointer r)

end Synthesis

end TypedClient
