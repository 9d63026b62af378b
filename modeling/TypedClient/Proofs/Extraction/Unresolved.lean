import TypedClient.Proofs.Document.References
import TypedClient.Proofs.Extraction.Components
import TypedClient.Proofs.Extraction.Written
import TypedClient.Proofs.Synthesis.Failure
/-!
# Runs that meet an unresolved reference

A run is ended by an unresolved reference either in a chain of references of
the description or in the walk over the pointers of its plan. Both stay among
the references written in the document. Only the pointers that are made up
from the names of component schemas need not be written there
(`mem_written_of_api`).
-/

namespace TypedClient

namespace Synthesis

variable {α β : Type} {within : List String} {plan : Plan α} {k : α → Plan β}

/-- The unresolved reference that a plan ends with, if it does, is one of
some. -/
def Plan.LosesIn (within : List String) (plan : Plan α) : Prop :=
  ∀ lost, plan.result = .error (.unresolved lost) → lost ∈ within

namespace Plan.LosesIn

theorem pure {a : α} : (Pure.pure a : Plan α).LosesIn within := fun _ h => by cases h

theorem settled {result : Except Error α}
    (h : ∀ lost, result = .error (.unresolved lost) → lost ∈ within) :
    (Plan.settled result).LosesIn within := h

theorem ofSchema {withDoc : Bool} {schema : Schema} :
    (Plan.ofSchema withDoc schema).LosesIn within := fun _ h => by cases h

/-- A sequence ends with what one of its parts ends with. -/
theorem bind (hplan : plan.LosesIn within)
    (hk : ∀ a, plan.result = .ok a → (k a).LosesIn within) : (plan >>= k).LosesIn within := by
  intro lost h
  cases hresult : plan.result with
  | error e =>
    rw [Plan.bind_of_error hresult] at h
    obtain rfl := Except.error.inj h
    exact hplan lost hresult
  | ok a =>
    rw [Plan.bind_of_ok hresult] at h
    exact hk a hresult lost h

end Plan.LosesIn

/-- **Where open references lead nowhere**, they do so at a pointer of the
start or at a reference that is written in the document. -/
theorem OpenChain.mem_start_or_written {document : Json} {start chain : List String}
    {stop : String} (h : OpenChain document start chain stop) :
    stop ∈ start ∨ stop ∈ written document := by
  induction h with
  | lost hmem _ => exact .inl hmem
  | into _ htarget _ ih => exact .inr (ih.elim (mem_written_of_mem_references htarget) id)

end Synthesis

namespace Source

open Synthesis (Plan written)

variable {source : Source} {options : Options} {raw : Json} {lost : String}

/-! ## Plans -/

theorem typePlan_losesIn {within : List String} {schema : Option Schema} :
    (typePlan options schema).LosesIn within := by
  cases schema with
  | none => exact .pure
  | some s => exact .ofSchema

theorem bodyPlan_losesIn {within : List String} {b : RequestBody} :
    (bodyPlan options b).LosesIn within := by
  rw [bodyPlan]
  cases Media.preferred? b.content with
  | none => exact .pure
  | some entry =>
    refine Plan.LosesIn.bind ?_ fun type _ => .pure
    rw [bodyTypePlan]
    cases Media.classify entry.1 with
    | json => exact typePlan_losesIn
    | text => exact .pure
    | _ => exact .pure

theorem mediaTypesPlan_losesIn {within : List String} {content : Content} :
    (mediaTypesPlan options content).LosesIn within := by
  induction content with
  | nil => exact .pure
  | cons entry rest ih => exact typePlan_losesIn.bind fun type _ => ih.bind fun others _ => .pure

theorem outcomePlan_losesIn {within : List String} {label : String} {status : Status}
    {response : Response} : (outcomePlan options label status response).LosesIn within := by
  rw [outcomePlan]
  split
  · exact .settled fun _ h => by cases h
  · exact mediaTypesPlan_losesIn.bind fun types _ => .pure

theorem follow_losesIn {α : Type} {read : Json → Shape α} {item : RefOr α}
    (h : item.RefersIn (written raw)) :
    (Plan.settled (item.follow raw read)).LosesIn (written raw) :=
  .settled fun _ => RefOr.mem_written_of_follow h

theorem outcomesPlan_losesIn {label : String} {responses : List (String × RefOr Response)}
    (h : ∀ e ∈ responses, e.2.RefersIn (written source.raw)) :
    (source.outcomesPlan options label responses).LosesIn (written source.raw) := by
  induction responses with
  | nil => exact .pure
  | cons entry rest ih =>
    obtain ⟨hfirst, hrest⟩ := List.forall_mem_cons.1 h
    refine (follow_losesIn hfirst).bind fun response _ => ?_
    exact outcomePlan_losesIn.bind fun first _ => (ih hrest).bind fun others _ => .pure

theorem operationBodyPlan_losesIn {operation : Operation}
    (h : operation.RefersIn (written source.raw)) :
    (source.operationBodyPlan options operation).LosesIn (written source.raw) := by
  rw [operationBodyPlan]
  cases hbody : operation.requestBody with
  | none => exact .pure
  | some b => exact (follow_losesIn (h.2.1 b hbody)).bind fun body _ => bodyPlan_losesIn

theorem placeAll_losesIn {placed : List Parameter} {parameters : List (RefOr Parameter)}
    (h : ∀ p ∈ parameters, p.RefersIn (written source.raw)) :
    (Plan.settled (placeAll source placed parameters)).LosesIn (written source.raw) := by
  intro lost hlost
  induction parameters generalizing placed with
  | nil => cases hlost
  | cons p rest ih =>
    obtain ⟨hfirst, hrest⟩ := List.forall_mem_cons.1 h
    rw [Plan.settled, placeAll] at hlost
    split at hlost
    · exact ih hrest hlost
    · rename_i hfollow
      obtain rfl := Except.error.inj hlost
      exact RefOr.mem_written_of_follow hfirst hfollow

theorem anyBasic_losesIn {schemes : List (String × RefOr SecurityScheme)} {names : List String}
    (h : ∀ e ∈ schemes, e.2.RefersIn (written source.raw)) :
    (Plan.settled (anyBasic source schemes names)).LosesIn (written source.raw) := by
  intro lost hlost
  induction names with
  | nil => cases hlost
  | cons name rest ih =>
    rw [Plan.settled, anyBasic] at hlost
    split at hlost
    · exact ih hlost
    · rename_i found scheme hfound
      split at hlost
      · rename_i hfollow
        obtain rfl := Except.error.inj hlost
        exact RefOr.mem_written_of_follow (h _ (List.mem_of_find?_eq_some hfound)) hfollow
      · split at hlost
        · cases hlost
        · exact ih hlost

section Endpoints

variable {path : String} {item : PathItem}
variable (hcomponents : ∀ components ∈ source.document.components,
  components.RefersIn (written source.raw))

include hcomponents

theorem needsBasic_losesIn {operation : Operation} :
    (Plan.settled (source.needsBasic operation)).LosesIn (written source.raw) := by
  rw [needsBasic]
  cases hfound : source.document.components with
  | none => exact .pure
  | some components => exact anyBasic_losesIn (hcomponents components hfound)

theorem endpointPlan_losesIn {method : Method} {operation : Operation}
    (hitem : ∀ p ∈ item.parameters, p.RefersIn (written source.raw))
    (hoperation : operation.RefersIn (written source.raw)) :
    (source.endpointPlan options path method item operation).LosesIn (written source.raw) := by
  have hparameters : ∀ p ∈ item.parameters ++ operation.parameters,
      p.RefersIn (written source.raw) := List.forall_mem_append.2 ⟨hitem, hoperation.1⟩
  refine (needsBasic_losesIn hcomponents).bind fun basicAuth _ => ?_
  refine (placeAll_losesIn hparameters).bind fun parameters _ => ?_
  refine (operationBodyPlan_losesIn hoperation).bind fun body _ => ?_
  exact (outcomesPlan_losesIn hoperation.2.2).bind fun outcomes _ => .pure

theorem pathEndpointsPlan_losesIn {operations : List (Method × Operation)}
    (hitem : ∀ p ∈ item.parameters, p.RefersIn (written source.raw))
    (h : ∀ e ∈ operations, e.2.RefersIn (written source.raw)) :
    (source.pathEndpointsPlan options path item operations).LosesIn (written source.raw) := by
  induction operations with
  | nil => exact .pure
  | cons entry rest ih =>
    obtain ⟨hfirst, hrest⟩ := List.forall_mem_cons.1 h
    refine (endpointPlan_losesIn hcomponents hitem hfirst).bind fun first _ => ?_
    exact (ih hrest).bind fun others _ => .pure

theorem endpointsPlan_losesIn {paths : List (String × PathItem)}
    (h : ∀ e ∈ paths, e.2.RefersIn (written source.raw)) :
    (source.endpointsPlan options paths).LosesIn (written source.raw) := by
  induction paths with
  | nil => exact .pure
  | cons entry rest ih =>
    obtain ⟨⟨hitem, hoperations⟩, hrest⟩ := List.forall_mem_cons.1 h
    have hentry : ∀ e ∈ operationsOf entry.2, e.2.RefersIn (written source.raw) :=
      fun e he => hoperations e.1 e.2 (operation?_of_mem_operationsOf he)
    refine (pathEndpointsPlan_losesIn hcomponents hitem hentry).bind fun first _ => ?_
    exact (ih hrest).bind fun others _ => .pure

end Endpoints

/-! ## Runs -/

/-- **What ends a run as an unresolved reference** is written in the document,
or is the pointer of a component schema that was asked for by its name and
leads nowhere. -/
theorem mem_written_of_api (hread : ofJson raw = .ok source)
    (h : source.api options = .error (.unresolved lost)) :
    lost ∈ written raw ∨
      lost ∈ source.componentPointers options ∧ Pointer.resolve? raw lost = none := by
  obtain ⟨hraw, hdocument⟩ := document_of_ofJson hread
  obtain ⟨hpaths, hcomponents⟩ := Document.ofJson_refersIn _ _ .self hdocument
  have hvisited : (source.endpointsPlan options source.document.paths).pointers ⊆ written raw :=
    endpointsPlan_written hread
  have hends : (source.endpointsPlan options source.document.paths).LosesIn (written raw) := by
    rw [← hraw] at hpaths hcomponents ⊢
    exact endpointsPlan_losesIn hcomponents hpaths
  obtain ⟨trace, stop, r, hvisits, hapi⟩ := source.api_of_visits options
  rw [hraw] at hvisits
  rw [hapi] at h
  cases hresult : (source.endpointsPlan options source.document.paths).result with
  | error e =>
    -- the component schemas are not reached
    have hplan : source.plan options =
        ⟨(source.endpointsPlan options source.document.paths).pointers, .error e⟩ :=
      Plan.bind_of_error hresult
    rw [hplan] at hvisits h
    cases stop with
    | none =>
      cases h
      exact .inl (hends lost hresult)
    | some pointer =>
      cases h
      obtain ⟨chain, hchain, -⟩ := hvisits.openChain rfl
      exact .inl (hchain.mem_start_or_written.elim (fun hmem => hvisited hmem) id)
  | ok endpoints =>
    rw [plan_of_endpoints hresult] at hvisits h
    cases stop with
    | none => cases h
    | some pointer =>
      cases h
      obtain ⟨chain, hchain, -⟩ := hvisits.openChain rfl
      rcases hchain.mem_start_or_written with hmem | hwritten
      · rcases List.mem_append.1 hmem with hendpoint | hcomponent
        · exact .inl (hvisited hendpoint)
        · exact .inr ⟨hcomponent, hchain.resolve?_stop⟩
      · exact .inl hwritten

end Source

end TypedClient
