import TypedClient.Proofs.Extraction.Result
/-!
# The pointers of an extraction are written in its document

Every schema of a description is read from a part of the document, whether
it stands in place or behind references, so the pointers that the endpoints
visit are among the references written in the document
(`endpointsPlan_written`). Only the pointers of component schemas are made up
from names.
-/

namespace TypedClient

namespace Synthesis

variable {α β : Type} {within : List String}

theorem Plan.pointers_pure {a : α} : (pure a : Plan α).pointers ⊆ within := List.nil_subset _

theorem Plan.pointers_settled {result : Except Error α} :
    (Plan.settled result).pointers ⊆ within := List.nil_subset _

/-- A sequence visits what its parts visit. -/
theorem Plan.pointers_bind {plan : Plan α} {k : α → Plan β} (hplan : plan.pointers ⊆ within)
    (hk : ∀ a, plan.result = .ok a → (k a).pointers ⊆ within) :
    (plan >>= k).pointers ⊆ within := by
  cases hresult : plan.result with
  | error e =>
    rw [bind_of_error hresult]
    exact hplan
  | ok a =>
    rw [bind_of_ok hresult]
    exact List.append_subset.2 ⟨hplan, hk a hresult⟩

/-- A schema whose pointers are among some. -/
def Mentions (within : List String) (schema : Schema) : Prop := schema.references ⊆ within

/-- **A schema read from a part of a document** mentions references written in
the document. -/
theorem schema_yieldsIn (document : Json) :
    Shape.YieldsIn document Shape.schema (Mentions (written document)) := by
  intro value schema hpart h
  cases h
  intro pointer hpointer
  obtain ⟨fields, hfields, href⟩ := Schema.written_of_mem_references hpointer
  exact mem_written_of_part (hfields.trans hpart) href

end Synthesis

namespace Source

open Synthesis (Plan Mentions written schema_yieldsIn)

variable {source : Source} {options : Options} {within : List String} {raw : Json}

theorem typePlan_pointers {schema : Option Schema} (h : ∀ s ∈ schema, Mentions within s) :
    (typePlan options schema).pointers ⊆ within := by
  cases schema with
  | none => exact Plan.pointers_pure
  | some s => exact h s rfl

theorem bodyPlan_pointers {b : RequestBody} (h : Content.All (Mentions within) b.content) :
    (bodyPlan options b).pointers ⊆ within := by
  rw [bodyPlan]
  cases hentry : Media.preferred? b.content with
  | none => exact Plan.pointers_pure
  | some entry =>
    have hschema := h entry (mem_of_preferred? hentry)
    refine Plan.pointers_bind ?_ fun type _ => Plan.pointers_pure
    rw [bodyTypePlan]
    cases Media.classify entry.1 with
    | json => exact typePlan_pointers hschema
    | text => exact Plan.pointers_pure
    | _ => exact Plan.pointers_pure

theorem mediaTypesPlan_pointers {content : Content} (h : content.All (Mentions within)) :
    (mediaTypesPlan options content).pointers ⊆ within := by
  induction content with
  | nil => exact Plan.pointers_pure
  | cons entry rest ih =>
    obtain ⟨hfirst, hrest⟩ := List.forall_mem_cons.1 h
    refine Plan.pointers_bind (typePlan_pointers hfirst) fun type _ => ?_
    exact Plan.pointers_bind (ih hrest) fun others _ => Plan.pointers_pure

theorem outcomePlan_pointers {label : String} {status : Status} {response : Response}
    (h : Content.All (Mentions within) response.content) :
    (outcomePlan options label status response).pointers ⊆ within := by
  rw [outcomePlan]
  split
  · exact Plan.pointers_settled
  · exact Plan.pointers_bind (mediaTypesPlan_pointers h) fun types _ => Plan.pointers_pure

theorem outcomesPlan_pointers {label : String} {responses : List (String × RefOr Response)}
    (h : ∀ e ∈ responses, e.2.Holds fun r => Content.All (Mentions (written source.raw)) r.content) :
    (source.outcomesPlan options label responses).pointers ⊆ written source.raw := by
  induction responses with
  | nil => exact Plan.pointers_pure
  | cons entry rest ih =>
    obtain ⟨hfirst, hrest⟩ := List.forall_mem_cons.1 h
    refine Plan.pointers_bind Plan.pointers_settled fun response hresponse => ?_
    -- the response stands in place or in a part of the document
    have hcontent : Content.All (Mentions (written source.raw)) response.content :=
      (RefOr.follow_ends (Response.ofJson_yieldsIn (schema_yieldsIn source.raw)) hfirst).1
        response hresponse
    refine Plan.pointers_bind (outcomePlan_pointers hcontent) fun first _ => ?_
    exact Plan.pointers_bind (ih hrest) fun others _ => Plan.pointers_pure

theorem operationBodyPlan_pointers {operation : Operation}
    (h : operation.All (Mentions (written source.raw))) :
    (source.operationBodyPlan options operation).pointers ⊆ written source.raw := by
  rw [operationBodyPlan]
  cases hbody : operation.requestBody with
  | none => exact Plan.pointers_pure
  | some b =>
    refine Plan.pointers_bind Plan.pointers_settled fun body hfollow => bodyPlan_pointers ?_
    exact (RefOr.follow_ends (RequestBody.ofJson_yieldsIn (schema_yieldsIn source.raw))
      (h.1 b hbody)).1 body hfollow

theorem endpointPlan_pointers {path : String} {method : Method} {item : PathItem}
    {operation : Operation} (h : operation.All (Mentions (written source.raw))) :
    (source.endpointPlan options path method item operation).pointers ⊆ written source.raw := by
  refine Plan.pointers_bind Plan.pointers_settled fun basicAuth _ => ?_
  refine Plan.pointers_bind Plan.pointers_settled fun parameters _ => ?_
  refine Plan.pointers_bind (operationBodyPlan_pointers h) fun body _ => ?_
  exact Plan.pointers_bind (outcomesPlan_pointers h.2) fun outcomes _ => Plan.pointers_pure

theorem pathEndpointsPlan_pointers {path : String} {item : PathItem}
    {operations : List (Method × Operation)}
    (h : ∀ e ∈ operations, e.2.All (Mentions (written source.raw))) :
    (source.pathEndpointsPlan options path item operations).pointers ⊆ written source.raw := by
  induction operations with
  | nil => exact Plan.pointers_pure
  | cons entry rest ih =>
    obtain ⟨hfirst, hrest⟩ := List.forall_mem_cons.1 h
    refine Plan.pointers_bind (endpointPlan_pointers hfirst) fun first _ => ?_
    exact Plan.pointers_bind (ih hrest) fun others _ => Plan.pointers_pure

theorem endpointsPlan_pointers {paths : List (String × PathItem)}
    (h : ∀ e ∈ paths, e.2.All (Mentions (written source.raw))) :
    (source.endpointsPlan options paths).pointers ⊆ written source.raw := by
  induction paths with
  | nil => exact Plan.pointers_pure
  | cons entry rest ih =>
    obtain ⟨hfirst, hrest⟩ := List.forall_mem_cons.1 h
    refine Plan.pointers_bind (pathEndpointsPlan_pointers (all_of_mem_operationsOf hfirst))
      fun first _ => ?_
    exact Plan.pointers_bind (ih hrest) fun others _ => Plan.pointers_pure

/-- **The endpoints of a source visit references written in its document.** -/
theorem endpointsPlan_written (h : ofJson raw = .ok source) :
    (source.endpointsPlan options source.document.paths).pointers ⊆ written raw := by
  obtain ⟨rfl, hdocument⟩ := document_of_ofJson h
  exact endpointsPlan_pointers
    (Document.ofJson_yieldsIn (schema_yieldsIn source.raw) _ _ .self hdocument)

end Source

end TypedClient
