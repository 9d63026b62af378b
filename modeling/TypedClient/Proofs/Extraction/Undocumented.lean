import TypedClient.Proofs.Extraction.Plan
import TypedClient.Proofs.Synthesis.Undocumented
/-!
# Extractions without documentation

Whether comments are wanted changes nothing in a run but the documentation
of the types it gives. Each part of the plan of an extraction differs in
this only, and so do the walks; so a run without comments fails exactly
where the run with comments does, with the same error, and gives the same
API without documentation (`api_undocumented`).
-/

namespace TypedClient

/-- The options without comments. -/
def Options.undocumented (options : Options) : Options := { options with withDoc := false }

/-- The body, its type without documentation. -/
def Body.undocumented (b : Body) : Body := { b with type := b.type.undocumented }

/-- The outcome, its types without documentation. -/
def Outcome.undocumented (o : Outcome) : Outcome :=
  { o with mediaTypes := o.mediaTypes.map fun m => (m.1, m.2.undocumented) }

/-- The endpoint, its types without documentation. -/
def Endpoint.undocumented (e : Endpoint) : Endpoint :=
  { e with
    body := e.body.map Body.undocumented
    outcomes := e.outcomes.map Outcome.undocumented }

/-- The API, its types without documentation. -/
def Api.undocumented (api : Api) : Api :=
  { api with
    endpoints := api.endpoints.map Endpoint.undocumented
    types := api.types.undocumented }

namespace Synthesis

namespace Plan

variable {α β α' β' : Type}

/-- The plan with what it gives put through a function. -/
def map (f : α → β) (plan : Plan α) : Plan β := ⟨plan.pointers, plan.result.map f⟩

theorem map_pure (f : α → β) (a : α) : (Pure.pure a : Plan α).map f = Pure.pure (f a) := rfl

theorem answer_map (f : α → β) (plan : Plan α) (stop : Option String) :
    (plan.map f).answer stop = (plan.answer stop).map f := by
  cases stop <;> rfl

/-- What goes on from a plan that is put through a function. -/
theorem map_bind_map {plan : Plan α} {f : α → α'} {g : β → β'} {k : α → Plan β}
    {k' : α' → Plan β'} (h : ∀ a, k' (f a) = (k a).map g) :
    plan.map f >>= k' = (plan >>= k).map g := by
  obtain ⟨pointers, result⟩ := plan
  cases result with
  | error e => rfl
  | ok a =>
    have hplan : (⟨pointers, .ok a⟩ : Plan α).map f = ⟨pointers, .ok (f a)⟩ := rfl
    rw [hplan, bind_of_ok rfl, bind_of_ok rfl, h]
    rfl

/-- What goes on from a plan as it is. -/
theorem bind_map {plan : Plan α} {g : β → β'} {k : α → Plan β} {k' : α → Plan β'}
    (h : ∀ a, k' a = (k a).map g) : plan >>= k' = (plan >>= k).map g := by
  rw [← map_bind_map (f := id) h, map]
  congr 1
  obtain ⟨pointers, result⟩ := plan
  cases result <;> rfl

end Plan

end Synthesis

namespace Source

open Synthesis (Plan Visits)

variable {source : Source} {options : Options}

/-! ## The parts of the plan -/

theorem typePlan_undocumented (schema : Option Schema) :
    typePlan options.undocumented schema =
      (typePlan options schema).map TypeExpr.undocumented := by
  cases schema with
  | none => rfl
  | some schema =>
    have htype : Synthesis.translate options.undocumented.withDoc schema =
        (Synthesis.translate options.withDoc schema).undocumented :=
      Synthesis.translate_false schema
    rw [typePlan, Plan.ofSchema, htype]
    rfl

theorem bodyTypePlan_undocumented (mediaType : String) (schema : Option Schema) :
    bodyTypePlan options.undocumented mediaType schema =
      (bodyTypePlan options mediaType schema).map TypeExpr.undocumented := by
  rw [bodyTypePlan, bodyTypePlan]
  cases Media.classify mediaType with
  | json => exact typePlan_undocumented schema
  | _ => rfl

theorem bodyPlan_undocumented (b : RequestBody) :
    bodyPlan options.undocumented b =
      (bodyPlan options b).map fun body => body.map Body.undocumented := by
  rw [bodyPlan, bodyPlan]
  cases Media.preferred? b.content with
  | none => rfl
  | some entry =>
    obtain ⟨mediaType, schema⟩ := entry
    simp only
    rw [bodyTypePlan_undocumented]
    exact Plan.map_bind_map fun type => rfl

theorem mediaTypesPlan_undocumented (content : Content) :
    mediaTypesPlan options.undocumented content =
      (mediaTypesPlan options content).map fun types =>
        types.map fun m => (m.1, m.2.undocumented) := by
  induction content with
  | nil => rfl
  | cons entry rest ih =>
    obtain ⟨mediaType, schema⟩ := entry
    rw [mediaTypesPlan, mediaTypesPlan, typePlan_undocumented, ih]
    exact Plan.map_bind_map fun type => Plan.map_bind_map fun others => rfl

theorem outcomePlan_undocumented (label : String) (status : Status) (response : Response) :
    outcomePlan options.undocumented label status response =
      (outcomePlan options label status response).map Outcome.undocumented := by
  have hpolicy : options.undocumented.mediaPolicy = options.mediaPolicy := rfl
  rw [outcomePlan, outcomePlan, hpolicy]
  split
  · rfl
  · rw [mediaTypesPlan_undocumented]
    exact Plan.map_bind_map fun mediaTypes => rfl

theorem outcomesPlan_undocumented (label : String) (responses : List (String × RefOr Response)) :
    source.outcomesPlan options.undocumented label responses =
      (source.outcomesPlan options label responses).map fun outcomes =>
        outcomes.map Outcome.undocumented := by
  induction responses with
  | nil => rfl
  | cons entry rest ih =>
    obtain ⟨key, response⟩ := entry
    rw [outcomesPlan, outcomesPlan]
    refine Plan.bind_map fun response => ?_
    rw [outcomePlan_undocumented, ih]
    exact Plan.map_bind_map fun first => Plan.map_bind_map fun others => rfl

theorem operationBodyPlan_undocumented (operation : Operation) :
    source.operationBodyPlan options.undocumented operation =
      (source.operationBodyPlan options operation).map fun body =>
        body.map Body.undocumented := by
  rw [operationBodyPlan, operationBodyPlan]
  cases operation.requestBody with
  | none => rfl
  | some b => exact Plan.bind_map fun body => bodyPlan_undocumented body

theorem endpointPlan_undocumented (path : String) (method : Method) (item : PathItem)
    (operation : Operation) :
    source.endpointPlan options.undocumented path method item operation =
      (source.endpointPlan options path method item operation).map Endpoint.undocumented := by
  rw [endpointPlan, endpointPlan, operationBodyPlan_undocumented, outcomesPlan_undocumented]
  refine Plan.bind_map fun basicAuth => Plan.bind_map fun parameters => ?_
  exact Plan.map_bind_map fun body => Plan.map_bind_map fun outcomes => rfl

theorem pathEndpointsPlan_undocumented (path : String) (item : PathItem)
    (operations : List (Method × Operation)) :
    source.pathEndpointsPlan options.undocumented path item operations =
      (source.pathEndpointsPlan options path item operations).map fun endpoints =>
        endpoints.map Endpoint.undocumented := by
  induction operations with
  | nil => rfl
  | cons entry rest ih =>
    obtain ⟨method, operation⟩ := entry
    rw [pathEndpointsPlan, pathEndpointsPlan, endpointPlan_undocumented, ih]
    exact Plan.map_bind_map fun first => Plan.map_bind_map fun others => rfl

theorem endpointsPlan_undocumented (paths : List (String × PathItem)) :
    source.endpointsPlan options.undocumented paths =
      (source.endpointsPlan options paths).map fun endpoints =>
        endpoints.map Endpoint.undocumented := by
  induction paths with
  | nil => rfl
  | cons entry rest ih =>
    obtain ⟨path, item⟩ := entry
    rw [endpointsPlan, endpointsPlan, pathEndpointsPlan_undocumented, ih]
    refine Plan.map_bind_map fun first => Plan.map_bind_map fun others => ?_
    rw [Plan.map_pure, List.map_append]

/-- Component schemas are registered for their names only. -/
theorem componentsPlan_undocumented (names : List String) :
    componentsPlan options.undocumented names = componentsPlan options names := by
  induction names with
  | nil => rfl
  | cons name rest ih =>
    rw [componentsPlan, componentsPlan, ih]
    rfl

/-- **The plan of an extraction without comments.** -/
theorem plan_undocumented : source.plan options.undocumented =
    (source.plan options).map fun endpoints => endpoints.map Endpoint.undocumented := by
  have hall : options.undocumented.allComponents = options.allComponents := rfl
  rw [plan, plan, endpointsPlan_undocumented, hall, componentsPlan_undocumented]
  refine Plan.map_bind_map fun endpoints => ?_
  split
  · exact Plan.bind_map fun _ => rfl
  · rfl

/-! ## Runs -/

/-- **A run without comments** fails exactly where the run with comments
does, with the same error, and gives the same API without documentation. -/
theorem api_undocumented :
    source.api options.undocumented = (source.api options).map Api.undocumented := by
  obtain ⟨trace, stop, r', hvisits, hapi⟩ := source.api_of_visits options
  obtain ⟨trace', stop', r₁, hvisits', hapi'⟩ := source.api_of_visits options.undocumented
  obtain ⟨plainTrace, hplain⟩ := hvisits.undocumented
  rw [plan_undocumented] at hvisits' hapi'
  -- both walks go over the same pointers without documentation
  obtain ⟨-, rfl, rfl⟩ := hvisits'.deterministic hplain
  rw [hapi', hapi, Plan.answer_map]
  cases (source.plan options).answer stop' <;> rfl

end Source

end TypedClient
