import TypedClient.Extraction
import TypedClient.Proofs.Media
import TypedClient.Proofs.Synthesis.Run
/-!
# The plan of an extraction

An extraction threads one registry through all operations and the component
schemas. Its plan leaves the registry aside: which pointers are visited, in
which order over the whole run, and what the run gives if all of them can be
visited. Each part of an extraction carries out its part of the plan, so a
run is one walk over the pointers of the plan, and what stops the walk is
the error of the run (`api_of_visits`).
-/

namespace TypedClient

namespace Source

open Synthesis (Plan Realizes Visits Visit)

variable (source : Source) (options : Options)

/-! ## The parts of the plan -/

/-- The plan for a type. -/
def typePlan : Option Schema → Plan TypeExpr
  | some schema => .ofSchema options.withDoc schema
  | none => return .any

/-- The plan for the type of a body. -/
def bodyTypePlan (mediaType : String) (schema : Option Schema) : Plan TypeExpr :=
  match Media.classify mediaType with
  | .json => typePlan options schema
  | .text => return .string
  | _ => return .any

/-- The plan for the body that is sent. -/
def bodyPlan (b : RequestBody) : Plan (Option Body) :=
  match Media.preferred? b.content with
  | none => return none
  | some (mediaType, schema) => do
    let type ← bodyTypePlan options mediaType schema
    return some ⟨b.description, b.required, mediaType, type⟩

/-- The plan for the types of media types. -/
def mediaTypesPlan : Content → Plan (List (String × TypeExpr))
  | [] => return []
  | (mediaType, schema) :: rest => do
    let type ← typePlan options schema
    let others ← mediaTypesPlan rest
    return (mediaType, type) :: others

/-- The plan for an outcome. -/
def outcomePlan (label : String) (status : Status) (response : Response) : Plan Outcome :=
  if 1 < response.content.length && options.mediaPolicy == .strict then
    .settled (.error (.unsupportedShape label status.key (response.content.map (·.1))))
  else do
    let mediaTypes ← mediaTypesPlan options response.content
    return ⟨status, response.description, mediaTypes⟩

/-- The plan for outcomes. -/
def outcomesPlan (label : String) : List (String × RefOr Response) → Plan (List Outcome)
  | [] => return []
  | (key, response) :: rest => do
    let response ← Plan.settled (response.follow source.raw Response.ofJson)
    let first ← outcomePlan options label (Status.ofKey key) response
    let others ← outcomesPlan label rest
    return first :: others

/-- The plan for the body of an operation. -/
def operationBodyPlan (operation : Operation) : Plan (Option Body) :=
  match operation.requestBody with
  | none => return none
  | some b => do
    let body ← Plan.settled (b.follow source.raw RequestBody.ofJson)
    bodyPlan options body

/-- The plan for an endpoint. -/
def endpointPlan (path : String) (method : Method) (item : PathItem) (operation : Operation) :
    Plan Endpoint := do
  let basicAuth ← Plan.settled (source.needsBasic operation)
  let parameters ← Plan.settled (source.parameters item operation)
  let body ← source.operationBodyPlan options operation
  let outcomes ← source.outcomesPlan options (method.wireName ++ " " ++ path) operation.responses
  return {
    path, method
    operationId := operation.operationId
    summary := operation.summary.or operation.description
    basicAuth
    pathArguments := argumentsAt .path parameters
    headerArguments := argumentsAt .header parameters
    queryArguments := argumentsAt .query parameters
    body, outcomes }

/-- The plan for the endpoints of a path. -/
def pathEndpointsPlan (path : String) (item : PathItem) :
    List (Method × Operation) → Plan (List Endpoint)
  | [] => return []
  | (method, operation) :: rest => do
    let first ← source.endpointPlan options path method item operation
    let others ← pathEndpointsPlan path item rest
    return first :: others

/-- The plan for the endpoints of paths. -/
def endpointsPlan : List (String × PathItem) → Plan (List Endpoint)
  | [] => return []
  | (path, item) :: rest => do
    let first ← source.pathEndpointsPlan options path item (operationsOf item)
    let others ← endpointsPlan rest
    return first ++ others

/-- The plan for component schemas. -/
def componentsPlan : List String → Plan Unit
  | [] => return ()
  | name :: rest => do
    let _ ← Plan.ofSchema options.withDoc (.reference (Pointer.ofSchemaName name))
    componentsPlan rest

/-- **The plan of an extraction.** -/
def plan : Plan (List Endpoint) := do
  let endpoints ← source.endpointsPlan options source.document.paths
  if options.allComponents then
    componentsPlan options source.schemaNames
  return endpoints

variable {source : Source} {options : Options} {r : Registry}

/-- Where responses are followed alike, their outcomes are planned alike. -/
theorem outcomesPlan_congr {other : Source} {label : String}
    {responses : List (String × RefOr Response)}
    (h : ∀ entry ∈ responses, entry.2.follow source.raw Response.ofJson =
      entry.2.follow other.raw Response.ofJson) :
    source.outcomesPlan options label responses = other.outcomesPlan options label responses := by
  induction responses with
  | nil => rfl
  | cons entry rest ih =>
    obtain ⟨hfirst, hrest⟩ := List.forall_mem_cons.1 h
    rw [outcomesPlan, outcomesPlan, hfirst, ih hrest]

/-! ## Each part carries out its plan -/

theorem settle_realizes {α : Type} {document : Json} {withDoc : Bool} (result : Except Error α) :
    Realizes document withDoc (settle result) (.settled result) r := by
  cases result with
  | ok a => exact .of_run (.ok a) rfl
  | error e => exact .of_run (.error e) rfl

theorem typeOf_realizes (schema : Option Schema) :
    Realizes source.raw options.withDoc (source.typeOf options schema)
      (typePlan options schema) r := by
  cases schema with
  | none => exact .pure TypeExpr.any
  | some schema => exact Synthesis.synthesize_realizes source.raw options.withDoc schema r

/-- **The body that is sent has the preferred media type**, and is typed by the class
of that. -/
theorem body_eq (b : RequestBody) : source.body options b =
    match Media.preferred? b.content with
    | none => return none
    | some (mediaType, schema) => do
      let type ← source.bodyType options (Media.classify mediaType) schema
      return some ⟨b.description, b.required, mediaType, type⟩ := by
  rw [body, bodyEntry?, Media.preferred?]
  cases hjson : Media.first? .json b.content with
  | some entry =>
    dsimp only
    rw [(Media.first?_eq_some_iff.1 hjson).1]
  | none =>
    cases htext : Media.first? .text b.content with
    | some entry =>
      dsimp only
      rw [(Media.first?_eq_some_iff.1 htext).1]
    | none =>
      cases hfirst : b.content.head? with
      | none => rfl
      | some entry =>
        -- the first entry is neither for JSON nor for text, so it has no type of its own
        have hmem : entry ∈ b.content := List.mem_of_mem_head? hfirst
        have hnotJson := Media.first?_eq_none_iff.1 hjson entry hmem
        have hnotText := Media.first?_eq_none_iff.1 htext entry hmem
        dsimp only [Option.map_some]
        cases hkind : Media.classify entry.1 with
        | json => exact absurd hkind hnotJson
        | text => exact absurd hkind hnotText
        | octetStream => rfl
        | other => rfl

theorem bodyType_realizes (mediaType : String) (schema : Option Schema) :
    Realizes source.raw options.withDoc
      (source.bodyType options (Media.classify mediaType) schema)
      (bodyTypePlan options mediaType schema) r := by
  rw [bodyType.eq_def, bodyTypePlan]
  cases Media.classify mediaType with
  | json => exact typeOf_realizes schema
  | text => exact .pure TypeExpr.string
  | _ => exact .pure TypeExpr.any

theorem body_realizes (b : RequestBody) :
    Realizes source.raw options.withDoc (source.body options b) (bodyPlan options b) r := by
  rw [body_eq, bodyPlan]
  cases Media.preferred? b.content with
  | none => exact .pure none
  | some entry => exact (bodyType_realizes entry.1 entry.2).bind fun _ _ _ _ => .pure _

theorem mediaTypes_realizes (content : Content) :
    Realizes source.raw options.withDoc (source.mediaTypes options content)
      (mediaTypesPlan options content) r := by
  induction content generalizing r with
  | nil => exact .pure []
  | cons entry rest ih =>
    exact (typeOf_realizes entry.2).bind fun _ _ _ _ => ih.bind fun _ _ _ _ => .pure _

theorem outcome_realizes (label : String) (status : Status) (response : Response) :
    Realizes source.raw options.withDoc (source.outcome options label status response)
      (outcomePlan options label status response) r := by
  rw [outcome, outcomePlan]
  split
  · exact .of_run _ rfl
  · exact (mediaTypes_realizes response.content).bind fun _ _ _ _ => .pure _

theorem outcomes_realizes (label : String) (responses : List (String × RefOr Response)) :
    Realizes source.raw options.withDoc (source.outcomes options label responses)
      (source.outcomesPlan options label responses) r := by
  induction responses generalizing r with
  | nil => exact .pure []
  | cons entry rest ih =>
    refine (settle_realizes (entry.2.follow source.raw Response.ofJson)).bind
      fun response _ _ _ => ?_
    refine (outcome_realizes label (Status.ofKey entry.1) response).bind fun first _ _ _ => ?_
    exact ih.bind fun _ _ _ _ => .pure _

theorem operationBody_realizes (operation : Operation) :
    Realizes source.raw options.withDoc (source.operationBody options operation)
      (source.operationBodyPlan options operation) r := by
  rw [operationBody, operationBodyPlan]
  cases operation.requestBody with
  | none => exact .pure none
  | some b => exact (settle_realizes _).bind fun body _ _ _ => body_realizes body

theorem endpoint_realizes (path : String) (method : Method) (item : PathItem)
    (operation : Operation) :
    Realizes source.raw options.withDoc (source.endpoint options path method item operation)
      (source.endpointPlan options path method item operation) r := by
  refine (settle_realizes (source.needsBasic operation)).bind fun basicAuth _ _ _ => ?_
  refine (settle_realizes (source.parameters item operation)).bind fun parameters _ _ _ => ?_
  refine (operationBody_realizes operation).bind fun body _ _ _ => ?_
  exact (outcomes_realizes _ operation.responses).bind fun _ _ _ _ => .pure _

theorem pathEndpoints_realizes (path : String) (item : PathItem)
    (operations : List (Method × Operation)) :
    Realizes source.raw options.withDoc (source.pathEndpoints options path item operations)
      (source.pathEndpointsPlan options path item operations) r := by
  induction operations generalizing r with
  | nil => exact .pure []
  | cons entry rest ih =>
    refine (endpoint_realizes path entry.1 item entry.2).bind fun first _ _ _ => ?_
    exact ih.bind fun _ _ _ _ => .pure _

theorem endpoints_realizes (paths : List (String × PathItem)) :
    Realizes source.raw options.withDoc (source.endpoints options paths)
      (source.endpointsPlan options paths) r := by
  induction paths generalizing r with
  | nil => exact .pure []
  | cons entry rest ih =>
    refine (pathEndpoints_realizes entry.1 entry.2 (operationsOf entry.2)).bind
      fun first _ _ _ => ?_
    exact ih.bind fun _ _ _ _ => .pure _

theorem registerComponents_realizes (names : List String) :
    Realizes source.raw options.withDoc (source.registerComponents options names)
      (componentsPlan options names) r := by
  induction names generalizing r with
  | nil => exact .pure ()
  | cons name rest ih =>
    exact (Synthesis.reference_realizes source.raw options.withDoc
      (Pointer.ofSchemaName name) r).bind fun _ _ _ _ => ih

/-- **An extraction carries out its plan.** -/
theorem extraction_realizes (source : Source) (options : Options) (r : Registry) :
    Realizes source.raw options.withDoc (source.extraction options) (source.plan options) r := by
  refine (endpoints_realizes source.document.paths).bind fun endpoints _ _ _ => ?_
  by_cases h : options.allComponents = true
  · simp only [h, if_true]
    exact (registerComponents_realizes source.schemaNames).bind fun _ _ _ _ => .pure _
  · simp only [h]
    exact .pure _

/-- **A run is one walk over the pointers of its plan**, from the empty
registry. It gives the plan's endpoints with the registry of the walk, the
plan's error, or, if the walk is stopped, the pointer that stops it. -/
theorem api_of_visits (source : Source) (options : Options) :
    ∃ trace stop r', Visits source.raw options.withDoc (source.plan options).pointers
        Registry.empty trace stop r' ∧
      source.api options = match (source.plan options).answer stop with
        | .ok endpoints => .ok ⟨source.server options, endpoints, r'⟩
        | .error e => .error e := by
  obtain ⟨trace, stop, r', hvisits, hrun⟩ :=
    extraction_realizes source options Registry.empty
  refine ⟨trace, stop, r', hvisits, ?_⟩
  rw [api, hrun]
  cases (source.plan options).answer stop <;> rfl

/-- **A run that succeeds walks to the end.** -/
theorem visits_of_api {api : Api} (h : source.api options = .ok api) :
    ∃ trace, Visits source.raw options.withDoc (source.plan options).pointers
        Registry.empty trace none api.types ∧
      (source.plan options).result = .ok api.endpoints := by
  obtain ⟨trace, stop, r', hvisits, hapi⟩ := source.api_of_visits options
  rw [hapi] at h
  cases stop with
  | some p => cases h
  | none =>
    rw [Plan.answer] at h
    cases hresult : (source.plan options).result with
    | error e =>
      rw [hresult] at h
      cases h
    | ok endpoints =>
      rw [hresult] at h
      cases h
      exact ⟨trace, hvisits, rfl⟩

/-- A run that succeeds gives the server of the source. -/
theorem server_of_api {api : Api} (h : source.api options = .ok api) :
    source.server options = api.server := by
  rw [Source.api] at h
  split at h
  · cases h
    rfl
  · cases h

/-! ## Runs on a value -/

/-- The source for a value has the value, and its description is read from
it. -/
theorem document_of_ofJson {raw : Json} (h : ofJson raw = .ok source) :
    source.raw = raw ∧ Document.ofJson raw = .ok source.document := by
  rw [ofJson] at h
  split at h
  · rename_i document hdocument
    cases h
    exact ⟨rfl, hdocument⟩
  · cases h

/-- Whether the run on a value succeeds with an API that passes a check. -/
def succeedsWith (raw : Json) (options : Options) (check : Source → Api → Bool) : Bool :=
  match ofJson raw with
  | .error _ => false
  | .ok source =>
    match source.api options with
    | .error _ => false
    | .ok api => check source api

theorem of_succeedsWith {raw : Json} {check : Source → Api → Bool}
    (h : succeedsWith raw options check = true) : ∃ source api, ofJson raw = .ok source ∧
      source.api options = .ok api ∧ check source api = true := by
  rw [succeedsWith] at h
  split at h
  · cases h
  · rename_i source hsource
    split at h
    · cases h
    · rename_i api hapi
      exact ⟨source, api, hsource, hapi, h⟩

end Source

end TypedClient
