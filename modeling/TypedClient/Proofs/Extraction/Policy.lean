import TypedClient.Proofs.Extraction.Plan
/-!
# The policy on media types

A strict run refuses a response with several media types, and a lenient run
keeps them all. Up to the first such response the two plans are one
(`Plan.Guarded`), and nowhere else does the policy count. So a strict run
gives what the lenient run gives when no response declares several media
types, and fails at the first that does (`api_strict`).
-/

namespace TypedClient

namespace Synthesis

namespace Plan

variable {α β : Type} {refusal more : Option Error} {guarded free : Plan α}
variable {k k' : α → Plan β}

/-- A sequence that gives a result has two parts that do. -/
theorem ok_of_bind {plan : Plan α} {b : β} (h : (plan >>= k).result = .ok b) :
    ∃ a, plan.result = .ok a ∧ (k a).result = .ok b := by
  cases hresult : plan.result with
  | ok a =>
    rw [bind_of_ok hresult] at h
    exact ⟨a, rfl, h⟩
  | error e =>
    rw [bind_of_error hresult] at h
    cases h

/-- **A plan that may refuse what another allows.** Without a refusal they
are one plan. With one the guarded plan gives no result; where the free plan
does, the guarded plan fails with the refusal behind the first of the
pointers. -/
def Guarded (refusal : Option Error) (guarded free : Plan α) : Prop :=
  match refusal with
  | none => guarded = free
  | some e => (∀ a, guarded.result ≠ .ok a) ∧
      ∀ a, free.result = .ok a → guarded.pointers <+: free.pointers ∧ guarded.result = .error e

namespace Guarded

/-- A plan that fails may be guarded by anything. -/
theorem of_error {e : Error} (h : free.result = .error e) : Guarded refusal free free := by
  cases refusal with
  | none => rfl
  | some _ =>
    refine ⟨fun a ha => ?_, fun a ha => ?_⟩
    · rw [h] at ha
      cases ha
    · rw [h] at ha
      cases ha

/-- **Guarded plans compose.** The refusal of the first part comes before
those of what goes on. -/
theorem bind (hx : Guarded refusal guarded free)
    (hk : ∀ a, free.result = .ok a → Guarded more (k a) (k' a)) :
    Guarded (refusal.or more) (guarded >>= k) (free >>= k') := by
  cases refusal with
  | none =>
    obtain rfl : guarded = free := hx
    rw [Option.none_or]
    cases hresult : guarded.result with
    | error e =>
      rw [bind_of_error hresult, bind_of_error hresult]
      exact .of_error rfl
    | ok a =>
      have hrest := hk a hresult
      rw [bind_of_ok hresult, bind_of_ok hresult]
      cases more with
      | none =>
        have heq : k a = k' a := hrest
        rw [heq]
        rfl
      | some e =>
        refine ⟨hrest.1, fun b hb => ?_⟩
        obtain ⟨hfront, herror⟩ := hrest.2 b hb
        exact ⟨(List.prefix_append_right_inj _).2 hfront, herror⟩
  | some e =>
    rw [Option.some_or]
    refine ⟨fun b hb => ?_, fun b hb => ?_⟩
    · obtain ⟨a, ha, -⟩ := ok_of_bind hb
      exact hx.1 a ha
    · obtain ⟨a, ha, -⟩ := ok_of_bind hb
      obtain ⟨hfront, herror⟩ := hx.2 a ha
      rw [bind_of_error herror, bind_of_ok ha]
      exact ⟨hfront.trans (List.prefix_append _ _), rfl⟩

/-- A first part that knows no policy adds no refusal. -/
theorem self_bind (hk : ∀ a, free.result = .ok a → Guarded more (k a) (k' a)) :
    Guarded more (free >>= k) (free >>= k') := by
  have hself : Guarded none free free := rfl
  exact hself.bind hk

/-- Nor does a second part that knows none. -/
theorem bind_self (hx : Guarded refusal guarded free) :
    Guarded refusal (guarded >>= k) (free >>= k) := by
  have h : Guarded (refusal.or none) (guarded >>= k) (free >>= k) := hx.bind fun _ _ => rfl
  rwa [Option.or_none] at h

end Guarded

end Plan

end Synthesis

/-- A response as an operation declares it: what the operation is called in
messages, the key of the status, and the response or a reference to it. -/
structure DeclaredResponse where
  operation : String
  key : String
  response : RefOr Response

/-- The options with another policy. -/
def Options.withPolicy (options : Options) (policy : MediaPolicy) : Options :=
  { options with mediaPolicy := policy }

namespace Source

open Synthesis (Plan)
open Synthesis.Plan (Guarded)

variable (source : Source) (options free : Options)

/-! ## Declared responses -/

/-- The responses of an operation. -/
def responsesOf (label : String) (responses : List (String × RefOr Response)) :
    List DeclaredResponse :=
  responses.map fun e => ⟨label, e.1, e.2⟩

/-- The responses of the operations of a path. -/
def pathResponses (path : String) (operations : List (Method × Operation)) :
    List DeclaredResponse :=
  operations.flatMap fun e => responsesOf (e.1.wireName ++ " " ++ path) e.2.responses

/-- **All responses of a description**, in the order of the extraction. -/
def declaredResponses : List DeclaredResponse :=
  source.document.paths.flatMap fun e => pathResponses e.1 (operationsOf e.2)

/-- The failure over several media types under one status. -/
def severalMediaTypes (label : String) (status : Status) (response : Response) : Error :=
  .unsupportedShape label status.key (response.content.map (·.1))

/-- What options refuse in a response and others do not. -/
def refusal? (label : String) (status : Status) (response : Response) : Option Error :=
  if options.mediaPolicy ≠ free.mediaPolicy ∧ 1 < response.content.length then
    some (severalMediaTypes label status response)
  else none

/-- And in a response that may be referred to. -/
def refusalOf? (d : DeclaredResponse) : Option Error :=
  match d.response.follow source.raw Response.ofJson with
  | .ok response => refusal? options free d.operation (Status.ofKey d.key) response
  | .error _ => none

/-- Options that treat endpoints as others do, or are strict about media
types where the others are not. -/
structure Tightens : Prop where
  withDoc : options.withDoc = free.withDoc
  policy : options.mediaPolicy = free.mediaPolicy ∨
    (options.mediaPolicy = .strict ∧ free.mediaPolicy = .prefer)

variable {source options free}

/-! ## Plans up to the first refusal -/

theorem typePlan_eq (h : Tightens options free) (schema : Option Schema) :
    typePlan options schema = typePlan free schema := by
  cases schema with
  | none => rfl
  | some schema => rw [typePlan, typePlan, h.withDoc]

theorem bodyPlan_eq (h : Tightens options free) (b : RequestBody) :
    bodyPlan options b = bodyPlan free b := by
  have htype : bodyTypePlan options = bodyTypePlan free := by
    funext mediaType schema
    rw [bodyTypePlan, bodyTypePlan, typePlan_eq h]
  rw [bodyPlan, bodyPlan, htype]

theorem operationBodyPlan_eq (h : Tightens options free) (operation : Operation) :
    source.operationBodyPlan options operation = source.operationBodyPlan free operation := by
  rw [operationBodyPlan, operationBodyPlan, funext (bodyPlan_eq h)]

theorem mediaTypesPlan_eq (h : Tightens options free) (content : Content) :
    mediaTypesPlan options content = mediaTypesPlan free content := by
  induction content with
  | nil => rfl
  | cons entry rest ih => rw [mediaTypesPlan, mediaTypesPlan, typePlan_eq h, ih]

theorem outcomePlan_guarded (h : Tightens options free) (label : String) (status : Status)
    (response : Response) :
    Guarded (refusal? options free label status response)
      (outcomePlan options label status response) (outcomePlan free label status response) := by
  rw [outcomePlan, outcomePlan, mediaTypesPlan_eq h, refusal?]
  rcases h.policy with hsame | ⟨hstrict, hprefer⟩
  · rw [hsame, if_neg (by simp)]
    rfl
  · rw [hstrict, hprefer]
    by_cases hseveral : 1 < response.content.length
    · -- the strict plan fails at once
      simp only [hseveral]
      exact ⟨fun a ha => (by cases ha), fun _ _ => ⟨List.nil_prefix, rfl⟩⟩
    · simp only [hseveral]
      rfl

theorem findSome?_cons_or {α β : Type} {f : α → Option β} {a : α} {rest : List α} :
    (a :: rest).findSome? f = (f a).or (rest.findSome? f) := by
  rw [List.findSome?_cons]
  cases f a <;> rfl

theorem outcomesPlan_guarded (h : Tightens options free) (label : String)
    (responses : List (String × RefOr Response)) :
    Guarded ((responsesOf label responses).findSome? (source.refusalOf? options free))
      (source.outcomesPlan options label responses)
      (source.outcomesPlan free label responses) := by
  induction responses with
  | nil => rfl
  | cons entry rest ih =>
    obtain ⟨key, declared⟩ := entry
    rw [responsesOf, List.map_cons, findSome?_cons_or, outcomesPlan, outcomesPlan]
    refine Guarded.self_bind fun response hresponse => ?_
    have hfollow : declared.follow source.raw Response.ofJson = .ok response := hresponse
    have hrefusal : source.refusalOf? options free ⟨label, key, declared⟩ =
        refusal? options free label (Status.ofKey key) response := by
      rw [refusalOf?, hfollow]
    rw [hrefusal]
    exact (outcomePlan_guarded h label (Status.ofKey key) response).bind fun first _ =>
      Guarded.bind_self ih

theorem endpointPlan_guarded (h : Tightens options free) (path : String) (method : Method)
    (item : PathItem) (operation : Operation) :
    Guarded ((responsesOf (method.wireName ++ " " ++ path) operation.responses).findSome?
        (source.refusalOf? options free))
      (source.endpointPlan options path method item operation)
      (source.endpointPlan free path method item operation) := by
  rw [endpointPlan, endpointPlan, operationBodyPlan_eq h]
  -- authentication, parameters and body know no policy
  refine Guarded.self_bind fun basicAuth _ => ?_
  refine Guarded.self_bind fun parameters _ => ?_
  refine Guarded.self_bind fun body _ => ?_
  exact (outcomesPlan_guarded h _ operation.responses).bind_self

theorem pathEndpointsPlan_guarded (h : Tightens options free) (path : String) (item : PathItem)
    (operations : List (Method × Operation)) :
    Guarded ((pathResponses path operations).findSome? (source.refusalOf? options free))
      (source.pathEndpointsPlan options path item operations)
      (source.pathEndpointsPlan free path item operations) := by
  induction operations with
  | nil => rfl
  | cons entry rest ih =>
    rw [pathResponses, List.flatMap_cons, List.findSome?_append]
    exact (endpointPlan_guarded h path entry.1 item entry.2).bind fun first _ =>
      Guarded.bind_self ih

theorem endpointsPlan_guarded (h : Tightens options free) (paths : List (String × PathItem)) :
    Guarded ((paths.flatMap fun e => pathResponses e.1 (operationsOf e.2)).findSome?
        (source.refusalOf? options free))
      (source.endpointsPlan options paths) (source.endpointsPlan free paths) := by
  induction paths with
  | nil => rfl
  | cons entry rest ih =>
    rw [List.flatMap_cons, List.findSome?_append]
    exact (pathEndpointsPlan_guarded h entry.1 entry.2 (operationsOf entry.2)).bind
      fun first _ => Guarded.bind_self ih

/-- Options that treat endpoints alike have one plan for them. -/
theorem endpointsPlan_eq (hdoc : options.withDoc = free.withDoc)
    (hpolicy : options.mediaPolicy = free.mediaPolicy) (paths : List (String × PathItem)) :
    source.endpointsPlan options paths = source.endpointsPlan free paths := by
  have hguarded : Guarded _ (source.endpointsPlan options paths) _ :=
    endpointsPlan_guarded ⟨hdoc, .inl hpolicy⟩ paths
  have hnone : source.refusalOf? options free = fun _ => none := by
    funext d
    rw [refusalOf?]
    split
    · rw [refusal?, if_neg (by simp [hpolicy])]
    · rfl
  rwa [hnone, List.findSome?_eq_none_iff.2 fun _ _ => rfl] at hguarded

theorem componentsPlan_eq (hdoc : options.withDoc = free.withDoc) (names : List String) :
    componentsPlan options names = componentsPlan free names := by
  induction names with
  | nil => rfl
  | cons name rest ih => rw [componentsPlan, componentsPlan, hdoc, ih]

/-- **The plan of a run up to the first refusal.** -/
theorem plan_guarded (h : Tightens options free)
    (hall : options.allComponents = free.allComponents) :
    Guarded (source.declaredResponses.findSome? (source.refusalOf? options free))
      (source.plan options) (source.plan free) := by
  rw [plan, plan, hall, componentsPlan_eq h.withDoc]
  exact (endpointsPlan_guarded h source.document.paths).bind_self

/-! ## Responses that are followed -/

/-- Whether a response that is declared is followed to its end. -/
def Followed (source : Source) (d : DeclaredResponse) : Prop :=
  ∃ response, d.response.follow source.raw Response.ofJson = .ok response

theorem followed_of_outcomesPlan {label : String} {responses : List (String × RefOr Response)}
    {outcomes : List Outcome} (h : (source.outcomesPlan options label responses).result =
      .ok outcomes) : ∀ d ∈ responsesOf label responses, source.Followed d := by
  induction responses generalizing outcomes with
  | nil => simp [responsesOf]
  | cons entry rest ih =>
    obtain ⟨response, hresponse, h⟩ := Plan.ok_of_bind h
    obtain ⟨first, -, h⟩ := Plan.ok_of_bind h
    obtain ⟨others, hothers, -⟩ := Plan.ok_of_bind h
    rw [responsesOf, List.map_cons]
    exact List.forall_mem_cons.2 ⟨⟨response, hresponse⟩, ih hothers⟩

theorem followed_of_endpointPlan {path : String} {method : Method} {item : PathItem}
    {operation : Operation} {endpoint : Endpoint}
    (h : (source.endpointPlan options path method item operation).result = .ok endpoint) :
    ∀ d ∈ responsesOf (method.wireName ++ " " ++ path) operation.responses,
      source.Followed d := by
  obtain ⟨basicAuth, -, h⟩ := Plan.ok_of_bind h
  obtain ⟨parameters, -, h⟩ := Plan.ok_of_bind h
  obtain ⟨body, -, h⟩ := Plan.ok_of_bind h
  obtain ⟨outcomes, houtcomes, -⟩ := Plan.ok_of_bind h
  exact followed_of_outcomesPlan houtcomes

theorem followed_of_pathEndpointsPlan {path : String} {item : PathItem}
    {operations : List (Method × Operation)} {endpoints : List Endpoint}
    (h : (source.pathEndpointsPlan options path item operations).result = .ok endpoints) :
    ∀ d ∈ pathResponses path operations, source.Followed d := by
  induction operations generalizing endpoints with
  | nil => simp [pathResponses]
  | cons entry rest ih =>
    obtain ⟨first, hfirst, h⟩ := Plan.ok_of_bind h
    obtain ⟨others, hothers, -⟩ := Plan.ok_of_bind h
    rw [pathResponses, List.flatMap_cons]
    exact List.forall_mem_append.2 ⟨followed_of_endpointPlan hfirst, ih hothers⟩

theorem followed_of_endpointsPlan {paths : List (String × PathItem)} {endpoints : List Endpoint}
    (h : (source.endpointsPlan options paths).result = .ok endpoints) :
    ∀ d ∈ paths.flatMap fun e => pathResponses e.1 (operationsOf e.2), source.Followed d := by
  induction paths generalizing endpoints with
  | nil => simp
  | cons entry rest ih =>
    obtain ⟨first, hfirst, h⟩ := Plan.ok_of_bind h
    obtain ⟨others, hothers, -⟩ := Plan.ok_of_bind h
    rw [List.flatMap_cons]
    exact List.forall_mem_append.2 ⟨followed_of_pathEndpointsPlan hfirst, ih hothers⟩

/-- **A run that succeeds has followed every response.** -/
theorem followed_of_api {api : Api} (h : source.api options = .ok api) :
    ∀ d ∈ source.declaredResponses, source.Followed d := by
  obtain ⟨trace, -, hresult⟩ := visits_of_api h
  obtain ⟨endpoints, hendpoints, -⟩ := Plan.ok_of_bind hresult
  exact followed_of_endpointsPlan hendpoints

/-! ## Strict and lenient runs -/

/-- Runs with one plan and one server are one run. -/
theorem api_eq_of_plan_eq (hdoc : options.withDoc = free.withDoc)
    (hserver : source.server options = source.server free)
    (hplan : source.plan options = source.plan free) :
    source.api options = source.api free := by
  obtain ⟨trace, stop, r, hvisits, hapi⟩ := source.api_of_visits options
  obtain ⟨trace', stop', r', hvisits', hapi'⟩ := source.api_of_visits free
  rw [hdoc, hplan] at hvisits
  obtain ⟨-, rfl, rfl⟩ := hvisits.deterministic hvisits'
  rw [hapi, hapi', hplan, hserver]

/-- **A plan that fails behind the first pointers of a run** that succeeds
is the failure of its own run. -/
theorem api_error_of_prefix {api : Api} {e : Error} (hdoc : options.withDoc = free.withDoc)
    (hfree : source.api free = .ok api)
    (hfront : (source.plan options).pointers <+: (source.plan free).pointers)
    (herror : (source.plan options).result = .error e) : source.api options = .error e := by
  obtain ⟨trace, hvisits, -⟩ := visits_of_api hfree
  obtain ⟨trace', stop, r', hvisits', hapi⟩ := source.api_of_visits options
  cases stop with
  | none => rw [hapi, Plan.answer, herror]
  | some pointer =>
    -- what stops the walk over the first pointers stops the walk over all of them
    obtain ⟨rest, hrest⟩ := hfront
    rw [hdoc] at hvisits'
    rw [← hrest] at hvisits
    cases (hvisits.deterministic (hvisits'.append_of_stop (by simp))).2.1

/-- Whether a response that is declared has at most one media type where it
is followed to. -/
def Unambiguous (source : Source) (d : DeclaredResponse) : Prop :=
  ∃ response, d.response.follow source.raw Response.ofJson = .ok response ∧
    response.content.length ≤ 1

variable (source options)

/-- What a strict run refuses and a lenient one does not. -/
def strictRefusal? : DeclaredResponse → Option Error :=
  source.refusalOf? (options.withPolicy .strict) (options.withPolicy .prefer)

variable {source options}

theorem strictRefusal?_eq_some_iff {d : DeclaredResponse} {e : Error} :
    source.strictRefusal? options d = some e ↔
      ∃ response, d.response.follow source.raw Response.ofJson = .ok response ∧
        1 < response.content.length ∧
        severalMediaTypes d.operation (Status.ofKey d.key) response = e := by
  rw [strictRefusal?, refusalOf?]
  cases d.response.follow source.raw Response.ofJson with
  | error e => simp
  | ok response => simp [refusal?, Options.withPolicy]

/-- What is followed and not refused is unambiguous, and conversely. -/
theorem unambiguous_iff (options : Options) {d : DeclaredResponse} :
    source.Unambiguous d ↔ source.Followed d ∧ source.strictRefusal? options d = none := by
  rw [Unambiguous, Followed, strictRefusal?, refusalOf?]
  cases d.response.follow source.raw Response.ofJson with
  | error e => simp
  | ok response => simp [refusal?, Options.withPolicy]

theorem plan_strict_guarded (source : Source) (options : Options) :
    Guarded (source.declaredResponses.findSome? (source.strictRefusal? options))
      (source.plan (options.withPolicy .strict)) (source.plan (options.withPolicy .prefer)) :=
  plan_guarded ⟨rfl, .inr ⟨rfl, rfl⟩⟩ rfl

/-- Without a refusal the two runs are one. -/
theorem api_strict_eq (h : source.declaredResponses.findSome? (source.strictRefusal? options) =
    none) : source.api (options.withPolicy .strict) = source.api (options.withPolicy .prefer) := by
  have hguarded := plan_strict_guarded source options
  rw [h] at hguarded
  exact api_eq_of_plan_eq rfl rfl hguarded

/-- With one the strict run fails, and with it where the lenient run
succeeds. -/
theorem api_strict_of_refusal {e : Error}
    (h : source.declaredResponses.findSome? (source.strictRefusal? options) = some e) :
    (∀ api, source.api (options.withPolicy .strict) ≠ .ok api) ∧
      ∀ api, source.api (options.withPolicy .prefer) = .ok api →
        source.api (options.withPolicy .strict) = .error e := by
  have hguarded := plan_strict_guarded source options
  rw [h] at hguarded
  refine ⟨fun api hstrict => ?_, fun api hprefer => ?_⟩
  · obtain ⟨-, -, hresult⟩ := visits_of_api hstrict
    exact hguarded.1 _ hresult
  · obtain ⟨-, -, hresult⟩ := visits_of_api hprefer
    obtain ⟨hfront, herror⟩ := hguarded.2 _ hresult
    refine api_error_of_prefix ?_ hprefer hfront herror
    rfl

/-- **A strict run is a lenient run without responses of several media
types.** It succeeds exactly if the lenient run does and every response,
where it is followed to, has at most one media type, and gives the same API.
Where the lenient run succeeds and some response has several, the strict run
fails at the first of these, with the name of its operation, the key of its
status and its media types in order. -/
theorem api_strict (source : Source) (options : Options) :
    (∀ api, source.api (options.withPolicy .strict) = .ok api ↔
      source.api (options.withPolicy .prefer) = .ok api ∧
        ∀ d ∈ source.declaredResponses, source.Unambiguous d) ∧
    ∀ api, source.api (options.withPolicy .prefer) = .ok api →
      (∃ d ∈ source.declaredResponses, ¬ source.Unambiguous d) →
      ∃ before d after response, source.declaredResponses = before ++ d :: after ∧
        (∀ b ∈ before, source.Unambiguous b) ∧
        d.response.follow source.raw Response.ofJson = .ok response ∧
        1 < response.content.length ∧
        source.api (options.withPolicy .strict) = .error (.unsupportedShape d.operation
          (Status.ofKey d.key).key (response.content.map (·.1))) := by
  cases hrefusal : source.declaredResponses.findSome? (source.strictRefusal? options) with
  | none =>
    -- where the lenient run succeeds every response is followed, and none is refused
    have hall : ∀ api, source.api (options.withPolicy .prefer) = .ok api →
        ∀ d ∈ source.declaredResponses, source.Unambiguous d := fun api hapi d hd =>
      (unambiguous_iff options).2
        ⟨followed_of_api hapi d hd, List.findSome?_eq_none_iff.1 hrefusal d hd⟩
    rw [api_strict_eq hrefusal]
    refine ⟨fun api => ⟨fun h => ⟨h, hall api h⟩, And.left⟩, fun api h hsome => ?_⟩
    obtain ⟨d, hd, hnot⟩ := hsome
    exact absurd (hall api h d hd) hnot
  | some e =>
    obtain ⟨hfails, herror⟩ := api_strict_of_refusal hrefusal
    obtain ⟨before, d, after, hsplit, hd, hbefore⟩ := List.findSome?_eq_some_iff.1 hrefusal
    obtain ⟨response, hfollow, hseveral, rfl⟩ := strictRefusal?_eq_some_iff.1 hd
    refine ⟨fun api => ⟨fun h => absurd h (hfails api), fun h => ?_⟩, fun api h _ =>
      ⟨before, d, after, response, hsplit, fun b hb => ?_, hfollow, hseveral, herror api h⟩⟩
    · have hnone := ((unambiguous_iff options).1 (h.2 d (by simp [hsplit]))).2
      rw [hd] at hnone
      cases hnone
    · exact (unambiguous_iff options).2 ⟨followed_of_api h b (by simp [hsplit, hb]), hbefore b hb⟩

/-- Two operations, where the response of several media types is referred
to by the second under the default status. -/
def ambiguousReport : Json :=
  .object [("paths", .object [
      ("/log", .object [("get", .object [("responses", .object [
        ("200", .object [("content", .object [("text/plain", .object [])])])])])]),
      ("/report", .object [("post", .object [("responses", .object [
        ("204", .object []),
        (" Default", .object [("$ref", .string "#/components/responses/Report")])])])])]),
    ("components", .object [("responses", .object [
      ("Report", .object [("content", .object [
        ("text/csv", .object []), ("application/json", .object [])])])])])]

/-- The lenient run on it succeeds, and the strict run names the operation,
the key of the status and the media types. -/
theorem api_strict_of_ambiguousReport : ∃ source api, ofJson ambiguousReport = .ok source ∧
    source.api (Options.default.withPolicy .prefer) = .ok api ∧
    source.api (Options.default.withPolicy .strict) =
      .error (.unsupportedShape "POST /report" "default" ["text/csv", "application/json"]) ∧
    ∃ before d after, source.declaredResponses = before ++ d :: after ∧
      (∀ b ∈ before, source.Unambiguous b) ∧ d.operation = "POST /report" := by
  have hrun : succeedsWith ambiguousReport (Options.default.withPolicy .prefer) (fun source _ =>
      !(source.api (Options.default.withPolicy .strict)).isOk &&
        source.declaredResponses.all fun d =>
          match d.response.follow source.raw Response.ofJson with
          | .ok response => decide (response.content.length ≤ 1) ||
            (d.operation == "POST /report" && (Status.ofKey d.key).key == "default" &&
              response.content.map (·.1) == ["text/csv", "application/json"])
          | .error _ => false) = true := by
    decide
  obtain ⟨source, api, hsource, hapi, hchecked⟩ := of_succeedsWith hrun
  rw [Bool.and_eq_true, List.all_eq_true] at hchecked
  obtain ⟨hfails, hresponses⟩ := hchecked
  obtain ⟨hiff, hfirst⟩ := api_strict source Options.default
  have hsome : ∃ d ∈ source.declaredResponses, ¬ source.Unambiguous d := by
    by_contra hnone
    have hall : ∀ d ∈ source.declaredResponses, source.Unambiguous d := by simpa using hnone
    rw [(hiff api).2 ⟨hapi, hall⟩] at hfails
    cases hfails
  obtain ⟨before, d, after, response, hsplit, hbefore, hfollow, hseveral, herror⟩ :=
    hfirst api hapi hsome
  -- the first response of several media types is the only one
  have hd := hresponses d (by simp [hsplit])
  simp only [hfollow, Nat.not_le.2 hseveral, decide_false, Bool.false_or, Bool.and_eq_true,
    beq_iff_eq] at hd
  obtain ⟨⟨hoperation, hkey⟩, hmediaTypes⟩ := hd
  refine ⟨source, api, hsource, hapi, ?_, before, d, after, hsplit, hbefore, hoperation⟩
  rw [herror, hoperation, hkey, hmediaTypes]

end Source

end TypedClient
