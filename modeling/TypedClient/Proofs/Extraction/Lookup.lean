import TypedClient.Proofs.Document.References
import TypedClient.Proofs.Document.Widened
import TypedClient.Proofs.Extraction.Components
import TypedClient.Proofs.Extraction.Written
import TypedClient.Proofs.Synthesis.Independence
/-!
# What a run reads

A run reads its document as a record, and again by pointer where a reference
is followed (`Source.LooksUp`). All these pointers are written in the document
(`mem_written_of_looksUp`). A run that succeeds does so on every document that
reads alike but for the component schemas and keeps what these pointers lead
to, and gives the same (`api_of_keeps`). So a component schema that no pointer
leads to, nor to what it stands in, may be added (`api_unusedSchema`).
-/

namespace TypedClient

namespace Source

open Synthesis (Plan Visits resolutions written)
open Pointer (Keeps EndsOn)
open Document (SameButSchemas)

/-! ## The pointers that are looked up -/

section LooksUp

variable (source : Source) (options : Options)

/-- The names of the security schemes that an operation asks for, in order. -/
def schemeNames (operation : Operation) : List String :=
  (source.requirements operation).flatMap fun requirement => requirement.map (·.1)

/-- **The security schemes that are looked at** for some names, one after the
other until one is basic authentication. -/
inductive LooksAt (schemes : List (String × RefOr SecurityScheme)) :
    List String → RefOr SecurityScheme → Prop
  /-- The scheme of the first name. -/
  | first {name : String} {rest : List String} {entry : String × RefOr SecurityScheme} :
      (schemes.find? fun entry => entry.1 == name) = some entry →
      LooksAt schemes (name :: rest) entry.2
  /-- A name that is not declared is passed over. -/
  | undeclared {name : String} {rest : List String} {scheme : RefOr SecurityScheme} :
      (schemes.find? fun entry => entry.1 == name) = none →
      LooksAt schemes rest scheme → LooksAt schemes (name :: rest) scheme
  /-- And so is a scheme of another kind. -/
  | passed {name : String} {rest : List String} {entry : String × RefOr SecurityScheme}
      {found : SecurityScheme} {scheme : RefOr SecurityScheme} :
      (schemes.find? fun entry => entry.1 == name) = some entry →
      entry.2.follow source.raw SecurityScheme.ofJson = .ok found → found.isBasic = false →
      LooksAt schemes rest scheme → LooksAt schemes (name :: rest) scheme

/-- **The pointers that an operation looks up** besides those of its schemas. -/
inductive OperationLooksUp (item : PathItem) (operation : Operation) : String → Prop
  /-- On the way to a security scheme. -/
  | scheme {components : Components} {scheme : RefOr SecurityScheme} {pointer : String} :
      source.document.components = some components →
      source.LooksAt components.securitySchemes (source.schemeNames operation) scheme →
      scheme.Passes source.raw SecurityScheme.ofJson pointer →
      OperationLooksUp item operation pointer
  /-- On the way to a parameter. -/
  | parameter {parameter : RefOr Parameter} {pointer : String} :
      parameter ∈ item.parameters ++ operation.parameters →
      parameter.Passes source.raw Parameter.ofJson pointer →
      OperationLooksUp item operation pointer
  /-- On the way to the body. -/
  | body {body : RefOr RequestBody} {pointer : String} : operation.requestBody = some body →
      body.Passes source.raw RequestBody.ofJson pointer → OperationLooksUp item operation pointer
  /-- On the way to a response. -/
  | response {entry : String × RefOr Response} {pointer : String} : entry ∈ operation.responses →
      entry.2.Passes source.raw Response.ofJson pointer → OperationLooksUp item operation pointer

/-- **The pointers that a run looks up** if it succeeds: those of its
operations, and those that the walk over its schemas resolves. -/
inductive LooksUp : String → Prop
  | operation {entry : String × PathItem} {operation : Method × Operation} {pointer : String} :
      entry ∈ source.document.paths → operation ∈ operationsOf entry.2 →
      source.OperationLooksUp entry.2 operation.2 pointer → LooksUp pointer
  | schema {trace : List Synthesis.Visit} {visit : Synthesis.Visit} {r : Registry} :
      Visits source.raw options.withDoc (source.plan options).pointers Registry.empty trace none
        r → visit ∈ resolutions trace → LooksUp visit.pointer

end LooksUp

variable {source other : Source} {options : Options} {raw raw' value : Json} {name pointer : String}

/-! ## They are written in the document -/

theorem mem_of_looksAt {schemes : List (String × RefOr SecurityScheme)} {names : List String}
    {scheme : RefOr SecurityScheme} (h : source.LooksAt schemes names scheme) :
    ∃ entry ∈ schemes, entry.2 = scheme := by
  induction h with
  | first hfound => exact ⟨_, List.mem_of_find?_eq_some hfound, rfl⟩
  | undeclared _ _ ih => exact ih
  | passed _ _ _ _ ih => exact ih

/-- **What a run looks up is written in its document**, unless it asks for all
component schemas. -/
theorem mem_written_of_looksUp (hread : ofJson raw = .ok source)
    (hall : options.allComponents = false) (h : source.LooksUp options pointer) :
    pointer ∈ written raw := by
  obtain ⟨rfl, hdocument⟩ := document_of_ofJson hread
  obtain ⟨hpaths, hcomponents⟩ := Document.ofJson_refersIn _ _ .self hdocument
  cases h with
  | @operation entry operation _ hentry hoperation h =>
    obtain ⟨hitem, hoperations⟩ := hpaths entry hentry
    have hrefers : operation.2.RefersIn (written source.raw) :=
      hoperations operation.1 operation.2 (operation?_of_mem_operationsOf hoperation)
    -- each way starts at a reference of the description
    cases h with
    | scheme hfound hlooks hpasses =>
      obtain ⟨declared, hdeclared, rfl⟩ := mem_of_looksAt hlooks
      exact hpasses.mem_written (hcomponents _ hfound declared hdeclared)
    | parameter hmem hpasses =>
      have hparameters := List.forall_mem_append.2 ⟨hitem, hrefers.1⟩
      exact hpasses.mem_written (hparameters _ hmem)
    | body hbody hpasses => exact hpasses.mem_written (hrefers.2.1 _ hbody)
    | response hmem hpasses => exact hpasses.mem_written (hrefers.2.2 _ hmem)
  | @schema trace visit r hvisits hvisit =>
    -- the walk resolves what is within reach of the plan, which is written
    have hplan : (source.plan options).pointers ⊆ written source.raw := by
      refine Plan.pointers_bind (endpointsPlan_written hread) fun endpoints _ => ?_
      rw [hall]
      exact Plan.pointers_pure
    have horder := hvisits.depthFirst rfl
    have hmem : visit.pointer ∈ (resolutions trace).map Synthesis.Visit.pointer :=
      List.mem_map_of_mem hvisit
    have hreached := horder.reachable (fun _ hp => horder.not_mem_bound hp) _ hmem
    exact hreached.written fun p hp => hplan hp

/-! ## Runs that look up the same -/

theorem anyBasic_of_keeps {schemes : List (String × RefOr SecurityScheme)} {names : List String}
    {answer : Bool} (h : source.anyBasic schemes names = .ok answer)
    (hkeeps : ∀ scheme, source.LooksAt schemes names scheme →
      ∀ p, scheme.Passes source.raw SecurityScheme.ofJson p → Keeps source.raw other.raw p) :
    other.anyBasic schemes names = .ok answer := by
  -- what is looked at behind a name depends on what the name led to
  induction names with
  | nil => exact h
  | cons name rest ih =>
    rw [anyBasic] at h ⊢
    cases hfound : schemes.find? fun entry => entry.1 == name with
    | none =>
      rw [hfound] at h
      exact ih h fun scheme hlooks => hkeeps scheme (.undeclared hfound hlooks)
    | some entry =>
      simp only [hfound] at h ⊢
      cases hfollow : entry.2.follow source.raw SecurityScheme.ofJson with
      | error e =>
        rw [hfollow] at h
        cases h
      | ok found =>
        have hfollow' : entry.2.follow other.raw SecurityScheme.ofJson = .ok found :=
          RefOr.follow_of_keeps (hkeeps _ (.first hfound)) hfollow
        simp only [hfollow] at h
        simp only [hfollow']
        cases hbasic : found.isBasic with
        | true =>
          rw [hbasic] at h
          exact h
        | false =>
          rw [hbasic] at h
          exact ih h fun scheme hlooks => hkeeps scheme (.passed hfound hfollow hbasic hlooks)

theorem placeAll_of_keeps {placed result : List Parameter} {parameters : List (RefOr Parameter)}
    (h : source.placeAll placed parameters = .ok result)
    (hkeeps : ∀ parameter ∈ parameters, ∀ p, parameter.Passes source.raw Parameter.ofJson p →
      Keeps source.raw other.raw p) : other.placeAll placed parameters = .ok result := by
  induction parameters generalizing placed with
  | nil => exact h
  | cons parameter rest ih =>
    obtain ⟨hfirst, hrest⟩ := List.forall_mem_cons.1 hkeeps
    rw [placeAll] at h ⊢
    cases hfollow : parameter.follow source.raw Parameter.ofJson with
    | error e =>
      rw [hfollow] at h
      cases h
    | ok found =>
      rw [hfollow] at h
      rw [RefOr.follow_of_keeps hfirst hfollow]
      exact ih h hrest

theorem operationBodyPlan_of_keeps {operation : Operation} {body : Option Body}
    (h : (source.operationBodyPlan options operation).result = .ok body)
    (hkeeps : ∀ body ∈ operation.requestBody, ∀ p, body.Passes source.raw RequestBody.ofJson p →
      Keeps source.raw other.raw p) :
    other.operationBodyPlan options operation = source.operationBodyPlan options operation := by
  rw [operationBodyPlan] at h ⊢
  rw [operationBodyPlan]
  cases hbody : operation.requestBody with
  | none => rfl
  | some body =>
    rw [hbody] at h
    obtain ⟨found, hfollow, -⟩ := Plan.ok_of_bind h
    have hfollow' : body.follow source.raw RequestBody.ofJson = .ok found := hfollow
    simp only [hfollow', RefOr.follow_of_keeps (hkeeps body hbody) hfollow']

theorem outcomesPlan_of_keeps {label : String} {responses : List (String × RefOr Response)}
    {outcomes : List Outcome} (h : (source.outcomesPlan options label responses).result = .ok outcomes)
    (hkeeps : ∀ entry ∈ responses, ∀ p, entry.2.Passes source.raw Response.ofJson p →
      Keeps source.raw other.raw p) :
    other.outcomesPlan options label responses = source.outcomesPlan options label responses := by
  refine outcomesPlan_congr fun entry hentry => ?_
  have hdeclared : ⟨label, entry.1, entry.2⟩ ∈ responsesOf label responses :=
    List.mem_map_of_mem hentry
  obtain ⟨response, hfollow⟩ := followed_of_outcomesPlan h _ hdeclared
  have hfollow' : entry.2.follow source.raw Response.ofJson = .ok response := hfollow
  rw [hfollow', RefOr.follow_of_keeps (hkeeps entry hentry) hfollow']

section Documents

variable (hdocument : SameButSchemas source.document other.document)

include hdocument

theorem needsBasic_of_keeps {operation : Operation} {answer : Bool}
    (h : source.needsBasic operation = .ok answer)
    (hkeeps : ∀ components, source.document.components = some components → ∀ scheme,
      source.LooksAt components.securitySchemes (source.schemeNames operation) scheme →
      ∀ p, scheme.Passes source.raw SecurityScheme.ofJson p → Keeps source.raw other.raw p) :
    other.needsBasic operation = .ok answer := by
  have hrequirements : other.requirements operation = source.requirements operation := by
    rw [requirements, requirements, hdocument.others]
  have hschemes := hdocument.schemes
  rw [needsBasic] at h ⊢
  rw [hrequirements]
  cases hcomponents : source.document.components with
  | none =>
    rw [hcomponents] at h hschemes
    rw [Synthesis.eq_none_of_rel hschemes]
    exact h
  | some components =>
    rw [hcomponents] at h hschemes
    obtain ⟨components', hcomponents', hsame⟩ := Synthesis.exists_of_rel hschemes
    have hsame' : components.securitySchemes = components'.securitySchemes := hsame
    rw [hcomponents']
    show other.anyBasic components'.securitySchemes (source.schemeNames operation) = .ok answer
    rw [← hsame']
    exact anyBasic_of_keeps h (hkeeps components hcomponents)

/-- **An endpoint is planned alike** where all that its operation looks up is
kept. -/
theorem endpointPlan_of_keeps {path : String} {method : Method} {item : PathItem}
    {operation : Operation} {endpoint : Endpoint}
    (h : (source.endpointPlan options path method item operation).result = .ok endpoint)
    (hkeeps : ∀ p, source.OperationLooksUp item operation p → Keeps source.raw other.raw p) :
    other.endpointPlan options path method item operation =
      source.endpointPlan options path method item operation := by
  obtain ⟨basicAuth, hbasic, h⟩ := Plan.ok_of_bind h
  obtain ⟨parameters, hparameters, h⟩ := Plan.ok_of_bind h
  obtain ⟨body, hbody, h⟩ := Plan.ok_of_bind h
  obtain ⟨outcomes, houtcomes, -⟩ := Plan.ok_of_bind h
  -- each of the four parts gives the same, so the plan is the same
  have hbasic' : source.needsBasic operation = .ok basicAuth := hbasic
  have hparameters' : source.parameters item operation = .ok parameters := hparameters
  have hbasicOther : other.needsBasic operation = .ok basicAuth :=
    needsBasic_of_keeps hdocument hbasic' fun components hcomponents scheme hlooks p hp =>
      hkeeps p (.scheme hcomponents hlooks hp)
  have hparametersOther : other.parameters item operation = .ok parameters :=
    placeAll_of_keeps hparameters' fun parameter hmem p hp => hkeeps p (.parameter hmem hp)
  have hbodyOther : other.operationBodyPlan options operation =
      source.operationBodyPlan options operation :=
    operationBodyPlan_of_keeps hbody fun body hmem p hp => hkeeps p (.body hmem hp)
  have houtcomesOther :
      other.outcomesPlan options (method.wireName ++ " " ++ path) operation.responses =
        source.outcomesPlan options (method.wireName ++ " " ++ path) operation.responses :=
    outcomesPlan_of_keeps houtcomes fun entry hmem p hp => hkeeps p (.response hmem hp)
  rw [endpointPlan, endpointPlan, hbasic', hbasicOther, hparameters', hparametersOther, hbodyOther,
    houtcomesOther]

theorem pathEndpointsPlan_of_keeps {path : String} {item : PathItem}
    {operations : List (Method × Operation)} {endpoints : List Endpoint}
    (h : (source.pathEndpointsPlan options path item operations).result = .ok endpoints)
    (hkeeps : ∀ operation ∈ operations, ∀ p, source.OperationLooksUp item operation.2 p →
      Keeps source.raw other.raw p) :
    other.pathEndpointsPlan options path item operations =
      source.pathEndpointsPlan options path item operations := by
  induction operations generalizing endpoints with
  | nil => rfl
  | cons operation rest ih =>
    obtain ⟨hfirst, hrest⟩ := List.forall_mem_cons.1 hkeeps
    obtain ⟨first, hendpoint, h⟩ := Plan.ok_of_bind h
    obtain ⟨others, hothers, -⟩ := Plan.ok_of_bind h
    rw [pathEndpointsPlan, pathEndpointsPlan, endpointPlan_of_keeps hdocument hendpoint hfirst,
      ih hothers hrest]

theorem endpointsPlan_of_keeps {paths : List (String × PathItem)} {endpoints : List Endpoint}
    (h : (source.endpointsPlan options paths).result = .ok endpoints)
    (hkeeps : ∀ entry ∈ paths, ∀ operation ∈ operationsOf entry.2, ∀ p,
      source.OperationLooksUp entry.2 operation.2 p → Keeps source.raw other.raw p) :
    other.endpointsPlan options paths = source.endpointsPlan options paths := by
  induction paths generalizing endpoints with
  | nil => rfl
  | cons entry rest ih =>
    obtain ⟨hfirst, hrest⟩ := List.forall_mem_cons.1 hkeeps
    obtain ⟨first, hblock, h⟩ := Plan.ok_of_bind h
    obtain ⟨others, hothers, -⟩ := Plan.ok_of_bind h
    rw [endpointsPlan, endpointsPlan, pathEndpointsPlan_of_keeps hdocument hblock hfirst,
      ih hothers hrest]

theorem server_of_sameButSchemas : other.server options = source.server options := by
  rw [server, server, hdocument.others]

/-- **A run reads a document by what it looks up.** Where it succeeds it gives
the same on every source that differs in its component schemas and keeps what
the pointers lead to. -/
theorem api_of_keeps {api : Api} (hall : options.allComponents = false)
    (h : source.api options = .ok api)
    (hkeeps : ∀ p, source.LooksUp options p → Keeps source.raw other.raw p) :
    other.api options = .ok api := by
  obtain ⟨trace, hvisits, hresult⟩ := visits_of_api h
  obtain ⟨endpoints, hendpoints, -⟩ := Plan.ok_of_bind hresult
  have hpaths : other.document.paths = source.document.paths := by
    rw [hdocument.others]
  have hplan : other.plan options = source.plan options := by
    rw [plan, plan, hpaths, endpointsPlan_of_keeps hdocument hendpoints
      fun entry hentry operation hoperation p hp => hkeeps p (.operation hentry hoperation hp), hall]
    rfl
  -- the walk over the schemas goes the same way over the other document
  have hwalk : Visits other.raw options.withDoc (other.plan options).pointers Registry.empty trace
      none api.types := by
    rw [hplan]
    refine hvisits.of_agree fun v hv => ?_
    obtain ⟨target, htarget, -⟩ := hvisits.defined rfl v hv
    rw [htarget, hkeeps _ (.schema hvisits hv) target htarget]
  obtain ⟨_, stop, r, hrun, hapi⟩ := other.api_of_visits options
  obtain ⟨-, rfl, rfl⟩ := hrun.deterministic hwalk
  rw [hapi, hplan, Plan.answer, hresult]
  show Except.ok (Api.mk (other.server options) api.endpoints api.types) = .ok api
  rw [server_of_sameButSchemas hdocument, server_of_api h]

end Documents

/-! ## Unused schemas -/

/-- **Unused schemas do not influence the client.** Where a run without all
component schemas succeeds, and looks up no pointer to the description, to its
components or to the table of its schemas, it succeeds with one more component
schema under a new name, too. It gives the same server, the same endpoints and
the same registry. -/
theorem api_unusedSchema {api : Api}
    (hadded : Json.Grown name value ["components", "schemas"] raw raw')
    (hread : ofJson raw = .ok source) (hall : options.allComponents = false)
    (h : source.api options = .ok api)
    (hunused : ∀ p, source.LooksUp options p → ¬ EndsOn ["components", "schemas"] p) :
    ∃ other, ofJson raw' = .ok other ∧ other.api options = .ok api := by
  obtain ⟨rfl, hdocument⟩ := document_of_ofJson hread
  obtain ⟨document, hdocument', hsame⟩ := Document.ofJson_grown hadded hdocument
  refine ⟨⟨raw', document⟩, by rw [ofJson, hdocument'], ?_⟩
  exact api_of_keeps hsame hall h fun p hp => hadded.keeps (hunused p hp)

/-- Pets that are listed for users with a password, with some component
schemas. -/
def listedPets (schemas : List (String × Json)) : Json :=
  let front := [
    ("security", .array [.object [("login", .array [])]]),
    ("paths", .object [("/pets", .object [("get", .object [
      ("parameters", .array [.object [("$ref", .string "#/components/parameters/Limit")]]),
      ("responses", .object [("200", .object [("content", .object [("application/json", .object [
        ("schema", .object [("$ref", .string "#/components/schemas/Pet")])])])])])])])])]
  let shared := [
    ("parameters", .object [
      ("Limit", .object [("name", .string "limit"), ("in", .string "query")])]),
    ("securitySchemes", .object [
      ("login", .object [("$ref", .string "#/components/securitySchemes/password")]),
      ("password", .object [("type", .string "http"), ("scheme", .string "basic")])])]
  .object (front ++ [("components", .object (shared ++ [("schemas", .object schemas)]))])

/-- A pet with its mother. -/
def petSchemas : List (String × Json) :=
  [("Pet", .object [("properties", .object [
    ("mother", .object [("$ref", .string "#/components/schemas/Pet")])])])]

/-- A toy that leads nowhere. -/
def toySchema : String × Json := ("Toy", .object [("$ref", .string "#/toys")])

/-- The schema of the toy may stand behind that of the pet. The run on the two
gives the same. -/
theorem api_unusedSchema_of_listedPets : ∃ source other api,
    Json.Grown toySchema.1 toySchema.2 ["components", "schemas"]
      (listedPets petSchemas) (listedPets (petSchemas ++ [toySchema])) ∧
    ofJson (listedPets petSchemas) = .ok source ∧ source.api Options.default = .ok api ∧
    (∀ p, source.LooksUp Options.default p → ¬ EndsOn ["components", "schemas"] p) ∧
    ofJson (listedPets (petSchemas ++ [toySchema])) = .ok other ∧
    other.api Options.default = .ok api ∧ api.types.names = ["Pet"] ∧
    api.endpoints.map (fun e => (e.basicAuth, e.queryArguments.map (·.name))) =
      [(true, ["limit"])] := by
  have hschemas : Json.Grown toySchema.1 toySchema.2 [] (.object (petSchemas ++ []))
      (.object (petSchemas ++ [toySchema])) := .here (by decide)
  have hadded : Json.Grown toySchema.1 toySchema.2 ["components", "schemas"]
      (listedPets petSchemas) (listedPets (petSchemas ++ [toySchema])) :=
    .under (by decide) (.under (by decide) hschemas)
  have hrun : succeedsWith (listedPets petSchemas) Options.default (fun _ api =>
      api.types.names == ["Pet"] &&
        api.endpoints.map (fun e => (e.basicAuth, e.queryArguments.map (·.name))) ==
          [(true, ["limit"])]) = true := by
    decide
  obtain ⟨source, api, hread, hapi, hchecked⟩ := of_succeedsWith hrun
  simp only [Bool.and_eq_true, beq_iff_eq] at hchecked
  -- none of the references that are written leads to what the schemas stand in
  have hwritten : ∀ p ∈ written (listedPets petSchemas), ¬ EndsOn ["components", "schemas"] p := by
    decide
  have hunused : ∀ p, source.LooksUp Options.default p → ¬ EndsOn ["components", "schemas"] p :=
    fun p hp => hwritten p (mem_written_of_looksUp hread rfl hp)
  obtain ⟨other, hother, hapi'⟩ := api_unusedSchema hadded hread rfl hapi hunused
  exact ⟨source, other, api, hadded, hread, hapi, hunused, hother, hapi', hchecked⟩

end Source

end TypedClient
