import TypedClient.Proofs.Extraction.Environment
import TypedClient.Proofs.Extraction.Policy
/-!
# Runs that register all components

The component schemas come behind the endpoints and are registered in the
registry that these leave. What is bound by then is passed by, so a run
that is asked for all component schemas gives the endpoints of the run that
is not, and its registry goes on from the other's (`api_allComponents`).
-/

namespace TypedClient

/-- The options with all component schemas, or only those referred to. -/
def Options.withComponents (options : Options) (all : Bool) : Options :=
  { options with allComponents := all }

namespace Source

open Synthesis (Plan Visits)

variable {source : Source} {options : Options} {endpoints : List Endpoint}

/-! ## Plans with and without components -/

/-- Component schemas are visited for their pointers only. -/
theorem componentsPlan_eq_pointers (names : List String) :
    componentsPlan options names = ⟨names.map Pointer.ofSchemaName, .ok ()⟩ := by
  induction names with
  | nil => rfl
  | cons name rest ih =>
    rw [componentsPlan, ih]
    rfl

variable (source options)

/-- The pointers that are visited behind the endpoints. -/
def componentPointers : List String :=
  if options.allComponents then source.schemaNames.map Pointer.ofSchemaName else []

variable {source options}

/-- The plan of a run whose endpoints have one. -/
theorem plan_of_endpoints
    (h : (source.endpointsPlan options source.document.paths).result = .ok endpoints) :
    source.plan options = ⟨(source.endpointsPlan options source.document.paths).pointers ++
      source.componentPointers options, .ok endpoints⟩ := by
  rw [plan, Plan.bind_of_ok h, componentPointers]
  split
  · rw [componentsPlan_eq_pointers, Plan.bind_of_ok rfl]
    simp [Pure.pure]
  · rfl

/-- Whether all components are asked for does not count for endpoints. -/
theorem endpointsPlan_withComponents (all : Bool) (paths : List (String × PathItem)) :
    source.endpointsPlan (options.withComponents all) paths =
      source.endpointsPlan options paths := by
  apply endpointsPlan_eq <;> rfl

/-- The plan of a run with or without components. -/
theorem plan_withComponents (all : Bool)
    (h : (source.endpointsPlan options source.document.paths).result = .ok endpoints) :
    source.plan (options.withComponents all) =
      ⟨(source.endpointsPlan options source.document.paths).pointers ++
        source.componentPointers (options.withComponents all), .ok endpoints⟩ := by
  rw [plan_of_endpoints (by rwa [endpointsPlan_withComponents]), endpointsPlan_withComponents]

/-! ## Runs -/

/-- **Asking for all components only appends.** Where the run with all
components succeeds, so does the run without, with the same server and the
same endpoints. Its registry stands, entry for entry and in order, at the
front of the other. The name for every component schema is defined in the
longer one. -/
theorem api_allComponents {api : Api}
    (h : source.api (options.withComponents true) = .ok api) :
    (∃ referred, source.api (options.withComponents false) = .ok referred ∧
      referred.server = api.server ∧ referred.endpoints = api.endpoints ∧
      referred.types.entries <+: api.types.entries) ∧
    ∀ name ∈ source.schemaNames, ∃ definition,
      api.types.lookup? (Pointer.typeName (Pointer.ofSchemaName name)) = some definition := by
  obtain ⟨trace, hvisits, hresult⟩ := visits_of_api h
  obtain ⟨endpoints, hendpoints, -⟩ := Plan.ok_of_bind hresult
  rw [endpointsPlan_withComponents] at hendpoints
  have hall := plan_withComponents true hendpoints
  have hreferred := plan_withComponents false hendpoints
  have hserver : source.server (options.withComponents true) = api.server := server_of_api h
  refine ⟨?_, fun name hname => ?_⟩
  · rw [hall] at hvisits hresult
    obtain rfl := Except.ok.inj hresult
    -- the walk over the endpoints ends in the registry of the shorter run
    obtain ⟨first, more, r, hfirst, hsecond⟩ := hvisits.of_append
    obtain ⟨trace', stop, r', hvisits', hapi⟩ :=
      source.api_of_visits (options.withComponents false)
    rw [hreferred] at hvisits' hapi
    have hnone : source.componentPointers (options.withComponents false) = [] := rfl
    rw [hnone, List.append_nil] at hvisits'
    obtain ⟨-, rfl, rfl⟩ := hvisits'.deterministic hfirst
    exact ⟨_, hapi, hserver, rfl, hsecond.entries_prefix⟩
  · have hmem : Pointer.ofSchemaName name ∈ (source.plan (options.withComponents true)).pointers := by
      rw [hall]
      exact List.mem_append_right _ (List.mem_map_of_mem hname)
    obtain ⟨v, hv, hpointer⟩ := hvisits.met rfl _ hmem
    have hdefined := (defined_of_met hvisits hv).2
    rwa [Synthesis.Visit.name, hpointer] at hdefined

/-- A response that is a pet, and a zoo of pets that nothing refers to. -/
def unreferredZoo : Json :=
  .object [("paths", .object [("/pet", .object [("get", .object [("responses", .object [
      ("200", .object [("content", .object [("application/json", .object [
        ("schema", .object [("$ref", .string "#/components/schemas/Pet")])])])])])])])]),
    ("components", .object [("schemas", .object [
      ("Zoo/all", .object [("type", .string "array"),
        ("items", .object [("$ref", .string "#/components/schemas/Pet")])]),
      ("Pet", .object [("properties", .object [
        ("parent", .object [("$ref", .string "#/components/schemas/Pet")])])])])])]

/-- The zoo comes behind the pet, under a name without the slash, and the run
without it ends at the pet. -/
theorem api_allComponents_of_unreferredZoo : ∃ source api referred,
    ofJson unreferredZoo = .ok source ∧
    source.api (Options.default.withComponents true) = .ok api ∧
    source.api (Options.default.withComponents false) = .ok referred ∧
    source.schemaNames = ["Zoo/all", "Pet"] ∧ api.types.names = ["Pet", "Zoo_all"] ∧
    referred.types.names = ["Pet"] ∧ referred.endpoints = api.endpoints ∧
    referred.types.entries <+: api.types.entries ∧
    ∃ definition, api.types.lookup? "Zoo_all" = some definition := by
  have hrun : succeedsWith unreferredZoo (Options.default.withComponents true) (fun source api =>
      source.schemaNames == ["Zoo/all", "Pet"] && api.types.names == ["Pet", "Zoo_all"] &&
        Pointer.typeName (Pointer.ofSchemaName "Zoo/all") == "Zoo_all" &&
        match source.api (Options.default.withComponents false) with
        | .ok referred => referred.types.names == ["Pet"]
        | .error _ => false) = true := by
    decide
  obtain ⟨source, api, hsource, hapi, hchecked⟩ := of_succeedsWith hrun
  obtain ⟨⟨referred, hreferred, -, hendpoints, hfront⟩, hdefined⟩ := api_allComponents hapi
  simp only [Bool.and_eq_true, beq_iff_eq, hreferred] at hchecked
  obtain ⟨⟨⟨hschemas, hnames⟩, hname⟩, hfewer⟩ := hchecked
  refine ⟨source, api, referred, hsource, hapi, hreferred, hschemas, hnames, hfewer, hendpoints,
    hfront, ?_⟩
  have hzoo := hdefined "Zoo/all" (by rw [hschemas]; exact List.mem_cons_self)
  rwa [hname] at hzoo

end Source

end TypedClient
