import Mathlib.Data.List.Find
import TypedClient.Proofs.Document.Reordered
import TypedClient.Proofs.Synthesis.Independence
import TypedClient.Proofs.Extraction.Written
import TypedClient.Proofs.Extraction.Components
/-!
# Runs do not depend on the order of paths

The endpoints of a path are planned without regard to the other paths, so
the plans of two descriptions that list their paths in different orders have
the same blocks (`Reordered.blockPlan_eq`). Where references of one name lead
to one value, the walks over the two plans bind the same names to the same
definitions. So a run succeeds on both descriptions or on neither, and what
it gives differs by the order of the blocks and of the names only
(`api_pathOrder`).
-/

namespace TypedClient

/-- The endpoint of a path and a method. -/
def Api.endpoint? (api : Api) (path : String) (method : Method) : Option Endpoint :=
  api.endpoints.find? fun e => e.path == path && e.method == method

namespace Source

open Synthesis (Plan Visits Alike NamesAgree written)
open Shape (Steady)

/-! ## Blocks -/

section Blocks

variable (source : Source) (options : Options)

/-- The plan for the endpoints of a path. -/
def blockPlan (entry : String × PathItem) : Plan (List Endpoint) :=
  source.pathEndpointsPlan options entry.1 entry.2 (operationsOf entry.2)

/-- **The endpoints of a path**, if they can be planned. -/
def block (entry : String × PathItem) : List Endpoint :=
  match (source.blockPlan options entry).result with
  | .ok endpoints => endpoints
  | .error _ => []

/-- The plans for some paths give endpoints. -/
def Planned (paths : List (String × PathItem)) : Prop :=
  ∀ entry ∈ paths, (source.blockPlan options entry).result = .ok (source.block options entry)

variable {source options} {paths : List (String × PathItem)} {endpoints : List Endpoint}

theorem block_eq {entry : String × PathItem}
    (h : (source.blockPlan options entry).result = .ok endpoints) :
    source.block options entry = endpoints := by
  rw [block, h]

/-- **The plan for paths is that of its blocks**, one after the other. -/
theorem endpointsPlan_of_planned (h : source.Planned options paths) :
    source.endpointsPlan options paths =
      ⟨paths.flatMap fun entry => (source.blockPlan options entry).pointers,
        .ok (paths.flatMap (source.block options))⟩ := by
  induction paths with
  | nil => rfl
  | cons entry rest ih =>
    obtain ⟨hfirst, hrest⟩ := List.forall_mem_cons.1 h
    have hplan : source.endpointsPlan options (entry :: rest) =
        (source.blockPlan options entry >>= fun first =>
          source.endpointsPlan options rest >>= fun others => pure (first ++ others)) := rfl
    rw [hplan, Plan.bind_of_ok hfirst, ih hrest, Plan.bind_of_ok rfl]
    simp [Pure.pure]

theorem planned_of_endpointsPlan
    (h : (source.endpointsPlan options paths).result = .ok endpoints) :
    source.Planned options paths := by
  induction paths generalizing endpoints with
  | nil => simp [Planned]
  | cons entry rest ih =>
    obtain ⟨first, hfirst, h⟩ := Plan.ok_of_bind h
    obtain ⟨others, hothers, -⟩ := Plan.ok_of_bind h
    have hblock : (source.blockPlan options entry).result = .ok first := hfirst
    exact List.forall_mem_cons.2 ⟨by rw [block_eq hblock, hblock], ih hothers⟩

/-- The methods that a path has operations for, in the order of all methods. -/
def methodsOf (item : PathItem) : List Method :=
  Method.all.filter fun method => (item.operation? method).isSome

theorem operationsOf_methods (item : PathItem) :
    (operationsOf item).map Prod.fst = methodsOf item := by
  rw [operationsOf, methodsOf]
  induction Method.all with
  | nil => rfl
  | cons method rest ih =>
    cases hoperation : item.operation? method with
    | none => simpa [hoperation] using ih
    | some operation => simpa [hoperation] using ih

theorem labels_of_pathEndpointsPlan {path : String} {item : PathItem}
    {operations : List (Method × Operation)}
    (h : (source.pathEndpointsPlan options path item operations).result = .ok endpoints) :
    endpoints.map (fun e => (e.path, e.method)) = operations.map fun o => (path, o.1) := by
  induction operations generalizing endpoints with
  | nil =>
    cases h
    rfl
  | cons entry rest ih =>
    obtain ⟨first, hfirst, h⟩ := Plan.ok_of_bind h
    obtain ⟨others, hothers, h⟩ := Plan.ok_of_bind h
    cases h
    -- the label of an endpoint is the last thing of its plan
    obtain ⟨basicAuth, -, hfirst⟩ := Plan.ok_of_bind hfirst
    obtain ⟨parameters, -, hfirst⟩ := Plan.ok_of_bind hfirst
    obtain ⟨body, -, hfirst⟩ := Plan.ok_of_bind hfirst
    obtain ⟨outcomes, -, hfirst⟩ := Plan.ok_of_bind hfirst
    cases hfirst
    rw [List.map_cons, List.map_cons, ih hothers]

/-- **A block has one endpoint for each method of its path**, in the order of
the methods. -/
theorem labels_of_planned (h : source.Planned options paths) :
    ∀ entry ∈ paths, (source.block options entry).map (fun e => (e.path, e.method)) =
      (methodsOf entry.2).map fun method => (entry.1, method) := by
  intro entry hentry
  rw [labels_of_pathEndpointsPlan (h entry hentry), ← operationsOf_methods, List.map_map]
  rfl

/-- No path and method occur twice in blocks of different paths. -/
theorem nodup_labels (h : source.Planned options paths) (hnodup : (paths.map Prod.fst).Nodup) :
    ((paths.flatMap (source.block options)).map fun e => (e.path, e.method)).Nodup := by
  have hlabels : (paths.flatMap (source.block options)).map (fun e => (e.path, e.method)) =
      paths.flatMap fun entry => (methodsOf entry.2).map fun method => (entry.1, method) := by
    rw [List.map_flatMap]
    exact List.flatMap_congr fun entry hentry => labels_of_planned h entry hentry
  rw [hlabels, List.nodup_flatMap]
  constructor
  · intro entry _
    have hmethods : (methodsOf entry.2).Nodup := List.Nodup.filter _ (by decide)
    exact hmethods.map fun method other heq => (Prod.mk.inj heq).2
  · have hpaths : paths.Pairwise fun a b => a.1 ≠ b.1 := List.pairwise_map.1 hnodup
    refine hpaths.imp fun hne => ?_
    intro label hleft hright
    obtain ⟨_, -, rfl⟩ := List.mem_map.1 hleft
    obtain ⟨_, -, heq⟩ := List.mem_map.1 hright
    exact hne (Prod.mk.inj heq).1.symm

end Blocks

/-! ## Sources that differ by the order of their paths -/

/-- **Two sources that list their paths in different orders**, and are the same
otherwise. -/
structure Reordered (source other : Source) : Prop where
  raw : PathsReordered source.raw other.raw
  regular : source.raw.Regular
  document : other.document = { source.document with paths := other.document.paths }
  paths : source.document.paths.Perm other.document.paths
  nodup : (source.document.paths.map Prod.fst).Nodup

/-- Where a source is read so is one with the paths in another order. -/
theorem exists_reordered {raw raw' : Json} {source : Source} (h : PathsReordered raw raw')
    (hregular : raw.Regular) (hread : ofJson raw = .ok source) :
    source.raw = raw ∧ ∃ other, ofJson raw' = .ok other ∧ other.raw = raw' ∧
      Reordered source other := by
  rw [ofJson] at hread
  split at hread
  · rename_i document hdocument
    cases hread
    obtain ⟨hnodup, found, hfound, hother⟩ := Document.ofJson_reordered h hregular hdocument
    refine ⟨rfl, ⟨raw', { document with paths := found }⟩, ?_, rfl, h, hregular, rfl, hfound,
      hnodup⟩
    rw [ofJson, hother]
  · cases hread

namespace Reordered

variable {source other : Source} {options : Options} {endpoints : List Endpoint}

theorem symm (h : Reordered source other) : Reordered other source where
  raw := h.raw.symm
  regular := h.raw.regular h.regular
  document := by rw [h.document]
  paths := h.paths.symm
  nodup := (h.paths.map Prod.fst).nodup_iff.1 h.nodup

theorem components_eq (h : Reordered source other) :
    source.document.components = other.document.components := by
  rw [h.document]

theorem security_eq (h : Reordered source other) :
    source.document.security = other.document.security := by
  rw [h.document]

theorem server_eq (h : Reordered source other) : source.server options = other.server options := by
  rw [server, server, h.document]

theorem componentPointers_eq (h : Reordered source other) :
    source.componentPointers options = other.componentPointers options := by
  rw [componentPointers, componentPointers, schemaNames, schemaNames, h.components_eq]

theorem follow_eq {α : Type} {read : Json → Shape α} (h : Reordered source other)
    (hsteady : Steady read) (item : RefOr α) :
    item.follow source.raw read = item.follow other.raw read :=
  h.raw.follow_eq h.regular hsteady item

/-! ### The plan of a path -/

theorem outcomesPlan_eq (h : Reordered source other) (label : String)
    (responses : List (String × RefOr Response)) :
    source.outcomesPlan options label responses = other.outcomesPlan options label responses :=
  outcomesPlan_congr fun entry _ => h.follow_eq Shape.response_steady entry.2

theorem operationBodyPlan_eq (h : Reordered source other) (operation : Operation) :
    source.operationBodyPlan options operation = other.operationBodyPlan options operation := by
  rw [operationBodyPlan, operationBodyPlan]
  cases operation.requestBody with
  | none => rfl
  | some b => simp only [h.follow_eq Shape.requestBody_steady]

theorem placeAll_eq (h : Reordered source other) (placed : List Parameter)
    (parameters : List (RefOr Parameter)) :
    source.placeAll placed parameters = other.placeAll placed parameters := by
  induction parameters generalizing placed with
  | nil => rfl
  | cons p rest ih =>
    rw [placeAll, placeAll, h.follow_eq Shape.parameter_steady]
    cases p.follow other.raw Parameter.ofJson with
    | ok parameter => exact ih _
    | error e => rfl

theorem anyBasic_eq (h : Reordered source other)
    (schemes : List (String × RefOr SecurityScheme)) (names : List String) :
    source.anyBasic schemes names = other.anyBasic schemes names := by
  induction names with
  | nil => rfl
  | cons name rest ih =>
    rw [anyBasic, anyBasic, ih]
    cases schemes.find? fun entry => entry.1 == name with
    | none => rfl
    | some entry => simp only [h.follow_eq Shape.securityScheme_steady]

theorem needsBasic_eq (h : Reordered source other) (operation : Operation) :
    source.needsBasic operation = other.needsBasic operation := by
  have hrequirements : source.requirements operation = other.requirements operation := by
    rw [requirements, requirements, h.security_eq]
  rw [needsBasic, needsBasic, h.components_eq, hrequirements]
  cases other.document.components with
  | none => rfl
  | some components => exact h.anyBasic_eq _ _

/-- **The endpoints of a path are planned alike**, whatever the order of the
paths. -/
theorem blockPlan_eq (h : Reordered source other) (entry : String × PathItem) :
    source.blockPlan options entry = other.blockPlan options entry := by
  have hendpoint : source.endpointPlan options = other.endpointPlan options := by
    funext path method item operation
    rw [endpointPlan, endpointPlan, h.needsBasic_eq, parameters, parameters, h.placeAll_eq,
      h.operationBodyPlan_eq, h.outcomesPlan_eq]
  rw [blockPlan, blockPlan]
  induction operationsOf entry.2 with
  | nil => rfl
  | cons operation rest ih =>
    rw [pathEndpointsPlan, pathEndpointsPlan, hendpoint, ih]

theorem block_eq (h : Reordered source other) :
    source.block options = other.block options := by
  funext entry
  rw [block, block, h.blockPlan_eq]

/-- What is planned for one order of the paths is planned for the other, from
the same blocks and over the same pointers. -/
theorem endpointsPlan_eq (h : Reordered source other)
    (hresult : (source.endpointsPlan options source.document.paths).result = .ok endpoints) :
    endpoints = source.document.paths.flatMap (source.block options) ∧
      (other.endpointsPlan options other.document.paths).result =
        .ok (other.document.paths.flatMap (source.block options)) ∧
      ∀ p, p ∈ (source.endpointsPlan options source.document.paths).pointers ↔
        p ∈ (other.endpointsPlan options other.document.paths).pointers := by
  have hplanned := planned_of_endpointsPlan hresult
  have hplanned' : other.Planned options other.document.paths := by
    intro entry hentry
    rw [← h.blockPlan_eq, ← h.block_eq]
    exact hplanned entry (h.paths.mem_iff.2 hentry)
  have hplan := endpointsPlan_of_planned hplanned
  have hplan' := endpointsPlan_of_planned hplanned'
  rw [hplan] at hresult
  refine ⟨(Except.ok.inj hresult).symm, ?_, fun p => ?_⟩
  · rw [hplan', h.block_eq]
  · rw [hplan, hplan']
    simp only [List.mem_flatMap, h.paths.mem_iff, h.blockPlan_eq]

end Reordered

/-! ## Runs -/

/-- **Two runs that give the same up to the order of paths**: one server; blocks
of endpoints, one for each path, with the methods of the path in their order;
one endpoint for each path and method; and the same names for the same types
and descriptions. -/
structure SameUpToOrder (source other : Source) (api api' : Api) : Prop where
  server : api.server = api'.server
  paths : source.document.paths.Perm other.document.paths
  blocks : ∃ block : String × PathItem → List Endpoint,
    api.endpoints = source.document.paths.flatMap block ∧
    api'.endpoints = other.document.paths.flatMap block ∧
    ∀ entry ∈ source.document.paths, (block entry).map (fun e => (e.path, e.method)) =
      (methodsOf entry.2).map fun method => (entry.1, method)
  endpoint? : ∀ path method, api.endpoint? path method = api'.endpoint? path method
  entries : api.types.entries.Perm api'.types.entries
  types : api.types.Same api'.types

variable {raw raw' : Json} {source other : Source} {options : Options} {api : Api}

/-- **What is planned from the same blocks is the same up to order.** -/
theorem Reordered.sameUpToOrder {api' : Api} (h : Reordered source other)
    (hplanned : source.Planned options source.document.paths)
    (hserver : api.server = api'.server)
    (hendpoints : api.endpoints = source.document.paths.flatMap (source.block options))
    (hendpoints' : api'.endpoints = other.document.paths.flatMap (source.block options))
    (hnames : api.types.names.Nodup) (hnames' : api'.types.names.Nodup)
    (hsame : api.types.Same api'.types) : SameUpToOrder source other api api' where
  server := hserver
  paths := h.paths
  blocks := ⟨source.block options, hendpoints, hendpoints', labels_of_planned hplanned⟩
  endpoint? path method := by
    have hperm : api.endpoints.Perm api'.endpoints := by
      rw [hendpoints, hendpoints']
      exact h.paths.flatMap_right _
    have hlabels : (api.endpoints.map fun e => (e.path, e.method)).Nodup := by
      rw [hendpoints]
      exact nodup_labels hplanned h.nodup
    -- at most one endpoint has the path and the method
    refine List.find?_eq_find?_of_perm hperm fun e he e' he' => ?_
    have hlabel : e.path = path ∧ e.method = method := by simpa using he.2
    have hlabel' : e'.path = path ∧ e'.method = method := by simpa using he'.2
    exact List.inj_on_of_nodup_map hlabels he.1 he'.1
      (by rw [hlabel.1, hlabel.2, hlabel'.1, hlabel'.2])
  entries := hsame.entries_perm hnames hnames'
  types := hsame

/-- **A run on one order of the paths is a run on the other.** The pointers that
both visit for their endpoints are written in a document whose references of
one name agree, and both sources are alike to the document. -/
theorem Reordered.exists_api {document : Json} (h : Reordered source other)
    (hsource : ∀ p, Option.Rel Alike (Pointer.resolve? source.raw p)
      (Pointer.resolve? document p))
    (hother : ∀ p, Option.Rel Alike (Pointer.resolve? document p)
      (Pointer.resolve? other.raw p))
    (hwritten : ∀ p ∈ (source.endpointsPlan options source.document.paths).pointers,
      p ∈ (other.endpointsPlan options other.document.paths).pointers → p ∈ written document)
    (hagree : NamesAgree document) (hapi : source.api options = .ok api) :
    ∃ api', other.api options = .ok api' ∧ SameUpToOrder source other api api' := by
  obtain ⟨trace, hvisits, hresult⟩ := visits_of_api hapi
  obtain ⟨endpoints, hendpoints, -⟩ := Plan.ok_of_bind hresult
  obtain ⟨hblocks, hendpoints', hpointers⟩ := h.endpointsPlan_eq hendpoints
  have hplan' := plan_of_endpoints hendpoints'
  have hnames := names_nodup hvisits
  have hstart := hagree.agree (r := Registry.empty) fun p hp => hwritten p hp ((hpointers p).1 hp)
  rw [plan_of_endpoints hendpoints] at hvisits hresult
  obtain rfl := Except.ok.inj hresult
  -- seen as a walk over the document, its first pointers may change their order
  have hwalk := hvisits.of_alike fun v _ => hsource v.pointer
  obtain ⟨trace', types', hwalk', hsame⟩ := hwalk.exists_same hpointers hstart
  have hvisits' := hwalk'.of_alike fun v _ => hother v.pointer
  rw [h.componentPointers_eq] at hvisits'
  -- and it is the walk of the other run
  obtain ⟨_, stop, r', hrun, hapi'⟩ := other.api_of_visits options
  rw [hplan'] at hrun hapi'
  obtain ⟨-, rfl, rfl⟩ := hrun.deterministic hvisits'
  obtain ⟨_, hvisits', -⟩ := visits_of_api hapi'
  exact ⟨_, hapi', h.sameUpToOrder (planned_of_endpointsPlan hendpoints)
    ((server_of_api hapi).symm.trans h.server_eq) hblocks rfl hnames (names_nodup hvisits') hsame⟩

/-- **The order of paths does not count.** Where any two references of one name
lead to one value, or both nowhere, a run succeeds on a description if and
only if it succeeds on the description with its paths in another order. What
the two give is the same up to order. -/
theorem api_pathOrder (hregular : raw.Regular) (hreordered : PathsReordered raw raw')
    (hagree : NamesAgree raw) (options : Options) :
    ((∃ source api, ofJson raw = .ok source ∧ source.api options = .ok api) ↔
      ∃ other api', ofJson raw' = .ok other ∧ other.api options = .ok api') ∧
    ∀ source api other api', ofJson raw = .ok source → source.api options = .ok api →
      ofJson raw' = .ok other → other.api options = .ok api' →
      SameUpToOrder source other api api' := by
  have hforth : ∀ source api, ofJson raw = .ok source → source.api options = .ok api →
      ∃ other api', ofJson raw' = .ok other ∧ other.api options = .ok api' ∧
        SameUpToOrder source other api api' := by
    intro source api hsource hapi
    obtain ⟨rfl, other, hother, rfl, h⟩ := exists_reordered hreordered hregular hsource
    obtain ⟨api', hapi', hsame⟩ := h.exists_api
      (fun _ => Synthesis.rel_refl Alike.refl _) (h.raw.alike h.regular)
      (fun p hp _ => endpointsPlan_written hsource hp) hagree hapi
    exact ⟨other, api', hother, hapi', hsame⟩
  refine ⟨⟨?_, ?_⟩, ?_⟩
  · rintro ⟨source, api, hsource, hapi⟩
    obtain ⟨other, api', hother, hapi', -⟩ := hforth source api hsource hapi
    exact ⟨other, api', hother, hapi'⟩
  · -- the other way the walk of the second run is seen as one over the first description
    rintro ⟨other, api', hother, hapi'⟩
    obtain ⟨rfl, source, hsource, rfl, h⟩ :=
      exists_reordered hreordered.symm (hreordered.regular hregular) hother
    obtain ⟨api, hapi, -⟩ := h.exists_api (h.raw.alike h.regular)
      (fun _ => Synthesis.rel_refl Alike.refl _)
      (fun p _ hp => endpointsPlan_written hsource hp) hagree hapi'
    exact ⟨source, api, hsource, hapi⟩
  · intro source api other api' hsource hapi hother hapi'
    obtain ⟨other₁, api₁, hother₁, hapi₁, hsame⟩ := hforth source api hsource hapi
    obtain rfl := Except.ok.inj (hother₁.symm.trans hother)
    obtain rfl := Except.ok.inj (hapi₁.symm.trans hapi')
    exact hsame

/-- A pet with its owner. -/
def ownedPet : Json :=
  .object [("properties", .object [
    ("owner", .object [("$ref", .string "#/components/schemas/Owner")])])]

/-- Pets and their owners, who refer to each other. The pets are written twice,
and owners refer to the second place. -/
def petShop (paths : List (String × Json)) : Json :=
  .object [("openapi", .string "3.0.0"), ("paths", .object paths),
    ("components", .object [("schemas", .object [("Pet", ownedPet), ("Owner", .object [("properties",
      .object [("pet", .object [("$ref", .string "#/shared/Pet")])])])])]),
    ("shared", .object [("Pet", ownedPet)])]

/-- The path of pets. -/
def petsPath : String × Json :=
  ("/pets", .object [("get", .object [("responses", .object [("200", .object [("content",
    .object [("application/json", .object [
      ("schema", .object [("$ref", .string "#/components/schemas/Pet")])])])])])])])

/-- The path of owners. One of its responses is that of the other path. -/
def ownersPath : String × Json :=
  ("/owners", .object [
    ("post", .object [("responses", .object [
      ("default", .object [("$ref", .string "#/paths/~1pets/get/responses/200")])])]),
    ("get", .object [("responses", .object [("200", .object [("content",
      .object [("application/json", .object [
        ("schema", .object [("$ref", .string "#/components/schemas/Owner")])])])])])])])

/-- The references of one name in the pet shop lead to one value, since the two
places of pets are alike. -/
theorem namesAgree_petShop : NamesAgree (petShop [petsPath, ownersPath]) := by
  have hwritten : written (petShop [petsPath, ownersPath]) =
      ["#/components/schemas/Pet", "#/paths/~1pets/get/responses/200",
        "#/components/schemas/Owner", "#/components/schemas/Owner", "#/shared/Pet",
        "#/components/schemas/Owner"] := by
    rfl
  -- where a reference leads can be told from its name
  have hleads : ∀ p ∈ written (petShop [petsPath, ownersPath]),
      Pointer.resolve? (petShop [petsPath, ownersPath]) p =
        Pointer.resolve? (petShop [petsPath, ownersPath])
          (if Pointer.typeName p = "Pet" then "#/shared/Pet"
          else if Pointer.typeName p = "Owner" then "#/components/schemas/Owner"
          else "#/paths/~1pets/get/responses/200") := by
    intro p hp
    rw [hwritten] at hp
    simp only [List.mem_cons, List.not_mem_nil, or_false] at hp
    rcases hp with rfl | rfl | rfl | rfl | rfl | rfl <;> rfl
  intro p hp q hq hname
  rw [hleads p hp, hleads q hq, hname]

/-- With the owners first the owner is named first. Both runs bind the two
names alike and give the same endpoints, in two orders. -/
theorem api_pathOrder_of_petShop :
    (petShop [petsPath, ownersPath]).Regular ∧
    PathsReordered (petShop [petsPath, ownersPath]) (petShop [ownersPath, petsPath]) ∧
    NamesAgree (petShop [petsPath, ownersPath]) ∧
    ∃ source api other api', ofJson (petShop [petsPath, ownersPath]) = .ok source ∧
      source.api Options.default = .ok api ∧
      ofJson (petShop [ownersPath, petsPath]) = .ok other ∧
      other.api Options.default = .ok api' ∧ SameUpToOrder source other api api' ∧
      api.endpoints.map Endpoint.label = ["GET /pets", "GET /owners", "POST /owners"] ∧
      api'.endpoints.map Endpoint.label = ["GET /owners", "POST /owners", "GET /pets"] ∧
      api.types.names = ["Pet", "Owner"] ∧ api'.types.names = ["Owner", "Pet"] := by
  have htext : ∀ s, (Json.string s).Regular := fun s => Json.regular_of_leaf rfl rfl
  have hregular : (petShop [petsPath, ownersPath]).Regular := by
    simp [petShop, ownedPet, petsPath, ownersPath, Json.regular_object_iff, htext]
  have hreordered :
      PathsReordered (petShop [petsPath, ownersPath]) (petShop [ownersPath, petsPath]) :=
    @PathsReordered.object [("openapi", .string "3.0.0")] _ _ _ (List.Perm.swap _ _ _)
  have hrun : succeedsWith (petShop [petsPath, ownersPath]) Options.default (fun _ api =>
      api.endpoints.map Endpoint.label == ["GET /pets", "GET /owners", "POST /owners"] &&
        api.types.names == ["Pet", "Owner"]) = true := by
    decide
  have hrun' : succeedsWith (petShop [ownersPath, petsPath]) Options.default (fun _ api =>
      api.endpoints.map Endpoint.label == ["GET /owners", "POST /owners", "GET /pets"] &&
        api.types.names == ["Owner", "Pet"]) = true := by
    decide
  obtain ⟨source, api, hsource, hapi, hchecked⟩ := of_succeedsWith hrun
  obtain ⟨other, api', hother, hapi', hchecked'⟩ := of_succeedsWith hrun'
  simp only [Bool.and_eq_true, beq_iff_eq] at hchecked hchecked'
  have hsame := (api_pathOrder hregular hreordered namesAgree_petShop Options.default).2
    source api other api' hsource hapi hother hapi'
  exact ⟨hregular, hreordered, namesAgree_petShop, source, api, other, api', hsource, hapi, hother,
    hapi', hsame, hchecked.1, hchecked'.1, hchecked.2, hchecked'.2⟩

end Source

end TypedClient
