import TypedClient.Proofs.Distinct
import TypedClient.Proofs.Reference
import TypedClient.Proofs.Extraction.Plan
/-!
# What an extraction gives

The plan of an extraction says what a run leads to: endpoints whose types are
words or translations of schemas read from the document, and whose arguments
have different names at each location, or one of three kinds of failure
(`plan_meets`). So these types are well formed over the names of the pointers of
the plan (`endpointsNamed_of_result`). A run fails in no other way
(`failure_of_api`): no two definitions of a name are ever in conflict, since a
name that is bound is not defined again.
-/

namespace TypedClient

/-- The types that an endpoint sends and receives. -/
def Endpoint.types (e : Endpoint) : List TypeExpr :=
  (e.body.map (·.type)).toList ++ e.outcomes.flatMap fun o => o.mediaTypes.map (·.2)

namespace Source

open Synthesis (Plan translate)

/-- **What an extraction fails with**: a reference that has no end, or a
response with several media types. -/
inductive Failure : Error → Prop
  | reference {e : Error} : RefOr.Failure e → Failure e
  | unsupportedShape {label status : String} {mediaTypes : List String} :
      Failure (.unsupportedShape label status mediaTypes)

/-- The names of the types for pointers. -/
def NamedBy (pointers : List String) (name : String) : Prop :=
  ∃ p ∈ pointers, Pointer.typeName p = name

/-- **The types that an extraction gives**: words, and the translations of
schemas that are read from the document and refer to some pointers. -/
inductive Translated (source : Source) (options : Options) (within : List String) :
    TypeExpr → Prop
  | keyword {word : Keyword} : Translated source options within (.keyword word)
  | schema {value : Json} : Json.Part value source.raw →
      (Schema.ofJson value).references ⊆ within →
      Translated source options within (translate options.withDoc (Schema.ofJson value))

variable {source : Source} {options : Options} {within : List String} {type : TypeExpr}

/-- They are well formed over the names of these pointers. -/
theorem Translated.wellFormed (h : Translated source options within type) :
    type.WellFormed (NamedBy within) := by
  cases h with
  | keyword => exact .keyword
  | @schema value _ hsub =>
    exact Synthesis.wellFormed_translate (Schema.filled_ofJson value) fun p hp => ⟨p, hsub hp, rfl⟩

/-- Following leads to what was read, or fails as references do. -/
theorem follow_meets {α : Type} {read : Json → Shape α} {P : α → Prop} {item : RefOr α}
    (hread : Shape.YieldsIn source.raw read P) (hitem : item.Holds P) :
    (Plan.settled (item.follow source.raw read)).Meets within Failure P :=
  .settled (RefOr.follow_ends hread hitem).1 fun e he =>
    .reference ((RefOr.follow_ends hread hitem).2 e he)

theorem typePlan_meets {schema : Option Schema} (h : ∀ s ∈ schema, s.ReadFrom source.raw) :
    (typePlan options schema).Meets within Failure (Translated source options within) := by
  cases schema with
  | none => exact .pure .keyword
  | some s =>
    obtain ⟨value, hpart, rfl⟩ := h s rfl
    exact .ofSchema fun hsub => .schema hpart hsub

theorem bodyTypePlan_meets {mediaType : String} {schema : Option Schema}
    (h : ∀ s ∈ schema, s.ReadFrom source.raw) :
    (bodyTypePlan options mediaType schema).Meets within Failure
      (Translated source options within) := by
  rw [bodyTypePlan]
  cases Media.classify mediaType with
  | json => exact typePlan_meets h
  | text => exact .pure .keyword
  | _ => exact .pure .keyword

/-- The preferred entry is one of the entries. -/
theorem mem_of_preferred? {α : Type} {entries : List (String × α)} {entry : String × α}
    (h : Media.preferred? entries = some entry) : entry ∈ entries := by
  rw [Media.preferred?] at h
  split at h
  · rename_i hfirst
    cases h
    exact List.mem_of_find?_eq_some hfirst
  · split at h
    · rename_i hfirst
      cases h
      exact List.mem_of_find?_eq_some hfirst
    · exact List.mem_of_mem_head? h

theorem bodyPlan_meets {b : RequestBody} (h : b.content.All (Schema.ReadFrom source.raw)) :
    (bodyPlan options b).Meets within Failure
      fun body => ∀ b ∈ body, Translated source options within b.type := by
  rw [bodyPlan]
  cases hentry : Media.preferred? b.content with
  | none => exact .pure (by simp)
  | some entry =>
    refine (bodyTypePlan_meets (h entry (mem_of_preferred? hentry))).bind fun type htype => .pure ?_
    intro body hbody
    obtain rfl := Option.some.inj hbody
    exact htype

theorem mediaTypesPlan_meets {content : Content}
    (h : content.All (Schema.ReadFrom source.raw)) :
    (mediaTypesPlan options content).Meets within Failure
      fun types => ∀ e ∈ types, Translated source options within e.2 := by
  induction content with
  | nil => exact .pure (by simp)
  | cons entry rest ih =>
    refine (typePlan_meets (h entry List.mem_cons_self)).bind fun type htype => ?_
    refine (ih fun e he => h e (List.mem_cons_of_mem _ he)).bind fun others hothers => .pure ?_
    intro e he
    rcases List.mem_cons.1 he with rfl | he
    · exact htype
    · exact hothers e he

theorem outcomePlan_meets {label : String} {status : Status} {response : Response}
    (h : response.content.All (Schema.ReadFrom source.raw)) :
    (outcomePlan options label status response).Meets within Failure
      fun o => ∀ e ∈ o.mediaTypes, Translated source options within e.2 := by
  rw [outcomePlan]
  split
  · exact .settled (fun _ heq => by cases heq) fun e heq => by cases heq; exact .unsupportedShape
  · exact (mediaTypesPlan_meets h).bind fun types htypes => .pure htypes

theorem outcomesPlan_meets {label : String} {responses : List (String × RefOr Response)}
    (h : ∀ e ∈ responses, e.2.Holds fun r => r.content.All (Schema.ReadFrom source.raw)) :
    (source.outcomesPlan options label responses).Meets within Failure
      fun outcomes => ∀ o ∈ outcomes, ∀ e ∈ o.mediaTypes,
        Translated source options within e.2 := by
  induction responses with
  | nil => exact .pure fun o ho => by cases ho
  | cons entry rest ih =>
    have hread := Response.ofJson_yieldsIn (Shape.schema_readFrom source.raw)
    refine (follow_meets hread (h entry List.mem_cons_self)).bind fun response hresponse => ?_
    refine (outcomePlan_meets hresponse).bind fun first hfirst => ?_
    refine (ih fun e he => h e (List.mem_cons_of_mem _ he)).bind fun others hothers => .pure ?_
    intro o ho
    rcases List.mem_cons.1 ho with rfl | ho
    · exact hfirst
    · exact hothers o ho

theorem operationBodyPlan_meets {operation : Operation}
    (h : operation.All (Schema.ReadFrom source.raw)) :
    (source.operationBodyPlan options operation).Meets within Failure
      fun body => ∀ b ∈ body, Translated source options within b.type := by
  rw [operationBodyPlan]
  cases hbody : operation.requestBody with
  | none => exact .pure (by simp)
  | some b =>
    have hread := RequestBody.ofJson_yieldsIn (Shape.schema_readFrom source.raw)
    exact (follow_meets hread (h.1 b hbody)).bind fun body hbody => bodyPlan_meets hbody

/-! ## Parameters -/

variable {parameter : Parameter} {placed parameters : List Parameter}

/-- What a parameter is told apart by. -/
def slot (p : Parameter) : String × Location := (p.name, p.location)

theorem place_cons {p : Parameter} {rest : List Parameter} : place parameter (p :: rest) =
    if slot p = slot parameter then parameter :: rest else p :: place parameter rest := by
  simp only [place, slot, Prod.mk.injEq]

/-- A parameter takes the place of its slot, or a new one at the end. -/
theorem slots_place : (place parameter placed).map slot =
    if slot parameter ∈ placed.map slot then placed.map slot
    else placed.map slot ++ [slot parameter] := by
  induction placed with
  | nil => rfl
  | cons p rest ih =>
    rw [place_cons]
    by_cases hp : slot p = slot parameter
    · rw [if_pos hp, if_pos (by simp [hp]), List.map_cons, List.map_cons, hp]
    rw [if_neg hp, List.map_cons, ih, List.map_cons]
    by_cases hrest : slot parameter ∈ rest.map slot
    · rw [if_pos hrest, if_pos (List.mem_cons_of_mem _ hrest)]
    · have hnew : slot parameter ∉ slot p :: rest.map slot := by
        rw [List.mem_cons, not_or]
        exact ⟨Ne.symm hp, hrest⟩
      rw [if_neg hrest, if_neg hnew, List.cons_append]

theorem nodup_slots_place (h : (placed.map slot).Nodup) :
    ((place parameter placed).map slot).Nodup := by
  rw [slots_place]
  split
  · exact h
  · rename_i hnew
    exact nodup_append_singleton_iff.2 ⟨h, hnew⟩

/-- **No slot has two parameters.** -/
theorem nodup_slots_of_placeAll {items : List (RefOr Parameter)}
    (hplaced : (placed.map slot).Nodup) (h : placeAll source placed items = .ok parameters) :
    (parameters.map slot).Nodup := by
  induction items generalizing placed with
  | nil =>
    cases h
    exact hplaced
  | cons p rest ih =>
    rw [placeAll] at h
    split at h
    · exact ih (nodup_slots_place hplaced) h
    · cases h

/-- **The arguments at a location have different names.** -/
theorem nodup_argumentsAt (h : (parameters.map slot).Nodup) (location : Location) :
    ((argumentsAt location parameters).map (·.name)).Nodup := by
  have hat : ∀ p ∈ parameters.filter (·.location == location), p.location = location :=
    fun p hp => eq_of_beq (List.mem_filter.1 hp).2
  have hnames : (argumentsAt location parameters).map (·.name) =
      ((parameters.filter (·.location == location)).map slot).map Prod.fst := by
    rw [argumentsAt, List.map_map, List.map_map]
    rfl
  rw [hnames]
  refine List.Nodup.map_on ?_ ((List.filter_sublist.map slot).nodup h)
  -- slots of one location differ in their names
  intro s hs t ht hname
  obtain ⟨p, hp, rfl⟩ := List.mem_map.1 hs
  obtain ⟨q, hq, rfl⟩ := List.mem_map.1 ht
  exact Prod.ext hname ((hat p hp).trans (hat q hq).symm)

/-! ## Failures -/

/-- Parameters fail as references do. -/
theorem failure_of_placeAll {items : List (RefOr Parameter)} {e : Error}
    (h : placeAll source placed items = .error e) : Failure e := by
  induction items generalizing placed with
  | nil => cases h
  | cons p rest ih =>
    rw [placeAll] at h
    split at h
    · exact ih h
    · rename_i hfollow
      cases h
      exact .reference ((RefOr.follow_ends (P := fun _ => True) (fun _ _ _ _ => trivial)
        (by cases p <;> trivial)).2 _ hfollow)

/-- And so do security schemes. -/
theorem failure_of_anyBasic {schemes : List (String × RefOr SecurityScheme)}
    {names : List String} {e : Error} (h : anyBasic source schemes names = .error e) :
    Failure e := by
  induction names with
  | nil => cases h
  | cons name rest ih =>
    rw [anyBasic] at h
    split at h
    · exact ih h
    · rename_i scheme hscheme
      split at h
      · rename_i hfollow
        cases h
        exact .reference ((RefOr.follow_ends (P := fun _ => True) (fun _ _ _ _ => trivial)
          (by cases scheme <;> trivial)).2 _ hfollow)
      · split at h
        · cases h
        · exact ih h

theorem failure_of_needsBasic {operation : Operation} {e : Error}
    (h : source.needsBasic operation = .error e) : Failure e := by
  rw [needsBasic] at h
  split at h
  · cases h
  · exact failure_of_anyBasic h

/-! ## Endpoints -/

/-- **What the endpoints of an extraction have in common.** -/
structure Extracted (source : Source) (options : Options) (within : List String)
    (e : Endpoint) : Prop where
  /-- Their types are those of an extraction. -/
  types : ∀ type ∈ e.types, Translated source options within type
  /-- No two arguments in the path have one name. -/
  pathArguments : (e.pathArguments.map (·.name)).Nodup
  /-- No two headers have one name. -/
  headerArguments : (e.headerArguments.map (·.name)).Nodup
  /-- No two arguments of the query have one name. -/
  queryArguments : (e.queryArguments.map (·.name)).Nodup

theorem endpointPlan_meets {path : String} {method : Method} {item : PathItem}
    {operation : Operation} (h : operation.All (Schema.ReadFrom source.raw)) :
    (source.endpointPlan options path method item operation).Meets within Failure
      (Extracted source options within) := by
  have hbasic : (Plan.settled (source.needsBasic operation)).Meets within Failure fun _ => True :=
    .settled (fun _ _ => trivial) fun e he => failure_of_needsBasic he
  have hnone : (([] : List Parameter).map slot).Nodup := List.nodup_nil
  have hparameters : (Plan.settled (source.parameters item operation)).Meets within Failure
      fun parameters => (parameters.map slot).Nodup :=
    .settled (fun _ hplaced => nodup_slots_of_placeAll hnone hplaced)
      fun e he => failure_of_placeAll he
  refine hbasic.bind fun basicAuth _ => hparameters.bind fun parameters hslots => ?_
  refine (operationBodyPlan_meets h).bind fun body hbody => ?_
  refine (outcomesPlan_meets h.2).bind fun outcomes houtcomes => .pure ⟨?_,
    nodup_argumentsAt hslots .path, nodup_argumentsAt hslots .header,
    nodup_argumentsAt hslots .query⟩
  intro type htype
  rcases List.mem_append.1 htype with hmem | hmem
  · obtain ⟨b, hb, rfl⟩ := Option.map_eq_some_iff.1 (Option.mem_toList.1 hmem)
    exact hbody b hb
  · obtain ⟨o, ho, hmem⟩ := List.mem_flatMap.1 hmem
    obtain ⟨e, he, rfl⟩ := List.mem_map.1 hmem
    exact houtcomes o ho e he

theorem pathEndpointsPlan_meets {path : String} {item : PathItem}
    {operations : List (Method × Operation)}
    (h : ∀ e ∈ operations, e.2.All (Schema.ReadFrom source.raw)) :
    (source.pathEndpointsPlan options path item operations).Meets within Failure
      fun endpoints => ∀ e ∈ endpoints, Extracted source options within e := by
  induction operations with
  | nil => exact .pure fun e he => by cases he
  | cons entry rest ih =>
    refine (endpointPlan_meets (h entry List.mem_cons_self)).bind fun first hfirst => ?_
    refine (ih fun e he => h e (List.mem_cons_of_mem _ he)).bind fun others hothers => .pure ?_
    intro e he
    rcases List.mem_cons.1 he with rfl | he
    · exact hfirst
    · exact hothers e he

/-- The operations of a path are those of its methods. -/
theorem operation?_of_mem_operationsOf {item : PathItem} {e : Method × Operation}
    (h : e ∈ operationsOf item) : item.operation? e.1 = some e.2 := by
  obtain ⟨method, -, hmethod⟩ := List.mem_filterMap.1 h
  obtain ⟨operation, hoperation, rfl⟩ := Option.map_eq_some_iff.1 hmethod
  exact hoperation

/-- And have what all of its schemas have. -/
theorem all_of_mem_operationsOf {item : PathItem} {P : Schema → Prop} (h : item.All P) :
    ∀ e ∈ operationsOf item, e.2.All P :=
  fun e he => h e.1 e.2 (operation?_of_mem_operationsOf he)

theorem endpointsPlan_meets {paths : List (String × PathItem)}
    (h : ∀ e ∈ paths, e.2.All (Schema.ReadFrom source.raw)) :
    (source.endpointsPlan options paths).Meets within Failure
      fun endpoints => ∀ e ∈ endpoints, Extracted source options within e := by
  induction paths with
  | nil => exact .pure fun e he => by cases he
  | cons entry rest ih =>
    refine (pathEndpointsPlan_meets (all_of_mem_operationsOf (h entry List.mem_cons_self))).bind
      fun first hfirst => ?_
    refine (ih fun e he => h e (List.mem_cons_of_mem _ he)).bind fun others hothers => .pure ?_
    intro e he
    rcases List.mem_append.1 he with he | he
    · exact hfirst e he
    · exact hothers e he

theorem componentsPlan_meets {names : List String} :
    (componentsPlan options names).Meets within Failure fun _ => True := by
  induction names with
  | nil => exact .pure trivial
  | cons name rest ih =>
    have hfirst : (Plan.ofSchema options.withDoc
        (.reference (Pointer.ofSchemaName name))).Meets within Failure fun _ => True :=
      .ofSchema fun _ => trivial
    exact hfirst.bind fun _ _ => ih

/-- **What the plan of an extraction leads to**: endpoints that have this in
common, or a failure. -/
theorem plan_meets (h : source.document.All (Schema.ReadFrom source.raw)) :
    (source.plan options).Meets within Failure
      fun endpoints => ∀ e ∈ endpoints, Extracted source options within e := by
  refine (endpointsPlan_meets h).bind fun endpoints hendpoints => ?_
  by_cases hall : options.allComponents = true
  · simp only [hall, if_true]
    exact componentsPlan_meets.bind fun _ _ => .pure hendpoints
  · simp only [hall]
    exact .pure hendpoints

variable {raw : Json} {e : Error}

/-- The schemas of a source are read from its value. -/
theorem readFrom_of_ofJson (h : ofJson raw = .ok source) :
    source.document.All (Schema.ReadFrom source.raw) := by
  obtain ⟨hraw, hdocument⟩ := document_of_ofJson h
  rw [hraw]
  exact Document.ofJson_yieldsIn (Shape.schema_readFrom raw) _ _ .self hdocument

/-- A plan gives such endpoints over its pointers. -/
theorem extracted_of_result {endpoints : List Endpoint} (hread : ofJson raw = .ok source)
    (h : (source.plan options).result = .ok endpoints) :
    ∀ e ∈ endpoints, Extracted source options (source.plan options).pointers e := by
  have hmeets := plan_meets (readFrom_of_ofJson hread)
    (List.Subset.refl (source.plan options).pointers)
  rw [h] at hmeets
  exact hmeets

/-- The types of endpoints are well formed. -/
def EndpointsNamed (within : List String) (endpoints : List Endpoint) : Prop :=
  ∀ e ∈ endpoints, ∀ type ∈ e.types, type.WellFormed (NamedBy within)

/-- The endpoints of a plan are well formed over the names of its
pointers. -/
theorem endpointsNamed_of_result {endpoints : List Endpoint} (hread : ofJson raw = .ok source)
    (h : (source.plan options).result = .ok endpoints) :
    EndpointsNamed (source.plan options).pointers endpoints :=
  fun e he type htype => ((extracted_of_result hread h e he).types type htype).wellFormed

/-- And a plan fails as an extraction does. -/
theorem failure_of_result (hread : ofJson raw = .ok source)
    (h : (source.plan options).result = .error e) : Failure e := by
  have hmeets := plan_meets (readFrom_of_ofJson hread)
    (List.Subset.refl (source.plan options).pointers)
  rw [h] at hmeets
  exact hmeets

/-- **A run fails as an extraction does**, and never over two definitions
of one name. -/
theorem failure_of_api (hread : ofJson raw = .ok source) (h : source.api options = .error e) :
    Failure e := by
  obtain ⟨trace, stop, r', -, hapi⟩ := source.api_of_visits options
  rw [hapi] at h
  cases stop with
  | some p =>
    cases h
    exact .reference .unresolved
  | none =>
    rw [Plan.answer] at h
    cases hresult : (source.plan options).result with
    | ok endpoints =>
      rw [hresult] at h
      cases h
    | error e =>
      rw [hresult] at h
      cases h
      exact failure_of_result hread hresult

end Source

end TypedClient
