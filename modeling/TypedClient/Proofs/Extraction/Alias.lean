import TypedClient.Proofs.Extraction.Environment
import TypedClient.Proofs.TypeExpr.Alias
/-!
# Schemas that stand for themselves

A schema that is a reference, or a composition of references, stands for the
schemas that these lead to. The named types of a run refer to each other
exactly as the schemas do that the run went into (`circular_aliases`). Cycles
are cut at the first name that is met again, be there a record on the way or
not. So schemas that stand for themselves make no run fail, and end up as names
that never unfold.
-/

namespace TypedClient

namespace Schema

variable {pointer : String} {members : List Schema}

mutual

/-- The pointers of a schema that stand outside its properties and items. -/
def bareReferences : Schema → List String
  | .reference pointer => [pointer]
  | .composition _ members _ => memberBareReferences members
  | _ => []
termination_by structural schema => schema

/-- The bare pointers of members. -/
def memberBareReferences : List Schema → List String
  | [] => []
  | member :: rest => bareReferences member ++ memberBareReferences rest
termination_by structural members => members

end

theorem memberBareReferences_eq :
    memberBareReferences members = members.flatMap bareReferences := by
  induction members with
  | nil => rfl
  | cons m rest ih => rw [memberBareReferences, ih, List.flatMap_cons]

end Schema

namespace Synthesis

variable {withDoc : Bool} {kind : Composition} {discriminator : Option Discriminator}
variable {member schema : Schema} {type : TypeExpr}

/-- A tag has no bare names. -/
theorem bareNames_memberType :
    (memberType kind discriminator member type).bareNames = type.bareNames := by
  cases discriminator with
  | none => rfl
  | some d =>
    have htagged : (tagged d member type).bareNames = type.bareNames := by
      rw [tagged, TypeExpr.bareNames, TypeExpr.memberBareNames_eq]
      simp [TypeExpr.bareNames]
    cases kind with
    | allOf => rfl
    | oneOf => exact htagged
    | anyOf => exact htagged

theorem bareNames_composed {types : List TypeExpr} :
    (composed kind types).bareNames = types.flatMap TypeExpr.bareNames := by
  cases kind <;> rw [← TypeExpr.memberBareNames_eq] <;> rfl

/-- **The bare names of a translation** are those of the bare pointers. -/
theorem bareNames_translate :
    (translate withDoc schema).bareNames = schema.bareReferences.map Pointer.typeName := by
  induction schema using Schema.induction with
  | primitive kind => rfl
  | any => rfl
  | reference pointer => rfl
  | array items _ => rfl
  | object properties presence _ => rfl
  | enum values =>
    rw [translate, TypeExpr.bareNames, TypeExpr.memberBareNames_eq, List.flatMap_map]
    exact List.flatMap_eq_nil_iff.2 fun _ _ => rfl
  | composition kind members discriminator ih =>
    rw [Schema.bareReferences, Schema.memberBareReferences_eq, List.map_flatMap, translate]
    split
    · rename_i hempty
      rw [List.isEmpty_iff.1 hempty]
      rfl
    · rw [bareNames_composed, translateMembers_eq, List.flatMap_map]
      refine List.flatMap_congr fun member hmember => ?_
      rw [bareNames_memberType, ih member hmember]

end Synthesis

namespace Source

open Synthesis (Plan Visit Visits resolutions)

variable {raw : Json} {source : Source} {options : Options} {api : Api}
variable {trace : List Visit} {name other : String}

/-- The schema at a pointer has the other as a bare pointer. -/
def StandsFor (document : Json) (pointer other : String) : Prop :=
  ∃ target, Pointer.resolve? document pointer = some target ∧
    other ∈ (Schema.ofJson target).bareReferences

/-- **Names refer to each other as the schemas do** that were gone into. -/
theorem refersTo_iff
    (h : Visits source.raw options.withDoc (source.plan options).pointers Registry.empty trace
      none api.types) : api.types.RefersTo name other ↔
    ∃ v ∈ resolutions trace, v.name = name ∧
      ∃ p, StandsFor source.raw v.pointer p ∧ Pointer.typeName p = other := by
  constructor
  · rintro ⟨definition, hlookup, hother⟩
    have hname : name ∈ (resolutions trace).map Visit.name := by
      have hmem := Registry.mem_names_of_lookup? hlookup
      rwa [h.names, Registry.names_empty, List.nil_append] at hmem
    obtain ⟨v, hv, rfl⟩ := List.mem_map.1 hname
    obtain ⟨target, htarget, hbinding⟩ := h.defined rfl v hv
    rw [Registry.lookup?_of_binding hbinding] at hlookup
    obtain rfl := Option.some.inj hlookup
    rw [Synthesis.definition, Synthesis.bareNames_translate] at hother
    obtain ⟨p, hp, rfl⟩ := List.mem_map.1 hother
    exact ⟨v, hv, rfl, p, ⟨target, htarget, hp⟩, rfl⟩
  · rintro ⟨v, hv, rfl, p, ⟨target, htarget, hp⟩, rfl⟩
    obtain ⟨found, hfound, hbinding⟩ := h.defined rfl v hv
    obtain rfl := Option.some.inj (htarget.symm.trans hfound)
    refine ⟨_, Registry.lookup?_of_binding hbinding, ?_⟩
    rw [Synthesis.definition, Synthesis.bareNames_translate]
    exact List.mem_map_of_mem hp

/-- What a run refers to is defined. -/
theorem closed_of_api (hread : ofJson raw = .ok source) (h : source.api options = .ok api) :
    api.types.Closed := by
  rintro name other ⟨definition, hlookup, hother⟩
  obtain ⟨trace, hvisits, -⟩ := visits_of_api h
  obtain ⟨-, hentries, -⟩ := types_wellFormed hread h
  obtain ⟨-, found, hfound, hwellFormed⟩ :=
    hentries _ (Registry.mem_entries_of_lookup? hlookup)
  obtain rfl := Option.some.inj hfound
  exact (hwellFormed.names other (TypeExpr.part_of_mem_bareNames hother)).2

/-- A run fails with what its plan fails with, or at a pointer that leads
nowhere. -/
theorem result_or_lost_of_api {e : Error} (h : source.api options = .error e) :
    (source.plan options).result = .error e ∨
      ∃ p, e = .unresolved p ∧ Pointer.resolve? source.raw p = none := by
  obtain ⟨trace, stop, r', hvisits, hapi⟩ := source.api_of_visits options
  rw [hapi] at h
  cases stop with
  | some p =>
    cases h
    exact .inr ⟨p, rfl, hvisits.resolve?_of_stop rfl⟩
  | none =>
    rw [Plan.answer] at h
    cases hresult : (source.plan options).result with
    | ok endpoints =>
      rw [hresult] at h
      cases h
    | error e =>
      rw [hresult] at h
      cases h
      exact .inl rfl

/-- **Circular aliases.** What ends a run is a failure of its plan, which
looks into no component schema, or a pointer that leads nowhere; never a cycle
of schemas. In a run that succeeds a name refers to another exactly if the
schema that was gone into under that name stands for a pointer to the other,
and all names unfold exactly if none refers to itself. -/
theorem circular_aliases (options : Options) (hread : ofJson raw = .ok source) :
    (∀ e, source.api options = .error e → (source.plan options).result = .error e ∨
      ∃ p, e = .unresolved p ∧ Pointer.resolve? source.raw p = none) ∧
    ∀ api, source.api options = .ok api →
      ∃ trace, Visits source.raw options.withDoc (source.plan options).pointers Registry.empty
          trace none api.types ∧
        (∀ name other, api.types.RefersTo name other ↔ ∃ v ∈ resolutions trace, v.name = name ∧
          ∃ p, StandsFor source.raw v.pointer p ∧ Pointer.typeName p = other) ∧
        (api.types.Acyclic ↔ ∀ name definition, api.types.lookup? name = some definition →
          api.types.Unfolds (.ref name)) := by
  refine ⟨fun e h => result_or_lost_of_api h, fun api h => ?_⟩
  obtain ⟨trace, hvisits, -⟩ := visits_of_api h
  exact ⟨trace, hvisits, fun name other => refersTo_iff hvisits,
    Registry.acyclic_iff (closed_of_api hread h)⟩

/-- A response that is a list, whose elements lead to a list again, and whose
tail is a cycle of schemas. -/
def knottedList : Json :=
  .object [("paths", .object [("/x", .object [("get", .object [("responses", .object [
      ("200", .object [("content", .object [("application/json", .object [
        ("schema", .object [("$ref", .string "#/components/schemas/Node")])])])])])])])]),
    ("components", .object [("schemas", .object [
      ("Node", .object [("properties", .object [
        ("next", .object [("$ref", .string "#/components/schemas/Node")]),
        ("tail", .object [("$ref", .string "#/components/schemas/Loop")])])]),
      ("Loop", .object [("oneOf", .array [
        .object [("type", .string "null")],
        .object [("$ref", .string "#/components/schemas/Knot")]])]),
      ("Knot", .object [("allOf", .array [
        .object [("$ref", .string "#/components/schemas/Loop")]])])])])]

/-- The run over it succeeds. The list unfolds, and the cycle does not. -/
theorem circular_aliases_of_knottedList : ∃ source api, ofJson knottedList = .ok source ∧
    source.api .default = .ok api ∧ api.types.names = ["Node", "Loop", "Knot"] ∧
    api.types.Unfolds (.ref "Node") ∧ api.types.RefersTo "Loop" "Knot" ∧
    api.types.RefersTo "Knot" "Loop" ∧ ¬ api.types.Acyclic ∧
    ¬ ∀ name definition, api.types.lookup? name = some definition →
      api.types.Unfolds (.ref name) := by
  have hrun : succeedsWith knottedList .default (fun _ api =>
      api.types.names == ["Node", "Loop", "Knot"] &&
        (api.types.lookup? "Node").map (·.type.bareNames) == some [] &&
        (api.types.lookup? "Loop").map (·.type.bareNames) == some ["Knot"] &&
        (api.types.lookup? "Knot").map (·.type.bareNames) == some ["Loop"]) = true := by
    decide
  obtain ⟨source, api, hsource, hapi, hchecked⟩ := of_succeedsWith hrun
  simp only [Bool.and_eq_true, beq_iff_eq, Option.map_eq_some_iff] at hchecked
  obtain ⟨⟨⟨hnames, node, hnode, hnodeBare⟩, loop, hloop, hloopBare⟩, knot, hknot, hknotBare⟩ :=
    hchecked
  obtain ⟨-, hsuccess⟩ := circular_aliases .default hsource
  obtain ⟨trace, -, -, hacyclic⟩ := hsuccess api hapi
  have hforth : api.types.RefersTo "Loop" "Knot" := ⟨loop, hloop, by simp [hloopBare]⟩
  have hback : api.types.RefersTo "Knot" "Loop" := ⟨knot, hknot, by simp [hknotBare]⟩
  have hcycle : ¬ api.types.Acyclic := fun h => h "Loop" (.tail (.single hforth) hback)
  refine ⟨source, api, hsource, hapi, hnames, .ref hnode ?_, hforth, hback, hcycle,
    fun hall => hcycle (hacyclic.2 hall)⟩
  exact Registry.unfolds_of_bareNames fun name hname => by
    rw [hnodeBare] at hname
    cases hname

/-- A response whose schema is a reference to itself. -/
def selfReference : Json :=
  .object [("paths", .object [("/x", .object [("get", .object [("responses", .object [
      ("200", .object [("content", .object [("application/json", .object [
        ("schema", .object [("$ref", .string "#/components/schemas/A")])])])])])])])]),
    ("components", .object [("schemas", .object [
      ("A", .object [("$ref", .string "#/components/schemas/A")])])])]

/-- The run over it succeeds with a name that stands for itself and never
unfolds. -/
theorem exists_circular_alias : ∃ source api definition,
    ofJson selfReference = .ok source ∧ source.api .default = .ok api ∧
    api.types.lookup? "A" = some definition ∧ definition.type = .ref "A" ∧
    ¬ api.types.Acyclic ∧ ¬ api.types.Unfolds (.ref "A") := by
  have hrun : succeedsWith selfReference .default (fun _ api =>
      (api.types.lookup? "A").map (·.type.same (.ref "A")) == some true) = true := by
    decide
  obtain ⟨source, api, hsource, hapi, hchecked⟩ := of_succeedsWith hrun
  simp only [beq_iff_eq, Option.map_eq_some_iff] at hchecked
  obtain ⟨definition, hlookup, hsame⟩ := hchecked
  have htype : definition.type = .ref "A" := (TypeExpr.same_iff _ _).1 hsame
  have hcycle : Relation.TransGen api.types.RefersTo "A" "A" :=
    .single ⟨definition, hlookup, by rw [htype]; exact List.mem_singleton_self _⟩
  exact ⟨source, api, definition, hsource, hapi, hlookup, htype, fun h => h "A" hcycle,
    fun h => h.not_transGen hcycle⟩

end Source

end TypedClient
