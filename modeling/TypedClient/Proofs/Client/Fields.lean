import TypedClient.Proofs.Client.Exports
import TypedClient.Proofs.Extraction.Environment
import TypedClient.Proofs.Synthesis.Fields
/-!
# The fields of the records of a client

No record of a client has two fields of one name, with one exception: the
arguments in the path of an operation stand beside the data of its body, its
query and its headers, and nothing keeps an argument from being called like one
of these (`fields_distinct`).
-/

namespace TypedClient

open TypeExpr (DistinctFields)

/-- What stands beside the arguments in the path: the data of a body, and the
query and the headers where there are some. -/
def Endpoint.groups (e : Endpoint) : List String :=
  (e.body.map fun _ => "data").toList ++
    (if e.queryArguments.isEmpty then [] else ["query"]) ++
    (if e.headerArguments.isEmpty then [] else ["headers"])

theorem Endpoint.nodup_groups (e : Endpoint) : e.groups.Nodup := by
  rw [groups]
  cases e.body <;> cases e.queryArguments.isEmpty <;> cases e.headerArguments.isEmpty <;> simp

/-! ## Types of arguments and results -/

namespace Binding

variable {withDoc : Bool} {group : List Argument} {name : String} {status data : TypeExpr}
variable {e : Endpoint}

theorem names_argumentFields :
    (group.map (argumentField withDoc)).map (·.1.name) = group.map (·.name) := by
  rw [List.map_map]
  rfl

theorem names_groupField : (groupField withDoc name group).map (·.1.name) =
    if group.isEmpty then [] else [name] := by
  rw [groupField]
  split
  · rfl
  · rfl

theorem distinctFields_simpleType (t : SimpleType) : t.typeExpr.DistinctFields := by
  cases t with
  | string => exact .keyword
  | number => exact .keyword
  | any => exact .keyword

theorem distinctFields_of_mem_arguments :
    ∀ f ∈ group.map (argumentField withDoc), f.2.DistinctFields := by
  intro f hf
  obtain ⟨a, -, rfl⟩ := List.mem_map.1 hf
  exact distinctFields_simpleType a.type

theorem distinctFields_of_mem_groupField (h : (group.map (·.name)).Nodup) :
    ∀ f ∈ groupField withDoc name group, f.2.DistinctFields := by
  intro f hf
  rw [groupField] at hf
  split at hf
  · cases hf
  · obtain rfl := List.mem_singleton.1 hf
    refine .record ?_ distinctFields_of_mem_arguments
    rw [names_argumentFields]
    exact h

theorem distinctFields_resultRecord (hstatus : status.DistinctFields)
    (hdata : data.DistinctFields) : (resultRecord status data).DistinctFields := by
  have hnames : ["status", "headers", "data"].Nodup := by decide
  refine .record hnames fun f hf => ?_
  obtain rfl | rfl | rfl : f = (.plain "status", status) ∨
      f = (.plain "headers", .ref "Headers") ∨ f = (.plain "data", data) := by
    simpa using hf
  · exact hstatus
  · exact .ref
  · exact hdata

theorem distinctFields_fieldType (s : Status) : s.fieldType.DistinctFields := by
  cases s with
  | code n => exact .literal
  | default => exact .literal
  | range key => exact .keyword

/-- **The result for a status has distinct fields** if the types of its media
types have. -/
theorem distinctFields_variantType {o : Outcome}
    (h : ∀ entry ∈ o.mediaTypes, entry.2.DistinctFields) : (variantType o).DistinctFields := by
  refine distinctFields_resultRecord (distinctFields_fieldType o.status) ?_
  cases hentry : Media.preferred? o.mediaTypes with
  | none => exact .keyword
  | some entry => exact h entry (Source.mem_of_preferred? hentry)

theorem distinctFields_resultType (b : Binding) : b.resultType.DistinctFields := by
  rw [resultType]
  split
  · exact distinctFields_resultRecord .keyword .keyword
  · refine .union fun m hm => ?_
    obtain ⟨v, -, rfl⟩ := List.mem_map.1 hm
    exact .ref

/-- **The fields for the arguments**: those for the arguments in the path, and
those that stand beside them. -/
theorem exists_fields_paramsType (withDoc : Bool) (hquery : (e.queryArguments.map (·.name)).Nodup)
    (hheaders : (e.headerArguments.map (·.name)).Nodup)
    (hbody : ∀ b ∈ e.body, b.type.DistinctFields) :
    ∃ fields, paramsType withDoc e = .record fields ∧ (∀ f ∈ fields, f.2.DistinctFields) ∧
      fields.map (·.1.name) = e.pathArguments.map (·.name) ++ e.groups := by
  refine ⟨_, rfl, ?_, ?_⟩
  · have hdata : ∀ f ∈ (e.body.map (bodyField withDoc)).toList, f.2.DistinctFields := by
      intro f hf
      obtain ⟨b, hb, rfl⟩ := Option.map_eq_some_iff.1 (Option.mem_toList.1 hf)
      exact hbody b hb
    exact List.forall_mem_append.2 ⟨List.forall_mem_append.2 ⟨List.forall_mem_append.2
      ⟨distinctFields_of_mem_arguments, hdata⟩, distinctFields_of_mem_groupField hquery⟩,
      distinctFields_of_mem_groupField hheaders⟩
  · have hdata : ((e.body.map (bodyField withDoc)).toList).map (·.1.name) =
        (e.body.map fun _ => "data").toList := by
      cases e.body with
      | none => rfl
      | some b => rfl
    simp only [List.map_append, names_argumentFields, names_groupField, hdata, Endpoint.groups,
      List.append_assoc]

end Binding

/-! ## The records of a run -/

namespace Source

variable {source : Source} {options : Options} {within : List String} {type : TypeExpr}

theorem Translated.distinctFields (hregular : source.raw.Regular)
    (h : Translated source options within type) : type.DistinctFields := by
  cases h with
  | keyword => exact .keyword
  | schema hpart _ =>
    exact Synthesis.distinctFields_translate
      (Schema.distinctProperties_ofJson (hregular.part hpart))

end Source

namespace Client

variable {raw : Json} {source : Source} {options : Options} {api : Api}

/-- **Which fields have one name.** In the client of a run that succeeds, no
record has two fields of one name, in the named types, in the types of results
and inside the types of arguments, at any depth. Among the arguments of an
operation themselves, two have one name exactly if one of them is in the path
and called like the data of a body, the query or the headers that stand beside
it. -/
theorem fields_distinct (hread : Source.ofJson raw = .ok source) (hregular : raw.Regular)
    (h : source.api options = .ok api) :
    (∀ entry ∈ api.types.definitions, entry.2.type.DistinctFields) ∧
    ∀ b ∈ bindings api options, b.resultType.DistinctFields ∧
      (∀ v ∈ b.variants, v.2.type.DistinctFields) ∧
      ∃ fields, b.params = .record fields ∧ (∀ f ∈ fields, f.2.DistinctFields) ∧
        ∀ name, List.Duplicate name (fields.map (·.1.name)) ↔
          (∃ a ∈ b.endpoint.pathArguments, a.name = name) ∧ name ∈ b.endpoint.groups := by
  obtain ⟨trace, hvisits, hresult⟩ := Source.visits_of_api h
  have hraw : source.raw.Regular := (Source.document_of_ofJson hread).1 ▸ hregular
  refine ⟨fun entry hentry => ?_, fun b hb => ?_⟩
  · obtain ⟨target, hpart, hdefinition⟩ := Source.definition_of_mem_definitions hvisits hentry
    rw [hdefinition]
    exact Synthesis.distinctFields_translate
      (Schema.distinctProperties_ofJson (hraw.part hpart))
  obtain ⟨e, he, rfl⟩ := mem_bindings_iff.1 hb
  have hextracted := Source.extracted_of_result hread hresult e he
  have htypes : ∀ type ∈ e.types, type.DistinctFields :=
    fun type htype => (hextracted.types type htype).distinctFields hraw
  refine ⟨Binding.distinctFields_resultType _, fun v hv => ?_, ?_⟩
  · obtain ⟨o, ho, rfl⟩ := List.mem_map.1 hv
    refine Binding.distinctFields_variantType fun entry hentry => htypes _ ?_
    exact List.mem_append_right _
      (List.mem_flatMap.2 ⟨o, ho, List.mem_map_of_mem hentry⟩)
  · have hbody : ∀ b ∈ e.body, b.type.DistinctFields := by
      intro b hb
      have hmem : b.type ∈ e.body.map (·.type) := Option.map_eq_some_iff.2 ⟨b, hb, rfl⟩
      exact htypes _ (List.mem_append_left _ (Option.mem_toList.2 hmem))
    obtain ⟨fields, hparams, hfields, hnames⟩ := Binding.exists_fields_paramsType options.withDoc
      hextracted.queryArguments hextracted.headerArguments hbody
    refine ⟨fields, hparams, hfields, fun name => ?_⟩
    rw [hnames, duplicate_append_iff hextracted.pathArguments e.nodup_groups, List.mem_map]
    rfl

/-- An operation with a body, and an argument in its path that is called like
the data of the body. -/
def dataInPath : Json :=
  .object [("paths", .object [("/x/\x7bdata\x7d", .object [("post", .object [
    ("parameters", .array [.object [("name", .string "data"), ("in", .string "path")]]),
    ("requestBody", .object [("content", .object [("application/json", .object [
      ("schema", .object [("type", .string "string")])])])]),
    ("responses", .object [])])])])]

/-- Two of its arguments are called so. -/
theorem fields_distinct_of_dataInPath : ∃ source api, dataInPath.Regular ∧
    Source.ofJson dataInPath = .ok source ∧ source.api .default = .ok api ∧
    ∃ b ∈ bindings api .default, b.resultType.DistinctFields ∧
      ∃ fields, b.params = .record fields ∧ List.Duplicate "data" (fields.map (·.1.name)) := by
  have hregular : dataInPath.Regular := by
    have htext : ∀ s, (Json.string s).Regular := fun s => Json.regular_of_leaf rfl rfl
    simp [dataInPath, Json.regular_object_iff, Json.regular_array_iff, htext]
  have hrun : Source.succeedsWith dataInPath .default (fun _ api =>
      (bindings api .default).any fun b =>
        (b.endpoint.pathArguments.any fun a => a.name == "data") &&
          b.endpoint.groups.contains "data") = true := by
    decide
  obtain ⟨source, api, hsource, hapi, hchecked⟩ := Source.of_succeedsWith hrun
  obtain ⟨b, hb, hboth⟩ := List.any_eq_true.1 hchecked
  obtain ⟨harguments, hgroups⟩ := Bool.and_eq_true_iff.1 hboth
  obtain ⟨a, ha, hname⟩ := List.any_eq_true.1 harguments
  obtain ⟨-, hbindings⟩ := fields_distinct hsource hregular hapi
  obtain ⟨hresult, -, fields, hparams, -, htwice⟩ := hbindings b hb
  refine ⟨source, api, hregular, hsource, hapi, b, hb, hresult, fields, hparams, ?_⟩
  exact (htwice "data").2 ⟨⟨a, ha, eq_of_beq hname⟩, List.contains_iff_mem.1 hgroups⟩

/-- **A record with two fields of one name** is declared by a client that is
rendered. -/
theorem exists_fields_not_distinct : ∃ source api text, Source.ofJson dataInPath = .ok source ∧
    source.api .default = .ok api ∧ render api .default = .ok text ∧
    ∃ b ∈ bindings api .default, ¬ b.params.DistinctFields := by
  have hrun : Source.succeedsWith dataInPath .default (fun _ api =>
      (check api .default).isOk && (bindings api .default).any fun b =>
        b.params.same (.record [(.plain "data", .any), (⟨"data", false, false, none⟩, .string)]))
        = true := by
    decide
  obtain ⟨source, api, hsource, hapi, hchecked⟩ := Source.of_succeedsWith hrun
  obtain ⟨hcheck, hany⟩ := Bool.and_eq_true_iff.1 hchecked
  obtain ⟨text, htext⟩ := exists_render_of_check hcheck
  obtain ⟨b, hb, hparams⟩ := List.any_eq_true.1 hany
  refine ⟨source, api, text, hsource, hapi, htext, b, hb, fun hdistinct => ?_⟩
  rw [(TypeExpr.same_iff _ _).1 hparams] at hdistinct
  have hnames : ["data", "data"].Nodup := hdistinct _ .self
  exact absurd hnames (by decide)

end Client

end TypedClient
