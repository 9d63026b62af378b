import TypedClient.Proofs.Client.Exports
import TypedClient.Proofs.Extraction.Environment
import TypedClient.Proofs.Identifier
/-!
# Reserved names

A client is written in a language with reserved words and words for types, and
its text uses global names. A declaration called by one of these cannot be read
back, or takes the place of what the text means. Two kinds of declarations can
be called so (`reserved_exported_iff`): a named type, when the last key of its
pointer is the name as it stands, and the function of a deletion whose path
leaves no words behind the verb. All other names of operations go on behind
their verb or start with it in large.
-/

namespace TypedClient

namespace Client

open Synthesis (Visits Visit)

variable {api : Api} {options : Options} {source : Source} {trace : List Visit}
variable {b : Binding} {name word suffix : String} {n : Names}

/-- The reserved words of the language. -/
def reservedWords : List String :=
  ["break", "case", "catch", "class", "const", "continue", "debugger", "default", "delete", "do",
   "else", "enum", "export", "extends", "false", "finally", "for", "function", "if", "import",
   "in", "instanceof", "new", "null", "return", "super", "switch", "this", "throw", "true", "try",
   "typeof", "var", "void", "while", "with", "implements", "interface", "let", "package",
   "private", "protected", "public", "static", "yield", "await"]

/-- The words for types that cannot be declared. -/
def typeWords : List String :=
  ["string", "number", "boolean", "any", "never", "unknown", "object", "symbol", "bigint",
   "undefined"]

/-- The global names that the text of a client uses. -/
def globalNames : List String :=
  ["Array", "Headers", "Promise", "AbortSignal", "URLSearchParams", "JSON", "fetch", "btoa"]

/-- The names that no declaration should have. -/
def reserved : List String := reservedWords ++ typeWords ++ globalNames

/-! ## Names of operations -/

/-- Only deletion is a reserved word, and no other one starts with a verb. -/
theorem eq_delete_of_verb_front : ∀ word ∈ reserved, ∀ method ∈ Method.all,
    (Naming.verb method).toList <+: word.toList → method = .delete ∧ word = "delete" := by
  decide

/-- And none starts with a verb in large. -/
theorem not_upperFirst_verb_front : ∀ word ∈ reserved, ∀ method ∈ Method.all,
    ¬ (Naming.upperFirst (Naming.verb method)).toList <+: word.toList := by
  decide

theorem mem_methods (method : Method) : method ∈ Method.all := by
  cases method <;> decide

/-- **A function has a reserved name** only if it is called by the bare verb of
deletion. -/
theorem functionName_eq_iff (hword : word ∈ reserved) (method : Method) (path : String) :
    Naming.functionName method path = word ↔ word = "delete" ∧ method = .delete ∧
      Naming.pathName .delete (Naming.segments path) = [] := by
  constructor
  · rintro rfl
    have hfront : (Naming.verb method).toList <+: (Naming.functionName method path).toList := by
      rw [Naming.toList_functionName]
      exact List.prefix_append _ _
    obtain ⟨rfl, hdelete⟩ := eq_delete_of_verb_front _ hword method (mem_methods method) hfront
    refine ⟨hdelete, rfl, ?_⟩
    have hlist := Naming.toList_functionName .delete path
    rw [hdelete] at hlist
    exact List.append_right_eq_self.1 hlist.symm
  · rintro ⟨rfl, rfl, hempty⟩
    rw [← String.toList_inj, Naming.toList_functionName, hempty, List.append_nil]
    rfl

/-- **No type of an operation has a reserved name.** -/
theorem base_append_not_mem_reserved (hn : n.OfOperation) : n.base ++ suffix ∉ reserved := by
  obtain ⟨method, path, rfl⟩ := hn
  intro hword
  refine not_upperFirst_verb_front _ hword method (mem_methods method) ?_
  rw [String.toList_append]
  refine List.IsPrefix.trans ?_ (List.prefix_append _ _)
  exact ⟨_, (Naming.toList_upperFirst_functionName method path).symm⟩

theorem requestNames_not_reserved : ∀ name ∈ requestNames, name ∉ reserved := by
  decide

/-- The declarations of a client that have a reserved name. -/
theorem reserved_declared_iff (hword : word ∈ reserved) :
    word ∈ (declarations api options).map Declaration.name ↔
      options.operations = true ∧ word = "delete" ∧ ∃ e ∈ api.endpoints, e.method = .delete ∧
        Naming.pathName .delete (Naming.segments e.path) = [] := by
  rw [List.mem_map]
  constructor
  · rintro ⟨d, hd, rfl⟩
    rcases mem_declarations_iff.1 hd with ⟨-, name, hname, rfl⟩ | ⟨hoperations, b, hb, hdb⟩
    · exact absurd hword (requestNames_not_reserved name hname)
    have hn := ofOperation hb
    rcases mem_declarations_of_binding_iff.1 hdb with rfl | rfl | rfl | ⟨v, hv, rfl⟩
    · obtain ⟨e, he, rfl⟩ := mem_bindings_iff.1 hb
      obtain ⟨hdelete, hmethod, hempty⟩ := (functionName_eq_iff hword e.method e.path).1 rfl
      exact ⟨hoperations, hdelete, e, he, hmethod, hempty⟩
    · exact absurd hword (base_append_not_mem_reserved hn)
    · exact absurd hword (base_append_not_mem_reserved hn)
    · obtain ⟨status, hstatus⟩ := variant_name hb hv
      rw [Declaration.name, hstatus, Names.variant, String.append_assoc] at hword
      exact absurd hword (base_append_not_mem_reserved hn)
  · rintro ⟨hoperations, rfl, e, he, hmethod, hempty⟩
    have hb : Binding.ofEndpoint options.withDoc e ∈ bindings api options :=
      mem_bindings_iff.2 ⟨e, he, rfl⟩
    refine ⟨_, mem_declarations_iff.2 (.inr ⟨hoperations, _, hb,
      mem_declarations_of_binding_iff.2 (.inl rfl)⟩), ?_⟩
    exact (functionName_eq_iff hword e.method e.path).2 ⟨rfl, hmethod, hempty⟩

/-! ## Named types -/

/-- Reserved names are names as they stand. -/
theorem sanitize_of_mem_reserved : ∀ word ∈ reserved,
    '_' ∉ word.toList ∧ Identifier.sanitize word = word := by
  decide

theorem typeName_eq_iff (hword : word ∈ reserved) (pointer : String) :
    Pointer.typeName pointer = word ↔ Pointer.lastKey pointer = word := by
  obtain ⟨hplain, hsame⟩ := sanitize_of_mem_reserved word hword
  rw [Pointer.typeName]
  constructor
  · rintro rfl
    exact (Identifier.sanitize_eq_self hplain).symm
  · rintro rfl
    exact hsame

/-- The named types of a run are called by the pointers that it meets. -/
theorem mem_definitions_iff (h : Visits source.raw options.withDoc (source.plan options).pointers
    Registry.empty trace none api.types) :
    name ∈ api.types.definitions.map (·.1) ↔ ∃ v ∈ trace, v.name = name := by
  constructor
  · intro hname
    have hmem := Registry.definitions_sublist.subset hname
    rw [h.names, Registry.names_empty, List.nil_append] at hmem
    obtain ⟨v, hv, hvname⟩ := List.mem_map.1 hmem
    exact ⟨v, List.mem_of_mem_filter hv, hvname⟩
  · rintro ⟨v, hv, rfl⟩
    obtain ⟨-, definition, hlookup⟩ := Source.defined_of_met h hv
    exact Registry.mem_definitions_of_lookup? hlookup

/-- **Which reserved names a client exports.** The client of a run that
succeeds exports a reserved name exactly where named types are written and the
name is, as it stands, the last key of a pointer that the run met, or where
operations are written, one of them deletes, and no word of its path is left
behind the verb. -/
theorem reserved_exported_iff (h : source.api options = .ok api) :
    ∃ trace, Visits source.raw options.withDoc (source.plan options).pointers Registry.empty trace
        none api.types ∧
      ∀ word ∈ reserved, word ∈ exportedNames api options ↔
        (options.types = true ∧ ∃ v ∈ trace, Pointer.lastKey v.pointer = word) ∨
        (options.operations = true ∧ word = "delete" ∧ ∃ e ∈ api.endpoints, e.method = .delete ∧
          Naming.pathName .delete (Naming.segments e.path) = []) := by
  obtain ⟨trace, hvisits, -⟩ := Source.visits_of_api h
  refine ⟨trace, hvisits, fun word hword => ?_⟩
  have hnamed : word ∈ (if options.types then api.types.definitions.map (·.1) else []) ↔
      options.types = true ∧ ∃ v ∈ trace, Pointer.lastKey v.pointer = word := by
    by_cases htypes : options.types = true
    · rw [if_pos htypes, mem_definitions_iff hvisits, and_iff_right htypes]
      exact exists_congr fun v => and_congr_right fun _ => typeName_eq_iff hword v.pointer
    · simp [htypes]
  rw [exportedNames, List.mem_append, hnamed, reserved_declared_iff hword]

/-- A deletion at the root, whose response is a schema called like a global
name that refers to one called like a word for types. -/
def deletedRoot : Json :=
  .object [("paths", .object [("/", .object [("delete", .object [("responses", .object [
      ("200", .object [("content", .object [("application/json", .object [
        ("schema", .object [("$ref", .string "#/components/schemas/Headers")])])])])])])])]),
    ("components", .object [("schemas", .object [
      ("Headers", .object [("properties", .object [
        ("name", .object [("$ref", .string "#/components/schemas/string")])])]),
      ("string", .object [("type", .string "number")])])])]

/-- Its client is rendered, with these names. -/
theorem render_deletedRoot : ∃ source api text, Source.ofJson deletedRoot = .ok source ∧
    source.api .default = .ok api ∧ render api .default = .ok text ∧
    exportedNames api .default = ["Headers", "string", "RequestOptions", "RequestParams",
      "request", "delete", "DeleteParams", "DeleteResult", "DeleteOKResult"] ∧
    (api.endpoints.map fun e => (e.method, e.path)) = [(.delete, "/")] := by
  have hrun : Source.succeedsWith deletedRoot .default (fun _ api =>
      (check api .default).isOk &&
        exportedNames api .default == ["Headers", "string", "RequestOptions", "RequestParams",
          "request", "delete", "DeleteParams", "DeleteResult", "DeleteOKResult"] &&
        (api.endpoints.map fun e => (e.method, e.path)) == [(.delete, "/")]) = true := by
    decide
  obtain ⟨source, api, hsource, hapi, hchecked⟩ := Source.of_succeedsWith hrun
  simp only [Bool.and_eq_true, beq_iff_eq] at hchecked
  obtain ⟨⟨hcheck, hexported⟩, hendpoints⟩ := hchecked
  obtain ⟨text, htext⟩ := exists_render_of_check hcheck
  exact ⟨source, api, text, hsource, hapi, htext, hexported, hendpoints⟩

/-- The function is called by the bare verb, and the two named types by the
last keys of their pointers. -/
theorem reserved_exported_iff_of_deletedRoot : ∃ source api trace,
    Source.ofJson deletedRoot = .ok source ∧ source.api .default = .ok api ∧
    Visits source.raw true (source.plan .default).pointers Registry.empty trace none api.types ∧
    "delete" ∈ exportedNames api .default ∧
    (∃ v ∈ trace, Pointer.lastKey v.pointer = "Headers") ∧
    (∃ v ∈ trace, Pointer.lastKey v.pointer = "string") ∧
    ∀ v ∈ trace, Pointer.lastKey v.pointer ≠ "Promise" := by
  obtain ⟨source, api, text, hsource, hapi, -, hexported, hendpoints⟩ := render_deletedRoot
  obtain ⟨trace, hvisits, hiff⟩ := reserved_exported_iff hapi
  have hdelete : ∃ e ∈ api.endpoints, e.method = .delete ∧
      Naming.pathName .delete (Naming.segments e.path) = [] := by
    have hmem : (Method.delete, "/") ∈ api.endpoints.map fun e => (e.method, e.path) := by
      rw [hendpoints]
      exact List.mem_singleton_self _
    obtain ⟨e, he, heq⟩ := List.mem_map.1 hmem
    obtain ⟨hmethod, hpath⟩ := Prod.mk.inj heq
    exact ⟨e, he, hmethod, by rw [hpath]; decide⟩
  have hnamed : ∀ word ∈ reserved, word ∈ exportedNames api .default → word ≠ "delete" →
      ∃ v ∈ trace, Pointer.lastKey v.pointer = word := by
    intro word hword hmem hne
    rcases (hiff word hword).1 hmem with ⟨-, hmet⟩ | ⟨-, heq, -⟩
    · exact hmet
    · exact absurd heq hne
  refine ⟨source, api, trace, hsource, hapi, hvisits, ?_, ?_, ?_, fun v hv heq => ?_⟩
  · exact (hiff "delete" (by decide)).2 (.inr ⟨rfl, rfl, hdelete⟩)
  · exact hnamed "Headers" (by decide) (by rw [hexported]; decide) (by decide)
  · exact hnamed "string" (by decide) (by rw [hexported]; decide) (by decide)
  · have hmem := (hiff "Promise" (by decide)).2 (.inl ⟨rfl, v, hv, heq⟩)
    rw [hexported] at hmem
    revert hmem
    decide

/-- A reserved word, a word for types and a global name are exported by one
client that is rendered. -/
theorem exists_reserved_exported : ∃ source api text,
    Source.ofJson deletedRoot = .ok source ∧ source.api .default = .ok api ∧
    render api .default = .ok text ∧
    (∃ word ∈ reservedWords, word ∈ exportedNames api .default) ∧
    (∃ word ∈ typeWords, word ∈ exportedNames api .default) ∧
    ∃ word ∈ globalNames, word ∈ exportedNames api .default := by
  obtain ⟨source, api, text, hsource, hapi, htext, hexported, -⟩ := render_deletedRoot
  refine ⟨source, api, text, hsource, hapi, htext, ?_⟩
  rw [hexported]
  exact ⟨⟨"delete", by decide, by decide⟩, ⟨"string", by decide, by decide⟩,
    ⟨"Headers", by decide, by decide⟩⟩

end Client

end TypedClient
