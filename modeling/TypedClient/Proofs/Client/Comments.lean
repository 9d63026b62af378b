import TypedClient.Proofs.Client.Undocumented
import TypedClient.Proofs.TypeExpr.Comments
/-!
# Clients without comments

The pieces of a client are its code and its documentation comments, in
order; written one after another they are the client (`written_pieces`).
Without comments a client consists of the pieces that are code
(`uncommented_pieces`). What comments decide beyond that is whether a client
is rendered at all: a type that is declared again may differ from the first
of its name in the documentation of fields, and the client is then refused
with comments only (`render_undocumented`).
-/

namespace TypedClient

open Piece (written uncommented)

/-! ## The pieces of declarations -/

/-- The pieces of the declaration of a named type. -/
def NamedType.pieces (name : String) (named : NamedType) : List Piece :=
  Piece.ofDescription named.description 0 ++
  if named.type.isRecord then
    .code ("export interface " ++ name ++ " ") :: named.type.piecesAt 0
  else .code ("export type " ++ name ++ " = ") :: (named.type.piecesAt 0 ++ [.code ";"])

theorem NamedType.written_pieces (name : String) (named : NamedType) :
    written (named.pieces name) = named.declaration name := by
  rw [pieces, declaration, Piece.written_append, Piece.written_ofDescription, TypeExpr.text]
  congr 1
  split
  · rw [Piece.written_code_cons, TypeExpr.written_piecesAt]
  · rw [Piece.written_code_cons, Piece.written_append, TypeExpr.written_piecesAt]
    simp [String.append_assoc]

theorem NamedType.uncommented_pieces (name : String) (named : NamedType) :
    uncommented (named.pieces name) = named.undocumented.pieces name := by
  have hrecord : named.undocumented.type.isRecord = named.type.isRecord :=
    TypeExpr.isRecord_undocumented
  rw [pieces, pieces, Piece.uncommented_append, Piece.uncommented_ofDescription, hrecord]
  split
  · rw [Piece.uncommented_code_cons, TypeExpr.uncommented_piecesAt]
    rfl
  · rw [Piece.uncommented_code_cons, Piece.uncommented_append, TypeExpr.uncommented_piecesAt]
    rfl

namespace Client

/-- The pieces of a block under a blank line. -/
def blockPieces (pieces : List Piece) : List Piece := .code "\n" :: (pieces ++ [.code "\n"])

/-- The pieces of the declaration of the type of results. -/
def resultPieces (b : Binding) : List Piece :=
  if b.variants.isEmpty then (NamedType.mk b.resultType none).pieces b.names.result
  else [.code (resultUnion b.names.result (b.variants.map (·.1)))]

/-- The pieces of the function of an endpoint. -/
def functionPieces (server : String) (withDoc : Bool) (b : Binding) : List Piece :=
  Piece.ofDescription (Binding.documented withDoc b.endpoint.summary) 0 ++
    [.code (functionText server false b)]

/-- The pieces of the types for the statuses. -/
def variantPieces (variants : List (String × NamedType)) : List Piece :=
  variants.flatMap fun v => .code "\n\n" :: v.2.pieces v.1

/-- The pieces of the block of an endpoint. -/
def bindingPieces (server : String) (withDoc : Bool) (b : Binding) : List Piece :=
  (NamedType.mk b.params none).pieces b.names.params ++
  .code "\n\n" :: (resultPieces b ++ variantPieces b.variants ++
    .code "\n\n" :: functionPieces server withDoc b)

variable (api : Api) (options : Options)

/-- The pieces of the blocks of the named types. -/
def typesPieces (types : Registry) : List Piece :=
  types.definitions.flatMap fun d => blockPieces (d.2.pieces d.1)

/-- The pieces of the blocks of the endpoints. -/
def operationsPieces (server : String) (withDoc : Bool) (bindings : List Binding) : List Piece :=
  bindings.flatMap fun b => blockPieces (bindingPieces server withDoc b)

/-- **The pieces of a client**, in order. Without any section there are
none. -/
def pieces : List Piece :=
  if !options.types && !options.request && !options.operations then []
  else
    .code header :: ((if options.types then typesPieces api.types else []) ++
      (if options.request then [.code requestSection] else []) ++
      (if options.operations then
        operationsPieces api.server options.withDoc (bindings api options) else []))

variable {api : Api} {options : Options} {server : String} {withDoc : Bool} {b : Binding}

/-! ## The pieces make up the client -/

theorem written_flatMap {α : Type} (f : α → List Piece) (xs : List α) :
    written (xs.flatMap f) = Text.concat (xs.map fun x => written (f x)) := by
  induction xs with
  | nil => rfl
  | cons x rest ih =>
    rw [List.flatMap_cons, Piece.written_append, ih]
    rfl

theorem written_blockPieces (ps : List Piece) : written (blockPieces ps) = block (written ps) := by
  simp [blockPieces, block, String.append_assoc]

theorem written_resultPieces : written (resultPieces b) = resultText b := by
  rw [resultPieces, resultText]
  split
  · exact NamedType.written_pieces _ _
  · simp

/-- A function is its comment and the function without comment. -/
theorem functionText_eq (server : String) (withDoc : Bool) (b : Binding) :
    functionText server withDoc b =
    (match Binding.documented withDoc b.endpoint.summary with
      | some text => Text.comment text 0
      | none => "") ++ functionText server false b := by
  have hplain : Binding.documented false b.endpoint.summary = none := rfl
  unfold functionText
  dsimp only
  rw [hplain]
  generalize Binding.documented withDoc b.endpoint.summary = description
  cases description with
  | none => exact String.empty_append.symm
  | some text =>
    dsimp only
    generalize Text.comment text 0 = comment
    simp only [String.append_assoc, String.empty_append]

theorem written_functionPieces :
    written (functionPieces server withDoc b) = functionText server withDoc b := by
  rw [functionPieces, Piece.written_append, Piece.written_ofDescription, Piece.written_code_cons,
    Piece.written_nil, String.append_empty]
  exact (functionText_eq server withDoc b).symm

theorem written_variantPieces (variants : List (String × NamedType)) :
    written (variantPieces variants) =
      Text.concat (variants.map fun v => "\n\n" ++ v.2.declaration v.1) := by
  rw [variantPieces, written_flatMap]
  simp only [Piece.written_code_cons, NamedType.written_pieces]

theorem written_bindingPieces :
    written (bindingPieces server withDoc b) = bindingText server withDoc b := by
  rw [bindingPieces, bindingText, Piece.written_append, Piece.written_code_cons,
    Piece.written_append, Piece.written_append, Piece.written_code_cons, NamedType.written_pieces,
    written_resultPieces, written_variantPieces, written_functionPieces]
  simp only [String.append_assoc]

theorem written_typesPieces (types : Registry) :
    written (typesPieces types) = typesSection types := by
  rw [typesPieces, written_flatMap, typesSection]
  simp only [written_blockPieces, NamedType.written_pieces]

theorem written_operationsPieces (bs : List Binding) :
    written (operationsPieces server withDoc bs) = operationsSection server withDoc bs := by
  rw [operationsPieces, written_flatMap, operationsSection]
  simp only [written_blockPieces, written_bindingPieces]

/-- **The pieces of a client make up its text.** -/
theorem written_pieces {text : String} (h : render api options = .ok text) :
    text = written (pieces api options) := by
  rw [render] at h
  rw [pieces]
  by_cases hnone : (!options.types && !options.request && !options.operations) = true
  · rw [if_pos hnone] at h ⊢
    exact (Except.ok.inj h).symm
  · rw [if_neg hnone] at h ⊢
    have htext : layout api options = text := by
      cases hcheck : check api options with
      | ok =>
        rw [hcheck] at h
        exact Except.ok.inj h
      | error e =>
        rw [hcheck] at h
        cases h
    rw [← htext, layout, Piece.written_code_cons, Piece.written_append, Piece.written_append,
      String.append_assoc, String.append_assoc, String.append_assoc]
    -- section by section
    congr 1
    congr 1
    · split
      · exact (written_typesPieces _).symm
      · rfl
    congr 1
    · split
      · simp
      · rfl
    · split
      · exact (written_operationsPieces _).symm
      · rfl

/-! ## The pieces without comments -/

theorem uncommented_flatMap {α : Type} (f : α → List Piece) (xs : List α) :
    uncommented (xs.flatMap f) = xs.flatMap fun x => uncommented (f x) := by
  induction xs with
  | nil => rfl
  | cons x rest ih => rw [List.flatMap_cons, Piece.uncommented_append, ih, List.flatMap_cons]

theorem uncommented_blockPieces (ps : List Piece) :
    uncommented (blockPieces ps) = blockPieces (uncommented ps) := by
  simp [blockPieces]

theorem uncommented_resultPieces :
    uncommented (resultPieces b) = resultPieces b.undocumented := by
  have hvariants : b.undocumented.variants = b.variants.map fun v => (v.1, v.2.undocumented) := rfl
  have hnames : b.undocumented.names = b.names := rfl
  rw [resultPieces, resultPieces, b.resultType_undocumented, hvariants, hnames, List.isEmpty_map,
    List.map_map]
  split
  · exact NamedType.uncommented_pieces _ _
  · rfl

theorem functionText_undocumented :
    functionText server false b.undocumented = functionText server false b := by
  obtain ⟨e, names, params, variants⟩ := b
  obtain ⟨path, method, operationId, summary, basicAuth, pathArguments, headerArguments,
    queryArguments, body, outcomes⟩ := e
  cases body <;> rfl

theorem uncommented_functionPieces : uncommented (functionPieces server withDoc b) =
    functionPieces server false b.undocumented := by
  rw [functionPieces, functionPieces, Piece.uncommented_append, Piece.uncommented_ofDescription,
    functionText_undocumented]
  rfl

theorem uncommented_variantPieces (variants : List (String × NamedType)) :
    uncommented (variantPieces variants) =
      variantPieces (variants.map fun v => (v.1, v.2.undocumented)) := by
  rw [variantPieces, uncommented_flatMap, variantPieces, List.flatMap_map]
  simp only [Piece.uncommented_code_cons, NamedType.uncommented_pieces]

theorem uncommented_bindingPieces : uncommented (bindingPieces server withDoc b) =
    bindingPieces server false b.undocumented := by
  rw [bindingPieces, Piece.uncommented_append, Piece.uncommented_code_cons,
    Piece.uncommented_append, Piece.uncommented_append, Piece.uncommented_code_cons,
    NamedType.uncommented_pieces, uncommented_resultPieces, uncommented_variantPieces,
    uncommented_functionPieces]
  rfl

theorem definitions_undocumented (r : Registry) :
    r.undocumented.definitions = r.definitions.map fun d => (d.1, d.2.undocumented) := by
  rw [Registry.definitions, Registry.definitions, Registry.undocumented]
  induction r.entries with
  | nil => rfl
  | cons e rest ih =>
    obtain ⟨name, entry⟩ := e
    cases entry with
    | none => exact ih
    | some definition => exact congrArg (List.cons _) ih

theorem uncommented_typesPieces (types : Registry) :
    uncommented (typesPieces types) = typesPieces types.undocumented := by
  rw [typesPieces, uncommented_flatMap, typesPieces, definitions_undocumented, List.flatMap_map]
  simp only [uncommented_blockPieces, NamedType.uncommented_pieces]

theorem uncommented_operationsPieces (bs : List Binding) :
    uncommented (operationsPieces server withDoc bs) =
      operationsPieces server false (bs.map Binding.undocumented) := by
  rw [operationsPieces, uncommented_flatMap, operationsPieces, List.flatMap_map]
  simp only [uncommented_blockPieces, uncommented_bindingPieces]

/-- **A client without comments consists of the code of the client with
comments.** -/
theorem uncommented_pieces :
    uncommented (pieces api options) = pieces api.undocumented options.undocumented := by
  have htypes : options.undocumented.types = options.types := rfl
  have hrequest : options.undocumented.request = options.request := rfl
  have hoperations : options.undocumented.operations = options.operations := rfl
  have hdoc : options.undocumented.withDoc = false := rfl
  have hserver : api.undocumented.server = api.server := rfl
  have hregistry : api.undocumented.types = api.types.undocumented := rfl
  rw [pieces, pieces, bindings_undocumented, htypes, hrequest, hoperations, hdoc, hserver,
    hregistry, ← uncommented_typesPieces]
  split
  · rfl
  · rw [Piece.uncommented_code_cons, Piece.uncommented_append, Piece.uncommented_append,
      ← uncommented_operationsPieces]
    congr 1
    congr 1
    congr 1
    all_goals split <;> rfl

/-! ## The client as a whole -/

/-- A client that is rendered is rendered without comments. -/
theorem render_undocumented_of_ok {text : String} (h : render api options = .ok text) :
    render api.undocumented options.undocumented =
      .ok (written (uncommented (pieces api options))) := by
  have hconsistent := Consistent.of_render h
  rcases render_cases api.undocumented options.undocumented with ⟨⟨plain, hplain⟩, -⟩ | ⟨d, hd, -⟩
  · rw [hplain, uncommented_pieces, ← written_pieces hplain]
  · rw [declarations_undocumented] at hd
    exact absurd hconsistent.undocumented hd.not_consistent

/-- **Comments are all that comments change**, but for conflicts over them.
Reading a description fails with and without comments alike. A client that
is rendered with comments is rendered without them, as what is left of it
when its comments are left out. And where a client is refused with comments
only, the reason is a type that is declared again and differs from the
earlier one in the documentation of fields. -/
theorem render_undocumented (source : Source) (options : Options) :
    (∀ e, source.api options.undocumented = .error e ↔ source.api options = .error e) ∧
    ∀ api, source.api options = .ok api →
      source.api options.undocumented = .ok api.undocumented ∧
      (∀ text, render api options = .ok text → text = written (pieces api options) ∧
        render api.undocumented options.undocumented =
          .ok (written (uncommented (pieces api options)))) ∧
      ∀ e text, render api options = .error e →
        render api.undocumented options.undocumented = .ok text →
        ∃ before name earlier later after,
          declarations api options = before ++ .type name later :: after ∧
          e = .conflicting name ∧ .type name earlier ∈ before ∧ earlier.type ≠ later.type ∧
          earlier.type.undocumented = later.type.undocumented := by
  have hrun : source.api options.undocumented = (source.api options).map Api.undocumented :=
    Source.api_undocumented
  refine ⟨fun e => ?_, fun api hapi => ⟨?_, fun text htext => ?_, fun e text herror htext => ?_⟩⟩
  · rw [hrun]
    cases source.api options <;> simp [Except.map]
  · rw [hrun, hapi]
    rfl
  · exact ⟨written_pieces htext, render_undocumented_of_ok htext⟩
  · rcases render_cases api options with ⟨⟨_, hok⟩, -⟩ | ⟨d, hd, hrefused⟩
    · rw [hok] at herror
      cases herror
    · have hplain : Consistent api.undocumented options.undocumented
          ((declarations api options).map Declaration.undocumented) := by
        rw [← declarations_undocumented]
        exact Consistent.of_render htext
      obtain ⟨before, name, earlier, later, after, hdeclared, rfl, hearlier, hne, hsame⟩ :=
        hd.of_undocumented hplain
      refine ⟨before, name, earlier, later, after, hdeclared, ?_, hearlier, hne, hsame⟩
      exact Except.error.inj (herror.symm.trans hrefused)

/-- An operation with two spellings of the default response, whose types
differ in the description of a property. -/
def twoDescriptions : Json :=
  .object [("paths", .object [("/x", .object [("get", .object [("responses", .object [
    ("default", response "One"), ("Default", response "Two")])])])])]
where
  /-- A response with a property that is described. -/
  response (description : String) : Json :=
    .object [("content", .object [("application/json", .object [("schema", .object [
      ("properties", .object [("id", .object [("type", .string "string"),
        ("description", .string description)])])])])])]

/-- Whether a failure is the conflict over a name. -/
def isConflictOver (name : String) : Error → Bool
  | .conflicting other => other == name
  | _ => false

/-- Its client is refused with comments and rendered without them. -/
theorem render_twoDescriptions : ∃ source api text,
    Source.ofJson twoDescriptions = .ok source ∧ source.api .default = .ok api ∧
    render api .default = .error (.conflicting "GetXDefaultResult") ∧
    render api.undocumented Options.default.undocumented = .ok text := by
  have hrun : Source.succeedsWith twoDescriptions .default (fun _ api =>
      (match check api .default with
        | .ok _ => false
        | .error e => isConflictOver "GetXDefaultResult" e) &&
      (check api.undocumented Options.default.undocumented).isOk) = true := by
    decide
  obtain ⟨source, api, hsource, hapi, hchecked⟩ := Source.of_succeedsWith hrun
  rw [Bool.and_eq_true] at hchecked
  have hrefused : render api .default = .error (.conflicting "GetXDefaultResult") := by
    have hcheck := hchecked.1
    rw [render]
    split at hcheck
    · cases hcheck
    · rename_i e he
      rw [he]
      cases e with
      | conflicting name =>
        rw [eq_of_beq hcheck]
        rfl
      | _ => cases hcheck
  obtain ⟨text, htext⟩ := exists_render_of_check hchecked.2
  exact ⟨source, api, text, hsource, hapi, hrefused, htext⟩

/-- The two types that it declares under one name differ in their
documentation only. -/
theorem render_undocumented_of_twoDescriptions : ∃ source api earlier later,
    Source.ofJson twoDescriptions = .ok source ∧ source.api .default = .ok api ∧
    .type "GetXDefaultResult" earlier ∈ declarations api .default ∧
    .type "GetXDefaultResult" later ∈ declarations api .default ∧
    earlier.type ≠ later.type ∧ earlier.type.undocumented = later.type.undocumented := by
  obtain ⟨source, api, text, hsource, hapi, hrefused, htext⟩ := render_twoDescriptions
  obtain ⟨before, name, earlier, later, after, hdeclared, hname, hearlier, hne, hsame⟩ :=
    ((render_undocumented source .default).2 api hapi).2.2 _ text hrefused htext
  cases hname
  refine ⟨source, api, earlier, later, hsource, hapi, ?_, ?_, hne, hsame⟩
  · rw [hdeclared]
    exact List.mem_append_left _ hearlier
  · rw [hdeclared]
    simp

/-- So comments can decide whether a client is rendered. -/
theorem exists_refused_with_comments : ∃ source api plain text,
    Source.ofJson twoDescriptions = .ok source ∧ Options.default.withDoc = true ∧
    source.api .default = .ok api ∧
    render api .default = .error (.conflicting "GetXDefaultResult") ∧
    source.api { Options.default with withDoc := false } = .ok plain ∧
    render plain { Options.default with withDoc := false } = .ok text := by
  obtain ⟨source, api, text, hsource, hapi, hrefused, htext⟩ := render_twoDescriptions
  refine ⟨source, api, api.undocumented, text, hsource, rfl, hapi, hrefused, ?_, htext⟩
  have hrun : source.api Options.default.undocumented =
      (source.api .default).map Api.undocumented := Source.api_undocumented
  rw [hapi] at hrun
  exact hrun

end Client

end TypedClient
