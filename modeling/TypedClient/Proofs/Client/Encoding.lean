import TypedClient.Proofs.Client.Undocumented
import TypedClient.Proofs.Extraction.Parameters
import TypedClient.Proofs.Json.Text
import TypedClient.Proofs.Media
/-!
# How bodies are typed and sent

The body of an operation has the preferred one of its media types, and its type is
that of the schema if the media type names JSON in letters of any case. The
function of the operation passes the media type on as it is written
(`contentType_written`), and the function for requests encodes as JSON what has
`json` in small letters in it (`encoding_written`). So a body that is encoded is
typed by its schema, and one that is typed by its schema is sent as it is if its
media type names JSON with capital letters only (`body_typed_and_sent`).
-/

namespace TypedClient

/-- Only the media types decide which entry is preferred. -/
theorem Media.preferred?_congr {α β : Type} {entries : List (String × α)}
    {others : List (String × β)} (h : entries.map (·.1) = others.map (·.1)) :
    (preferred? entries).map (·.1) = (preferred? others).map (·.1) := by
  have hbare : ∀ {γ : Type} (es : List (String × γ)), (preferred? es).map (·.1) =
      (preferred? (es.map (·.1) |>.map fun m => (m, ()))).map (·.1) := by
    intro γ es
    have hmap := Binding.preferred?_map (fun _ : γ => ()) es
    rw [List.map_map, Function.comp_def, hmap, Option.map_map]
    rfl
  rw [hbare entries, hbare others, h]

namespace Client

/-- What the function for requests does with a body, by the content type that it
is given. -/
def encodingText : String := Text.join "\n" [
  "  if (params.data !== undefined && contentType && contentType.includes(\"json\")) \x7b",
  "    body = JSON.stringify(params.data);",
  "  \x7d else if (params.data !== undefined) \x7b",
  "    body = params.data;",
  "  \x7d"]

/-- **A body is encoded as JSON** by the function for requests: `json` occurs in its
content type, in small letters. -/
def Encodes (contentType : String) : Prop := "json".toList <:+: contentType.toList

instance (contentType : String) : Decidable (Encodes contentType) :=
  decidable_of_iff _ Text.occursIn_iff

/-- The function for requests has these lines. -/
theorem encoding_written : encodingText.toList <:+: requestText.toList := by
  have hlines : ∀ lines some : List String, (lines.drop 35).take 5 = some → some <:+: lines := by
    rintro lines _ rfl
    exact (List.take_prefix 5 _).isInfix.trans (List.drop_suffix 35 lines).isInfix
  exact Text.infix_join (hlines _ _ rfl) (by simp)

/-- What is encoded names JSON. -/
theorem Encodes.namesJson {contentType : String} (h : Encodes contentType) :
    Media.NamesJson contentType := h.map Char.toLower

/-- **The function of an endpoint passes the media type of the body on**, as a
literal. -/
theorem contentType_written {b : Binding} {body : Body} (server : String) (withDoc : Bool)
    (h : b.endpoint.body = some body) : ∃ front behind, functionText server withDoc b =
      front ++ "\n    contentType: " ++ Json.quote body.mediaType ++ "," ++ behind := by
  have hshape : ∀ front start literal stop basic close word result last : String,
      front ++ (start ++ literal ++ stop) ++ basic ++ close ++ word ++ result ++ last =
        front ++ start ++ literal ++ stop ++ (basic ++ close ++ word ++ result ++ last) := by
    intros
    simp only [String.append_assoc]
  unfold functionText
  dsimp only
  rw [h]
  exact ⟨_, _, hshape _ _ _ _ _ _ _ _ _⟩

end Client

namespace Source

open Client (Encodes functionText)
open Media (NamesJson Preferred)
open Synthesis (run_bind_eq_ok)

variable {source : Source} {options : Options} {b : RequestBody} {r r' : Registry}
variable {body : Body} {body? : Option Body}
variable {mediaType : String} {schema : Option Schema} {type : TypeExpr}

/-- A body has the preferred media type; without any there is none. -/
theorem mediaType_of_body (h : (source.body options b).run r = (.ok body?, r')) :
    body?.map (·.mediaType) = (Media.preferred? b.content).map (·.1) := by
  rw [body_eq] at h
  cases hpreferred : Media.preferred? b.content with
  | none =>
    rw [hpreferred] at h
    cases h
    rfl
  | some entry =>
    rw [hpreferred] at h
    obtain ⟨type, r₁, -, h⟩ := run_bind_eq_ok h
    cases h
    rfl

/-- A body that is found has the type for its media type. -/
theorem exists_of_body (h : (source.body options b).run r = (.ok (some body), r')) :
    ∃ schema, Media.preferred? b.content = some (body.mediaType, schema) ∧
      (source.bodyType options (Media.classify body.mediaType) schema).run r =
        (.ok body.type, r') := by
  rw [body_eq] at h
  cases hpreferred : Media.preferred? b.content with
  | none =>
    rw [hpreferred] at h
    cases h
  | some entry =>
    rw [hpreferred] at h
    obtain ⟨type, r₁, htype, h⟩ := run_bind_eq_ok h
    cases h
    exact ⟨entry.2, rfl, htype⟩

/-- What does not name JSON is a text or anything, and nothing is registered for it. -/
theorem bodyType_of_not_namesJson (h : ¬ NamesJson mediaType)
    (hrun : (source.bodyType options (Media.classify mediaType) schema).run r = (.ok type, r')) :
    (type = .string ∨ type = .any) ∧ r' = r := by
  rw [← Media.classify_eq_json_iff] at h
  cases hkind : Media.classify mediaType with
  | json => exact absurd hkind h
  | text =>
    rw [hkind] at hrun
    cases hrun
    exact ⟨.inl rfl, rfl⟩
  | octetStream =>
    rw [hkind] at hrun
    cases hrun
    exact ⟨.inr rfl, rfl⟩
  | other =>
    rw [hkind] at hrun
    cases hrun
    exact ⟨.inr rfl, rfl⟩

/-- **What is encoded as JSON is typed by its schema**, and what is typed by its schema
is encoded unless its media type names JSON in other than small letters only. The media
type is the preferred one, as it is for a response with the same media types, and the
function of an operation with this body passes it on as it is written. The type is that
of the schema where the media type names JSON in letters of any case, and else that of
a text or of anything; the body is encoded where the media type names JSON in small
letters. -/
theorem body_typed_and_sent (h : (source.body options b).run r = (.ok body?, r')) :
    (∀ types : List (String × TypeExpr), types.map (·.1) = b.content.map (·.1) →
      (Media.preferred? types).map (·.1) = body?.map (·.mediaType)) ∧
    ∀ body, body? = some body → ∃ schema, Preferred b.content (body.mediaType, schema) ∧
      (∀ server withDoc (binding : Binding), binding.endpoint.body = some body →
        ∃ front behind, functionText server withDoc binding =
          front ++ "\n    contentType: " ++ Json.quote body.mediaType ++ "," ++ behind) ∧
      (Encodes body.mediaType ∧ (source.typeOf options schema).run r = (.ok body.type, r') ∨
        ¬ Encodes body.mediaType ∧ NamesJson body.mediaType ∧
          (source.typeOf options schema).run r = (.ok body.type, r') ∨
        ¬ Encodes body.mediaType ∧ ¬ NamesJson body.mediaType ∧
          (body.type = .string ∨ body.type = .any) ∧ r' = r) := by
  refine ⟨fun types htypes => ?_, ?_⟩
  · rw [mediaType_of_body h]
    exact Media.preferred?_congr htypes
  rintro body rfl
  obtain ⟨schema, hpreferred, htype⟩ := exists_of_body h
  refine ⟨schema, Media.preferred?_eq_some_iff.1 hpreferred,
    fun server withDoc binding => Client.contentType_written server withDoc, ?_⟩
  by_cases hjson : NamesJson body.mediaType
  · rw [Media.classify_eq_json_iff.2 hjson] at htype
    by_cases hencodes : Encodes body.mediaType
    · exact .inl ⟨hencodes, htype⟩
    · exact .inr (.inl ⟨hencodes, hjson, htype⟩)
  · have hplain : ¬ Encodes body.mediaType := fun hencodes => hjson hencodes.namesJson
    exact .inr (.inr ⟨hplain, hjson, bodyType_of_not_namesJson hjson htype⟩)

/-- A body with a report as text and as JSON of two kinds. -/
def report : RequestBody where
  description := none
  content := [("text/plain", none), ("application/vnd.report+json", some (.primitive .number)),
    ("application/json", some (.primitive .string))]
  required := true

/-- The first kind of JSON is sent, typed by its schema and encoded. -/
theorem body_typed_and_sent_of_report : ∃ body, (Source.body ⟨.null, .blank⟩ .default report).run
      Registry.empty = (.ok (some body), Registry.empty) ∧
    Encodes body.mediaType ∧
    (Source.typeOf ⟨.null, .blank⟩ .default (some (.primitive .number))).run Registry.empty =
      (.ok body.type, Registry.empty) ∧
    (Media.preferred? [("text/plain", TypeExpr.string),
      ("application/vnd.report+json", .number), ("application/json", .string)]).map (·.1) =
        some body.mediaType := by
  have hrun : (Source.body ⟨.null, .blank⟩ .default report).run Registry.empty =
    (.ok (some ⟨none, true, "application/vnd.report+json", .number⟩), Registry.empty) := rfl
  have hencodes : Encodes "application/vnd.report+json" := by decide
  obtain ⟨hresponse, hbody⟩ := body_typed_and_sent hrun
  obtain ⟨schema, hpreferred, -, hcases⟩ := hbody _ rfl
  obtain rfl : schema = some (.primitive .number) := by
    have hentry := Media.preferred?_eq_some_iff.2 hpreferred
    cases hentry
    rfl
  obtain ⟨-, htype⟩ | ⟨hplain, -⟩ | ⟨hplain, -⟩ := hcases
  · exact ⟨_, hrun, hencodes, htype, hresponse _ rfl⟩
  · exact absurd hencodes hplain
  · exact absurd hencodes hplain

/-- An operation with a body whose media type names JSON in capital letters. -/
def shoutedJson : Json :=
  .object [("paths", .object [("/x", .object [("post", .object [
    ("requestBody", .object [("content", .object [("application/JSON", .object [
      ("schema", .object [("properties", .object [("id", .object [
        ("type", .string "number")])])])])])]),
    ("responses", .object [])])])])]

/-- Its body is typed by its schema and is not encoded. -/
theorem exists_typed_not_encoded : ∃ source api e body,
    Source.ofJson shoutedJson = .ok source ∧ source.api .default = .ok api ∧
    e ∈ api.endpoints ∧ e.body = some body ∧
    body.type = .record [(⟨"id", false, false, none⟩, .number)] ∧
    ¬ Encodes body.mediaType := by
  have hrun : succeedsWith shoutedJson .default (fun _ api =>
      api.endpoints.any fun e => e.body.any fun body => body.mediaType == "application/JSON" &&
        body.type.same (.record [(⟨"id", false, false, none⟩, .number)])) = true := by
    decide
  obtain ⟨source, api, hsource, hapi, hchecked⟩ := of_succeedsWith hrun
  obtain ⟨e, he, hchecked⟩ := List.any_eq_true.1 hchecked
  cases hbody : e.body with
  | none =>
    rw [hbody] at hchecked
    cases hchecked
  | some body =>
    rw [hbody, Option.any_some, Bool.and_eq_true, beq_iff_eq, TypeExpr.same_iff] at hchecked
    obtain ⟨hmedia, htype⟩ := hchecked
    refine ⟨source, api, e, body, hsource, hapi, he, hbody, htype, ?_⟩
    rw [hmedia]
    decide

end Source

end TypedClient
