import TypedClient.Proofs.Identifier
import TypedClient.Proofs.Synthesis.Trace
import TypedClient.Proofs.Extraction.Result
/-!
# The named types of a run

A run that succeeds has met every pointer it mentions, and the name of every
pointer it has met is defined. So its registry and the types of its
endpoints only mention defined names (`types_wellFormed`). A name that
several pointers have in common stands for the target of the one that was
met first, and the others are not looked at (`shared_name`).
-/

namespace TypedClient

namespace Source

open Synthesis (Visit Visits resolutions translate)

variable {raw : Json} {source : Source} {options : Options} {api : Api}
variable {trace : List Visit} {v : Visit}

/-! ## What is met is defined -/

/-- The translation of the schema that a pointer leads to. -/
def translation? (source : Source) (options : Options) (pointer : String) : Option TypeExpr :=
  (Pointer.resolve? source.raw pointer).map fun target =>
    translate options.withDoc (Schema.ofJson target)

/-- No name is bound twice. -/
theorem names_nodup
    (h : Visits source.raw options.withDoc (source.plan options).pointers Registry.empty trace
      none api.types) : api.types.names.Nodup := by
  rw [h.names, Registry.names_empty, List.nil_append]
  exact h.threaded.new_and_nodup.2

/-- **The name of a pointer that is met is defined**, as the target of the
first pointer of that name. -/
theorem lookup_of_met
    (h : Visits source.raw options.withDoc (source.plan options).pointers Registry.empty trace
      none api.types) (hv : v ∈ trace) :
    ∃ before first after target, trace = before ++ first :: after ∧ first.name = v.name ∧
      (∀ w ∈ before, w.name ≠ v.name) ∧
      Pointer.resolve? source.raw first.pointer = some target ∧
      api.types.lookup? v.name = some (Synthesis.definition options.withDoc target) := by
  obtain ⟨before, first, after, htrace, hname, hbefore, hfirst⟩ := h.first_met hv (by simp)
  obtain ⟨target, htarget, hbinding⟩ := h.defined rfl first hfirst
  rw [hname] at hbinding
  exact ⟨before, first, after, target, htrace, hname, hbefore, htarget,
    Registry.lookup?_of_binding hbinding⟩

/-- **A named type is the definition of a part of the document.** -/
theorem definition_of_mem_definitions {entry : String × NamedType}
    (h : Visits source.raw options.withDoc (source.plan options).pointers Registry.empty trace
      none api.types) (hentry : entry ∈ api.types.definitions) :
    ∃ target, Json.Part target source.raw ∧
      entry.2 = Synthesis.definition options.withDoc target := by
  have hname : entry.1 ∈ api.types.names :=
    Registry.definitions_sublist.subset (List.mem_map_of_mem hentry)
  rw [h.names, Registry.names_empty, List.nil_append] at hname
  obtain ⟨v, hv, hvname⟩ := List.mem_map.1 hname
  obtain ⟨target, htarget, hbinding⟩ := h.defined rfl v hv
  -- the name is bound once, as the target of the pointer that was resolved
  obtain ⟨⟨bound, definition⟩, hmem, heq⟩ := List.mem_filterMap.1 hentry
  obtain ⟨named, rfl, rfl⟩ := Option.map_eq_some_iff.1 heq
  have hsame := Registry.binding_of_mem_entries (names_nodup h) hmem
  rw [hvname] at hbinding
  exact ⟨target, Json.part_of_resolve? htarget,
    Option.some.inj (Option.some.inj (hsame.symm.trans hbinding))⟩

theorem isIdentifier_name (v : Visit) : Identifier.isIdentifier v.name = true :=
  Pointer.isIdentifier_typeName v.pointer

/-- The names of a registry that it defines, where they are identifiers. -/
def Defined (types : Registry) (name : String) : Prop :=
  Identifier.isIdentifier name = true ∧ ∃ definition, types.lookup? name = some definition

theorem defined_of_met
    (h : Visits source.raw options.withDoc (source.plan options).pointers Registry.empty trace
      none api.types) (hv : v ∈ trace) : Defined api.types v.name := by
  obtain ⟨_, _, _, target, -, -, -, -, hlookup⟩ := lookup_of_met h hv
  exact ⟨isIdentifier_name v, _, hlookup⟩

/-- **The environment of a run that succeeds is closed.** No name is
pending, every name is an identifier, every name in a registered type and in
the type of a body or a response is defined, and no union and no
intersection in these is empty. -/
theorem types_wellFormed (hread : ofJson raw = .ok source) (h : source.api options = .ok api) :
    (∀ name, api.types.isPending name = false) ∧
    (∀ entry ∈ api.types.entries, Identifier.isIdentifier entry.1 = true ∧
      ∃ definition, entry.2 = some definition ∧
        definition.type.WellFormed (Defined api.types)) ∧
    ∀ e ∈ api.endpoints, ∀ type ∈ e.types, type.WellFormed (Defined api.types) := by
  obtain ⟨trace, hvisits, hresult⟩ := visits_of_api h
  have hentries : ∀ entry ∈ api.types.entries, Identifier.isIdentifier entry.1 = true ∧
      ∃ definition, entry.2 = some definition ∧
        definition.type.WellFormed (Defined api.types) := by
    rintro ⟨name, entry⟩ hentry
    dsimp only
    have hname : name ∈ (resolutions trace).map Visit.name := by
      have hmem : name ∈ api.types.names := List.mem_map_of_mem hentry
      rwa [hvisits.names, Registry.names_empty, List.nil_append] at hmem
    -- the name was resolved, so its entry is the definition of the target
    obtain ⟨v, hv, rfl⟩ := List.mem_map.1 hname
    obtain ⟨target, htarget, hbinding⟩ := hvisits.defined rfl v hv
    have hsame := Registry.binding_of_mem_entries (names_nodup hvisits) hentry
    rw [hbinding] at hsame
    refine ⟨isIdentifier_name v, _, (Option.some.inj hsame).symm, ?_⟩
    refine Synthesis.wellFormed_translate (Schema.filled_ofJson target) fun p hp => ?_
    -- what the target refers to was met inside it
    obtain ⟨w, hw, rfl⟩ := hvisits.met_inside rfl v hv target htarget p hp
    exact defined_of_met hvisits hw
  refine ⟨fun name => ?_, hentries, fun e he type htype => ?_⟩
  · rw [Registry.isPending]
    split
    · rename_i hpending
      obtain ⟨-, definition, hsome, -⟩ := hentries _ (Registry.mem_entries_of_binding hpending)
      cases hsome
    · rfl
  · refine (endpointsNamed_of_result hread hresult e he type htype).mono ?_
    rintro name ⟨p, hp, rfl⟩
    obtain ⟨w, hw, rfl⟩ := hvisits.met rfl p hp
    exact defined_of_met hvisits hw

/-- Two schemas that refer to each other, one of them sent and one
received. -/
def petExchange : Json :=
  .object [("paths", .object [("/pets", .object [("post", .object [
      ("requestBody", .object [("content", .object [("application/json", .object [
        ("schema", .object [("$ref", .string "#/components/schemas/Pet")])])])]),
      ("responses", .object [("200", .object [("content", .object [("application/json", .object [
        ("schema", .object [("oneOf", .array [
          .object [("$ref", .string "#/components/schemas/Owner")],
          .object [("type", .string "null")]])])])])])])])])]),
    ("components", .object [("schemas", .object [
      ("Pet", .object [("properties", .object [
        ("owner", .object [("$ref", .string "#/components/schemas/Owner")])])]),
      ("Owner", .object [("properties", .object [
        ("pet", .object [("$ref", .string "#/components/schemas/Pet")])])])])])]

/-- Its environment is closed. -/
theorem types_wellFormed_of_petExchange : ∃ source api, ofJson petExchange = .ok source ∧
    source.api .default = .ok api ∧ api.types.names = ["Pet", "Owner"] ∧
    (∀ name, api.types.isPending name = false) ∧
    (∀ entry ∈ api.types.entries, ∃ definition, entry.2 = some definition ∧
      definition.type.WellFormed (Defined api.types)) ∧
    ∀ e ∈ api.endpoints, ∀ type ∈ e.types, type.WellFormed (Defined api.types) := by
  have hrun : succeedsWith petExchange .default (fun _ api =>
      api.types.names == ["Pet", "Owner"]) = true := by
    decide +kernel
  obtain ⟨source, api, hsource, hapi, hnames⟩ := of_succeedsWith hrun
  obtain ⟨hpending, hentries, hendpoints⟩ := types_wellFormed hsource hapi
  exact ⟨source, api, hsource, hapi, eq_of_beq hnames, hpending,
    fun entry hentry => (hentries entry hentry).2, hendpoints⟩

/-! ## Pointers that share a name -/

/-- **A name stands for the target that was met first.** No run fails over
two definitions of a name. When it succeeds, the name of every pointer that
was met is registered as the target of the first pointer of that name; so it
stands for the targets of all of them exactly where these translate
alike. -/
theorem shared_name (options : Options) (hread : ofJson raw = .ok source) :
    (∀ name, source.api options ≠ .error (.conflicting name)) ∧
    ∀ api, source.api options = .ok api →
      ∃ trace, Visits source.raw options.withDoc (source.plan options).pointers Registry.empty
          trace none api.types ∧
        ∀ v ∈ trace, ∃ before first after target, trace = before ++ first :: after ∧
          first.name = v.name ∧ (∀ w ∈ before, w.name ≠ v.name) ∧
          Pointer.resolve? source.raw first.pointer = some target ∧
          api.types.lookup? v.name = some ⟨translate options.withDoc (Schema.ofJson target),
            Synthesis.description options.withDoc target⟩ ∧
          ((∀ w ∈ trace, w.name = v.name →
              (api.types.lookup? w.name).map (·.type) = source.translation? options w.pointer) ↔
            ∀ w ∈ trace, w.name = v.name →
              source.translation? options w.pointer = source.translation? options v.pointer) := by
  refine ⟨fun name h => ?_, fun api h => ?_⟩
  · cases failure_of_api hread h with
    | reference hfailure => cases hfailure
  · obtain ⟨trace, hvisits, -⟩ := visits_of_api h
    refine ⟨trace, hvisits, fun v hv => ?_⟩
    obtain ⟨before, first, after, target, htrace, hname, hbefore, htarget, hlookup⟩ :=
      lookup_of_met hvisits hv
    refine ⟨before, first, after, target, htrace, hname, hbefore, htarget, hlookup, ?_, ?_⟩
    · intro hall w hw hwname
      rw [← hall w hw hwname, ← hall v hv rfl, hwname]
    · intro hall w hw hwname
      have hmem : first ∈ trace := by rw [htrace]; simp
      have hfirst : source.translation? options first.pointer =
          some (translate options.withDoc (Schema.ofJson target)) := by
        rw [translation?, htarget]
        rfl
      rw [hall w hw hwname, ← hall first hmem hname, hfirst, hwname, hlookup]
      rfl

/-- A response that is one of two schemas whose names only differ by a
character that no identifier has. -/
def twoSpellings : Json :=
  .object [("paths", .object [("/x", .object [("get", .object [("responses", .object [
      ("200", .object [("content", .object [("application/json", .object [
        ("schema", .object [("oneOf", .array [
          .object [("$ref", .string "#/components/schemas/a-b")],
          .object [("$ref", .string "#/components/schemas/a_b")]])])])])])])])])]),
    ("components", .object [("schemas", .object [
      ("a-b", .object [("type", .string "string")]),
      ("a_b", .object [("type", .string "number")])])])]

/-- The name that both have stands for the first. -/
theorem shared_name_of_twoSpellings : ∃ source, ofJson twoSpellings = .ok source ∧
    (∀ name, source.api .default ≠ .error (.conflicting name)) ∧
    ∃ api, source.api .default = .ok api ∧ ∃ trace,
      Visits source.raw true (source.plan .default).pointers Registry.empty trace none
        api.types ∧
      ∀ v ∈ trace, ∃ before first after, trace = before ++ first :: after ∧
        first.name = v.name ∧ (∀ w ∈ before, w.name ≠ v.name) ∧
        (api.types.lookup? v.name).map (·.type) =
          source.translation? .default first.pointer := by
  have hrun : succeedsWith twoSpellings .default (fun _ _ => true) = true := by
    decide +kernel
  obtain ⟨source, api, hsource, hapi, -⟩ := of_succeedsWith hrun
  obtain ⟨hconflict, hsuccess⟩ := shared_name .default hsource
  obtain ⟨trace, hvisits, hfirst⟩ := hsuccess api hapi
  refine ⟨source, hsource, hconflict, api, hapi, trace, hvisits, fun v hv => ?_⟩
  obtain ⟨before, first, after, target, htrace, hname, hbefore, htarget, hlookup, -⟩ :=
    hfirst v hv
  refine ⟨before, first, after, htrace, hname, hbefore, ?_⟩
  rw [hlookup, translation?, htarget]
  rfl

/-- It does not stand for the second, and the run succeeds. -/
theorem exists_met_not_translated : ∃ source api trace, ofJson twoSpellings = .ok source ∧
    source.api .default = .ok api ∧
    Visits source.raw true (source.plan .default).pointers Registry.empty trace none api.types ∧
    ∃ v ∈ trace, ∃ w ∈ trace, v.name = w.name ∧
      source.translation? .default v.pointer ≠ source.translation? .default w.pointer ∧
      (api.types.lookup? w.name).map (·.type) ≠ source.translation? .default w.pointer := by
  let p := "#/components/schemas/a-b"
  let q := "#/components/schemas/a_b"
  have hrun : succeedsWith twoSpellings .default (fun source api =>
      (source.plan .default).pointers == [p, q] && Pointer.typeName p == Pointer.typeName q &&
        (source.translation? .default p).map (TypeExpr.same .string) == some true &&
        (source.translation? .default q).map (TypeExpr.same .string) == some false &&
        ((api.types.lookup? (Pointer.typeName q)).map (·.type)).map (TypeExpr.same .string) ==
          some true) = true := by
    decide +kernel
  obtain ⟨source, api, hsource, hapi, hchecked⟩ := of_succeedsWith hrun
  simp only [Bool.and_eq_true, beq_iff_eq] at hchecked
  obtain ⟨⟨⟨⟨hpointers, hname⟩, hp⟩, hq⟩, hlookup⟩ := hchecked
  obtain ⟨trace, hvisits, -⟩ := visits_of_api hapi
  obtain ⟨v, hv, hvp⟩ := hvisits.met rfl p (by rw [hpointers]; simp)
  obtain ⟨w, hw, hwq⟩ := hvisits.met rfl q (by rw [hpointers]; simp)
  refine ⟨source, api, trace, hsource, hapi, hvisits, v, hv, w, hw, ?_, ?_, ?_⟩
  · rw [Visit.name, Visit.name, hvp, hwq]
    exact hname
  · -- only the first translates to the type of texts
    intro heq
    rw [hvp, hwq] at heq
    rw [heq, hq] at hp
    cases hp
  · -- and that is what is registered
    intro heq
    rw [Visit.name, hwq] at heq
    rw [heq, hq] at hlookup
    cases hlookup

end Source

end TypedClient
