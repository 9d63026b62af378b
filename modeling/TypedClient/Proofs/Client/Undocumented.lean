import TypedClient.Proofs.Client.Conflict
import TypedClient.Proofs.Extraction.Undocumented
/-!
# Declarations without documentation

A client without comments declares the same names for the same types, the
types without documentation. So it is consistent where the client with
comments is (`Consistent.undocumented`). The other way a client can only be
refused for a type that differs from an earlier one of its name in the
documentation of fields (`FirstOffender.of_undocumented`).
-/

namespace TypedClient

namespace Binding

variable {withDoc : Bool}

/-- The declarations of an endpoint without documentation. -/
def undocumented (b : Binding) : Binding where
  endpoint := b.endpoint.undocumented
  names := b.names
  params := b.params.undocumented
  variants := b.variants.map fun v => (v.1, v.2.undocumented)

theorem preferred?_map {α β : Type} (f : α → β) (entries : List (String × α)) :
    Media.preferred? (entries.map fun m => (m.1, f m.2)) =
      (Media.preferred? entries).map fun m => (m.1, f m.2) := by
  have hfirst : ∀ kind, Media.first? kind (entries.map fun m => (m.1, f m.2)) =
      (Media.first? kind entries).map fun m => (m.1, f m.2) := by
    intro kind
    rw [Media.first?, Media.first?, List.find?_map]
    rfl
  rw [Media.preferred?, Media.preferred?, hfirst, hfirst]
  cases Media.first? .json entries with
  | some entry => rfl
  | none =>
    cases Media.first? .text entries with
    | some entry => rfl
    | none => simp

@[simp] theorem undocumented_fieldType (status : Status) :
    status.fieldType.undocumented = status.fieldType := by
  cases status <;> rfl

theorem undocumented_resultRecord (status data : TypeExpr) :
    (resultRecord status data).undocumented =
      resultRecord status.undocumented data.undocumented := by
  simp [resultRecord]

theorem variantType_undocumented (o : Outcome) :
    variantType o.undocumented = (variantType o).undocumented := by
  rw [variantType, variantType, undocumented_resultRecord, undocumented_fieldType,
    Outcome.undocumented, preferred?_map]
  cases Media.preferred? o.mediaTypes <;> rfl

theorem variant_undocumented (names : Names) (o : Outcome) :
    variant false names o.undocumented =
      ((variant withDoc names o).1, (variant withDoc names o).2.undocumented) := by
  rw [variant, variantType_undocumented]
  rfl

theorem argumentField_undocumented (a : Argument) : argumentField false a =
    ((argumentField withDoc a).1.undocumented, (argumentField withDoc a).2.undocumented) := by
  have htype : a.type.typeExpr.undocumented = a.type.typeExpr := by
    cases a.type <;> rfl
  rw [argumentField, argumentField, htype]
  rfl

theorem arguments_undocumented (withDoc : Bool) (arguments : List Argument) :
    arguments.map (argumentField false) = (arguments.map (argumentField withDoc)).map
      fun f => (f.1.undocumented, f.2.undocumented) := by
  rw [List.map_map]
  exact List.map_congr_left fun a _ => argumentField_undocumented a

theorem groupField_undocumented (withDoc : Bool) (name : String) (group : List Argument) :
    groupField false name group = (groupField withDoc name group).map
      fun f => (f.1.undocumented, f.2.undocumented) := by
  rw [groupField, groupField]
  split
  · rfl
  · rw [arguments_undocumented withDoc]
    simp [FieldLabel.undocumented]

theorem paramsType_undocumented (e : Endpoint) :
    paramsType false e.undocumented = (paramsType withDoc e).undocumented := by
  have hbody : (e.body.map Body.undocumented).map (bodyField false) =
      (e.body.map (bodyField withDoc)).map fun f => (f.1.undocumented, f.2.undocumented) := by
    cases e.body <;> rfl
  simp only [paramsType, Endpoint.undocumented, TypeExpr.undocumented_record, List.map_append]
  rw [arguments_undocumented withDoc, hbody, groupField_undocumented withDoc,
    groupField_undocumented withDoc]
  cases e.body.map (bodyField withDoc) <;> rfl

/-- **Without comments an endpoint has the same declarations without
documentation.** -/
theorem ofEndpoint_undocumented (e : Endpoint) :
    ofEndpoint false e.undocumented = (ofEndpoint withDoc e).undocumented := by
  have hvariants : (e.outcomes.map Outcome.undocumented).map
      (variant false (Names.ofPath e.method e.path)) =
        (e.outcomes.map (variant withDoc (Names.ofPath e.method e.path))).map
          fun v => (v.1, v.2.undocumented) := by
    rw [List.map_map, List.map_map]
    exact List.map_congr_left fun o _ => variant_undocumented _ o
  rw [ofEndpoint, paramsType_undocumented]
  simp only [Endpoint.undocumented, hvariants]
  rfl

theorem resultType_undocumented (b : Binding) :
    b.undocumented.resultType = b.resultType.undocumented := by
  rw [resultType, resultType, undocumented, List.isEmpty_map]
  split
  · rfl
  · simp

end Binding

namespace Client

variable {api : Api} {options : Options} {declared before : List Declaration}
variable {d e : Declaration}

theorem bindings_undocumented : bindings api.undocumented options.undocumented =
    (bindings api options).map Binding.undocumented := by
  rw [bindings, bindings, Api.undocumented, List.map_map, List.map_map]
  exact List.map_congr_left fun e _ => Binding.ofEndpoint_undocumented e

end Client

/-- The declaration without documentation. -/
def Declaration.undocumented : Declaration → Declaration
  | .request name => .request name
  | .function name => .function name
  | .type name named => .type name named.undocumented

theorem Binding.declarations_undocumented (b : Binding) :
    b.undocumented.declarations = b.declarations.map Declaration.undocumented := by
  simp only [declarations, typeDeclarations, resultType_undocumented]
  simp [undocumented, Declaration.undocumented, NamedType.undocumented, Function.comp_def]

namespace Client

variable {api : Api} {options : Options} {declared before : List Declaration}
variable {d e : Declaration}

/-- **The declarations of a client without comments.** -/
theorem declarations_undocumented : declarations api.undocumented options.undocumented =
    (declarations api options).map Declaration.undocumented := by
  have hrequest : options.undocumented.request = options.request := rfl
  have hoperations : options.undocumented.operations = options.operations := rfl
  rw [declarations, declarations, List.map_append, hrequest, hoperations, bindings_undocumented]
  congr 1
  · split <;> rfl
  · split
    · rw [List.flatMap_map, List.map_flatMap]
      congr 1
      funext b
      exact b.declarations_undocumented
    · rfl

/-! ## Offences -/

theorem taken_undocumented_iff :
    Taken api.undocumented options.undocumented d.undocumented ↔ Taken api options d := by
  cases d <;> simp [Declaration.undocumented, Taken, Api.undocumented, Options.undocumented]

/-- What clashes without documentation clashes with it. -/
theorem clash_of_undocumented (h : Clash d.undocumented e.undocumented) : Clash d e := by
  cases d with
  | request name => cases e <;> exact h
  | function name => cases e <;> exact h
  | type name named =>
    cases e with
    | type other more =>
      obtain ⟨hname, hne⟩ := h
      refine ⟨hname, fun heq => hne ?_⟩
      rw [NamedType.type_undocumented, heq, NamedType.type_undocumented]
    | _ => exact h

theorem offends_of_undocumented
    (h : Offends api.undocumented options.undocumented (before.map Declaration.undocumented)
      d.undocumented) : Offends api options before d := by
  rcases h with htaken | ⟨e, he, hclash⟩
  · exact .inl (taken_undocumented_iff.1 htaken)
  · obtain ⟨earlier, hearlier, rfl⟩ := List.mem_map.1 he
    exact .inr ⟨earlier, hearlier, clash_of_undocumented hclash⟩

/-- **What is consistent is so without documentation.** -/
theorem Consistent.undocumented (h : Consistent api options declared) :
    Consistent api.undocumented options.undocumented (declared.map Declaration.undocumented) := by
  intro front d behind heq hoffends
  obtain ⟨before, rest, rfl, rfl, hrest⟩ := List.map_eq_append_iff.1 heq
  obtain ⟨e, after, rfl, rfl, rfl⟩ := List.map_eq_cons_iff.1 hrest
  exact h before e after rfl (offends_of_undocumented hoffends)

/-- **What only offends with documentation** is a type, and an earlier one
of its name differs from it in the documentation of fields only. -/
theorem FirstOffender.of_undocumented (h : FirstOffender api options declared d)
    (hplain : Consistent api.undocumented options.undocumented
      (declared.map Declaration.undocumented)) :
    ∃ before name earlier later after, declared = before ++ .type name later :: after ∧
      d = .type name later ∧ .type name earlier ∈ before ∧ earlier.type ≠ later.type ∧
      earlier.type.undocumented = later.type.undocumented := by
  obtain ⟨before, after, rfl, hoffends, -⟩ := h
  have hfree : ¬ Offends api.undocumented options.undocumented
      (before.map Declaration.undocumented) d.undocumented :=
    hplain _ _ (after.map Declaration.undocumented) (by simp)
  -- a name is taken with and without documentation, so it was a clash
  rcases hoffends with htaken | ⟨e, he, hclash⟩
  · exact absurd (.inl (taken_undocumented_iff.2 htaken)) hfree
  · have hnone : ¬ Clash e.undocumented d.undocumented := fun hboth =>
      hfree (.inr ⟨_, List.mem_map_of_mem he, hboth⟩)
    cases d with
    | request name => cases e <;> exact hclash.elim
    | function name =>
      cases e with
      | function other => exact absurd hclash hnone
      | _ => exact hclash.elim
    | type name later =>
      cases e with
      | type other earlier =>
        obtain ⟨rfl, hne⟩ := hclash
        refine ⟨before, other, earlier, later, after, rfl, rfl, he, hne, ?_⟩
        by_contra hdiffer
        exact hnone ⟨rfl, hdiffer⟩
      | _ => exact hclash.elim

end Client

end TypedClient
