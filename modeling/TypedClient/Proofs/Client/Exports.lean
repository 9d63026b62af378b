import Mathlib.Data.List.Duplicate
import Mathlib.Data.List.Pairwise
import TypedClient.Proofs.Client.Conflict
import TypedClient.Proofs.Extraction.Plan
import TypedClient.Proofs.Naming
/-!
# Names that a client exports

A client that is rendered can declare a name twice, since a type may be
declared again as it is. This happens to types of results only, and all
declarations of the name are then of one type (`exported_twice`): two
statuses of an operation can share a word, and the type for a status can
have the name of the results of an operation without responses.
-/

namespace TypedClient

namespace Client

variable {api : Api} {options : Options} {declared more : List Declaration} {d e : Declaration}
variable {b c : Binding} {name : String} {named : NamedType}

/-- The names that a client exports: those of the named types, and those of
its declarations. -/
def exportedNames (api : Api) (options : Options) : List String :=
  (if options.types then api.types.definitions.map (·.1) else []) ++
    (declarations api options).map Declaration.name

/-! ## Declarations that do not offend -/

/-- None of them is taken. -/
theorem Consistent.not_taken (h : Consistent api options declared) (hd : d ∈ declared) :
    ¬ Taken api options d := by
  obtain ⟨before, after, rfl⟩ := List.append_of_mem hd
  exact fun htaken => h before d after rfl (.inl htaken)

/-- And none clashes with a later one. -/
theorem Consistent.pairwise (h : Consistent api options declared) :
    declared.Pairwise fun d e => ¬ Clash d e := by
  rw [List.pairwise_iff_forall_sublist]
  intro d e hsub hclash
  obtain ⟨front, behind, rfl, hfront, hbehind⟩ := List.cons_sublist_iff.1 hsub
  obtain ⟨before, after, rfl⟩ := List.append_of_mem (List.singleton_sublist.1 hbehind)
  have heq : front ++ (before ++ e :: after) = (front ++ before) ++ e :: after := by simp
  exact h _ e after heq (.inr ⟨d, List.mem_append_left _ hfront, hclash⟩)

/-- **Types of one name are one type.** -/
theorem Consistent.type_eq (h : Consistent api options declared) {other : NamedType}
    (hnamed : .type name named ∈ declared) (hother : .type name other ∈ declared) :
    named.type = other.type := by
  have hpairwise : declared.Pairwise fun d e => ∀ name named other,
      d = .type name named → e = .type name other → named.type = other.type := by
    refine h.pairwise.imp ?_
    rintro _ _ hclash name named other rfl rfl
    by_contra hne
    exact hclash ⟨rfl, hne⟩
  have : Std.Symm fun d e : Declaration => ∀ name named other,
      d = .type name named → e = .type name other → named.type = other.type :=
    ⟨fun _ _ hde name named other hd he => (hde name other named he hd).symm⟩
  refine hpairwise.forall_of_forall ?_ hnamed hother name named other rfl rfl
  rintro _ _ name named other rfl heq
  cases heq
  rfl

/-! ## Which names an operation declares -/

theorem mem_bindings_iff : b ∈ bindings api options ↔
    ∃ e ∈ api.endpoints, b = Binding.ofEndpoint options.withDoc e := by
  simp only [bindings, List.mem_map, eq_comm]

/-- The names are made from the method and the path. -/
theorem ofOperation (h : b ∈ bindings api options) : b.names.OfOperation := by
  obtain ⟨e, -, rfl⟩ := mem_bindings_iff.1 h
  exact ⟨e.method, e.path, rfl⟩

/-- The types for statuses are called by these. -/
theorem variant_name (h : b ∈ bindings api options) {v : String × NamedType}
    (hv : v ∈ b.variants) : ∃ status, v.1 = b.names.variant status := by
  obtain ⟨e, -, rfl⟩ := mem_bindings_iff.1 h
  obtain ⟨o, -, rfl⟩ := List.mem_map.1 hv
  exact ⟨o.status, rfl⟩

theorem mem_declarations_of_binding_iff : d ∈ b.declarations ↔
    d = .function b.names.function ∨ d = .type b.names.params ⟨b.params, none⟩ ∨
    d = .type b.names.result ⟨b.resultType, none⟩ ∨
    ∃ v ∈ b.variants, d = .type v.1 v.2 := by
  simp only [Binding.declarations, Binding.typeDeclarations, List.map_cons, List.mem_cons,
    List.mem_map, eq_comm]

/-- A name of the type for some status. -/
def IsVariant (api : Api) (options : Options) (name : String) : Prop :=
  ∃ b ∈ bindings api options, ∃ v ∈ b.variants, v.1 = name

/-- A function has the name of no type of an operation. -/
theorem function_ne_type (hb : b ∈ bindings api options) (hc : c ∈ bindings api options)
    (hd : .type name named ∈ c.declarations) : b.names.function ≠ name := by
  have hn := ofOperation hb
  have hm := ofOperation hc
  rcases mem_declarations_of_binding_iff.1 hd with heq | heq | heq | ⟨v, hv, heq⟩
  · cases heq
  · cases heq
    exact Names.function_ne_params hn hm
  · cases heq
    exact Names.function_ne_result hn hm
  · cases heq
    obtain ⟨status, hstatus⟩ := variant_name hc hv
    rw [hstatus]
    exact Names.function_ne_variant hn hm status

/-- And not that of the function for requests or one of its types. -/
theorem function_not_mem_requestNames (hb : b ∈ bindings api options) :
    b.names.function ∉ requestNames := by
  obtain ⟨method, path, hnames⟩ := ofOperation hb
  have htake : b.names.function.toList.take 3 = (Naming.verb method).toList.take 3 := by
    rw [hnames]
    exact Naming.take_functionName method path
  intro hmem
  have hinitial : ∀ name ∈ requestNames, ∀ method,
      name.toList.take 3 ≠ (Naming.verb method).toList.take 3 := by
    intro name hname method
    revert name
    cases method <;> decide
  exact hinitial _ hmem method htake

/-- The type of arguments has the name of no result. -/
theorem params_ne_variant (hv : IsVariant api options name) : b.names.params ≠ name := by
  obtain ⟨c, hc, v, hv, rfl⟩ := hv
  obtain ⟨status, hstatus⟩ := variant_name hc hv
  rw [hstatus]
  exact Names.params_ne_variant status

/-! ## Names that are declared twice -/

/-- Within an operation, only a type for a status shares its name. -/
theorem pairwise_binding (hb : b ∈ bindings api options) :
    b.declarations.Pairwise fun d e => d.name = e.name → IsVariant api options d.name := by
  have hvariant : ∀ v ∈ b.variants, IsVariant api options v.1 := fun v hv => ⟨b, hb, v, hv, rfl⟩
  rw [Binding.declarations, List.pairwise_cons, List.pairwise_map, Binding.typeDeclarations,
    List.pairwise_cons, List.pairwise_cons]
  refine ⟨?_, ?_, ?_, ?_⟩
  · -- the function
    intro e he hname
    obtain ⟨v, hv, rfl⟩ := List.mem_map.1 he
    have hdeclared : .type v.1 v.2 ∈ b.declarations := List.mem_cons_of_mem _ he
    exact absurd hname (function_ne_type hb hb hdeclared)
  · -- the type of arguments
    intro v hv hname
    rcases List.mem_cons.1 hv with rfl | hv
    · exact absurd hname Names.params_ne_result
    · exact absurd hname (params_ne_variant (hvariant v hv))
  · -- the type of results
    intro v hv hname
    rw [hname]
    exact hvariant v hv
  · exact List.pairwise_of_forall_mem_list fun v hv w _ _ => hvariant v hv

/-- And so it is between operations whose functions have different names. -/
theorem isVariant_of_name_eq (hb : b ∈ bindings api options) (hc : c ∈ bindings api options)
    (hne : b.names.function ≠ c.names.function) (hd : d ∈ b.declarations)
    (he : e ∈ c.declarations) (hname : d.name = e.name) : IsVariant api options d.name := by
  have hn := ofOperation hb
  have hm := ofOperation hc
  rcases mem_declarations_of_binding_iff.1 hd with rfl | rfl | rfl | ⟨v, hv, rfl⟩
  · rcases mem_declarations_of_binding_iff.1 he with rfl | rfl | rfl | ⟨w, hw, rfl⟩
    · exact absurd hname hne
    · exact absurd hname (function_ne_type hb hc he)
    · exact absurd hname (function_ne_type hb hc he)
    · exact absurd hname (function_ne_type hb hc he)
  · rcases mem_declarations_of_binding_iff.1 he with rfl | rfl | rfl | ⟨w, hw, rfl⟩
    · exact absurd hname.symm (function_ne_type hc hb hd)
    · exact absurd (Names.function_eq_of_params_eq hn hm hname) hne
    · exact absurd hname Names.params_ne_result
    · exact absurd hname (params_ne_variant ⟨c, hc, w, hw, rfl⟩)
  · rcases mem_declarations_of_binding_iff.1 he with rfl | rfl | rfl | ⟨w, hw, rfl⟩
    · exact absurd hname.symm (function_ne_type hc hb hd)
    · exact absurd hname.symm Names.params_ne_result
    · exact absurd (Names.function_eq_of_result_eq hn hm hname) hne
    · exact ⟨c, hc, w, hw, hname.symm⟩
  · exact ⟨b, hb, v, hv, rfl⟩

theorem mem_declarations_iff : d ∈ declarations api options ↔
    (options.request = true ∧ ∃ name ∈ requestNames, d = .request name) ∨
      (options.operations = true ∧ ∃ b ∈ bindings api options, d ∈ b.declarations) := by
  rw [declarations, List.mem_append]
  by_cases hrequest : options.request = true <;>
    by_cases hoperations : options.operations = true <;>
      simp [hrequest, hoperations, eq_comm]

/-- No operation declares the name of the function for requests or of one
of its types. -/
theorem Consistent.not_mem_requestNames (h : Consistent api options (declarations api options))
    (hrequest : options.request = true) (hb : b ∈ bindings api options)
    (hd : d ∈ b.declarations) (hmem : d ∈ declarations api options) :
    d.name ∉ requestNames := by
  have htaken := h.not_taken hmem
  rcases mem_declarations_of_binding_iff.1 hd with rfl | rfl | rfl | ⟨v, hv, rfl⟩
  · exact function_not_mem_requestNames hb
  all_goals exact fun hname => htaken (Or.inr ⟨hrequest, hname⟩)

theorem nodup_requestNames : requestNames.Nodup := by decide

/-- **Where nothing offends, only types for statuses share their names.** -/
theorem Consistent.pairwise_name (h : Consistent api options (declarations api options)) :
    (declarations api options).Pairwise fun d e =>
      d.name = e.name → IsVariant api options d.name := by
  have hclash := h.pairwise
  rw [declarations, List.pairwise_append] at hclash ⊢
  refine ⟨?_, ?_, ?_⟩
  · by_cases hrequest : options.request = true
    · rw [if_pos hrequest, List.pairwise_map]
      exact nodup_requestNames.imp fun hne hname => absurd hname hne
    · rw [if_neg hrequest]
      exact List.Pairwise.nil
  · by_cases hoperations : options.operations = true
    · have hacross := hclash.2.1
      rw [if_pos hoperations, List.pairwise_flatMap] at hacross ⊢
      refine ⟨fun b hb => pairwise_binding hb, hacross.2.imp_of_mem ?_⟩
      intro b c hb hc hfree d hd e he hname
      have hne : b.names.function ≠ c.names.function :=
        hfree _ List.mem_cons_self _ List.mem_cons_self
      exact isVariant_of_name_eq hb hc hne hd he hname
    · rw [if_neg hoperations]
      exact List.Pairwise.nil
  · intro d hd e he hname
    rcases hrequest : options.request with _ | _
    · simp [hrequest] at hd
    rcases hoperations : options.operations with _ | _
    · simp [hoperations] at he
    simp only [hrequest, hoperations, if_true] at hd he
    obtain ⟨name, hrequested, rfl⟩ := List.mem_map.1 hd
    obtain ⟨b, hb, heb⟩ := List.mem_flatMap.1 he
    have hmem : e ∈ declarations api options :=
      mem_declarations_iff.2 (.inr ⟨hoperations, b, hb, heb⟩)
    have hfree := h.not_mem_requestNames hrequest hb heb hmem
    rw [← hname] at hfree
    exact absurd hrequested hfree

/-! ## The client as a whole -/

/-- What is listed twice is listed in a part twice, or in both parts. -/
theorem duplicate_append {α : Type} {x : α} {xs ys : List α} (h : List.Duplicate x (xs ++ ys)) :
    List.Duplicate x xs ∨ (x ∈ xs ∧ x ∈ ys) ∨ List.Duplicate x ys := by
  simp only [List.duplicate_iff_sublist, ← List.singleton_sublist] at h ⊢
  obtain ⟨front, behind, heq, hfront, hbehind⟩ := List.sublist_append_iff.1 h
  match front, heq with
  | [], heq => exact .inr (.inr (by rw [← List.nil_append behind, ← heq] at hbehind; exact hbehind))
  | [_], heq =>
    cases heq
    exact .inr (.inl ⟨hfront, hbehind⟩)
  | [_, _], heq =>
    cases heq
    exact .inl hfront

/-- What is listed in both of two lists without repetitions is listed twice in
them together, and nothing else is. -/
theorem duplicate_append_iff {α : Type} {x : α} {xs ys : List α} (hxs : xs.Nodup) (hys : ys.Nodup) :
    List.Duplicate x (xs ++ ys) ↔ x ∈ xs ∧ x ∈ ys := by
  constructor
  · intro h
    obtain hfirst | hboth | hsecond := duplicate_append h
    · exact absurd hfirst (List.nodup_iff_forall_not_duplicate.1 hxs x)
    · exact hboth
    · exact absurd hsecond (List.nodup_iff_forall_not_duplicate.1 hys x)
  · rintro ⟨hx, hy⟩
    rw [List.duplicate_iff_sublist]
    exact (List.singleton_sublist.2 hx).append (List.singleton_sublist.2 hy)

/-- A name that is listed twice has what equal names of the list have. -/
theorem of_duplicate {α : Type} {P : α → Prop} {x : α} {xs : List α}
    (h : xs.Pairwise fun y z => y = z → P y) (hx : List.Duplicate x xs) : P x := by
  have hpair := h.sublist (List.duplicate_iff_sublist.1 hx)
  exact List.rel_of_pairwise_cons hpair (List.mem_singleton_self x) rfl

/-- **A name that may be declared more than once.** It is that of the type
for some status. All its declarations are types and have one type; it is no
named type and no type of arguments, and an operation whose results are
called so has no responses. -/
structure Shared (api : Api) (options : Options) (name : String) : Prop where
  variant : IsVariant api options name
  type : ∃ type, ∀ d ∈ declarations api options, d.name = name →
    ∃ named, d = .type name named ∧ named.type = type
  not_named : name ∉ api.types.names
  not_params : ∀ b ∈ bindings api options, b.names.params ≠ name
  result : ∀ b ∈ bindings api options, b.names.result = name → b.endpoint.outcomes = []

/-- Without operations no name is declared twice. -/
theorem nodup_of_not_operations (h : options.operations = false) :
    ((declarations api options).map Declaration.name).Nodup := by
  cases hrequest : options.request with
  | false => simp [declarations, h, hrequest]
  | true =>
    have hnames : (declarations api options).map Declaration.name = requestNames := by
      simp [declarations, h, hrequest, Function.comp_def, Declaration.name]
    rw [hnames]
    exact nodup_requestNames

/-- The type for a status is no union, so a union is not declared again. -/
theorem isUnion_variant (hb : b ∈ bindings api options) {v : String × NamedType}
    (hv : v ∈ b.variants) : v.2.type.isUnion = false := by
  obtain ⟨e, -, rfl⟩ := mem_bindings_iff.1 hb
  obtain ⟨o, -, rfl⟩ := List.mem_map.1 hv
  rfl

/-- The type of results is a union where there are responses. -/
theorem resultType_eq (hb : b ∈ bindings api options) (h : b.endpoint.outcomes ≠ []) :
    b.resultType =
      .union (b.endpoint.outcomes.map fun o => .ref (b.names.variant o.status)) := by
  obtain ⟨e, -, rfl⟩ := mem_bindings_iff.1 hb
  have hvariants : ¬ (Binding.ofEndpoint options.withDoc e).variants.isEmpty = true := by
    simpa [Binding.ofEndpoint] using h
  rw [Binding.resultType, if_neg hvariants]
  simp [Binding.ofEndpoint, Binding.variant, Function.comp_def]

variable {v : String × NamedType}

/-- The type for a status is among the declarations of a client. -/
theorem type_mem_declarations (hoperations : options.operations = true)
    (hb : b ∈ bindings api options) (hv : v ∈ b.variants) :
    .type v.1 v.2 ∈ b.declarations ∧ .type v.1 v.2 ∈ declarations api options := by
  have hdeclared : .type v.1 v.2 ∈ b.declarations :=
    mem_declarations_of_binding_iff.2 (.inr (.inr (.inr ⟨v, hv, rfl⟩)))
  exact ⟨hdeclared, mem_declarations_iff.2 (.inr ⟨hoperations, b, hb, hdeclared⟩)⟩

/-- **What has the name of the type for a status is a type**, and the same
one. -/
theorem Consistent.type_of_name_eq (h : Consistent api options (declarations api options))
    (hoperations : options.operations = true) (hb : b ∈ bindings api options)
    (hv : v ∈ b.variants) (hd : d ∈ declarations api options) (hname : d.name = v.1) :
    ∃ named, d = .type v.1 named ∧ named.type = v.2.type := by
  obtain ⟨hv', hdeclared⟩ := type_mem_declarations hoperations hb hv
  have htype : ∀ name named, .type name named ∈ declarations api options → name = v.1 →
      ∃ more, Declaration.type name named = .type v.1 more ∧ more.type = v.2.type := by
    rintro name named hmem rfl
    exact ⟨named, rfl, h.type_eq hmem hdeclared⟩
  rcases mem_declarations_iff.1 hd with ⟨hrequest, name, hrequested, rfl⟩ | ⟨-, c, hc, hdc⟩
  · exact absurd (hname ▸ hrequested) (h.not_mem_requestNames hrequest hb hv' hdeclared)
  · rcases mem_declarations_of_binding_iff.1 hdc with rfl | rfl | rfl | ⟨w, hw, rfl⟩
    · exact absurd hname (function_ne_type hc hb hv')
    · exact htype _ _ hd hname
    · exact htype _ _ hd hname
    · exact htype _ _ hd hname

/-- Results that have its name are those of an operation without
responses. -/
theorem Consistent.outcomes_eq_nil (h : Consistent api options (declarations api options))
    (hoperations : options.operations = true) (hb : b ∈ bindings api options)
    (hv : v ∈ b.variants) (hc : c ∈ bindings api options) (hresult : c.names.result = v.1) :
    c.endpoint.outcomes = [] := by
  by_contra hresponses
  have hdeclared : .type c.names.result ⟨c.resultType, none⟩ ∈ declarations api options :=
    mem_declarations_iff.2 (.inr ⟨hoperations, c, hc,
      mem_declarations_of_binding_iff.2 (.inr (.inr (.inl rfl)))⟩)
  obtain ⟨named, heq, htype⟩ := h.type_of_name_eq hoperations hb hv hdeclared hresult
  obtain ⟨-, rfl⟩ := Declaration.type.inj heq
  -- the results would be a union and the type for the status a record
  have hrecord := isUnion_variant hb hv
  have hunion := resultType_eq hc hresponses
  rw [← htype, hunion] at hrecord
  cases hrecord

/-- **A name that is declared twice is shared.** -/
theorem Consistent.shared (h : Consistent api options (declarations api options))
    (hname : List.Duplicate name ((declarations api options).map Declaration.name)) :
    Shared api options name := by
  have hoperations : options.operations = true := by
    by_contra hoff
    have hnodup : ((declarations api options).map Declaration.name).Nodup :=
      nodup_of_not_operations (Bool.not_eq_true _ ▸ hoff)
    exact List.nodup_iff_forall_not_duplicate.1 hnodup _ hname
  have hvariant : IsVariant api options name := by
    refine of_duplicate ?_ hname
    rw [List.pairwise_map]
    exact h.pairwise_name
  obtain ⟨b, hb, v, hv, rfl⟩ := id hvariant
  have hfree := h.not_taken (type_mem_declarations hoperations hb hv).2
  exact
    { variant := hvariant
      type := ⟨v.2.type, fun d hd hname => h.type_of_name_eq hoperations hb hv hd hname⟩
      not_named := fun hmem => hfree (Or.inl hmem)
      not_params := fun c _ => params_ne_variant hvariant
      result := fun c hc hresult => h.outcomes_eq_nil hoperations hb hv hc hresult }

/-- **A client exports no name twice but that of a type that is declared
again as it is.** Each such name is shared in the sense of `Shared`. The
type of the results of an operation with responses is the union of the types
for these, in their order; two of these have one name exactly if the words
for the statuses are the same, and are then one type. -/
theorem exported_twice {text : String} (hnodup : api.types.names.Nodup)
    (h : render api options = .ok text) :
    (∀ name, List.Duplicate name (exportedNames api options) → Shared api options name) ∧
    (options.operations = true → ∀ b ∈ bindings api options,
      (b.endpoint.outcomes ≠ [] → b.resultType =
        .union (b.endpoint.outcomes.map fun o => .ref (b.names.variant o.status))) ∧
      ∀ o ∈ b.endpoint.outcomes, ∀ p ∈ b.endpoint.outcomes,
        (b.names.variant o.status = b.names.variant p.status ↔ o.status.word = p.status.word) ∧
        (o.status.word = p.status.word → Binding.variantType o = Binding.variantType p)) := by
  have hconsistent := Consistent.of_render h
  constructor
  · intro name hname
    rcases duplicate_append hname with htwice | ⟨hnamed, hdeclared⟩ | hdeclared
    · have hdefined : (if options.types then api.types.definitions.map (·.1) else []).Nodup := by
        split
        · exact Registry.definitions_sublist.nodup hnodup
        · exact List.nodup_nil
      exact absurd htwice (List.nodup_iff_forall_not_duplicate.1 hdefined name)
    · have hmem : name ∈ api.types.names := by
        split at hnamed
        · exact Registry.definitions_sublist.subset hnamed
        · cases hnamed
      obtain ⟨d, hd, rfl⟩ := List.mem_map.1 hdeclared
      refine absurd ?_ (hconsistent.not_taken hd)
      cases d with
      | request name => exact hmem
      | function name => exact hmem
      | type name named => exact Or.inl hmem
    · exact hconsistent.shared hdeclared
  · intro hoperations b hb
    refine ⟨resultType_eq hb, fun o ho p hp => ⟨Names.variant_eq_iff _ _, fun hword => ?_⟩⟩
    have hdeclared : ∀ o ∈ b.endpoint.outcomes, .type (b.names.variant o.status)
        ⟨Binding.variantType o, Binding.documented options.withDoc o.description⟩ ∈
          declarations api options := by
      intro o ho
      have hvariant : Binding.variant options.withDoc b.names o ∈ b.variants := by
        obtain ⟨e, -, rfl⟩ := mem_bindings_iff.1 hb
        exact List.mem_map_of_mem ho
      exact (type_mem_declarations hoperations hb hvariant).2
    have hp' := hdeclared p hp
    rw [← (Names.variant_eq_iff _ _).2 hword] at hp'
    exact hconsistent.type_eq (hdeclared o ho) hp'

/-- An operation with two spellings of the default response. -/
def twoDefaults : Json :=
  .object [("paths", .object [("/x", .object [("get", .object [("responses", .object [
    ("default", .object []), ("Default", .object [])])])])])]

/-- Its client is rendered, with these names. -/
theorem render_twoDefaults : ∃ source api text, Source.ofJson twoDefaults = .ok source ∧
    source.api .default = .ok api ∧ render api .default = .ok text ∧ api.types.names = [] ∧
    exportedNames api .default = ["RequestOptions", "RequestParams", "request", "getX",
      "GetXParams", "GetXResult", "GetXDefaultResult", "GetXDefaultResult"] ∧
    (bindings api .default).map (fun b => b.variants.map (·.1)) =
      [["GetXDefaultResult", "GetXDefaultResult"]] := by
  have hrun : Source.succeedsWith twoDefaults .default (fun _ api =>
      (check api .default).isOk && api.types.names == [] &&
        exportedNames api .default == ["RequestOptions", "RequestParams", "request", "getX",
          "GetXParams", "GetXResult", "GetXDefaultResult", "GetXDefaultResult"] &&
        (bindings api .default).map (fun b => b.variants.map (·.1)) ==
          [["GetXDefaultResult", "GetXDefaultResult"]]) = true := by
    decide
  obtain ⟨source, api, hsource, hapi, hchecked⟩ := Source.of_succeedsWith hrun
  simp only [Bool.and_eq_true, beq_iff_eq] at hchecked
  obtain ⟨⟨⟨hcheck, htypes⟩, hexported⟩, hvariants⟩ := hchecked
  obtain ⟨text, htext⟩ := exists_render_of_check hcheck
  exact ⟨source, api, text, hsource, hapi, htext, htypes, hexported, hvariants⟩

/-- The name that it exports twice is that of one type. -/
theorem exported_twice_of_twoDefaults : ∃ source api text,
    Source.ofJson twoDefaults = .ok source ∧ source.api .default = .ok api ∧
    api.types.names.Nodup ∧ render api .default = .ok text ∧
    List.Duplicate "GetXDefaultResult" (exportedNames api .default) ∧
    Shared api .default "GetXDefaultResult" := by
  obtain ⟨source, api, text, hsource, hapi, htext, htypes, hexported, -⟩ := render_twoDefaults
  have hnodup : api.types.names.Nodup := by
    rw [htypes]
    exact List.nodup_nil
  have htwice : List.Duplicate "GetXDefaultResult" (exportedNames api .default) := by
    rw [hexported]
    decide
  exact ⟨source, api, text, hsource, hapi, hnodup, htext, htwice,
    (exported_twice hnodup htext).1 _ htwice⟩

/-- And the union of its results lists it twice. -/
theorem exists_exported_not_nodup : ∃ source api text,
    Source.ofJson twoDefaults = .ok source ∧ source.api .default = .ok api ∧
    render api .default = .ok text ∧ ¬ (exportedNames api .default).Nodup ∧
    ∃ b ∈ bindings api .default, ¬ (b.variants.map (·.1)).Nodup := by
  obtain ⟨source, api, text, hsource, hapi, htext, -, hexported, hvariants⟩ := render_twoDefaults
  refine ⟨source, api, text, hsource, hapi, htext, ?_, ?_⟩
  · rw [hexported]
    decide
  · have hmem : ["GetXDefaultResult", "GetXDefaultResult"] ∈
        (bindings api .default).map fun b => b.variants.map (·.1) := by
      rw [hvariants]
      exact List.mem_singleton_self _
    obtain ⟨b, hb, heq⟩ := List.mem_map.1 hmem
    refine ⟨b, hb, ?_⟩
    rw [heq]
    decide

end Client

end TypedClient
