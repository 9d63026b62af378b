import TypedClient.Client.Module
import TypedClient.Proofs.Registry
import TypedClient.Proofs.TypeExpr.Same
/-!
# Conflicts between declarations

A client declares the function for requests with its types, and for each
endpoint its function and its types. `Client.declarations` is the list of
them in the order of the text. A declaration offends when its name is taken
before anything is declared, or clashes with one before it. Rendering fails
exactly where a declaration offends, and names the first that does
(`render_error_iff`).
-/

namespace TypedClient

/-- A declaration of a client. -/
inductive Declaration where
  /-- The function for requests, or one of its types. -/
  | request (name : String)
  /-- The function of an endpoint. -/
  | function (name : String)
  /-- A type of an endpoint. -/
  | type (name : String) (named : NamedType)

/-- The name that is declared. -/
def Declaration.name : Declaration → String
  | .request name => name
  | .function name => name
  | .type name _ => name

/-- The declarations of an endpoint: its function, the types of its
arguments and results, and those for the statuses. -/
def Binding.declarations (b : Binding) : List Declaration :=
  .function b.names.function :: b.typeDeclarations.map fun (name, named) => .type name named

namespace Client

variable (api : Api) (options : Options)

/-- The declarations of a client besides those of the named types, in
order. -/
def declarations : List Declaration :=
  (if options.request then requestNames.map .request else []) ++
  (if options.operations then (bindings api options).flatMap Binding.declarations else [])

/-- A name that is taken before anything is declared: that of a named type,
defined or pending, and for types of endpoints those of the function for
requests with its types, if it is there. -/
def Taken : Declaration → Prop
  | .request name => name ∈ api.types.names
  | .function name => name ∈ api.types.names
  | .type name _ => name ∈ api.types.names ∨ (options.request = true ∧ name ∈ requestNames)

/-- Two declarations of endpoints that cannot stand together: functions of
one name, and different types of one name. -/
def Clash : Declaration → Declaration → Prop
  | .function name, .function other => name = other
  | .type name named, .type other more => name = other ∧ named.type ≠ more.type
  | _, _ => False

/-- **A declaration offends** behind others: its name is taken, or it
clashes with one of them. -/
def Offends (before : List Declaration) (d : Declaration) : Prop :=
  Taken api options d ∨ ∃ e ∈ before, Clash e d

/-- No declaration offends behind those before it. -/
def Consistent (declared : List Declaration) : Prop :=
  ∀ before d after, declared = before ++ d :: after → ¬ Offends api options before d

/-- The first declaration that offends. -/
def FirstOffender (declared : List Declaration) (d : Declaration) : Prop :=
  ∃ before after, declared = before ++ d :: after ∧ Offends api options before d ∧
    Consistent api options before

/-! ## One declaration after another -/

/-- Declares a single declaration. -/
def declare : Declaration → Declared → Except Error Declared
  | .request name, s => if api.types.contains name then .error (.conflicting name) else .ok s
  | .function name, s => declareFunction api name s
  | .type name named, s => declareType api options name named s

/-- Declares declarations one after another. -/
def declareAll : List Declaration → Declared → Except Error Declared
  | [], s => .ok s
  | d :: rest, s =>
    match declare api options d s with
    | .ok s => declareAll rest s
    | .error e => .error e

variable {api options} {s : Declared} {before more : List Declaration} {d : Declaration}

theorem declareAll_cons : declareAll api options (d :: more) s =
    match declare api options d s with
    | .ok s => declareAll api options more s
    | .error e => .error e := rfl

theorem declareAll_append : declareAll api options (before ++ more) s =
    match declareAll api options before s with
    | .ok s => declareAll api options more s
    | .error e => .error e := by
  induction before generalizing s with
  | nil => rfl
  | cons d rest ih =>
    rw [List.cons_append, declareAll_cons, declareAll_cons]
    cases declare api options d s with
    | ok s' => exact ih
    | error e => rfl

theorem declareAll_types (types : List (String × NamedType)) :
    declareAll api options (types.map fun (name, named) => .type name named) s =
      declareTypes api options types s := by
  induction types generalizing s with
  | nil => rfl
  | cons entry rest ih =>
    obtain ⟨name, named⟩ := entry
    rw [List.map_cons, declareAll_cons, declareTypes, declare]
    cases declareType api options name named s with
    | ok s' => exact ih
    | error e => rfl

theorem declareAll_binding (b : Binding) :
    declareAll api options b.declarations s = declareBinding api options b s := by
  rw [Binding.declarations, declareAll_cons, declareBinding, declare]
  cases declareFunction api b.names.function s with
  | ok s' => exact declareAll_types b.typeDeclarations
  | error e => rfl

theorem declareAll_bindings (bs : List Binding) :
    declareAll api options (bs.flatMap Binding.declarations) s =
      declareBindings api options bs s := by
  induction bs generalizing s with
  | nil => rfl
  | cons b rest ih =>
    rw [List.flatMap_cons, declareAll_append, declareAll_binding, declareBindings]
    cases declareBinding api options b s with
    | ok s' => exact ih
    | error e => rfl

/-- The names of the function for requests and its types are checked in
their order. -/
theorem declareAll_request (names : List String) :
    declareAll api options (names.map .request) s =
      match names.find? api.types.contains with
      | some name => .error (.conflicting name)
      | none => .ok s := by
  induction names with
  | nil => rfl
  | cons name rest ih =>
    rw [List.map_cons, declareAll_cons, declare, List.find?_cons]
    by_cases h : api.types.contains name = true
    · simp [h]
    · simp [h, ih]

/-- **The check of a client declares its declarations one after another.** -/
theorem check_eq (api : Api) (options : Options) :
    check api options =
      (declareAll api options (declarations api options) Declared.none).map fun _ => () := by
  rw [declarations, declareAll_append, check]
  -- a section that is left out has no declarations
  have hbindings : (if options.operations then
        match declareBindings api options (bindings api options) Declared.none with
        | .ok _ => .ok ()
        | .error e => .error e
      else Except.ok ()) = (declareAll api options (if options.operations then
        (bindings api options).flatMap Binding.declarations else []) Declared.none).map
          fun _ => () := by
    by_cases hoperations : options.operations = true
    · rw [if_pos hoperations, if_pos hoperations, declareAll_bindings]
      cases declareBindings api options (bindings api options) Declared.none <;> rfl
    · rw [if_neg hoperations, if_neg hoperations]
      rfl
  by_cases hrequest : options.request = true
  · simp only [hrequest, if_true]
    rw [declareAll_request]
    cases requestNames.find? api.types.contains with
    | some name => rfl
    | none => exact hbindings
  · simp only [hrequest]
    exact hbindings

/-! ## What has been declared -/

/-- **What is kept of declarations that do not offend**: the names of their
functions, and under each name of a type the first type that has it, which
all others of the name are equal to. -/
structure Records (s : Declared) (declared : List Declaration) : Prop where
  functions : ∀ name, name ∈ s.functions ↔ .function name ∈ declared
  unbound : ∀ name, s.types.binding? name = none → ∀ named, .type name named ∉ declared
  bound : ∀ name entry, s.types.binding? name = some entry → ∃ first, entry = some first ∧
    .type name first ∈ declared ∧ ∀ named, .type name named ∈ declared → named.type = first.type

theorem records_none : Records Declared.none [] where
  functions name := by simp [Declared.none]
  unbound name _ named := by simp
  bound name entry h := by
    simp [Declared.none, Registry.empty, Registry.binding?] at h

/-- What is kept of types stays as it is behind what is no type. -/
theorem Records.append_of_not_type {s' : Declared} (h : Records s before)
    (hd : ∀ name named, d ≠ .type name named) (htypes : s'.types = s.types)
    (hfunctions : ∀ name, name ∈ s'.functions ↔ .function name ∈ before ++ [d]) :
    Records s' (before ++ [d]) := by
  have hsame : ∀ name named, .type name named ∈ before ++ [d] ↔ .type name named ∈ before := by
    intro name named
    rw [List.mem_append, List.mem_singleton, or_iff_left (hd name named).symm]
  refine ⟨hfunctions, fun name hnone named => ?_, fun name entry hentry => ?_⟩
  · rw [hsame]
    rw [htypes] at hnone
    exact h.unbound name hnone named
  · rw [htypes] at hentry
    obtain ⟨first, rfl, hfirst, hall⟩ := h.bound name entry hentry
    exact ⟨first, rfl, (hsame _ _).2 hfirst, fun named hnamed => hall named ((hsame _ _).1 hnamed)⟩

/-- A type that is there under its name already changes nothing. -/
theorem Records.append_equal {name : String} {first named : NamedType} (h : Records s before)
    (hbinding : s.types.binding? name = some (some first)) (hsame : first.type = named.type) :
    Records s (before ++ [.type name named]) := by
  refine ⟨fun other => by simp [h.functions], fun other hnone more hmore => ?_,
    fun other entry hentry => ?_⟩
  · rcases List.mem_append.1 hmore with hmore | hmore
    · exact h.unbound other hnone more hmore
    · cases List.mem_singleton.1 hmore
      rw [hbinding] at hnone
      cases hnone
  · obtain ⟨found, rfl, hfound, hall⟩ := h.bound other entry hentry
    refine ⟨found, rfl, List.mem_append_left _ hfound, fun more hmore => ?_⟩
    rcases List.mem_append.1 hmore with hmore | hmore
    · exact hall more hmore
    · cases List.mem_singleton.1 hmore
      rw [hbinding] at hentry
      cases hentry
      exact hsame.symm

/-- A type of a new name is the first of its name. -/
theorem Records.append_new {name : String} {named : NamedType} {types : Registry}
    (h : Records s before) (hnone : s.types.binding? name = none)
    (hself : types.binding? name = some (some named))
    (hothers : ∀ other, other ≠ name → types.binding? other = s.types.binding? other) :
    Records { s with types } (before ++ [.type name named]) := by
  refine ⟨fun other => by simp [h.functions], fun other hother more hmore => ?_,
    fun other entry hentry => ?_⟩
  · rcases List.mem_append.1 hmore with hmore | hmore
    · by_cases hne : other = name
      · exact h.unbound name hnone more (hne ▸ hmore)
      · exact h.unbound other (by rw [← hothers other hne]; exact hother) more hmore
    · cases List.mem_singleton.1 hmore
      simp [hself] at hother
  · by_cases hne : other = name
    · subst hne
      obtain rfl := Option.some.inj (hself.symm.trans hentry)
      refine ⟨named, rfl, by simp, fun more hmore => ?_⟩
      rcases List.mem_append.1 hmore with hmore | hmore
      · exact absurd hmore (h.unbound other hnone more)
      · cases List.mem_singleton.1 hmore
        rfl
    · obtain ⟨first, rfl, hfirst, hall⟩ :=
        h.bound other entry (by rw [← hothers other hne]; exact hentry)
      refine ⟨first, rfl, List.mem_append_left _ hfirst, fun more hmore => ?_⟩
      rcases List.mem_append.1 hmore with hmore | hmore
      · exact hall more hmore
      · cases List.mem_singleton.1 hmore
        exact absurd rfl hne

/-! ## One declaration -/

/-- A function clashes with those of its name. -/
theorem clash_function_iff {name : String} :
    (∃ e ∈ before, Clash e (.function name)) ↔ .function name ∈ before := by
  constructor
  · rintro ⟨e, he, hclash⟩
    cases e with
    | function other =>
      obtain rfl : other = name := hclash
      exact he
    | _ => exact hclash.elim
  · intro hmem
    exact ⟨_, hmem, rfl⟩

/-- A type clashes with other types of its name. -/
theorem clash_type_iff {name : String} {named : NamedType} :
    (∃ e ∈ before, Clash e (.type name named)) ↔
      ∃ earlier, .type name earlier ∈ before ∧ earlier.type ≠ named.type := by
  constructor
  · rintro ⟨e, he, hclash⟩
    cases e with
    | type other earlier =>
      obtain ⟨rfl, hne⟩ := hclash
      exact ⟨earlier, he, hne⟩
    | _ => exact hclash.elim
  · rintro ⟨earlier, hearlier, hne⟩
    exact ⟨_, hearlier, rfl, hne⟩

/-- The function for requests and its types clash with nothing. -/
theorem not_clash_request {name : String} : ¬ ∃ e ∈ before, Clash e (.request name) := by
  rintro ⟨e, -, hclash⟩
  cases e <;> exact hclash

theorem declareFunction_spec {name : String} (h : Records s before) :
    (Offends api options before (.function name) →
      declareFunction api name s = .error (.conflicting name)) ∧
    (¬ Offends api options before (.function name) →
      ∃ s', declareFunction api name s = .ok s' ∧ Records s' (before ++ [.function name])) := by
  have hiff : (s.functions.contains name || api.types.contains name) = true ↔
      Offends api options before (.function name) := by
    rw [Offends, clash_function_iff, Taken, Bool.or_eq_true, Registry.contains_iff,
      List.contains_iff_mem, h.functions, or_comm]
  constructor
  · intro hoffends
    rw [declareFunction, if_pos (hiff.2 hoffends)]
  · intro hfree
    rw [declareFunction, if_neg fun htaken => hfree (hiff.1 htaken)]
    refine ⟨_, rfl, h.append_of_not_type (by simp) rfl fun other => ?_⟩
    simp [h.functions, or_comm]

theorem declareType_spec {name : String} {named : NamedType} (h : Records s before) :
    (Offends api options before (.type name named) →
      declareType api options name named s = .error (.conflicting name)) ∧
    (¬ Offends api options before (.type name named) →
      ∃ s', declareType api options name named s = .ok s' ∧
        Records s' (before ++ [.type name named])) := by
  have htaken : (api.types.contains name || (options.request && requestNames.contains name)) =
      true ↔ Taken api options (.type name named) := by
    rw [Taken, Bool.or_eq_true, Bool.and_eq_true, Registry.contains_iff, List.contains_iff_mem]
  rw [declareType, Offends, clash_type_iff, ← htaken]
  by_cases hname :
      (api.types.contains name || (options.request && requestNames.contains name)) = true
  · rw [if_pos hname]
    exact ⟨fun _ => rfl, fun hfree => absurd (.inl hname) hfree⟩
  rw [if_neg hname, or_iff_right hname, Registry.register]
  -- the name is new, or the first type that has it decides
  cases hbinding : s.types.binding? name with
  | none =>
    refine ⟨?_, fun _ => ⟨_, rfl, ?_⟩⟩
    · rintro ⟨earlier, hearlier, -⟩
      exact absurd hearlier (h.unbound name hbinding earlier)
    · exact h.append_new hbinding Registry.find?_bind_self fun _ => Registry.find?_bind_of_ne
  | some entry =>
    obtain ⟨first, rfl, hfirst, hall⟩ := h.bound name entry hbinding
    by_cases hsame : first.type = named.type
    · simp only [(TypeExpr.same_iff _ _).2 hsame, if_true]
      refine ⟨?_, fun _ => ⟨s, rfl, ?_⟩⟩
      · rintro ⟨earlier, hearlier, hne⟩
        exact absurd ((hall earlier hearlier).trans hsame) hne
      · exact h.append_equal hbinding hsame
    · have hdiffer : ¬ first.type.same named.type = true := by
        rw [TypeExpr.same_iff]
        exact hsame
      simp only [hdiffer]
      exact ⟨fun _ => rfl, fun hfree => absurd ⟨first, hfirst, hsame⟩ hfree⟩

/-- **One declaration**: it is refused by its name if it offends, and kept
with those before it if it does not. -/
theorem Records.declare_cases (h : Records s before) (api : Api) (options : Options)
    (d : Declaration) :
    (Offends api options before d → declare api options d s = .error (.conflicting d.name)) ∧
    (¬ Offends api options before d →
      ∃ s', declare api options d s = .ok s' ∧ Records s' (before ++ [d])) := by
  cases d with
  | request name =>
    rw [Offends, or_iff_left not_clash_request, Taken, ← Registry.contains_iff, declare]
    refine ⟨fun htaken => if_pos htaken, fun hfree => ⟨s, if_neg hfree, ?_⟩⟩
    exact h.append_of_not_type (by simp) rfl fun other => by simp [h.functions]
  | function name => exact declareFunction_spec h
  | type name named => exact declareType_spec h

/-! ## The whole client -/

theorem consistent_nil : Consistent api options [] := fun before _ _ h => by simp at h

/-- One more declaration that does not offend. -/
theorem Consistent.append (h : Consistent api options before)
    (hd : ¬ Offends api options before d) : Consistent api options (before ++ [d]) := by
  intro front e behind heq
  rcases List.eq_nil_or_concat behind with rfl | ⟨rest, last, rfl⟩
  · obtain ⟨rfl, hlast⟩ := List.append_inj' heq rfl
    cases hlast
    exact hd
  · rw [List.concat_eq_append, ← List.cons_append, ← List.append_assoc] at heq
    obtain ⟨rfl, -⟩ := List.append_inj' heq rfl
    exact h front e rest rfl

/-- **Declarations one after another** are all kept if none offends, and
else refused by the first that does. -/
theorem Records.declareAll_cases (h : Records s before) (hbefore : Consistent api options before)
    (more : List Declaration) :
    ((∃ s', declareAll api options more s = .ok s') ∧ Consistent api options (before ++ more)) ∨
    ∃ d, FirstOffender api options (before ++ more) d ∧
      declareAll api options more s = .error (.conflicting d.name) := by
  induction more generalizing s before with
  | nil => exact .inl ⟨⟨s, rfl⟩, by rwa [List.append_nil]⟩
  | cons d rest ih =>
    obtain ⟨hrefused, hkept⟩ := h.declare_cases api options d
    -- either this one is the first to offend, or the rest decides
    by_cases hoffends : Offends api options before d
    · refine .inr ⟨d, ⟨before, rest, rfl, hoffends, hbefore⟩, ?_⟩
      rw [declareAll_cons, hrefused hoffends]
    · obtain ⟨s', hs', hrecords⟩ := hkept hoffends
      rw [declareAll_cons, hs', List.append_cons]
      exact ih hrecords (hbefore.append hoffends)

/-- **A check that fails names the first offender**, and one without
offenders succeeds. -/
theorem check_cases (api : Api) (options : Options) :
    (check api options = .ok () ∧ Consistent api options (declarations api options)) ∨
    ∃ d, FirstOffender api options (declarations api options) d ∧
      check api options = .error (.conflicting d.name) := by
  rw [check_eq]
  rcases records_none.declareAll_cases consistent_nil (declarations api options) with
    ⟨⟨s', hs'⟩, hconsistent⟩ | ⟨d, hd, hrefused⟩
  · exact .inl ⟨by rw [hs']; rfl, hconsistent⟩
  · exact .inr ⟨d, hd, by rw [hrefused]; rfl⟩

/-- Rendering without any section declares nothing. -/
theorem declarations_eq_nil
    (h : (!options.types && !options.request && !options.operations) = true) :
    declarations api options = [] := by
  simp only [Bool.and_eq_true, Bool.not_eq_true'] at h
  rw [declarations, h.1.2, h.2]
  rfl

theorem render_cases (api : Api) (options : Options) :
    ((∃ text, render api options = .ok text) ∧
      Consistent api options (declarations api options)) ∨
    ∃ d, FirstOffender api options (declarations api options) d ∧
      render api options = .error (.conflicting d.name) := by
  rw [render]
  by_cases hnone : (!options.types && !options.request && !options.operations) = true
  · rw [if_pos hnone, declarations_eq_nil hnone]
    exact .inl ⟨⟨_, rfl⟩, consistent_nil⟩
  · rw [if_neg hnone]
    rcases check_cases api options with ⟨hcheck, hconsistent⟩ | ⟨d, hd, hcheck⟩
    · exact .inl ⟨⟨_, by rw [hcheck]⟩, hconsistent⟩
    · exact .inr ⟨d, hd, by rw [hcheck]⟩

/-- A client that is rendered is consistent. -/
theorem Consistent.of_render {text : String} (h : render api options = .ok text) :
    Consistent api options (declarations api options) := by
  rcases render_cases api options with ⟨-, hconsistent⟩ | ⟨d, -, herror⟩
  · exact hconsistent
  · rw [h] at herror
    cases herror

/-- A client that passes the check is rendered. -/
theorem exists_render_of_check (h : (check api options).isOk = true) :
    ∃ text, render api options = .ok text := by
  rw [render]
  split
  · exact ⟨_, rfl⟩
  · cases hcheck : check api options with
    | ok => exact ⟨_, rfl⟩
    | error e =>
      rw [hcheck] at h
      cases h

/-- Where a declaration offends behind others, they are not consistent. -/
theorem FirstOffender.not_consistent {declared : List Declaration}
    (h : FirstOffender api options declared d) : ¬ Consistent api options declared := by
  obtain ⟨before, after, heq, hoffends, -⟩ := h
  exact fun hconsistent => hconsistent before d after heq hoffends

/-- There is one first offender. -/
theorem FirstOffender.unique {declared : List Declaration} {e : Declaration}
    (hd : FirstOffender api options declared d) (he : FirstOffender api options declared e) :
    d = e := by
  obtain ⟨before, after, rfl, hoffends, hbefore⟩ := hd
  obtain ⟨front, behind, heq, hoffends', hfront⟩ := he
  rcases List.append_eq_append_iff.1 heq with ⟨between, rfl, hbetween⟩ | ⟨between, rfl, hbetween⟩
  · cases between with
    | nil =>
      cases hbetween
      rfl
    | cons first rest =>
      -- the other offender comes later, so this one is among those before it
      cases hbetween
      exact absurd hoffends (hfront before d rest rfl)
  · cases between with
    | nil =>
      cases hbetween
      rfl
    | cons first rest =>
      cases hbetween
      exact absurd hoffends' (hbefore front e rest rfl)

/-- **Rendering fails exactly where a declaration offends.** Whatever the
API and the sections, a client is rendered, or rendering fails over a
conflict. It fails if and only if some declaration offends behind those
before it, and the name in the error is that of the first that does. -/
theorem render_error_iff (api : Api) (options : Options) :
    ((∃ text, render api options = .ok text) ∨
      ∃ name, render api options = .error (.conflicting name)) ∧
    ((∃ e, render api options = .error e) ↔ ∃ before d after,
      declarations api options = before ++ d :: after ∧ Offends api options before d) ∧
    ∀ e, render api options = .error e ↔
      ∃ d, FirstOffender api options (declarations api options) d ∧ e = .conflicting d.name := by
  rcases render_cases api options with ⟨⟨text, htext⟩, hconsistent⟩ | ⟨d, hd, herror⟩
  · refine ⟨.inl ⟨text, htext⟩, ⟨?_, ?_⟩, fun e => ⟨?_, ?_⟩⟩
    · rintro ⟨e, he⟩
      rw [htext] at he
      cases he
    · rintro ⟨before, d, after, heq, hoffends⟩
      exact absurd hoffends (hconsistent before d after heq)
    · intro he
      rw [htext] at he
      cases he
    · rintro ⟨d, hd, -⟩
      exact absurd hconsistent hd.not_consistent
  · refine ⟨.inr ⟨d.name, herror⟩, ⟨fun _ => ?_, fun _ => ⟨_, herror⟩⟩, fun e => ⟨?_, ?_⟩⟩
    · obtain ⟨before, after, heq, hoffends, -⟩ := hd
      exact ⟨before, d, after, heq, hoffends⟩
    · intro he
      exact ⟨d, hd, Except.error.inj (he.symm.trans herror)⟩
    · rintro ⟨d', hd', rfl⟩
      rw [herror, hd.unique hd']

end Client

end TypedClient
