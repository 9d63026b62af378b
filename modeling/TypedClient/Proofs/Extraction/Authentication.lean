import TypedClient.Proofs.Extraction.Parameters
import TypedClient.Proofs.Reference.Chain
/-!
# Which operations ask for basic authentication

The requirements in force for an operation name security schemes, one after
another. A name is passed over where no scheme is declared under it, or one of
another kind; the first name that is not passed over ends the search, with basic
authentication or with the failure of its chain of references
(`exists_end`). So the order of the names decides between an answer and a failure
(`basicAuth_iff`).
-/

namespace TypedClient

/-- **What an item or a reference leads to**, over the chain of its references. -/
inductive RefOr.LeadsTo {α : Type} (document : Json) (read : Json → Shape α) :
    RefOr α → Except Error α → Prop
  /-- An item in place leads to itself. -/
  | item {a : α} : LeadsTo document read (.item a) (.ok a)
  /-- The chain comes back to a pointer that it has passed. -/
  | again {pointer last : String} {passed : List String} : Chain document pointer passed last →
      passed.Nodup → last ∈ passed →
      LeadsTo document read (.reference pointer) (.error (.unresolved last))
  /-- The chain comes to a pointer that leads to no reference. -/
  | stop {pointer last : String} {passed : List String} {result : Except Error α} :
      Chain document pointer passed last → passed.Nodup → last ∉ passed →
      Stops document read last result → LeadsTo document read (.reference pointer) result

/-- **Following is what a chain leads to.** -/
theorem RefOr.leadsTo_iff {α : Type} {document : Json} {read : Json → Shape α} {item : RefOr α}
    {result : Except Error α} :
    item.LeadsTo document read result ↔ item.follow document read = result := by
  cases item with
  | item a =>
    refine ⟨fun h => by cases h; rfl, fun h => ?_⟩
    obtain rfl : .ok a = result := h
    exact .item
  | reference pointer =>
    rw [follow_eq_iff]
    constructor
    · intro h
      cases h with
      | again hchain hnodup hmem => exact ⟨_, _, hchain, hnodup, .inl ⟨hmem, rfl⟩⟩
      | stop hchain hnodup hnew hstops => exact ⟨_, _, hchain, hnodup, .inr ⟨hnew, hstops⟩⟩
    · rintro ⟨passed, last, hchain, hnodup, ⟨hmem, rfl⟩ | ⟨hnew, hstops⟩⟩
      · exact .again hchain hnodup hmem
      · exact .stop hchain hnodup hnew hstops

/-- **A scheme is basic authentication**: of type `http`, with a scheme that is
called `basic` in letters of any case. -/
def SecurityScheme.Basic (s : SecurityScheme) : Prop :=
  s.kind = "http" ∧
    ∃ name, s.scheme = some name ∧ name.toList.map Char.toLower = "basic".toList

theorem SecurityScheme.isBasic_iff {s : SecurityScheme} : s.isBasic = true ↔ s.Basic := by
  rw [isBasic, Basic, Bool.and_eq_true, beq_iff_eq]
  refine and_congr_right fun _ => ?_
  cases s.scheme with
  | none => simp
  | some name => simp [Text.equalIgnoringCase]

namespace Source

open Synthesis (run_bind_of_error run_bind_eq_ok)

/-- **The requirements in force** for an operation: its own list, even an empty
one; without one, that of the description; and none if there is neither. -/
inductive InForce (source : Source) (operation : Operation) : List Requirement → Prop
  | own {list : List Requirement} : operation.security = some list → InForce source operation list
  | shared {list : List Requirement} : operation.security = none →
      source.document.security = some list → InForce source operation list
  | none : operation.security = .none → source.document.security = .none →
      InForce source operation []

/-- The names of the schemes in requirements, in order. -/
def namesOf (requirements : List Requirement) : List String :=
  requirements.flatMap fun requirement => requirement.map (·.1)

/-- The scheme that the components declare under a name. -/
def declared? (source : Source) (name : String) : Option (RefOr SecurityScheme) :=
  source.document.components.bind fun components =>
    (components.securitySchemes.find? fun entry => entry.1 == name).map (·.2)

variable (source : Source)

/-- What a declared scheme is found to be, or what its chain fails with. -/
def Finds (name : String) (result : Except Error SecurityScheme) : Prop :=
  ∃ scheme, source.declared? name = some scheme ∧
    scheme.LeadsTo source.raw SecurityScheme.ofJson result

/-- A name under which basic authentication is declared. -/
def NamesBasic (name : String) : Prop := ∃ scheme, source.Finds name (.ok scheme) ∧ scheme.Basic

/-- A name whose chain fails. -/
def FailsWith (e : Error) (name : String) : Prop := source.Finds name (.error e)

/-- A name that is passed over: nothing is declared under it, or a scheme of
another kind. -/
def PassedOver (name : String) : Prop :=
  source.declared? name = none ∨ ∃ scheme, source.Finds name (.ok scheme) ∧ ¬ scheme.Basic

/-- **A name is met with some property** behind names that are passed over. -/
def Meets (names : List String) (P : String → Prop) : Prop :=
  ∃ before name after, names = before ++ name :: after ∧ (∀ n ∈ before, source.PassedOver n) ∧
    P name

variable {source : Source} {options : Options} {item : PathItem} {operation : Operation}
variable {requirements : List Requirement} {components : Components} {path : String}
variable {method : Method} {endpoint : Endpoint} {r r' : Registry} {e : Error}
variable {name : String} {names before after : List String}

theorem InForce.requirements_eq (h : InForce source operation requirements) :
    source.requirements operation = requirements := by
  cases h with
  | own hown => rw [Source.requirements, hown]
  | shared hown hshared => rw [Source.requirements, hown, hshared]; rfl
  | none hown hshared => rw [Source.requirements, hown, hshared]; rfl

/-! ## One name -/

theorem finds_iff {result : Except Error SecurityScheme} : source.Finds name result ↔
    ∃ scheme, source.declared? name = some scheme ∧
      scheme.follow source.raw SecurityScheme.ofJson = result := by
  simp only [Finds, RefOr.leadsTo_iff]

/-- **A name is passed over, or ends the search.** -/
theorem passedOver_or (source : Source) (name : String) :
    source.PassedOver name ∨ source.NamesBasic name ∨ ∃ e, source.FailsWith e name := by
  cases hdeclared : source.declared? name with
  | none => exact .inl (.inl hdeclared)
  | some scheme =>
    cases hfollow : scheme.follow source.raw SecurityScheme.ofJson with
    | error e => exact .inr (.inr ⟨e, finds_iff.2 ⟨scheme, hdeclared, hfollow⟩⟩)
    | ok found =>
      have hfinds : source.Finds name (.ok found) := finds_iff.2 ⟨scheme, hdeclared, hfollow⟩
      by_cases hbasic : found.Basic
      · exact .inr (.inl ⟨found, hfinds, hbasic⟩)
      · exact .inl (.inr ⟨found, hfinds, hbasic⟩)

/-- The search from a name on, by the scheme that is declared under it. -/
theorem anyBasic_cons (hcomponents : source.document.components = some components) :
    source.anyBasic components.securitySchemes (name :: names) =
      match source.declared? name with
      | none => source.anyBasic components.securitySchemes names
      | some scheme =>
        match scheme.follow source.raw SecurityScheme.ofJson with
        | .error e => .error e
        | .ok found =>
          if found.isBasic then .ok true
          else source.anyBasic components.securitySchemes names := by
  rw [anyBasic, declared?, hcomponents, Option.bind_some]
  cases components.securitySchemes.find? fun entry => entry.1 == name with
  | none => rfl
  | some entry => rfl

theorem anyBasic_of_passedOver (hcomponents : source.document.components = some components)
    (h : source.PassedOver name) : source.anyBasic components.securitySchemes (name :: names) =
      source.anyBasic components.securitySchemes names := by
  rw [anyBasic_cons hcomponents]
  obtain hnone | ⟨found, hfinds, hbasic⟩ := h
  · rw [hnone]
  · obtain ⟨scheme, hdeclared, hfollow⟩ := finds_iff.1 hfinds
    rw [hdeclared]
    simp only [hfollow]
    exact if_neg fun h => hbasic (SecurityScheme.isBasic_iff.1 h)

theorem anyBasic_of_namesBasic (hcomponents : source.document.components = some components)
    (h : source.NamesBasic name) :
    source.anyBasic components.securitySchemes (name :: names) = .ok true := by
  obtain ⟨found, hfinds, hbasic⟩ := h
  obtain ⟨scheme, hdeclared, hfollow⟩ := finds_iff.1 hfinds
  rw [anyBasic_cons hcomponents, hdeclared]
  simp only [hfollow]
  exact if_pos (SecurityScheme.isBasic_iff.2 hbasic)

theorem anyBasic_of_failsWith (hcomponents : source.document.components = some components)
    (h : source.FailsWith e name) :
    source.anyBasic components.securitySchemes (name :: names) = .error e := by
  obtain ⟨scheme, hdeclared, hfollow⟩ := finds_iff.1 h
  rw [anyBasic_cons hcomponents, hdeclared]
  simp only [hfollow]

/-! ## All names -/

/-- Names that are passed over leave the search to those behind them. -/
theorem anyBasic_append (hcomponents : source.document.components = some components)
    (h : ∀ n ∈ before, source.PassedOver n) :
    source.anyBasic components.securitySchemes (before ++ after) =
      source.anyBasic components.securitySchemes after := by
  induction before with
  | nil => rfl
  | cons name rest ih =>
    obtain ⟨hname, hrest⟩ := List.forall_mem_cons.1 h
    rw [List.cons_append, anyBasic_of_passedOver hcomponents hname, ih hrest]

/-- **The search passes over all names, or one of them ends it.** -/
theorem exists_end (source : Source) (names : List String) :
    (∀ n ∈ names, source.PassedOver n) ∨ source.Meets names source.NamesBasic ∨
      ∃ e, source.Meets names (source.FailsWith e) := by
  induction names with
  | nil => exact .inl (by simp)
  | cons name rest ih =>
    obtain hover | hbasic | ⟨e, hfails⟩ := source.passedOver_or name
    · -- the names behind it decide
      have hmore : ∀ {P : String → Prop}, source.Meets rest P → source.Meets (name :: rest) P := by
        rintro P ⟨before, n, after, rfl, hbefore, hn⟩
        exact ⟨name :: before, n, after, rfl, List.forall_mem_cons.2 ⟨hover, hbefore⟩, hn⟩
      obtain hall | hmeets | ⟨e, hmeets⟩ := ih
      · exact .inl (List.forall_mem_cons.2 ⟨hover, hall⟩)
      · exact .inr (.inl (hmore hmeets))
      · exact .inr (.inr ⟨e, hmore hmeets⟩)
    · exact .inr (.inl ⟨[], name, rest, rfl, by simp, hbasic⟩)
    · exact .inr (.inr ⟨e, [], name, rest, rfl, by simp, hfails⟩)

/-- Where no components are declared, no scheme is. -/
theorem components_of_meets {P : String → Prop} (hP : ∀ n, P n → ∃ result, source.Finds n result)
    (h : source.Meets names P) : ∃ components, source.document.components = some components := by
  obtain ⟨_, name, _, -, -, hname⟩ := h
  obtain ⟨_, scheme, hdeclared, -⟩ := hP name hname
  obtain ⟨components, hcomponents, -⟩ := Option.bind_eq_some_iff.1 hdeclared
  exact ⟨components, hcomponents⟩

variable (hforce : InForce source operation requirements)
include hforce

theorem needsBasic_of_components (hcomponents : source.document.components = some components) :
    source.needsBasic operation =
      source.anyBasic components.securitySchemes (namesOf requirements) := by
  rw [needsBasic, hcomponents, hforce.requirements_eq]
  rfl

theorem needsBasic_of_passedOver (h : ∀ n ∈ namesOf requirements, source.PassedOver n) :
    source.needsBasic operation = .ok false := by
  cases hcomponents : source.document.components with
  | none => rw [needsBasic, hcomponents]
  | some components =>
    rw [needsBasic_of_components hforce hcomponents, ← List.append_nil (namesOf requirements),
      anyBasic_append hcomponents h]
    rfl

theorem needsBasic_of_namesBasic (h : source.Meets (namesOf requirements) source.NamesBasic) :
    source.needsBasic operation = .ok true := by
  obtain ⟨components, hcomponents⟩ :=
    components_of_meets (fun n ⟨found, hfinds, _⟩ => ⟨_, hfinds⟩) h
  obtain ⟨before, name, after, hnames, hbefore, hname⟩ := h
  rw [needsBasic_of_components hforce hcomponents, hnames, anyBasic_append hcomponents hbefore,
    anyBasic_of_namesBasic hcomponents hname]

theorem needsBasic_of_failsWith (h : source.Meets (namesOf requirements) (source.FailsWith e)) :
    source.needsBasic operation = .error e := by
  obtain ⟨components, hcomponents⟩ := components_of_meets (fun n hn => ⟨_, hn⟩) h
  obtain ⟨before, name, after, hnames, hbefore, hname⟩ := h
  rw [needsBasic_of_components hforce hcomponents, hnames, anyBasic_append hcomponents hbefore,
    anyBasic_of_failsWith hcomponents hname]

/-- **What the search gives is what ends it.** -/
theorem needsBasic_iff :
    (source.needsBasic operation = .ok true ↔
      source.Meets (namesOf requirements) source.NamesBasic) ∧
    (source.needsBasic operation = .ok false ↔
      ∀ n ∈ namesOf requirements, source.PassedOver n) ∧
    ∀ e, source.needsBasic operation = .error e ↔
      source.Meets (namesOf requirements) (source.FailsWith e) := by
  have hends := source.exists_end (namesOf requirements)
  refine ⟨⟨fun h => ?_, needsBasic_of_namesBasic hforce⟩,
    ⟨fun h => ?_, needsBasic_of_passedOver hforce⟩,
    fun e => ⟨fun h => ?_, needsBasic_of_failsWith hforce⟩⟩
  · obtain hover | hbasic | ⟨e, hfails⟩ := hends
    · rw [needsBasic_of_passedOver hforce hover] at h
      cases h
    · exact hbasic
    · rw [needsBasic_of_failsWith hforce hfails] at h
      cases h
  · obtain hover | hbasic | ⟨e, hfails⟩ := hends
    · exact hover
    · rw [needsBasic_of_namesBasic hforce hbasic] at h
      cases h
    · rw [needsBasic_of_failsWith hforce hfails] at h
      cases h
  · obtain hover | hbasic | ⟨e', hfails⟩ := hends
    · rw [needsBasic_of_passedOver hforce hover] at h
      cases h
    · rw [needsBasic_of_namesBasic hforce hbasic] at h
      cases h
    · rw [needsBasic_of_failsWith hforce hfails] at h
      cases h
      exact hfails

omit hforce

/-! ## The endpoint -/

/-- An endpoint says what the search has given. -/
theorem basicAuth_of_endpoint
    (h : (source.endpoint options path method item operation).run r = (.ok endpoint, r')) :
    source.needsBasic operation = .ok endpoint.basicAuth := by
  obtain ⟨basicAuth, _, hbasic, h⟩ := run_bind_eq_ok h
  obtain ⟨parameters, _, -, h⟩ := run_bind_eq_ok h
  obtain ⟨body, _, -, h⟩ := run_bind_eq_ok h
  obtain ⟨outcomes, _, -, h⟩ := run_bind_eq_ok h
  cases h
  exact eq_ok_of_settle hbasic

/-- A search that fails ends the extraction of the endpoint before anything is
registered. -/
theorem endpoint_of_needsBasic_error (h : source.needsBasic operation = .error e) :
    (source.endpoint options path method item operation).run r = (.error e, r) :=
  run_bind_of_error (by rw [h]; rfl)

/-- **Basic authentication is detected exactly.** The names of the schemes in the
requirements in force are looked at in order, and those that are not declared or
of another kind are passed over. The search succeeds with basic authentication
if and only if it meets a scheme of that kind at the end of its chain of
references; it fails if and only if it meets a chain that fails, with the failure
of that chain; and else it passes over all names, as it does without components.
A failure is that of the endpoint, and an endpoint that is extracted says what
the search has given. -/
theorem basicAuth_iff (hforce : InForce source operation requirements) :
    (source.needsBasic operation = .ok true ↔
      source.Meets (namesOf requirements) source.NamesBasic) ∧
    (source.needsBasic operation = .ok false ↔
      ∀ n ∈ namesOf requirements, source.PassedOver n) ∧
    (∀ e, source.needsBasic operation = .error e ↔
      source.Meets (namesOf requirements) (source.FailsWith e)) ∧
    (source.document.components = none → ∀ n ∈ namesOf requirements, source.PassedOver n) ∧
    ∀ options path method item r,
      (∀ e, source.Meets (namesOf requirements) (source.FailsWith e) →
        (source.endpoint options path method item operation).run r = (.error e, r)) ∧
      ∀ endpoint r', (source.endpoint options path method item operation).run r =
          (.ok endpoint, r') →
        (endpoint.basicAuth = true ↔ source.Meets (namesOf requirements) source.NamesBasic) ∧
        (endpoint.basicAuth = false ↔ ∀ n ∈ namesOf requirements, source.PassedOver n) := by
  obtain ⟨htrue, hfalse, herror⟩ := needsBasic_iff hforce
  refine ⟨htrue, hfalse, herror, fun hnone n _ => ?_, fun options path method item r => ⟨?_, ?_⟩⟩
  · left
    rw [declared?, hnone, Option.bind_none]
  · exact fun e hmeets => endpoint_of_needsBasic_error ((herror e).2 hmeets)
  · intro endpoint r' hrun
    have hbasic := basicAuth_of_endpoint hrun
    rw [← htrue, ← hfalse, hbasic]
    simp

/-- A description whose operations need a token, with a login that refers to
basic authentication and a scheme that leads nowhere. -/
def securedShop : Source where
  raw := .object [("components", .object [("securitySchemes", .object [
    ("token", .object [("type", .string "apiKey")]),
    ("login", .object [("$ref", .string "#/components/securitySchemes/basic")]),
    ("basic", .object [("type", .string "http"), ("scheme", .string "Basic")]),
    ("lost", .object [("$ref", .string "#/components/securitySchemes/gone")])])])]
  document :=
    { Document.blank with
      security := some [[("token", [])]]
      components := some ⟨[], [("token", .item ⟨"apiKey", none⟩),
        ("login", .reference "#/components/securitySchemes/basic"),
        ("basic", .item ⟨"http", some "Basic"⟩),
        ("lost", .reference "#/components/securitySchemes/gone")]⟩ }

/-- An operation with requirements of its own. -/
def secured (names : List String) : Operation :=
  { Operation.blank with security := some (names.map fun name => [(name, [])]) }

/-- The login is basic authentication before the scheme that leads nowhere, and
not behind it; without requirements of its own an operation needs the token. -/
theorem basicAuth_iff_of_securedShop :
    (InForce securedShop (secured ["unknown", "token", "login", "lost"])
        [[("unknown", [])], [("token", [])], [("login", [])], [("lost", [])]] ∧
      securedShop.Meets ["unknown", "token", "login", "lost"] securedShop.NamesBasic ∧
      ∃ endpoint r', (securedShop.endpoint .default "/pets" .get PathItem.blank
          (secured ["unknown", "token", "login", "lost"])).run Registry.empty =
            (.ok endpoint, r') ∧ endpoint.basicAuth = true) ∧
    (InForce securedShop (secured ["lost", "login"]) [[("lost", [])], [("login", [])]] ∧
      securedShop.Meets ["lost", "login"]
        (securedShop.FailsWith (.unresolved "#/components/securitySchemes/gone")) ∧
      (securedShop.endpoint .default "/pets" .get PathItem.blank (secured ["lost", "login"])).run
        Registry.empty =
          (.error (.unresolved "#/components/securitySchemes/gone"), Registry.empty)) ∧
    InForce securedShop Operation.blank [[("token", [])]] ∧ securedShop.PassedOver "token" := by
  have hlogin : InForce securedShop (secured ["unknown", "token", "login", "lost"])
      [[("unknown", [])], [("token", [])], [("login", [])], [("lost", [])]] := .own rfl
  have hlost : InForce securedShop (secured ["lost", "login"])
      [[("lost", [])], [("login", [])]] := .own rfl
  have hshared : InForce securedShop Operation.blank [[("token", [])]] := .shared rfl rfl
  obtain ⟨htrue, -, -, -, hextracted⟩ := basicAuth_iff hlogin
  have hmeets := htrue.1 rfl
  have hrun : ∃ endpoint r', (securedShop.endpoint .default "/pets" .get PathItem.blank
      (secured ["unknown", "token", "login", "lost"])).run Registry.empty = (.ok endpoint, r') :=
    ⟨_, _, rfl⟩
  obtain ⟨endpoint, r', hrun⟩ := hrun
  have hbasic := ((hextracted _ _ _ _ _).2 endpoint r' hrun).1.2 hmeets
  have hfails := ((basicAuth_iff hlost).2.2.1 _).1 rfl
  exact ⟨⟨hlogin, hmeets, endpoint, r', hrun, hbasic⟩,
    ⟨hlost, hfails, ((basicAuth_iff hlost).2.2.2.2 _ _ _ _ _).1 _ hfails⟩,
    hshared, (basicAuth_iff hshared).2.1.1 rfl "token" (List.mem_singleton_self _)⟩

end Source

end TypedClient
