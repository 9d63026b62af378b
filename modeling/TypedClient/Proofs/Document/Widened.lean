import TypedClient.Proofs.Reference
import TypedClient.Proofs.Synthesis.Visit
import TypedClient.Proofs.Document.Order
/-!
# Values with one more member

Two values may differ by one member of an object deep inside (`Json.Grown`).
A pointer that leads somewhere in the first leads to the same place in the
second, unless it ends on the way to the object (`Json.Grown.keeps`). A
description reads alike with one more component schema, except for the table
of its schemas (`Document.ofJson_grown`).
-/

namespace TypedClient

namespace Pointer

/-- The key that a token stands for. -/
def key (token : List Char) : String := String.ofList (unescape token)

/-- **A pointer that ends on the way** along a path of keys, or at its end. -/
def EndsOn (path : List String) (pointer : String) : Prop :=
  ∃ tokens ∈ tokens? pointer, tokens.map key <+: path

instance (path : List String) (pointer : String) : Decidable (EndsOn path pointer) :=
  inferInstanceAs (Decidable (∃ tokens ∈ tokens? pointer, tokens.map key <+: path))

end Pointer

namespace Json

/-- **Two values of which the second has one more member**, in the object at
the end of a path of keys. -/
inductive Grown (name : String) (value : Json) : List String → Json → Json → Prop
  /-- The object itself has the member. -/
  | here {front back : List (String × Json)} : name ∉ keys (front ++ back) →
      Grown name value [] (.object (front ++ back)) (.object (front ++ (name, value) :: back))
  /-- The object stands under a key. -/
  | under {key : String} {path : List String} {before after : List (String × Json)}
      {v v' : Json} : key ∉ keys before → Grown name value path v v' →
      Grown name value (key :: path) (.object (before ++ (key, v) :: after))
        (.object (before ++ (key, v') :: after))

variable {name pointer : String} {value v v' w : Json} {path : List String}
variable {tokens : List (List Char)}

namespace Grown

/-- **A walk that leaves the way to the new member**, or goes behind its end,
leads to the same value. -/
theorem walk? (h : Grown name value path v v') (hleaves : ¬ tokens.map Pointer.key <+: path)
    (hwalk : Pointer.walk? tokens v = some w) : Pointer.walk? tokens v' = some w := by
  induction h generalizing tokens with
  | @here front back hnew =>
    cases tokens with
    | nil => exact absurd List.nil_prefix hleaves
    | cons token rest =>
      -- without the member its name leads nowhere
      have hne : Pointer.key token ≠ name := by
        rintro rfl
        rw [Pointer.walk?, Pointer.step?, ← Pointer.key, find?_eq_none_iff.2 hnew] at hwalk
        cases hwalk
      rw [Pointer.walk?, Pointer.step?, ← Pointer.key] at hwalk ⊢
      rwa [find?_past hne, ← find?_append]
  | @under key path before after v v' hfirst _ ih =>
    cases tokens with
    | nil => exact absurd List.nil_prefix hleaves
    | cons token rest =>
      rw [Pointer.walk?, Pointer.step?, ← Pointer.key] at hwalk ⊢
      by_cases hkey : Pointer.key token = key
      · -- the way goes on under the key
        rw [hkey, find?_first hfirst] at hwalk ⊢
        rw [List.map_cons, hkey, List.cons_prefix_cons] at hleaves
        exact ih (fun hrest => hleaves ⟨rfl, hrest⟩) hwalk
      · rw [find?_past hkey] at hwalk ⊢
        exact hwalk

/-- **Only a pointer that ends on the way to the new member** can tell the two
apart, or one that leads nowhere without it. -/
theorem keeps (h : Grown name value path v v') (hleaves : ¬ Pointer.EndsOn path pointer) :
    Pointer.Keeps v v' pointer := by
  intro w hw
  rw [Pointer.resolve?] at hw ⊢
  cases htokens : Pointer.tokens? pointer with
  | none =>
    rw [htokens] at hw
    cases hw
  | some tokens =>
    rw [htokens] at hw
    exact h.walk? (fun hends => hleaves ⟨tokens, htokens, hends⟩) hw

end Grown

end Json

/-! ## What is read from the two -/

namespace Shape

variable {ρ : Type} {step : ρ → String → Json → Shape ρ} {related : ρ → ρ → Prop}
variable {members before after : List (String × Json)} {key : String} {value value' : Json}
variable {start other result : ρ}

/-- **Steps that keep two records related** end with related records. -/
theorem steps_related (hstep : ∀ record other key value next, related record other →
      step record key value = .ok next →
      ∃ next', step other key value = .ok next' ∧ related next next')
    (hstart : related start other) (h : steps step start members = .ok result) :
    ∃ result', steps step other members = .ok result' ∧ related result result' := by
  induction members generalizing start other with
  | nil =>
    cases h
    exact ⟨other, rfl, hstart⟩
  | cons m rest ih =>
    rw [steps] at h
    obtain ⟨next, hnext, h⟩ := bind_eq_ok h
    obtain ⟨next', hnext', hrelated⟩ := hstep _ _ _ _ _ hstart hnext
    obtain ⟨result', hresult', hrelated'⟩ := ih hrelated h
    refine ⟨result', ?_, hrelated'⟩
    rw [steps, hnext']
    exact hresult'

/-- So do steps for members that differ in one value, if the steps for the two
values lead to related records. -/
theorem steps_replaced (hstep : ∀ record other key value next, related record other →
      step record key value = .ok next →
      ∃ next', step other key value = .ok next' ∧ related next next')
    (hhere : ∀ record next, step record key value = .ok next →
      ∃ next', step record key value' = .ok next' ∧ related next next')
    (h : steps step start (before ++ (key, value) :: after) = .ok result) :
    ∃ result', steps step start (before ++ (key, value') :: after) = .ok result' ∧
      related result result' := by
  rw [steps_append] at h ⊢
  obtain ⟨between, hbetween, h⟩ := bind_eq_ok h
  rw [steps] at h
  obtain ⟨next, hnext, h⟩ := bind_eq_ok h
  obtain ⟨next', hnext', hrelated⟩ := hhere _ _ hnext
  obtain ⟨result', hresult', hrelated'⟩ := steps_related hstep hrelated h
  refine ⟨result', ?_, hrelated'⟩
  rw [hbetween]
  show steps step between ((key, value') :: after) = _
  rw [steps, hnext']
  exact hresult'

end Shape

open Shape (field_eq_ok)

variable {name : String} {value v v' raw raw' : Json}

namespace Components

variable {components other next : Components}

/-- Components with the same security schemes. -/
def SameSchemes (components other : Components) : Prop :=
  components.securitySchemes = other.securitySchemes

theorem step_sameSchemes {key : String} (hsame : SameSchemes components other)
    (h : step components key value = .ok next) :
    ∃ next', step other key value = .ok next' ∧ SameSchemes next next' := by
  unfold step at h
  split at h
  · obtain ⟨schemas, hschemas, rfl⟩ := field_eq_ok h
    refine ⟨{ other with schemas }, ?_, hsame⟩
    simp only [step, hschemas]
    rfl
  · obtain ⟨schemes, hschemes, rfl⟩ := field_eq_ok h
    refine ⟨{ other with securitySchemes := schemes }, ?_, rfl⟩
    simp only [step, hschemes]
    rfl
  · cases h
    refine ⟨other, ?_, hsame⟩
    unfold step
    split
    case h_3 => rfl
    all_goals simp_all

/-- The schemas stay unread, so any object of them can be read. -/
theorem step_schemas {members more : List (String × Json)}
    (h : step components "schemas" (.object members) = .ok next) :
    ∃ next', step components "schemas" (.object more) = .ok next' ∧ SameSchemes next next' := by
  have hread : ∀ found, step components "schemas" (.object found) =
      .ok { components with schemas := found } := by
    intro found
    simp only [step, Shape.map, Shape.eachMember_value]
    rfl
  rw [hread] at h
  cases h
  exact ⟨_, hread more, rfl⟩

/-- With one more schema the components can be read, too. -/
theorem optional_grown (h : Json.Grown name value ["schemas"] v v')
    {found : Option Components} (hread : Shape.optional ofJson v = .ok found) :
    ∃ found', Shape.optional ofJson v' = .ok found' ∧ Option.Rel SameSchemes found found' := by
  cases h with
  | @under _ _ before after _ _ _ hschemas =>
    cases hschemas with
    | @here front back _ =>
      have hobject : ∀ members, Shape.optional ofJson (.object members) =
          Except.map some (Shape.steps step ⟨[], []⟩ members) := fun _ => rfl
      rw [hobject] at hread ⊢
      cases hcomponents : Shape.steps step ⟨[], []⟩
          (before ++ ("schemas", .object (front ++ back)) :: after) with
      | error e =>
        rw [hcomponents] at hread
        cases hread
      | ok components =>
        rw [hcomponents] at hread
        cases hread
        obtain ⟨other, hother, hsame⟩ :=
          Shape.steps_replaced (fun _ _ _ _ _ => step_sameSchemes)
            (fun record next hnext => step_schemas hnext) hcomponents
        rw [hother]
        exact ⟨some other, rfl, .some hsame⟩

end Components

namespace Document

variable {document other next : Document}

/-- **Descriptions that differ in their component schemas only.** -/
structure SameButSchemas (document other : Document) : Prop where
  others : other = { document with components := other.components }
  schemes : Option.Rel Components.SameSchemes document.components other.components

theorem step_sameButSchemas {key : String} (hsame : SameButSchemas document other)
    (h : step document key value = .ok next) :
    ∃ next', step other key value = .ok next' ∧ SameButSchemas next next' := by
  obtain ⟨hothers, hschemes⟩ := hsame
  rw [hothers]
  -- of the other description only the components count from here
  clear hothers
  generalize other.components = kept at hschemes ⊢
  unfold step at h
  split at h
  case h_5 =>
    obtain ⟨components, hcomponents, rfl⟩ := field_eq_ok h
    refine ⟨_, by simp only [step, hcomponents]; rfl, ?_⟩
    have hself : ∀ c : Components, c.SameSchemes c := fun _ => rfl
    exact ⟨rfl, Synthesis.rel_refl hself _⟩
  case h_7 =>
    cases h
    refine ⟨{ document with components := kept }, ?_, ⟨rfl, hschemes⟩⟩
    unfold step
    split
    case h_7 => rfl
    all_goals simp_all
  all_goals
    obtain ⟨found, hfound, rfl⟩ := field_eq_ok h
    refine ⟨_, by simp only [step, hfound]; rfl, ?_⟩
    exact ⟨rfl, hschemes⟩

/-- **A description with one more component schema** can be read where it can
be read without, and differs in its component schemas only. -/
theorem ofJson_grown (h : Json.Grown name value ["components", "schemas"] raw raw')
    (hread : ofJson raw = .ok document) :
    ∃ other, ofJson raw' = .ok other ∧ SameButSchemas document other := by
  cases h with
  | @under _ _ before after v v' _ hcomponents =>
    refine Shape.steps_replaced (fun _ _ _ _ _ => step_sameButSchemas) (fun record next hnext => ?_)
      hread
    obtain ⟨found, hfound, rfl⟩ := field_eq_ok hnext
    obtain ⟨found', hfound', hsame⟩ := Components.optional_grown hcomponents hfound
    exact ⟨{ record with components := found' }, by simp only [step, hfound']; rfl, rfl, hsame⟩

end Document

end TypedClient
