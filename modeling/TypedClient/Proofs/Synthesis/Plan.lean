import TypedClient.Proofs.Synthesis.Visit
/-!
# Plans

A plan is what a computation over a registry comes to when the registry is
left aside: the pointers it visits, in order, and what it gives if each of
them can be visited. `Realizes` says that a computation carries out a plan
from a registry: it walks over the pointers of the plan, fails where the
walk stops, and gives the plan's result behind it. Plans compose as
computations do (`Realizes.bind`).
-/

namespace TypedClient

namespace Synthesis

variable {α β : Type} {document : Json} {withDoc : Bool} {r r' : Registry}

/-- What a computation visits, and what it gives behind the visits. -/
structure Plan (α : Type) where
  pointers : List String
  result : Except Error α

namespace Plan

instance : Monad Plan where
  pure a := ⟨[], .ok a⟩
  bind plan next :=
    match plan.result with
    | .ok a => ⟨plan.pointers ++ (next a).pointers, (next a).result⟩
    | .error e => ⟨plan.pointers, .error e⟩

/-- The plan that visits nothing. -/
def settled (result : Except Error α) : Plan α := ⟨[], result⟩

/-- The plan for the type of a schema. -/
def ofSchema (withDoc : Bool) (schema : Schema) : Plan TypeExpr :=
  ⟨schema.references, .ok (translate withDoc schema)⟩

/-- What a plan gives when the walk over its pointers stops at one, or at
none. -/
def answer (plan : Plan α) : Option String → Except Error α
  | none => plan.result
  | some pointer => .error (.unresolved pointer)

theorem bind_of_ok {plan : Plan α} {next : α → Plan β} {a : α} (h : plan.result = .ok a) :
    plan >>= next = ⟨plan.pointers ++ (next a).pointers, (next a).result⟩ := by
  obtain ⟨pointers, result⟩ := plan
  subst h
  rfl

theorem bind_of_error {plan : Plan α} {next : α → Plan β} {e : Error} (h : plan.result = .error e) :
    plan >>= next = ⟨plan.pointers, .error e⟩ := by
  obtain ⟨pointers, result⟩ := plan
  subst h
  rfl

end Plan

/-! ## What a plan leads to -/

/-- **What a plan leads to** if its pointers are among some: a result with a
property, or a failure of some kind. -/
def Plan.Meets (within : List String) (fails : Error → Prop) (gives : α → Prop)
    (plan : Plan α) : Prop :=
  plan.pointers ⊆ within →
    match plan.result with
    | .ok a => gives a
    | .error e => fails e

namespace Plan.Meets

variable {within : List String} {fails : Error → Prop} {P : α → Prop} {Q : β → Prop}
variable {plan : Plan α} {k : α → Plan β}

theorem pure {a : α} (h : P a) : (Pure.pure a : Plan α).Meets within fails P := fun _ => h

theorem settled {result : Except Error α} (hok : ∀ a, result = .ok a → P a)
    (herror : ∀ e, result = .error e → fails e) : (Plan.settled result).Meets within fails P := by
  intro _
  rw [Plan.settled]
  cases result with
  | ok a => exact hok a rfl
  | error e => exact herror e rfl

theorem ofSchema {withDoc : Bool} {schema : Schema} {P : TypeExpr → Prop}
    (h : schema.references ⊆ within → P (translate withDoc schema)) :
    (Plan.ofSchema withDoc schema).Meets within fails P := h

/-- What plans lead to composes as they do. -/
theorem bind (hx : plan.Meets within fails P) (hk : ∀ a, P a → (k a).Meets within fails Q) :
    (plan >>= k).Meets within fails Q := by
  intro hsub
  unfold Plan.Meets at hx
  cases hresult : plan.result with
  | ok a =>
    rw [Plan.bind_of_ok hresult] at hsub ⊢
    rw [hresult] at hx
    have hfirst := hx (List.Subset.trans (List.subset_append_left _ _) hsub)
    exact hk a hfirst (List.Subset.trans (List.subset_append_right _ _) hsub)
  | error e =>
    rw [Plan.bind_of_error hresult] at hsub ⊢
    rw [hresult] at hx
    exact hx hsub

end Plan.Meets

/-! ## Running computations -/

theorem run_get (r : Registry) : (get : Synthesis Registry).run r = (.ok r, r) := rfl

theorem run_modify (f : Registry → Registry) (r : Registry) :
    (modify f : Synthesis PUnit).run r = (.ok ⟨⟩, f r) := rfl

/-- A sequence runs its first part and goes on with what that gave. -/
theorem run_bind (x : Synthesis α) (f : α → Synthesis β) (r : Registry) :
    (x >>= f).run r = ExceptT.bindCont f (x.run r).1 (x.run r).2 := rfl

theorem run_bind_of_ok {x : Synthesis α} {f : α → Synthesis β} {a : α}
    (h : x.run r = (.ok a, r')) : (x >>= f).run r = (f a).run r' := by
  rw [run_bind, h]
  rfl

theorem run_bind_of_error {x : Synthesis α} {f : α → Synthesis β} {e : Error}
    (h : x.run r = (.error e, r')) : (x >>= f).run r = (.error e, r') := by
  rw [run_bind, h]
  rfl

/-- A sequence that succeeds has two parts that do. -/
theorem run_bind_eq_ok {x : Synthesis α} {f : α → Synthesis β} {b : β}
    (h : (x >>= f).run r = (.ok b, r')) :
    ∃ a r₁, x.run r = (.ok a, r₁) ∧ (f a).run r₁ = (.ok b, r') := by
  cases hx : x.run r with
  | mk result r₁ =>
    cases result with
    | ok a =>
      rw [run_bind_of_ok hx] at h
      exact ⟨a, r₁, rfl, h⟩
    | error e =>
      rw [run_bind_of_error hx] at h
      cases h

/-! ## Carrying out a plan -/

/-- **A computation carries out a plan** from a registry. -/
def Realizes (document : Json) (withDoc : Bool) (x : Synthesis α) (plan : Plan α)
    (r : Registry) : Prop :=
  ∃ trace stop r', Visits document withDoc plan.pointers r trace stop r' ∧
    x.run r = (plan.answer stop, r')

namespace Realizes

variable {x : Synthesis α} {f : α → Synthesis β} {plan : Plan α} {k : α → Plan β}

/-- What fails or succeeds without a registry carries out a plan without
visits. -/
theorem of_run (result : Except Error α) (h : x.run r = (result, r)) :
    Realizes document withDoc x (.settled result) r :=
  ⟨[], none, r, .done, h⟩

theorem pure (a : α) : Realizes document withDoc (pure a) (pure a) r := of_run (.ok a) rfl

/-- Two computations that carry out one plan run alike. -/
theorem run_eq {y : Synthesis α} (hx : Realizes document withDoc x plan r)
    (hy : Realizes document withDoc y plan r) : x.run r = y.run r := by
  obtain ⟨trace, stop, r₁, hvisits, hrun⟩ := hx
  obtain ⟨trace', stop', r₂, hvisits', hrun'⟩ := hy
  obtain ⟨-, rfl, rfl⟩ := hvisits.deterministic hvisits'
  rw [hrun, hrun']

/-- **Plans compose.** The second part starts from a registry that has
grown. -/
theorem bind (hx : Realizes document withDoc x plan r)
    (hf : ∀ a r', plan.result = .ok a → r.names ⊆ r'.names →
      Realizes document withDoc (f a) (k a) r') :
    Realizes document withDoc (x >>= f) (plan >>= k) r := by
  obtain ⟨trace, stop, r₁, hvisits, hrun⟩ := hx
  cases stop with
  | some pointer =>
    refine ⟨trace, some pointer, r₁, ?_, run_bind_of_error hrun⟩
    cases hresult : plan.result with
    | ok a =>
      rw [Plan.bind_of_ok hresult]
      exact hvisits.append_of_stop (by simp)
    | error e =>
      rw [Plan.bind_of_error hresult]
      exact hvisits
  | none =>
    rw [Plan.answer] at hrun
    cases hresult : plan.result with
    | ok a =>
      rw [hresult] at hrun
      obtain ⟨trace', stop', r₂, hvisits', hrun'⟩ := hf a r₁ hresult hvisits.names_subset
      refine ⟨trace ++ trace', stop', r₂, ?_, ?_⟩
      · rw [Plan.bind_of_ok hresult]
        exact hvisits.append rfl hvisits'
      · rw [Plan.bind_of_ok hresult, run_bind_of_ok hrun, hrun']
        cases stop' <;> rfl
    | error e =>
      rw [hresult] at hrun
      refine ⟨trace, none, r₁, ?_, ?_⟩
      · rw [Plan.bind_of_error hresult]
        exact hvisits
      · rw [Plan.bind_of_error hresult, run_bind_of_error hrun]
        rfl

/-- What is made of a result afterwards leaves the visits as they are. -/
theorem map {pointers : List String} {a : α} (g : α → β)
    (hx : Realizes document withDoc x ⟨pointers, .ok a⟩ r) :
    Realizes document withDoc (x >>= fun a => Pure.pure (g a)) ⟨pointers, .ok (g a)⟩ r := by
  have h := hx.bind (f := fun a => Pure.pure (g a)) (k := fun a => Pure.pure (g a))
    fun a r' _ _ => pure (g a)
  rw [Plan.bind_of_ok rfl] at h
  simpa [Pure.pure] using h

/-- An entry and then the rest of a list visit their pointers one after the
other. -/
theorem cons {pointers more : List String} {a : α} {entries : List β} {xs : Synthesis (List β)}
    (g : α → β) (hx : Realizes document withDoc x ⟨pointers, .ok a⟩ r)
    (hxs : ∀ r', r.names ⊆ r'.names → Realizes document withDoc xs ⟨more, .ok entries⟩ r') :
    Realizes document withDoc
      (x >>= fun a => xs >>= fun entries => Pure.pure (g a :: entries))
      ⟨pointers ++ more, .ok (g a :: entries)⟩ r := by
  have hboth := hx.bind (k := fun a => ⟨more, .ok (g a :: entries)⟩)
    fun a r' _ hgrown => (hxs r' hgrown).map fun entries => g a :: entries
  exact hboth

end Realizes

end Synthesis

end TypedClient
