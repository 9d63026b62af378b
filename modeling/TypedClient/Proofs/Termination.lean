import TypedClient.Proofs.Reference
import TypedClient.Proofs.Extraction.Plan
import TypedClient.Proofs.Synthesis.Trace
/-!
# Runs end

A synthesis may be called many times over one registry, for schemas and for
pointers, and goes on from the registry that a failed call leaves behind.
`Serves` is such a sequence of walks without any bound, with one trace over
all of them, and the trace is threaded (`Serves.threaded`). So no name is
resolved twice, however many calls there are (`synthesis_terminates`).
-/

namespace TypedClient

namespace Synthesis

variable {r r' : Registry} {trace : List Visit}

/-! ## Calls that share a registry -/

/-- What a synthesis is called for. -/
inductive Subject where
  | schema (schema : Schema)
  | pointer (pointer : String)

/-- A call of the synthesis. -/
structure Call where
  document : Json
  withDoc : Bool
  subject : Subject

namespace Call

/-- What a call runs. -/
def computation (call : Call) : Synthesis TypeExpr :=
  match call.subject with
  | .schema schema => synthesize call.document call.withDoc schema
  | .pointer pointer => reference call.document call.withDoc pointer

/-- What a call visits and gives. -/
def plan (call : Call) : Plan TypeExpr :=
  match call.subject with
  | .schema schema => .ofSchema call.withDoc schema
  | .pointer pointer => ⟨[pointer], .ok (.ref (Pointer.typeName pointer))⟩

theorem realizes (call : Call) (r : Registry) :
    Realizes call.document call.withDoc call.computation call.plan r := by
  obtain ⟨document, withDoc, subject⟩ := call
  cases subject with
  | schema schema => exact synthesize_realizes document withDoc schema r
  | pointer pointer => exact reference_realizes document withDoc pointer r

/-- **A call reads its document at the resolutions only.** -/
theorem run_of_agree {call : Call} {other : Json} {stop : Option String}
    (h : Visits call.document call.withDoc call.plan.pointers r trace stop r')
    (hagree : ∀ v ∈ resolutions trace,
      Pointer.resolve? other v.pointer = Pointer.resolve? call.document v.pointer) :
    ({ call with document := other } : Call).computation.run r = call.computation.run r := by
  obtain ⟨trace₁, stop₁, r₁, hvisits, hrun⟩ := call.realizes r
  obtain ⟨trace₂, stop₂, r₂, hvisits', hrun'⟩ :=
    ({ call with document := other } : Call).realizes r
  obtain ⟨-, rfl, rfl⟩ := hvisits.deterministic h
  obtain ⟨-, rfl, rfl⟩ := hvisits'.deterministic (h.of_agree hagree)
  rw [hrun, hrun']
  rfl

end Call

/-- The answers of calls, each run from the registry that the one before
leaves behind. -/
def serve : List Call → Registry → List (Except Error TypeExpr) × Registry
  | [], r => ([], r)
  | call :: rest, r =>
    let first := call.computation.run r
    let others := serve rest first.2
    (first.1 :: others.1, others.2)

/-- **The walks of calls**, one after another, with one trace. -/
inductive Serves : List Call → Registry → List Visit → List (Except Error TypeExpr) → Registry →
    Prop
  /-- No call is left. -/
  | done {r : Registry} : Serves [] r [] [] r
  /-- A call walks over its pointers, and the others go on from there,
  whether it fails or not. -/
  | call {call : Call} {rest : List Call} {r r₁ r' : Registry} {trace more : List Visit}
      {stop : Option String} {answers : List (Except Error TypeExpr)} :
      Visits call.document call.withDoc call.plan.pointers r trace stop r₁ →
      Serves rest r₁ more answers r' →
      Serves (call :: rest) r (trace ++ more) (call.plan.answer stop :: answers) r'

namespace Serves

variable {calls : List Call} {answers : List (Except Error TypeExpr)}

/-- The names of all resolutions are put at the end. -/
theorem names (h : Serves calls r trace answers r') :
    r'.names = r.names ++ (resolutions trace).map Visit.name := by
  induction h with
  | done => simp
  | call hvisits _ ih =>
    rw [ih, hvisits.names, resolutions_append, List.map_append, List.append_assoc]

/-- **The trace of all calls is threaded.** -/
theorem threaded (h : Serves calls r trace answers r') : Threaded r.names trace := by
  induction h with
  | done => exact trivial
  | call hvisits _ ih =>
    rw [hvisits.names] at ih
    exact threaded_append.2 ⟨hvisits.threaded, ih⟩

/-- **Calls run as their walks say.** -/
theorem total (calls : List Call) (r : Registry) : ∃ trace answers r',
    Serves calls r trace answers r' ∧ serve calls r = (answers, r') := by
  induction calls generalizing r with
  | nil => exact ⟨[], [], r, .done, rfl⟩
  | cons call rest ih =>
    obtain ⟨trace, stop, r₁, hvisits, hrun⟩ := call.realizes r
    obtain ⟨more, answers, r', hserves, hserve⟩ := ih r₁
    refine ⟨trace ++ more, call.plan.answer stop :: answers, r', .call hvisits hserves, ?_⟩
    simp only [serve, hrun, hserve]

end Serves

/-! ## Runs -/

/-- **Every synthesis ends**, on every document and from every registry. A
sequence of calls over one registry is a finite sequence of walks; a pointer
is resolved only where its name is unbound, the name is bound at every later
visit and in the end, and no name is resolved twice in the whole sequence.
What a call reads of its document is what its resolutions lead to. The run
for a description is one finite walk of this kind, and every chain of
references it follows has an end. -/
theorem synthesis_terminates (calls : List Call) (r : Registry) (source : Source)
    (options : Options) :
    (∃ trace answers r', Serves calls r trace answers r' ∧ serve calls r = (answers, r') ∧
      ((resolutions trace).map Visit.name).Nodup ∧
      ∀ before v after, trace = before ++ v :: after → v ∈ resolutions trace →
        v.name ∉ v.registry.names ∧ (∀ w ∈ after, v.name ∈ w.registry.names) ∧
          v.name ∈ r'.names) ∧
    (∀ call ∈ calls, ∀ r trace stop r',
      Visits call.document call.withDoc call.plan.pointers r trace stop r' →
      ∀ other, (∀ v ∈ resolutions trace,
          Pointer.resolve? other v.pointer = Pointer.resolve? call.document v.pointer) →
        ({ call with document := other } : Call).computation.run r = call.computation.run r) ∧
    (∃ trace stop r', Visits source.raw options.withDoc (source.plan options).pointers
        Registry.empty trace stop r' ∧
      ((resolutions trace).map Visit.name).Nodup ∧
      source.api options = match (source.plan options).answer stop with
        | .ok endpoints => .ok ⟨source.server options, endpoints, r'⟩
        | .error e => .error e) ∧
    ∀ (α : Type) (read : Json → Shape α) (pointer : String),
      RefOr.Follows source.raw read [] pointer
        ((RefOr.reference pointer).follow source.raw read) := by
  refine ⟨?_, fun _ _ _ _ _ _ hvisits _ => Call.run_of_agree hvisits, ?_,
    fun α read pointer => RefOr.follow_follows source.raw read pointer⟩
  · obtain ⟨trace, answers, r', hserves, hserve⟩ := Serves.total calls r
    refine ⟨trace, answers, r', hserves, hserve, hserves.threaded.new_and_nodup.2, ?_⟩
    rintro before v after rfl hv
    have hnew : v.resolves = true := (List.mem_filter.1 hv).2
    have hsingle : resolutions [v] = [v] := List.filter_cons_of_pos hnew
    refine ⟨Visit.resolves_iff.1 hnew, fun w hw => ?_, ?_⟩
    · -- the visit is one of those before the later one
      obtain ⟨between, behind, rfl⟩ := List.append_of_mem hw
      have hthreaded := hserves.threaded
      rw [List.append_cons, ← List.append_assoc] at hthreaded
      rw [hthreaded.names_at, resolutions_append, resolutions_append, hsingle]
      simp
    · rw [hserves.names]
      exact List.mem_append_right _ (List.mem_map_of_mem hv)
  · obtain ⟨trace, stop, r', hvisits, hapi⟩ := source.api_of_visits options
    exact ⟨trace, stop, r', hvisits, hvisits.threaded.new_and_nodup.2, hapi⟩

end Synthesis

end TypedClient
