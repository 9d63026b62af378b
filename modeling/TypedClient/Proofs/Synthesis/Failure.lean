import TypedClient.Proofs.Termination
/-!
# Syntheses that fail

A synthesis fails inside a chain of open references: the target of each
refers to the next, and the last leads nowhere (`OpenChain`). Their names
are what is left pending. Everything else that the call put into the
registry is defined, and everything that was there before is as it was
(`openChain_of_failed_call`).
-/

namespace TypedClient

namespace Registry

variable {r : Registry} {name : String} {names : List String}

theorem isPending_iff : r.isPending name = true ↔ r.binding? name = some none := by
  rw [isPending]
  split
  · rename_i hpending
    simp [hpending]
  · rename_i hother
    constructor
    · intro h
      cases h
    · intro h
      exact absurd h hother

/-- Among defined names none is pending. -/
theorem filter_isPending_eq_nil
    (h : ∀ name ∈ names, ∃ definition, r.binding? name = some (some definition)) :
    names.filter r.isPending = [] := by
  rw [List.filter_eq_nil_iff]
  intro name hname hpending
  obtain ⟨definition, hdefined⟩ := h name hname
  rw [isPending_iff, hdefined] at hpending
  cases hpending

/-- A bound name that is not pending is defined. -/
theorem exists_definition (hname : name ∈ r.names) (hpending : r.isPending name = false) :
    ∃ definition, r.binding? name = some (some definition) := by
  obtain ⟨entry, hentry⟩ := mem_names_iff.1 hname
  cases entry with
  | none =>
    rw [isPending_iff.2 hentry] at hpending
    cases hpending
  | some definition => exact ⟨definition, hentry⟩

end Registry

namespace Synthesis

variable {document : Json} {withDoc : Bool} {pointer stop : String}
variable {pointers start more chain : List String}
variable {r r' : Registry} {trace : List Visit}

/-! ## Open references -/

/-- **The references open at a failure**, the outermost first. Each target
refers to the next pointer, and the last pointer leads nowhere. -/
inductive OpenChain (document : Json) : List String → List String → String → Prop
  /-- The pointer leads nowhere. -/
  | lost {start : List String} {pointer : String} : pointer ∈ start →
      Pointer.resolve? document pointer = none → OpenChain document start [pointer] pointer
  /-- The chain goes on with a reference of the target. -/
  | into {start chain : List String} {pointer stop : String} {target : Json} :
      pointer ∈ start → Pointer.resolve? document pointer = some target →
      OpenChain document (Schema.ofJson target).references chain stop →
      OpenChain document start (pointer :: chain) stop

namespace OpenChain

theorem mono (h : OpenChain document start chain stop) (hsub : start ⊆ more) :
    OpenChain document more chain stop := by
  cases h with
  | lost hmem hnone => exact .lost (hsub hmem) hnone
  | into hmem htarget hrest => exact .into (hsub hmem) htarget hrest

/-- The chain ends where it leads nowhere. -/
theorem getLast?_eq (h : OpenChain document start chain stop) : chain.getLast? = some stop := by
  induction h with
  | lost => rfl
  | into _ _ _ ih => rw [List.getLast?_cons, ih, Option.getD_some]

theorem resolve?_stop (h : OpenChain document start chain stop) :
    Pointer.resolve? document stop = none := by
  induction h with
  | lost _ hnone => exact hnone
  | into _ _ _ ih => exact ih

end OpenChain

/-! ## What a stopped walk leaves -/

/-- **What is left pending by a walk that is stopped**: among the names it
has put at the end, those of the open references, in their order. -/
theorem Visits.openChain {stop : Option String}
    (h : Visits document withDoc pointers r trace stop r') (hstop : stop = some pointer) :
    ∃ chain, OpenChain document pointers chain pointer ∧
      ((resolutions trace).map Visit.name).filter r'.isPending =
        chain.map Pointer.typeName := by
  induction h with
  | done => cases hstop
  | bound hbound _ ih =>
    obtain ⟨chain, hchain, hpending⟩ := ih hstop
    rw [resolutions_cons_of_bound hbound]
    exact ⟨chain, hchain.mono (List.subset_cons_self _ _), hpending⟩
  | @lost p rest r hnew hnone =>
    obtain rfl := Option.some.inj hstop
    have hp : (r.reserve (Pointer.typeName p)).isPending (Pointer.typeName p) = true :=
      Registry.isPending_iff.2 (Registry.binding_reserve hnew)
    refine ⟨[p], .lost List.mem_cons_self hnone, ?_⟩
    rw [resolutions_cons_of_new hnew]
    simp [Visit.name, hp]
  | @stuck p stop rest r r' target inner hnew htarget hinner ih =>
    obtain ⟨chain, hchain, hpending⟩ := ih hstop
    have hp : r'.isPending (Pointer.typeName p) = true :=
      Registry.isPending_iff.2 (hinner.pending_inside hnew)
    refine ⟨p :: chain, .into List.mem_cons_self htarget hchain, ?_⟩
    rw [resolutions_cons_of_new hnew, List.map_cons, List.map_cons, Visit.name,
      List.filter_cons_of_pos hp, hpending]
  | @entered p rest r r₁ r₂ r' target inner outer stop hnew htarget hinner hdefine houter
      _ iho =>
    obtain ⟨chain, hchain, hpending⟩ := iho hstop
    refine ⟨chain, hchain.mono (List.subset_cons_self _ _), ?_⟩
    -- the walk into the target came to its end, so what it met is defined and stays so
    have hend : Visits document withDoc [p] r (⟨p, r⟩ :: (inner ++ [])) none r₂ :=
      .entered hnew htarget hinner hdefine .done
    have hnone : ((resolutions (⟨p, r⟩ :: (inner ++ []))).map Visit.name).filter
        r'.isPending = [] := by
      refine Registry.filter_isPending_eq_nil fun name hname => ?_
      obtain ⟨v, hv, rfl⟩ := List.mem_map.1 hname
      obtain ⟨target, -, hdefined⟩ := hend.defined rfl v hv
      exact ⟨_, (houter.binding_of_mem (Registry.mem_names_of_binding hdefined)).trans hdefined⟩
    have hsplit : resolutions (⟨p, r⟩ :: (inner ++ outer)) =
        resolutions (⟨p, r⟩ :: (inner ++ [])) ++ resolutions outer := by
      rw [← resolutions_append, List.append_nil, List.cons_append]
    rw [hsplit, List.map_append, List.filter_append, hnone, hpending, List.nil_append]

/-! ## Calls -/

/-- **What a call that fails leaves behind.** The failure is a pointer that
leads nowhere. The names that were bound come first, in their order, each
standing for what it stood for. Of the names behind them, those of the
references open at the failure are pending, in the order in which each
target refers to the next, down to the pointer of the failure; all others
are defined. -/
theorem openChain_of_failed_call {call : Call} {e : Error}
    (h : call.computation.run r = (.error e, r')) :
    ∃ pointer chain more, e = .unresolved pointer ∧
      Pointer.resolve? call.document pointer = none ∧
      OpenChain call.document call.plan.pointers chain pointer ∧
      chain.getLast? = some pointer ∧
      r'.names = r.names ++ more ∧ more.Nodup ∧ (∀ name ∈ more, name ∉ r.names) ∧
      (∀ name ∈ r.names, r'.binding? name = r.binding? name) ∧
      more.filter r'.isPending = chain.map Pointer.typeName ∧
      ∀ name ∈ more, name ∉ chain.map Pointer.typeName →
        ∃ definition, r'.binding? name = some (some definition) := by
  obtain ⟨trace, stop, r₁, hvisits, hrun⟩ := call.realizes r
  obtain ⟨hanswer, rfl⟩ := Prod.mk.inj (hrun.symm.trans h)
  cases stop with
  | none =>
    -- behind a walk to the end a call has a type
    obtain ⟨document, withDoc, subject⟩ := call
    cases subject <;> cases hanswer
  | some pointer =>
    obtain ⟨chain, hchain, hpending⟩ := hvisits.openChain rfl
    obtain ⟨hnew, hnodup⟩ := hvisits.threaded.new_and_nodup
    refine ⟨pointer, chain, (resolutions trace).map Visit.name, (Except.error.inj hanswer).symm,
      hchain.resolve?_stop, hchain, hchain.getLast?_eq, hvisits.names, hnodup, ?_,
      fun name => hvisits.binding_of_mem, hpending, fun name hname hother => ?_⟩
    · intro name hname
      obtain ⟨v, hv, rfl⟩ := List.mem_map.1 hname
      exact hnew v hv
    · refine Registry.exists_definition ?_ ?_
      · rw [hvisits.names]
        exact List.mem_append_right _ hname
      · rw [← hpending, List.mem_filter] at hother
        simpa [hname] using hother

/-- A pet whose tag is there and whose owner lives in a house that is
not. -/
def houseMissing : Json :=
  .object [("components", .object [("schemas", .object [
    ("Pet", .object [("properties", .object [
      ("tag", .object [("$ref", .string "#/components/schemas/Tag")]),
      ("owner", .object [("$ref", .string "#/components/schemas/Owner")])])]),
    ("Tag", .object [("type", .string "string")]),
    ("Owner", .object [("properties", .object [
      ("pet", .object [("$ref", .string "#/components/schemas/Pet")]),
      ("house", .object [("$ref", .string "#/components/schemas/House")])])])])])]

/-- The pet, its owner and the house are left pending behind a name that was
pending before, and the tag is defined. -/
theorem openChain_of_failed_call_of_houseMissing :
    ∃ e r' pointer chain, (Call.computation ⟨houseMissing, true,
        .pointer "#/components/schemas/Pet"⟩).run ⟨[("Known", none)]⟩ = (.error e, r') ∧
      e = .unresolved pointer ∧ pointer = "#/components/schemas/House" ∧
      Pointer.resolve? houseMissing pointer = none ∧
      OpenChain houseMissing ["#/components/schemas/Pet"] chain pointer ∧
      r'.names = ["Known", "Pet", "Tag", "Owner", "House"] ∧
      r'.binding? "Known" = some none ∧
      chain.map Pointer.typeName = ["Pet", "Owner", "House"] ∧
      ∃ definition, r'.binding? "Tag" = some (some definition) := by
  have h : (Call.computation ⟨houseMissing, true, .pointer "#/components/schemas/Pet"⟩).run
      ⟨[("Known", none)]⟩ = (.error (.unresolved "#/components/schemas/House"),
        ⟨[("Known", none), ("Pet", none), ("Tag", some ⟨.keyword .string, none⟩),
          ("Owner", none), ("House", none)]⟩) := by
    rfl
  obtain ⟨pointer, chain, more, he, hnone, hchain, -, hnames, -, -, hkept, hpending, hdefined⟩ :=
    openChain_of_failed_call h
  have hmore : more = ["Pet", "Tag", "Owner", "House"] := by
    simpa [Registry.names] using hnames.symm
  have hopen : chain.map Pointer.typeName = ["Pet", "Owner", "House"] := by
    rw [← hpending, hmore]
    rfl
  refine ⟨_, _, pointer, chain, h, he, (Error.unresolved.inj he).symm, hnone, hchain, rfl,
    hkept "Known" List.mem_cons_self, hopen, hdefined "Tag" ?_ ?_⟩
  · rw [hmore]
    decide
  · rw [hopen]
    decide

end Synthesis

end TypedClient
