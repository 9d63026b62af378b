import TypedClient.Proofs.Synthesis.Order
import TypedClient.Proofs.Synthesis.Failure
/-!
# Walks in another order

Where pointers of one name lead to one value, the order in which a walk is
given its pointers decides neither whether it comes to its end nor what any
name stands for (`Visits.same_of_agree`). It goes into the names within
reach in any case, and each of them stands for its target.
-/

namespace TypedClient

namespace Synthesis

variable {document : Json} {withDoc : Bool} {pointer stop : String}
variable {pointers start more chain : List String} {through : String → Prop}
variable {r r' s' : Registry} {trace trace' : List Visit}

/-- **Pointers of one name lead to one value**, as far as they are within
reach from some without passing through names that are bound. -/
def Agree (document : Json) (r : Registry) (start : List String) : Prop :=
  ∀ p q, Reachable document (Pointer.typeName · ∉ r.names) start p →
    Reachable document (Pointer.typeName · ∉ r.names) start q →
    Pointer.typeName p = Pointer.typeName q →
    Pointer.resolve? document p = Pointer.resolve? document q

/-- **Any two references of one name** that are written in a document lead to
one value, or both nowhere. -/
def NamesAgree (document : Json) : Prop :=
  ∀ p ∈ written document, ∀ q ∈ written document, Pointer.typeName p = Pointer.typeName q →
    Pointer.resolve? document p = Pointer.resolve? document q

/-- What is within reach of references that are written is written. -/
theorem Reachable.written (h : Reachable document through start pointer)
    (hstart : ∀ p ∈ start, p ∈ written document) : pointer ∈ written document := by
  cases h with
  | start hp => exact hstart _ hp
  | step _ _ htarget hp => exact mem_written_of_mem_references htarget hp

theorem NamesAgree.agree (h : NamesAgree document) (hstart : ∀ p ∈ start, p ∈ written document) :
    Agree document r start :=
  fun p q hp hq hname => h p (hp.written hstart) q (hq.written hstart) hname

/-- What is within reach does not depend on the order of the pointers. -/
theorem Reachable.mono (h : Reachable document through start pointer) (hsub : start ⊆ more) :
    Reachable document through more pointer :=
  h.trans fun _ hp => .start (hsub hp)

/-- What is open is within reach, by way of what is open. -/
theorem OpenChain.reachable (h : OpenChain document start chain stop)
    (hthrough : ∀ p ∈ chain, through p) : Reachable document through start stop := by
  induction h with
  | lost hmem _ => exact .start hmem
  | @into start chain pointer stop target hmem htarget _ ih =>
    obtain ⟨hpointer, hchain⟩ := List.forall_mem_cons.1 hthrough
    have hfirst : Reachable document through start pointer := .start hmem
    exact (ih hchain).trans fun q hq => .step hfirst hpointer htarget hq

namespace Visits

/-- The pointers of open references have names that were not bound. -/
theorem exists_reachable_stop (h : Visits document withDoc more r trace (some stop) r') :
    Pointer.typeName stop ∉ r.names ∧
      Reachable document (Pointer.typeName · ∉ r.names) more stop := by
  obtain ⟨chain, hchain, hpending⟩ := h.openChain rfl
  have hnew : ∀ p ∈ chain, Pointer.typeName p ∉ r.names := by
    intro p hp
    have hname : Pointer.typeName p ∈ chain.map Pointer.typeName := List.mem_map_of_mem hp
    rw [← hpending] at hname
    obtain ⟨v, hv, hvname⟩ := List.mem_map.1 (List.mem_filter.1 hname).1
    rw [← hvname]
    exact h.threaded.new_and_nodup.1 v hv
  have hstop : stop ∈ chain := List.mem_of_getLast? hchain.getLast?_eq
  exact ⟨hnew stop hstop, hchain.reachable hnew⟩

/-- The names bound after a walk to the end: those that were, and those within
reach. -/
theorem mem_names_iff_of_agree {name : String}
    (h : Visits document withDoc pointers r trace none r') (hagree : Agree document r pointers)
    (hnew : name ∉ r.names) : name ∈ r'.names ↔
      ∃ p, Reachable document (Pointer.typeName · ∉ r.names) pointers p ∧
        Pointer.typeName p = name := by
  have horder := h.depthFirst rfl
  rw [h.names, List.mem_append, ← Visit.map_typeName, horder.mem_names_iff_of_agree hagree]
  simp [hnew]

/-- What a name stands for after a walk to the end: what it stood for, or the
target of any pointer of that name within reach. -/
theorem binding_of_reachable (h : Visits document withDoc pointers r trace none r')
    (hagree : Agree document r pointers)
    (hreach : Reachable document (Pointer.typeName · ∉ r.names) pointers pointer)
    (hnew : Pointer.typeName pointer ∉ r.names) :
    ∃ target, Pointer.resolve? document pointer = some target ∧
      r'.binding? (Pointer.typeName pointer) = some (some (definition withDoc target)) := by
  have horder := h.depthFirst rfl
  have hmem : Pointer.typeName pointer ∈
      ((resolutions trace).map Visit.pointer).map Pointer.typeName :=
    (horder.mem_names_iff_of_agree hagree).2 ⟨hnew, pointer, hreach, rfl⟩
  -- the name was met at some pointer, which leads to the same value
  obtain ⟨q, hq, hname⟩ := List.mem_map.1 hmem
  have hreached : Reachable document (Pointer.typeName · ∉ r.names) pointers q :=
    horder.reachable (fun _ hp => horder.not_mem_bound hp) q hq
  obtain ⟨v, hv, rfl⟩ := List.mem_map.1 hq
  obtain ⟨target, htarget, hbinding⟩ := h.defined rfl v hv
  refine ⟨target, ?_, ?_⟩
  · rw [← hagree v.pointer pointer hreached hreach hname, htarget]
  · rw [← hname]
    exact hbinding

/-- **The order of pointers does not count.** A walk over the same pointers in
another order comes to its end, too, and all names stand for the same. -/
theorem same_of_agree {stop : Option String}
    (h : Visits document withDoc pointers r trace none r')
    (hother : Visits document withDoc more r trace' stop s')
    (hsame : ∀ p, p ∈ pointers ↔ p ∈ more) (hagree : Agree document r pointers) :
    stop = none ∧ r'.Same s' := by
  have hforth : pointers ⊆ more := fun p hp => (hsame p).1 hp
  have hback : more ⊆ pointers := fun p hp => (hsame p).2 hp
  cases stop with
  | some stop =>
    -- what stops the other walk is within reach of this one, which found a target there
    obtain ⟨hnew, hreach⟩ := hother.exists_reachable_stop
    obtain ⟨target, htarget, -⟩ := h.binding_of_reachable hagree (hreach.mono hback) hnew
    rw [hother.resolve?_of_stop rfl] at htarget
    cases htarget
  | none =>
    refine ⟨rfl, fun name => ?_⟩
    have hagree' : Agree document r more := fun p q hp hq =>
      hagree p q (hp.mono hback) (hq.mono hback)
    by_cases hbound : name ∈ r.names
    · rw [h.binding_of_mem hbound, hother.binding_of_mem hbound]
    by_cases hreach : ∃ p, Reachable document (Pointer.typeName · ∉ r.names) pointers p ∧
        Pointer.typeName p = name
    · obtain ⟨p, hp, rfl⟩ := hreach
      obtain ⟨target, htarget, hbinding⟩ := h.binding_of_reachable hagree hp hbound
      obtain ⟨target', htarget', hbinding'⟩ :=
        hother.binding_of_reachable hagree' (hp.mono hforth) hbound
      obtain rfl := Option.some.inj (htarget.symm.trans htarget')
      rw [hbinding, hbinding']
    · have hunbound : name ∉ r'.names := fun hname =>
        hreach ((h.mem_names_iff_of_agree hagree hbound).1 hname)
      have hunbound' : name ∉ s'.names := by
        intro hname
        obtain ⟨p, hp, hpname⟩ := (hother.mem_names_iff_of_agree hagree' hbound).1 hname
        exact hreach ⟨p, hp.mono hback, hpname⟩
      rw [Registry.binding?_eq_none_iff.2 hunbound, Registry.binding?_eq_none_iff.2 hunbound']

/-- There is a walk over any pointers, from any registry. -/
theorem total (document : Json) (withDoc : Bool) (pointers : List String) (r : Registry) :
    ∃ trace stop r', Visits document withDoc pointers r trace stop r' := by
  induction pointers generalizing r with
  | nil => exact ⟨[], none, r, .done⟩
  | cons pointer rest ih =>
    obtain ⟨trace, stop, r₁, hfirst, -⟩ := reference_realizes document withDoc pointer r
    cases stop with
    | some stop => exact ⟨trace, some stop, r₁, hfirst.append_of_stop (by simp)⟩
    | none =>
      obtain ⟨trace', stop, r', hrest⟩ := ih r₁
      exact ⟨trace ++ trace', stop, r', hfirst.append rfl hrest⟩

/-- **The first pointers of a walk may change their order**, and what the walk
comes to stays the same. -/
theorem exists_same {rest : List String}
    (h : Visits document withDoc (pointers ++ rest) r trace none r')
    (hsame : ∀ p, p ∈ pointers ↔ p ∈ more) (hagree : Agree document r pointers) :
    ∃ trace' s', Visits document withDoc (more ++ rest) r trace' none s' ∧ r'.Same s' := by
  obtain ⟨_, _, r₁, hfirst, hrest⟩ := h.of_append
  obtain ⟨_, stop, s₁, hmore⟩ := total document withDoc more r
  obtain ⟨rfl, hsame₁⟩ := hfirst.same_of_agree hmore hsame hagree
  obtain ⟨_, s', hrest', hsame'⟩ := hrest.of_same hsame₁
  exact ⟨_, s', hmore.append rfl hrest', hsame'⟩

end Visits

end Synthesis

end TypedClient
