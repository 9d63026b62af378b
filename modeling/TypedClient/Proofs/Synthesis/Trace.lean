import TypedClient.Proofs.Synthesis.Visit
/-!
# Traces

The names bound at a visit are those of the beginning and of the
resolutions before it: a trace is threaded (`Visits.threaded`). So no name
is resolved twice (`Threaded.new_and_nodup`), and the first visit of a new
name is the one that resolves it (`Visits.first_met`).
-/

namespace TypedClient

namespace Synthesis

variable {document : Json} {withDoc : Bool} {pointers bound : List String}
variable {r r' : Registry} {stop : Option String} {xs ys trace : List Visit} {v : Visit}

/-- **The names bound at each visit** are those of the beginning, and then
those of the resolutions before it. -/
def Threaded : List String → List Visit → Prop
  | _, [] => True
  | bound, v :: rest => v.registry.names = bound ∧
      Threaded (bound ++ (resolutions [v]).map Visit.name) rest

theorem threaded_append : Threaded bound (xs ++ ys) ↔
    Threaded bound xs ∧ Threaded (bound ++ (resolutions xs).map Visit.name) ys := by
  induction xs generalizing bound with
  | nil => simp [Threaded]
  | cons v rest ih =>
    have hcons : resolutions (v :: rest) = resolutions [v] ++ resolutions rest :=
      List.filter_append [v] rest
    rw [List.cons_append, Threaded, Threaded, ih, hcons, List.map_append, ← List.append_assoc,
      and_assoc]

/-- What is bound at a visit inside a trace. -/
theorem Threaded.names_at {before after : List Visit}
    (h : Threaded bound (before ++ v :: after)) :
    v.registry.names = bound ++ (resolutions before).map Visit.name :=
  (threaded_append.1 h).2.1

/-- **No name is resolved twice**, and none that was bound before. -/
theorem Threaded.new_and_nodup (h : Threaded bound trace) :
    (∀ v ∈ resolutions trace, v.name ∉ bound) ∧ ((resolutions trace).map Visit.name).Nodup := by
  induction trace generalizing bound with
  | nil => simp
  | cons v rest ih =>
    obtain ⟨hnames, hrest⟩ := h
    obtain ⟨hnew, hnodup⟩ := ih hrest
    by_cases hv : v.name ∈ v.registry.names
    · have hnone : resolutions [v] = [] := resolutions_cons_of_bound hv
      rw [resolutions_cons_of_bound hv]
      refine ⟨fun w hw => ?_, hnodup⟩
      simpa [hnone] using hnew w hw
    · have hsome : resolutions [v] = [v] := resolutions_cons_of_new hv
      rw [resolutions_cons_of_new hv]
      simp only [hsome, List.map_cons, List.map_nil, List.mem_append, List.mem_singleton,
        not_or] at hnew
      refine ⟨fun w hw => ?_, ?_⟩
      · rcases List.mem_cons.1 hw with rfl | hw
        · exact hnames ▸ hv
        · exact (hnew w hw).1
      · rw [List.map_cons, List.nodup_cons]
        refine ⟨fun hmem => ?_, hnodup⟩
        obtain ⟨w, hw, hname⟩ := List.mem_map.1 hmem
        exact (hnew w hw).2 hname

/-- **The trace of a walk is threaded.** -/
theorem Visits.threaded (h : Visits document withDoc pointers r trace stop r') :
    Threaded r.names trace := by
  induction h with
  | done => exact trivial
  | bound hbound _ ih =>
    refine ⟨rfl, ?_⟩
    rw [resolutions_cons_of_bound hbound]
    simpa using ih
  | lost _ _ => exact ⟨rfl, trivial⟩
  | stuck hnew _ _ ih =>
    refine ⟨rfl, ?_⟩
    rw [resolutions_cons_of_new hnew]
    rw [Registry.names_reserve hnew] at ih
    exact ih
  | entered hnew _ hinner hdefine _ ihi iho =>
    refine ⟨rfl, ?_⟩
    rw [resolutions_cons_of_new hnew]
    rw [Registry.names_reserve hnew] at ihi
    rw [hinner.names_of_register hnew hdefine] at iho
    exact threaded_append.2 ⟨ihi, iho⟩

/-- **The first visit of a new name resolves it.** -/
theorem Visits.first_met (h : Visits document withDoc pointers r trace stop r')
    (hv : v ∈ trace) (hnew : v.name ∉ r.names) :
    ∃ before first after, trace = before ++ first :: after ∧ first.name = v.name ∧
      (∀ w ∈ before, w.name ≠ v.name) ∧ first ∈ resolutions trace := by
  have hsome : (trace.find? fun w => w.name = v.name).isSome = true := by
    rw [List.find?_isSome]
    exact ⟨v, hv, by simp⟩
  obtain ⟨first, hfirst⟩ := Option.isSome_iff_exists.1 hsome
  obtain ⟨hname, before, after, rfl, hbefore⟩ := List.find?_eq_some_iff_append.1 hfirst
  have hname' : first.name = v.name := by simpa using hname
  have hothers : ∀ w ∈ before, w.name ≠ v.name := fun w hw => by simpa using hbefore w hw
  refine ⟨before, first, after, rfl, hname', hothers, List.mem_filter.2 ⟨by simp, ?_⟩⟩
  rw [Visit.resolves_iff, h.threaded.names_at, List.mem_append, hname']
  rintro (hold | hmem)
  · exact hnew hold
  · obtain ⟨w, hw, hwname⟩ := List.mem_map.1 hmem
    exact hothers w (List.mem_filter.1 hw).1 hwname

end Synthesis

end TypedClient
