import TypedClient.Proofs.Registry
import TypedClient.Proofs.Synthesis.Translation
/-!
# Visits

A synthesis meets pointers one after another. It looks up the name of each
and goes into the target only where the name is unbound. `Visits` is this
walk without any bound on its depth: which registry it leads to, which
pointer stops it, and the trace of every pointer met on the way together
with the registry it was met in. The registry of a walk is determined by
its trace (`Visits.names`, `Visits.binding_of_mem`, `Visits.defined`).
-/

namespace TypedClient

namespace Synthesis

/-- A pointer met, and the registry in which its name is looked up. -/
structure Visit where
  pointer : String
  registry : Registry

namespace Visit

/-- The name of the type for the pointer. -/
def name (v : Visit) : String := Pointer.typeName v.pointer

theorem map_typeName {visits : List Visit} :
    (visits.map Visit.pointer).map Pointer.typeName = visits.map Visit.name := by
  rw [List.map_map]
  rfl

/-- Whether the pointer is resolved: only where its name is unbound. -/
def resolves (v : Visit) : Bool := !v.registry.contains v.name

theorem resolves_iff {v : Visit} : v.resolves = true ↔ v.name ∉ v.registry.names := by
  rw [resolves, Bool.not_eq_true', Registry.not_contains_iff]

end Visit

/-- The visits of a trace that resolve their pointer. -/
def resolutions (trace : List Visit) : List Visit := trace.filter Visit.resolves

@[simp] theorem resolutions_nil : resolutions [] = [] := rfl

@[simp] theorem resolutions_append {xs ys : List Visit} :
    resolutions (xs ++ ys) = resolutions xs ++ resolutions ys := List.filter_append ..

theorem resolutions_cons_of_new {pointer : String} {r : Registry} {rest : List Visit}
    (h : Pointer.typeName pointer ∉ r.names) :
    resolutions (⟨pointer, r⟩ :: rest) = ⟨pointer, r⟩ :: resolutions rest :=
  List.filter_cons_of_pos (Visit.resolves_iff.2 h)

theorem resolutions_cons_of_bound {pointer : String} {r : Registry} {rest : List Visit}
    (h : Pointer.typeName pointer ∈ r.names) :
    resolutions (⟨pointer, r⟩ :: rest) = resolutions rest :=
  List.filter_cons_of_neg fun hv => Visit.resolves_iff.1 hv h

/-- **The walk over pointers**, from a registry to a registry, with its
trace and the pointer that stops it, if one leads nowhere. -/
inductive Visits (document : Json) (withDoc : Bool) :
    List String → Registry → List Visit → Option String → Registry → Prop
  /-- No pointer is left. -/
  | done {r : Registry} : Visits document withDoc [] r [] none r
  /-- The name is bound, and the target is not looked at. -/
  | bound {pointer : String} {rest : List String} {r r' : Registry} {trace : List Visit}
      {stop : Option String} :
      Pointer.typeName pointer ∈ r.names → Visits document withDoc rest r trace stop r' →
      Visits document withDoc (pointer :: rest) r (⟨pointer, r⟩ :: trace) stop r'
  /-- The pointer leads nowhere. -/
  | lost {pointer : String} {rest : List String} {r : Registry} :
      Pointer.typeName pointer ∉ r.names → Pointer.resolve? document pointer = none →
      Visits document withDoc (pointer :: rest) r [⟨pointer, r⟩] (some pointer)
        (r.reserve (Pointer.typeName pointer))
  /-- A pointer met inside the target leads nowhere. -/
  | stuck {pointer stop : String} {rest : List String} {r r' : Registry} {target : Json}
      {inner : List Visit} :
      Pointer.typeName pointer ∉ r.names → Pointer.resolve? document pointer = some target →
      Visits document withDoc (Schema.ofJson target).references
        (r.reserve (Pointer.typeName pointer)) inner (some stop) r' →
      Visits document withDoc (pointer :: rest) r (⟨pointer, r⟩ :: inner) (some stop) r'
  /-- The target is walked through, its name defined, and the walk goes
  on. -/
  | entered {pointer : String} {rest : List String} {r r₁ r₂ r' : Registry} {target : Json}
      {inner outer : List Visit} {stop : Option String} :
      Pointer.typeName pointer ∉ r.names → Pointer.resolve? document pointer = some target →
      Visits document withDoc (Schema.ofJson target).references
        (r.reserve (Pointer.typeName pointer)) inner none r₁ →
      r₁.register (Pointer.typeName pointer) (definition withDoc target) = .ok r₂ →
      Visits document withDoc rest r₂ outer stop r' →
      Visits document withDoc (pointer :: rest) r (⟨pointer, r⟩ :: (inner ++ outer)) stop r'

section Rel

variable {α β : Type} {rel : α → β → Prop} {a : α} {found : Option β}

theorem exists_of_rel (h : Option.Rel rel (some a) found) : ∃ b, found = some b ∧ rel a b := by
  cases h with
  | some hab => exact ⟨_, rfl, hab⟩

theorem eq_none_of_rel (h : Option.Rel rel none found) : found = none := by
  cases h
  rfl

theorem rel_refl {rel : α → α → Prop} (h : ∀ a, rel a a) (found : Option α) :
    Option.Rel rel found found := by
  cases found with
  | none => exact .none
  | some a => exact .some (h a)

end Rel

namespace Visits

variable {document : Json} {withDoc : Bool} {pointer name : String} {pointers more : List String}
variable {r r₁ r₂ r' : Registry} {trace trace' : List Visit} {stop stop' : Option String}
variable {target : Json}

/-! ## What a walk does to the registry -/

/-- A name that is bound keeps what it stands for, and the names of the
resolutions are put at the end. -/
theorem binding_and_names (h : Visits document withDoc pointers r trace stop r') :
    (∀ name ∈ r.names, r'.binding? name = r.binding? name) ∧
      r'.names = r.names ++ (resolutions trace).map Visit.name := by
  induction h with
  | done => exact ⟨fun _ _ => rfl, by simp⟩
  | bound hbound _ ih =>
    rw [resolutions_cons_of_bound hbound]
    exact ih
  | lost hnew _ =>
    refine ⟨fun name hname => Registry.binding_reserve_of_mem hname, ?_⟩
    rw [resolutions_cons_of_new hnew, Registry.names_reserve hnew]
    rfl
  | stuck hnew _ _ ih =>
    rw [resolutions_cons_of_new hnew]
    refine ⟨fun name hname => ?_, ?_⟩
    · rw [ih.1 name (by rw [Registry.names_reserve hnew]; exact List.mem_append_left _ hname),
        Registry.binding_reserve_of_mem hname]
    · rw [ih.2, Registry.names_reserve hnew, List.append_assoc]
      rfl
  | @entered pointer rest r r₁ r₂ r' target inner outer stop hnew _ _ hdefine _ ihi iho =>
    -- the name is still pending behind the target, so defining it adds none
    have hpending : r₁.binding? (Pointer.typeName pointer) = some none := by
      rw [ihi.1 _ Registry.mem_names_reserve, Registry.binding_reserve hnew]
    obtain ⟨hnames, -, hothers⟩ := Registry.of_register_pending hpending hdefine
    have hinner : r₂.names = r.names ++ Pointer.typeName pointer ::
        (resolutions inner).map Visit.name := by
      rw [hnames, ihi.2, Registry.names_reserve hnew, List.append_assoc]
      rfl
    rw [resolutions_cons_of_new hnew]
    refine ⟨fun name hname => ?_, ?_⟩
    · have hne : name ≠ Pointer.typeName pointer := fun heq => hnew (heq ▸ hname)
      rw [iho.1 name (by rw [hinner]; exact List.mem_append_left _ hname), hothers name hne,
        ihi.1 name (by rw [Registry.names_reserve hnew]; exact List.mem_append_left _ hname),
        Registry.binding_reserve_of_mem hname]
    · rw [iho.2, hinner, resolutions_append]
      simp [Visit.name]

/-- **A name that is bound keeps what it stands for.** -/
theorem binding_of_mem (h : Visits document withDoc pointers r trace stop r')
    (hname : name ∈ r.names) : r'.binding? name = r.binding? name :=
  h.binding_and_names.1 name hname

/-- **The names of the resolutions are put at the end**, in their order. -/
theorem names (h : Visits document withDoc pointers r trace stop r') :
    r'.names = r.names ++ (resolutions trace).map Visit.name := h.binding_and_names.2

theorem names_subset (h : Visits document withDoc pointers r trace stop r') :
    r.names ⊆ r'.names := by
  rw [h.names]
  exact List.subset_append_left _ _

/-- **The entries that were there stay**, at the front and in their
order. -/
theorem entries_prefix (h : Visits document withDoc pointers r trace stop r') :
    r.entries <+: r'.entries := by
  induction h with
  | done => exact List.prefix_refl _
  | bound _ _ ih => exact ih
  | lost => exact Registry.entries_prefix_reserve
  | stuck _ _ _ ih => exact Registry.entries_prefix_reserve.trans ih
  | @entered pointer rest r r₁ r₂ r' target inner outer stop hnew _ hinner hdefine _ ihi iho =>
    have hpending : r₁.binding? (Pointer.typeName pointer) = some none := by
      rw [hinner.binding_of_mem Registry.mem_names_reserve, Registry.binding_reserve hnew]
    exact (Registry.entries_prefix_register hnew (Registry.entries_prefix_reserve.trans ihi)
      hpending hdefine).trans iho

/-- Inside a target the target's own name is pending. -/
theorem pending_inside (hnew : Pointer.typeName pointer ∉ r.names)
    (h : Visits document withDoc pointers (r.reserve (Pointer.typeName pointer)) trace stop r₁) :
    r₁.binding? (Pointer.typeName pointer) = some none := by
  rw [h.binding_of_mem Registry.mem_names_reserve, Registry.binding_reserve hnew]

/-- The registry behind a target: the target's name, and then those met
inside. -/
theorem names_of_register (hnew : Pointer.typeName pointer ∉ r.names)
    (h : Visits document withDoc pointers (r.reserve (Pointer.typeName pointer)) trace stop r₁)
    (hdefine : r₁.register (Pointer.typeName pointer) (definition withDoc target) = .ok r₂) :
    r₂.names = r.names ++ [Pointer.typeName pointer] ++ (resolutions trace).map Visit.name := by
  rw [(Registry.of_register_pending (h.pending_inside hnew) hdefine).1, h.names,
    Registry.names_reserve hnew]

/-- **What is defined after a walk to the end**: the name of every
resolution, as its target. -/
theorem defined (h : Visits document withDoc pointers r trace stop r') (hstop : stop = none) :
    ∀ v ∈ resolutions trace, ∃ target, Pointer.resolve? document v.pointer = some target ∧
      r'.binding? v.name = some (some (definition withDoc target)) := by
  induction h with
  | done => simp
  | bound hbound _ ih =>
    rw [resolutions_cons_of_bound hbound]
    exact ih hstop
  | lost => cases hstop
  | stuck => cases hstop
  | @entered pointer rest r r₁ r₂ r' target inner outer stop hnew htarget hinner hdefine houter
      ihi iho =>
    have hpending := hinner.pending_inside hnew
    obtain ⟨hnames, hself, hothers⟩ := Registry.of_register_pending hpending hdefine
    intro v hv
    rw [resolutions_cons_of_new hnew, resolutions_append, List.mem_cons, List.mem_append] at hv
    rcases hv with rfl | hv | hv
    · refine ⟨target, htarget, ?_⟩
      rw [Visit.name, houter.binding_of_mem (Registry.mem_names_of_binding hself), hself]
    · obtain ⟨t, ht, hbinding⟩ := ihi rfl v hv
      -- what is defined inside the target is not the pending name
      have hne : v.name ≠ Pointer.typeName pointer := by
        intro heq
        rw [heq, hpending] at hbinding
        cases hbinding
      have hr₂ : r₂.binding? v.name = some (some (definition withDoc t)) := by
        rw [hothers _ hne, hbinding]
      exact ⟨t, ht, by rw [houter.binding_of_mem (Registry.mem_names_of_binding hr₂), hr₂]⟩
    · exact iho hstop v hv

/-- **What stops a walk leads nowhere.** -/
theorem resolve?_of_stop (h : Visits document withDoc pointers r trace stop r')
    (hstop : stop = some pointer) : Pointer.resolve? document pointer = none := by
  induction h with
  | done => cases hstop
  | bound _ _ ih => exact ih hstop
  | lost _ hnone => exact Option.some.inj hstop ▸ hnone
  | stuck _ _ _ ih => exact ih hstop
  | entered _ _ _ _ _ _ iho => exact iho hstop

/-! ## What a walk meets -/

/-- A walk to the end meets every pointer it was given. -/
theorem met (h : Visits document withDoc pointers r trace stop r') (hstop : stop = none) :
    ∀ p ∈ pointers, ∃ v ∈ trace, v.pointer = p := by
  induction h with
  | done => simp
  | bound _ _ ih =>
    intro p hp
    rcases List.mem_cons.1 hp with rfl | hp
    · exact ⟨_, List.mem_cons_self, rfl⟩
    · obtain ⟨v, hv, hvp⟩ := ih hstop p hp
      exact ⟨v, List.mem_cons_of_mem _ hv, hvp⟩
  | lost => cases hstop
  | stuck => cases hstop
  | entered _ _ _ _ _ _ iho =>
    intro p hp
    rcases List.mem_cons.1 hp with rfl | hp
    · exact ⟨_, List.mem_cons_self, rfl⟩
    · obtain ⟨v, hv, hvp⟩ := iho hstop p hp
      exact ⟨v, List.mem_cons_of_mem _ (List.mem_append_right _ hv), hvp⟩

/-- And every pointer of every target it resolves. -/
theorem met_inside (h : Visits document withDoc pointers r trace stop r') (hstop : stop = none) :
    ∀ v ∈ resolutions trace, ∀ target, Pointer.resolve? document v.pointer = some target →
      ∀ p ∈ (Schema.ofJson target).references, ∃ w ∈ trace, w.pointer = p := by
  induction h with
  | done => simp
  | bound hbound _ ih =>
    rw [resolutions_cons_of_bound hbound]
    intro v hv t ht p hp
    obtain ⟨w, hw, hwp⟩ := ih hstop v hv t ht p hp
    exact ⟨w, List.mem_cons_of_mem _ hw, hwp⟩
  | lost => cases hstop
  | stuck => cases hstop
  | entered hnew htarget hinner _ _ ihi iho =>
    intro v hv t ht p hp
    rw [resolutions_cons_of_new hnew, resolutions_append, List.mem_cons, List.mem_append] at hv
    rcases hv with rfl | hv | hv
    · obtain rfl := Option.some.inj (htarget.symm.trans ht)
      obtain ⟨w, hw, hwp⟩ := hinner.met rfl p hp
      exact ⟨w, List.mem_cons_of_mem _ (List.mem_append_left _ hw), hwp⟩
    · obtain ⟨w, hw, hwp⟩ := ihi rfl v hv t ht p hp
      exact ⟨w, List.mem_cons_of_mem _ (List.mem_append_left _ hw), hwp⟩
    · obtain ⟨w, hw, hwp⟩ := iho hstop v hv t ht p hp
      exact ⟨w, List.mem_cons_of_mem _ (List.mem_append_right _ hw), hwp⟩

/-! ## Walks are functions and compose -/

/-- **A walk is determined by its pointers and the registry it starts
from.** -/
theorem deterministic (h : Visits document withDoc pointers r trace stop r')
    (h' : Visits document withDoc pointers r trace' stop' r₁) :
    trace = trace' ∧ stop = stop' ∧ r' = r₁ := by
  induction h generalizing trace' stop' r₁ with
  | done =>
    cases h'
    exact ⟨rfl, rfl, rfl⟩
  | bound hbound _ ih =>
    cases h' with
    | bound _ hrest =>
      obtain ⟨rfl, rfl, rfl⟩ := ih hrest
      exact ⟨rfl, rfl, rfl⟩
    | lost hnew _ => exact absurd hbound hnew
    | stuck hnew _ _ => exact absurd hbound hnew
    | entered hnew _ _ _ _ => exact absurd hbound hnew
  | lost hnew hnone =>
    cases h' with
    | bound hbound _ => exact absurd hbound hnew
    | lost _ _ => exact ⟨rfl, rfl, rfl⟩
    | stuck _ htarget _ => rw [hnone] at htarget; cases htarget
    | entered _ htarget _ _ _ => rw [hnone] at htarget; cases htarget
  | stuck hnew htarget _ ih =>
    cases h' with
    | bound hbound _ => exact absurd hbound hnew
    | lost _ hnone => rw [hnone] at htarget; cases htarget
    | stuck _ htarget' hinner =>
      obtain rfl := Option.some.inj (htarget.symm.trans htarget')
      obtain ⟨rfl, hstop, rfl⟩ := ih hinner
      exact ⟨rfl, hstop, rfl⟩
    | entered _ htarget' hinner _ _ =>
      obtain rfl := Option.some.inj (htarget.symm.trans htarget')
      cases (ih hinner).2.1
  | entered hnew htarget _ hdefine _ ihi iho =>
    cases h' with
    | bound hbound _ => exact absurd hbound hnew
    | lost _ hnone => rw [hnone] at htarget; cases htarget
    | stuck _ htarget' hinner =>
      obtain rfl := Option.some.inj (htarget.symm.trans htarget')
      cases (ihi hinner).2.1
    | entered _ htarget' hinner hdefine' houter =>
      obtain rfl := Option.some.inj (htarget.symm.trans htarget')
      obtain ⟨rfl, -, rfl⟩ := ihi hinner
      obtain rfl := Except.ok.inj (hdefine.symm.trans hdefine')
      obtain ⟨rfl, rfl, rfl⟩ := iho houter
      exact ⟨rfl, rfl, rfl⟩

/-- **A walk reads the document at its resolutions only**, and tells targets
apart by their schemas and descriptions only. -/
theorem of_alike {other : Json} (h : Visits document withDoc pointers r trace stop r')
    (halike : ∀ v ∈ resolutions trace, Option.Rel Alike (Pointer.resolve? document v.pointer)
      (Pointer.resolve? other v.pointer)) :
    Visits other withDoc pointers r trace stop r' := by
  induction h with
  | done => exact .done
  | bound hbound _ ih =>
    rw [resolutions_cons_of_bound hbound] at halike
    exact .bound hbound (ih halike)
  | lost hnew hnone =>
    rw [resolutions_cons_of_new hnew] at halike
    have hfirst := halike _ List.mem_cons_self
    rw [hnone] at hfirst
    exact .lost hnew (eq_none_of_rel hfirst)
  | stuck hnew htarget _ ih =>
    rw [resolutions_cons_of_new hnew] at halike
    have hfirst := halike _ List.mem_cons_self
    rw [htarget] at hfirst
    obtain ⟨found, hfound, hsame⟩ := exists_of_rel hfirst
    refine .stuck hnew hfound ?_
    rw [← hsame.schema]
    exact ih fun v hv => halike v (List.mem_cons_of_mem _ hv)
  | entered hnew htarget _ hdefine _ ihi iho =>
    rw [resolutions_cons_of_new hnew, resolutions_append] at halike
    have hfirst := halike _ List.mem_cons_self
    rw [htarget] at hfirst
    obtain ⟨found, hfound, hsame⟩ := exists_of_rel hfirst
    refine .entered hnew hfound ?_ (hsame.definition_eq ▸ hdefine) (iho fun v hv => ?_)
    · rw [← hsame.schema]
      exact ihi fun v hv => halike v (List.mem_cons_of_mem _ (List.mem_append_left _ hv))
    · exact halike v (List.mem_cons_of_mem _ (List.mem_append_right _ hv))

/-- Documents that agree at the resolutions give one walk. -/
theorem of_agree {other : Json} (h : Visits document withDoc pointers r trace stop r')
    (hagree : ∀ v ∈ resolutions trace,
      Pointer.resolve? other v.pointer = Pointer.resolve? document v.pointer) :
    Visits other withDoc pointers r trace stop r' := by
  refine h.of_alike fun v hv => ?_
  rw [hagree v hv]
  exact rel_refl Alike.refl _

/-- **A walk reads a registry by what its names stand for.** From one that
says the same it goes the same way. -/
theorem of_same (h : Visits document withDoc pointers r trace stop r') {s : Registry}
    (hsame : r.Same s) : ∃ trace' s', Visits document withDoc pointers s trace' stop s' ∧
      r'.Same s' := by
  induction h generalizing s with
  | done => exact ⟨[], s, .done, hsame⟩
  | bound hbound _ ih =>
    obtain ⟨trace', s', hrest, hsame'⟩ := ih hsame
    exact ⟨_, s', .bound (hsame.mem_names_iff.1 hbound) hrest, hsame'⟩
  | lost hnew hnone =>
    exact ⟨_, _, .lost (fun hbound => hnew (hsame.mem_names_iff.2 hbound)) hnone, hsame.reserve⟩
  | stuck hnew htarget _ ih =>
    obtain ⟨inner', s', hinner', hsame'⟩ := ih hsame.reserve
    exact ⟨_, s', .stuck (fun hbound => hnew (hsame.mem_names_iff.2 hbound)) htarget hinner',
      hsame'⟩
  | entered hnew htarget hinner hdefine _ ihi iho =>
    obtain ⟨inner', s₁, hinner', hsame₁⟩ := ihi hsame.reserve
    obtain ⟨s₂, hdefine', hsame₂⟩ := hsame₁.register (hinner.pending_inside hnew) hdefine
    obtain ⟨outer', s', houter', hsame'⟩ := iho hsame₂
    exact ⟨_, s', .entered (fun hbound => hnew (hsame.mem_names_iff.2 hbound)) htarget hinner'
      hdefine' houter', hsame'⟩

/-- A walk to the end can be continued. -/
theorem append (h : Visits document withDoc pointers r trace stop r₁) (hstop : stop = none)
    (hmore : Visits document withDoc more r₁ trace' stop' r') :
    Visits document withDoc (pointers ++ more) r (trace ++ trace') stop' r' := by
  induction h with
  | done => exact hmore
  | bound hbound _ ih => exact .bound hbound (ih hstop hmore)
  | lost => cases hstop
  | stuck => cases hstop
  | entered hnew htarget hinner hdefine _ _ iho =>
    rw [List.cons_append, List.cons_append, List.append_assoc]
    exact .entered hnew htarget hinner hdefine (iho hstop hmore)

/-- A walk to the end over two lists is a walk to the end over the first and
then one over the second. -/
theorem of_append (h : Visits document withDoc (pointers ++ more) r trace none r') :
    ∃ trace₁ trace₂ r₁, Visits document withDoc pointers r trace₁ none r₁ ∧
      Visits document withDoc more r₁ trace₂ none r' := by
  induction pointers generalizing r trace with
  | nil => exact ⟨[], trace, r, .done, h⟩
  | cons pointer rest ih =>
    cases h with
    | bound hbound hrest =>
      obtain ⟨trace₁, trace₂, r₁, hfirst, hsecond⟩ := ih hrest
      exact ⟨_, trace₂, r₁, .bound hbound hfirst, hsecond⟩
    | entered hnew htarget hinner hdefine houter =>
      obtain ⟨trace₁, trace₂, r₁, hfirst, hsecond⟩ := ih houter
      exact ⟨_, trace₂, r₁, .entered hnew htarget hinner hdefine hfirst, hsecond⟩

/-- A walk that is stopped is stopped whatever comes behind. -/
theorem append_of_stop (h : Visits document withDoc pointers r trace stop r')
    (hstop : stop ≠ none) : Visits document withDoc (pointers ++ more) r trace stop r' := by
  induction h with
  | done => exact absurd rfl hstop
  | bound hbound _ ih => exact .bound hbound (ih hstop)
  | lost hnew hnone => exact .lost hnew hnone
  | stuck hnew htarget hinner _ => exact .stuck hnew htarget hinner
  | entered hnew htarget hinner hdefine _ _ iho =>
    exact .entered hnew htarget hinner hdefine (iho hstop)

end Visits

end Synthesis

end TypedClient
