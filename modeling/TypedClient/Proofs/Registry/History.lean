import TypedClient.Proofs.Distinct
import TypedClient.Proofs.Registry
import TypedClient.Proofs.TypeExpr.Same
/-!
# Registries and their histories

A registry is changed by two calls, reserving and registering a name. After
any history of them it is the registry that the history tells of: the names
in the order of their first mention, each with what the first call that
registers it says (`after_eq_told`). What every later call answers follows
(`history_decides`); a registration is compared with the first one of its
name, not with those that failed in between.
-/

namespace TypedClient

namespace Registry

/-- A call that may change a registry. -/
inductive Call where
  | reserve (name : String)
  | register (name : String) (definition : NamedType)

namespace Call

/-- The name that a call mentions. -/
def name : Call → String
  | .reserve name => name
  | .register name _ => name

/-- What a call registers a name as, if it does. -/
def definitionOf? (name : String) : Call → Option NamedType
  | .reserve _ => none
  | .register other definition => if other = name then some definition else none

end Call

/-- The answer to a call, and the registry behind it. A call that fails
leaves the registry as it was. -/
def answer (r : Registry) : Call → Except Error Unit × Registry
  | .reserve name => (.ok (), r.reserve name)
  | .register name definition =>
    match r.register name definition with
    | .ok r' => (.ok (), r')
    | .error e => (.error e, r)

/-- The registry behind calls that are made one after another, whatever they
answer. -/
def after (r : Registry) (calls : List Call) : Registry :=
  calls.foldl (fun r call => (r.answer call).2) r

/-! ## What a history tells -/

/-- The names that calls mention, each once, in the order of their first
mention. -/
def mentioned (calls : List Call) : List String := (calls.map Call.name).eraseDups

/-- What the first call that registers a name says. -/
def firstDefinition? (calls : List Call) (name : String) : Option NamedType :=
  calls.findSome? (Call.definitionOf? name)

/-- **The registry that a history tells of.** -/
def told (calls : List Call) : Registry :=
  ⟨(mentioned calls).map fun name => (name, firstDefinition? calls name)⟩

/-- The first call that registers a name gives it this definition. -/
def FirstDefines (calls : List Call) (name : String) (definition : NamedType) : Prop :=
  ∃ before later, calls = before ++ .register name definition :: later ∧
    ∀ other, Call.register name other ∉ before

variable {calls : List Call} {call : Call} {name other : String} {definition first : NamedType}

theorem definitionOf?_eq_some_iff :
    call.definitionOf? name = some definition ↔ call = .register name definition := by
  cases call with
  | reserve other => simp [Call.definitionOf?]
  | register other found =>
    by_cases hname : other = name
    · simp [Call.definitionOf?, hname]
    · simp [Call.definitionOf?, hname]

theorem definitionOf?_eq_none_iff :
    call.definitionOf? name = none ↔ ∀ definition, call ≠ .register name definition := by
  rw [Option.eq_none_iff_forall_ne_some]
  exact forall_congr' fun definition => not_congr definitionOf?_eq_some_iff

/-- A call says nothing of other names. -/
theorem definitionOf?_of_ne (call : Call) (h : name ≠ call.name) : call.definitionOf? name = none := by
  refine definitionOf?_eq_none_iff.2 fun definition heq => h ?_
  rw [heq]
  rfl

/-- A history tells of the definition by the first call that registers the
name. -/
theorem firstDefinition?_eq_some_iff :
    firstDefinition? calls name = some definition ↔ FirstDefines calls name definition := by
  rw [firstDefinition?, List.findSome?_eq_some_iff]
  constructor
  · rintro ⟨before, call, later, rfl, hcall, hbefore⟩
    obtain rfl := definitionOf?_eq_some_iff.1 hcall
    exact ⟨before, later, rfl, fun other hmem =>
      definitionOf?_eq_none_iff.1 (hbefore _ hmem) other rfl⟩
  · rintro ⟨before, later, rfl, hbefore⟩
    refine ⟨before, _, later, rfl, definitionOf?_eq_some_iff.2 rfl, fun call hmem => ?_⟩
    exact definitionOf?_eq_none_iff.2 fun other heq => hbefore other (heq ▸ hmem)

theorem firstDefinition?_eq_none_iff :
    firstDefinition? calls name = none ↔ ∀ definition, Call.register name definition ∉ calls := by
  rw [firstDefinition?, List.findSome?_eq_none_iff]
  constructor
  · intro h definition hmem
    exact definitionOf?_eq_none_iff.1 (h _ hmem) definition rfl
  · intro h call hmem
    exact definitionOf?_eq_none_iff.2 fun definition heq => h definition (heq ▸ hmem)

theorem mem_mentioned : name ∈ mentioned calls ↔ ∃ call ∈ calls, call.name = name := by
  rw [mentioned, List.mem_eraseDups, List.mem_map]

/-- What is mentioned once more is not listed again. -/
theorem mentioned_append_of_mem (h : call.name ∈ mentioned calls) :
    mentioned (calls ++ [call]) = mentioned calls := by
  rw [mentioned, List.map_append, List.map_singleton,
    eraseDups_append_of_mem (List.mem_eraseDups.1 h), mentioned]

/-- What is mentioned for the first time goes to the end. -/
theorem mentioned_append_of_not_mem (h : call.name ∉ mentioned calls) :
    mentioned (calls ++ [call]) = mentioned calls ++ [call.name] := by
  have hnew : call.name ∉ calls.map Call.name := fun hmem => h (List.mem_eraseDups.2 hmem)
  rw [mentioned, List.map_append, List.map_singleton, eraseDups_append_of_not_mem hnew, mentioned]

/-- No name is listed twice. -/
theorem nodup_mentioned : (mentioned calls).Nodup := nodup_eraseDups _

theorem firstDefinition?_append :
    firstDefinition? (calls ++ [call]) name =
      (firstDefinition? calls name).or (call.definitionOf? name) := by
  rw [firstDefinition?, List.findSome?_append, firstDefinition?]
  simp

/-! ## The registry behind a history -/

theorem names_told : (told calls).names = mentioned calls := by
  rw [names, told, List.map_map]
  exact List.map_id _

/-- What a name stands for, where each name stands for what a function
says. -/
theorem find?_map {names : List String} {entry : String → Option NamedType} :
    find? name (names.map fun n => (n, entry n)) =
      if name ∈ names then some (entry name) else none := by
  induction names with
  | nil => rfl
  | cons n rest ih =>
    rw [List.map_cons, find?, ih]
    by_cases hn : n = name
    · simp [hn]
    · simp [hn, Ne.symm hn]

theorem binding?_told : (told calls).binding? name =
    if name ∈ mentioned calls then some (firstDefinition? calls name) else none := find?_map

/-- Defining one of the names changes what that name stands for. -/
theorem bind_map {names : List String} {entry : String → Option NamedType}
    (hname : name ∈ names) (hnodup : names.Nodup) :
    bind name definition (names.map fun n => (n, entry n)) =
      names.map fun n => (n, if n = name then some definition else entry n) := by
  induction names with
  | nil => cases hname
  | cons n rest ih =>
    obtain ⟨hn, hrest⟩ := List.nodup_cons.1 hnodup
    rw [List.map_cons, List.map_cons, bind]
    by_cases heq : n = name
    · subst heq
      have hothers : ∀ m ∈ rest, (m, entry m) = (m, if m = n then some definition else entry m) := by
        intro m hm
        have hne : m ≠ n := fun heq => hn (heq ▸ hm)
        rw [if_neg hne]
      rw [if_pos rfl, if_pos rfl, List.map_congr_left hothers]
    · rw [if_neg heq, if_neg heq, ih ((List.mem_cons.1 hname).resolve_left (Ne.symm heq)) hrest]

/-- A name that is mentioned again keeps its place. -/
theorem told_append_of_mem (call : Call) (h : call.name ∈ mentioned calls) : told (calls ++ [call]) =
    ⟨(mentioned calls).map fun n => (n, (firstDefinition? calls n).or (call.definitionOf? n))⟩ := by
  rw [told, mentioned_append_of_mem h]
  exact congrArg Registry.mk (List.map_congr_left fun n _ => by rw [firstDefinition?_append])

/-- A new name goes to the end, as what the call says of it. -/
theorem told_append_of_not_mem (call : Call) (h : call.name ∉ mentioned calls) : told (calls ++ [call]) =
    ⟨(told calls).entries ++ [(call.name, call.definitionOf? call.name)]⟩ := by
  have hnone : firstDefinition? calls call.name = none := by
    refine firstDefinition?_eq_none_iff.2 fun definition hmem => h ?_
    exact mem_mentioned.2 ⟨_, hmem, rfl⟩
  have hothers : ∀ n ∈ mentioned calls,
      (n, firstDefinition? (calls ++ [call]) n) = (n, firstDefinition? calls n) := by
    intro n hn
    have hne : n ≠ call.name := fun heq => h (heq ▸ hn)
    rw [firstDefinition?_append, definitionOf?_of_ne _ hne, Option.or_none]
  rw [told, mentioned_append_of_not_mem h, List.map_append, List.map_congr_left hothers,
    List.map_singleton, firstDefinition?_append, hnone, Option.none_or]
  rfl

/-- Reserving a name. -/
theorem reserve_told : (told calls).reserve name = told (calls ++ [.reserve name]) := by
  by_cases hname : name ∈ mentioned calls
  · have hbound : (told calls).contains name = true := contains_iff.2 (names_told ▸ hname)
    have hsame : ∀ n ∈ mentioned calls,
        (n, (firstDefinition? calls n).or none) = (n, firstDefinition? calls n) :=
      fun n _ => by rw [Option.or_none]
    rw [reserve, if_pos hbound, told_append_of_mem (.reserve name) hname]
    exact congrArg Registry.mk (List.map_congr_left hsame).symm
  · have hnew : ¬ (told calls).contains name = true := by
      rw [contains_iff, names_told]
      exact hname
    rw [reserve, if_neg hnew, told_append_of_not_mem (.reserve name) hname]
    rfl

/-- A registration of a name that was registered before tells nothing new. -/
theorem told_append_register (h : firstDefinition? calls name = some first) :
    told (calls ++ [.register name definition]) = told calls := by
  obtain ⟨before, later, heq, -⟩ := firstDefinition?_eq_some_iff.1 h
  have hname : name ∈ mentioned calls := mem_mentioned.2 ⟨.register name first, by simp [heq], rfl⟩
  rw [told_append_of_mem (.register name definition) hname, told]
  refine congrArg Registry.mk (List.map_congr_left fun n _ => ?_)
  by_cases hn : n = name
  · rw [hn, h, Option.some_or]
  · rw [definitionOf?_of_ne (.register name definition) hn, Option.or_none]

/-- **Registering a name** is decided by the first registration of it. -/
theorem register_told : (told calls).register name definition =
    match firstDefinition? calls name with
    | some first =>
      if first.type.same definition.type then .ok (told calls) else .error (.conflicting name)
    | none => .ok (told (calls ++ [.register name definition])) := by
  cases hfirst : firstDefinition? calls name with
  | some first =>
    obtain ⟨before, later, heq, -⟩ := firstDefinition?_eq_some_iff.1 hfirst
    have hname : name ∈ mentioned calls :=
      mem_mentioned.2 ⟨.register name first, by simp [heq], rfl⟩
    rw [register, binding?_told, if_pos hname, hfirst]
  | none =>
    rw [register, binding?_told, hfirst]
    by_cases hname : name ∈ mentioned calls
    · -- the name is pending and keeps its place
      rw [if_pos hname, told_append_of_mem (.register name definition) hname]
      refine congrArg (Except.ok ∘ Registry.mk) ((bind_map hname nodup_mentioned).trans ?_)
      refine List.map_congr_left fun n _ => ?_
      by_cases hn : n = name
      · rw [if_pos hn, hn, hfirst, Option.none_or, Call.definitionOf?, if_pos rfl]
      · rw [if_neg hn, definitionOf?_of_ne (.register name definition) hn, Option.or_none]
    · have hnew : name ∉ (told calls).entries.map (·.1) := by
        rw [← names, names_told]
        exact hname
      have hbind := @bind_append_of_not_mem _ definition _ [] hnew
      rw [List.append_nil] at hbind
      have hself : (Call.register name definition).definitionOf? name = some definition := if_pos rfl
      rw [if_neg hname, told_append_of_not_mem (.register name definition) hname, Call.name,
        hself]
      exact congrArg (Except.ok ∘ Registry.mk) hbind

/-- **A call takes the registry of a history to that of the longer one.** -/
theorem answer_told : ((told calls).answer call).2 = told (calls ++ [call]) := by
  cases call with
  | reserve name => exact reserve_told
  | register name definition =>
    rw [answer, register_told]
    cases hfirst : firstDefinition? calls name with
    | none => rfl
    | some first =>
      rw [told_append_register hfirst]
      dsimp only
      split
      · rename_i hok
        split at hok
        · cases hok
          rfl
        · cases hok
      · rfl

/-- **A registry is what its history tells of.** -/
theorem after_eq_told (calls : List Call) : empty.after calls = told calls := by
  induction calls using List.reverseRecOn with
  | nil => rfl
  | append_singleton calls call ih =>
    have hstep : empty.after (calls ++ [call]) = ((empty.after calls).answer call).2 := by
      rw [after, List.foldl_append]
      rfl
    rw [hstep, ih, answer_told]

/-! ## What the registry behind a history says -/

/-- A definition is that of the first call that registers the name. -/
theorem lookup?_told : (told calls).lookup? name = firstDefinition? calls name := by
  rw [lookup?, binding?_told]
  by_cases hname : name ∈ mentioned calls
  · rw [if_pos hname]
  · have hnone : firstDefinition? calls name = none :=
      firstDefinition?_eq_none_iff.2 fun _ hmem => hname (mem_mentioned.2 ⟨_, hmem, rfl⟩)
    rw [if_neg hname, hnone]

/-- A name is pending while it is only reserved. -/
theorem isPending_told : (told calls).isPending name = true ↔
    Call.reserve name ∈ calls ∧ ∀ definition, Call.register name definition ∉ calls := by
  have hpending : (told calls).isPending name = true ↔
      name ∈ mentioned calls ∧ firstDefinition? calls name = none := by
    rw [isPending, binding?_told]
    by_cases hname : name ∈ mentioned calls
    · cases firstDefinition? calls name <;> simp [hname]
    · simp [hname]
  rw [hpending, firstDefinition?_eq_none_iff]
  refine and_congr_left fun hnever => ?_
  rw [mem_mentioned]
  constructor
  · rintro ⟨call, hcall, rfl⟩
    cases call with
    | reserve name => exact hcall
    | register name definition => exact absurd hcall (hnever definition)
  · exact fun hcall => ⟨_, hcall, rfl⟩

/-- The definitions are those of the names, in their order. -/
theorem definitions_told : (told calls).definitions =
    (told calls).names.filterMap fun name =>
      ((told calls).lookup? name).map fun definition => (name, definition) := by
  rw [definitions, names_told]
  simp only [lookup?_told]
  rw [told, List.filterMap_map]
  rfl

/-- **A registration fails exactly** if the first registration of the name
has another type. -/
theorem answer_register_iff :
    ((told calls).answer (.register name definition)).1 = .error (.conflicting name) ↔
      ∃ first, FirstDefines calls name first ∧ first.type ≠ definition.type := by
  rw [answer, register_told]
  cases hfirst : firstDefinition? calls name with
  | none =>
    refine ⟨fun h => (by cases h), ?_⟩
    rintro ⟨first, hdefines, -⟩
    rw [firstDefinition?_eq_some_iff.2 hdefines] at hfirst
    cases hfirst
  | some first =>
    have hthe : ∀ other, FirstDefines calls name other ↔ first = other := by
      intro other
      rw [← firstDefinition?_eq_some_iff, hfirst, Option.some.injEq]
    by_cases hsame : first.type.same definition.type = true
    · refine ⟨fun h => ?_, ?_⟩
      · simp only [hsame, if_true] at h
        cases h
      · rintro ⟨other, hother, hne⟩
        obtain rfl := (hthe other).1 hother
        exact absurd ((TypeExpr.same_iff _ _).1 hsame) hne
    · have hne : first.type ≠ definition.type := fun heq => hsame ((TypeExpr.same_iff _ _).2 heq)
      simp [hthe, hsame, hne]

/-- A registration with the type of the first one changes nothing. -/
theorem answer_register_of_same (hdefines : FirstDefines calls name first)
    (hsame : first.type = definition.type) :
    (told calls).answer (.register name definition) = (.ok (), told calls) := by
  rw [answer, register_told, firstDefinition?_eq_some_iff.2 hdefines]
  simp only [(TypeExpr.same_iff _ _).2 hsame, if_true]

/-- **What fails is a registration, and it leaves the registry as it
was.** -/
theorem of_answer_error {e : Error} {r : Registry} (h : (r.answer call).1 = .error e) :
    (∃ name definition, call = .register name definition ∧ e = .conflicting name) ∧
      (r.answer call).2 = r := by
  cases call with
  | reserve name => cases h
  | register name definition =>
    simp only [answer] at h ⊢
    cases hregister : r.register name definition with
    | ok r' =>
      rw [hregister] at h
      cases h
    | error e' =>
      rw [hregister] at h
      cases h
      refine ⟨⟨name, definition, rfl, ?_⟩, rfl⟩
      rw [register] at hregister
      split at hregister
      · split at hregister
        · cases hregister
        · exact (Except.error.inj hregister).symm
      · cases hregister

/-- **A registry is decided by its history.** Behind any calls on the empty
registry the bound names are those that were mentioned, each once and in the
order of their first mention. A name is pending if it was only ever reserved;
otherwise it stands for what its first registration says, whatever calls
follow. A registration fails exactly if the first one of its name has another
type. What fails, and a registration with the type of the first, leaves the
registry as it was. The definitions are listed in the order of the names, with
the pending ones left out. -/
theorem history_decides (calls : List Call) :
    (empty.after calls).names = mentioned calls ∧ (empty.after calls).names.Nodup ∧
    (∀ name, (empty.after calls).isPending name = true ↔
      Call.reserve name ∈ calls ∧ ∀ definition, Call.register name definition ∉ calls) ∧
    (∀ name definition, (empty.after calls).lookup? name = some definition ↔
      FirstDefines calls name definition) ∧
    (∀ name definition later, FirstDefines calls name definition →
      (empty.after (calls ++ later)).lookup? name = some definition) ∧
    (∀ name definition,
      ((empty.after calls).answer (.register name definition)).1 = .error (.conflicting name) ↔
        ∃ first, FirstDefines calls name first ∧ first.type ≠ definition.type) ∧
    (∀ call e, ((empty.after calls).answer call).1 = .error e →
      (∃ name definition, call = .register name definition ∧ e = .conflicting name) ∧
        ((empty.after calls).answer call).2 = empty.after calls) ∧
    (∀ name definition first, FirstDefines calls name first → first.type = definition.type →
      (empty.after calls).answer (.register name definition) = (.ok (), empty.after calls)) ∧
    (empty.after calls).definitions = (empty.after calls).names.filterMap fun name =>
      ((empty.after calls).lookup? name).map fun definition => (name, definition) := by
  simp only [after_eq_told]
  refine ⟨names_told, names_told ▸ nodup_mentioned, fun _ => isPending_told, fun _ _ => ?_,
    fun name definition later hdefines => ?_, fun _ _ => answer_register_iff,
    fun _ _ => of_answer_error, fun _ _ _ => answer_register_of_same, definitions_told⟩
  · rw [lookup?_told, firstDefinition?_eq_some_iff]
  · obtain ⟨before, between, rfl, hbefore⟩ := hdefines
    rw [lookup?_told, firstDefinition?_eq_some_iff]
    exact ⟨before, between ++ later, by simp, hbefore⟩

/-- A type of texts with a description. -/
def described (description : String) : NamedType := ⟨.string, some description⟩

/-- A reserved name, and one that is registered three times: the second
registration has another type, and the third has that of the first with another
description. -/
def nameThrice : List Call :=
  [.reserve "Pending", .register "Name" (described "first"), .register "Name" ⟨.number, none⟩]

/-- The third registration is accepted, and the first description stays. -/
theorem history_decides_of_nameThrice :
    FirstDefines nameThrice "Name" (described "first") ∧
    (empty.after nameThrice).names = ["Pending", "Name"] ∧
    (empty.after nameThrice).isPending "Pending" = true ∧
    (empty.after nameThrice).answer (.register "Name" (described "third")) =
      (.ok (), empty.after nameThrice) ∧
    (empty.after (nameThrice ++ [.register "Name" (described "third")])).lookup? "Name" =
      some (described "first") ∧
    ((empty.after nameThrice).answer (.register "Name" ⟨.any, none⟩)).1 =
      .error (.conflicting "Name") := by
  have hfirst : FirstDefines nameThrice "Name" (described "first") :=
    ⟨[.reserve "Pending"], [.register "Name" ⟨.number, none⟩], rfl, by simp⟩
  obtain ⟨hnames, -, hpending, -, hlater, hfails, -, hsame, -⟩ := history_decides nameThrice
  refine ⟨hfirst, hnames.trans (by decide), (hpending "Pending").2 ⟨by simp [nameThrice], ?_⟩,
    hsame _ _ _ hfirst rfl, hlater _ _ _ hfirst, (hfails _ _).2 ⟨_, hfirst, ?_⟩⟩
  · simp [nameThrice]
  · simp [described, TypeExpr.string, TypeExpr.any]

/-- An earlier registration with another type does not make one fail: it may
have failed itself. -/
theorem not_fails_iff_earlier_differs :
    ¬ ∀ (calls : List Call) (name : String) (definition : NamedType),
      ((empty.after calls).answer (.register name definition)).1 = .error (.conflicting name) ↔
        ∃ earlier, Call.register name earlier ∈ calls ∧ earlier.type ≠ definition.type := by
  intro h
  have hdiffers : ∃ earlier, Call.register "Name" earlier ∈ nameThrice ∧
      earlier.type ≠ (described "third").type :=
    ⟨⟨.number, none⟩, by simp [nameThrice], by simp [described, TypeExpr.string, TypeExpr.number]⟩
  have hfails := (h nameThrice "Name" (described "third")).2 hdiffers
  have haccepted : ((empty.after nameThrice).answer (.register "Name" (described "third"))).1 =
      .ok () := rfl
  rw [haccepted] at hfails
  cases hfails

end Registry

end TypedClient
