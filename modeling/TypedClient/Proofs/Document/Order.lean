import TypedClient.Proofs.Json.Members
import TypedClient.Proofs.Document.Reading
/-!
# Records in any order

Steps for different fields of a record commute, so a record that can be
read is the same from its members in any order (`record_perm`). Which
failure comes first does depend on the order, so the readers agree on what
they read and not on how they fail (`Agrees`).
-/

namespace TypedClient

namespace Shape

variable {α β ρ : Type} {x y : Shape α} {members more : List (String × Json)}
variable {step : ρ → String → Json → Shape ρ} {start result : ρ}

/-! ## Agreement on what is read -/

/-- Two readings give the same, or both fail. -/
def Agrees (x y : Shape α) : Prop := ∀ a, x = .ok a ↔ y = .ok a

namespace Agrees

theorem refl (x : Shape α) : Agrees x x := fun _ => Iff.rfl

/-- Two failures agree. -/
theorem of_errors (hx : ∀ a, x ≠ .ok a) (hy : ∀ a, y ≠ .ok a) : Agrees x y :=
  fun a => ⟨fun h => absurd h (hx a), fun h => absurd h (hy a)⟩

theorem bind {f g : α → Shape β} (h : Agrees x y) (hfg : ∀ a, Agrees (f a) (g a)) :
    Agrees (x >>= f) (y >>= g) := by
  intro b
  constructor
  · intro hb
    obtain ⟨a, ha, hb⟩ := bind_eq_ok hb
    rw [(h a).1 ha]
    exact (hfg a b).1 hb
  · intro hb
    obtain ⟨a, ha, hb⟩ := bind_eq_ok hb
    rw [(h a).2 ha]
    exact (hfg a b).2 hb

end Agrees

/-! ## Steps that commute -/

/-- Other keys than those of the fields leave a record as it is. -/
def Skips (fields : List String) (step : ρ → String → Json → Shape ρ) : Prop :=
  ∀ record key value, key ∉ fields → step record key value = .ok record

/-- **Steps for different keys commute** where they succeed. -/
def Commutes (step : ρ → String → Json → Shape ρ) : Prop :=
  ∀ record next result key other value found, key ≠ other →
    step record key value = .ok next → step next other found = .ok result →
    ∃ between, step record other found = .ok between ∧ step between key value = .ok result

/-- Steps commute if those for fields do. -/
theorem commutes_of_fields {fields : List String} (hskips : Skips fields step)
    (h : ∀ record next result, ∀ key ∈ fields, ∀ other ∈ fields, ∀ value found, key ≠ other →
      step record key value = .ok next → step next other found = .ok result →
      ∃ between, step record other found = .ok between ∧
        step between key value = .ok result) : Commutes step := by
  intro record next result key other value found hne hfirst hsecond
  by_cases hkey : key ∈ fields
  · by_cases hother : other ∈ fields
    · exact h record next result key hkey other hother value found hne hfirst hsecond
    · rw [hskips _ _ _ hother] at hsecond
      cases hsecond
      exact ⟨record, hskips _ _ _ hother, hfirst⟩
  · rw [hskips _ _ _ hkey] at hfirst
    cases hfirst
    exact ⟨result, hsecond, hskips _ _ _ hkey⟩

theorem parameter_skips : Skips Parameter.fields Parameter.step := by
  intro record key value hkey
  unfold Parameter.step
  split
  case h_6 => rfl
  all_goals exact absurd (by decide) hkey

theorem parameter_commutes : Commutes Parameter.step := by
  refine commutes_of_fields parameter_skips
    fun record next result key hkey other hother value found hne hfirst hsecond => ?_
  unfold Parameter.step at hfirst hsecond
  split at hfirst <;> split at hsecond
  all_goals first
    | exact absurd rfl hne
    | (obtain ⟨a, ha, rfl⟩ := field_eq_ok hfirst
       obtain ⟨b, hb, rfl⟩ := field_eq_ok hsecond
       exact ⟨_, by simp only [Parameter.step, hb]; rfl, by simp only [Parameter.step, ha]; rfl⟩)
    | simp_all [Parameter.fields]

theorem requestBody_skips : Skips ["description", "content", "required"] RequestBody.step := by
  intro record key value hkey
  unfold RequestBody.step
  split
  case h_4 => rfl
  all_goals exact absurd (by decide) hkey

theorem requestBody_commutes : Commutes RequestBody.step := by
  refine commutes_of_fields requestBody_skips
    fun record next result key hkey other hother value found hne hfirst hsecond => ?_
  unfold RequestBody.step at hfirst hsecond
  split at hfirst <;> split at hsecond
  all_goals first
    | exact absurd rfl hne
    | (obtain ⟨a, ha, rfl⟩ := field_eq_ok hfirst
       obtain ⟨b, hb, rfl⟩ := field_eq_ok hsecond
       exact ⟨_, by simp only [RequestBody.step, hb]; rfl, by simp only [RequestBody.step, ha]; rfl⟩)
    | simp_all

theorem response_skips : Skips ["description", "content"] Response.step := by
  intro record key value hkey
  unfold Response.step
  split
  case h_3 => rfl
  all_goals exact absurd (by decide) hkey

theorem response_commutes : Commutes Response.step := by
  refine commutes_of_fields response_skips
    fun record next result key hkey other hother value found hne hfirst hsecond => ?_
  unfold Response.step at hfirst hsecond
  split at hfirst <;> split at hsecond
  all_goals first
    | exact absurd rfl hne
    | (obtain ⟨a, ha, rfl⟩ := field_eq_ok hfirst
       obtain ⟨b, hb, rfl⟩ := field_eq_ok hsecond
       exact ⟨_, by simp only [Response.step, hb]; rfl, by simp only [Response.step, ha]; rfl⟩)
    | simp_all

/-- One field of a security scheme. -/
def schemeStep (draft : Option String × Option String) (key : String) (value : Json) :
    Shape (Option String × Option String) := do
  match key with
  | "type" => return (some (← text value), draft.2)
  | "scheme" => return (draft.1, ← optional text value)
  | _ => return draft

theorem scheme_skips : Skips ["type", "scheme"] schemeStep := by
  intro record key value hkey
  unfold schemeStep
  split
  case h_3 => rfl
  all_goals exact absurd (by decide) hkey

theorem scheme_commutes : Commutes schemeStep := by
  refine commutes_of_fields scheme_skips
    fun record next result key hkey other hother value found hne hfirst hsecond => ?_
  unfold schemeStep at hfirst hsecond
  split at hfirst <;> split at hsecond
  all_goals first
    | exact absurd rfl hne
    | (obtain ⟨a, ha, rfl⟩ := field_eq_ok hfirst
       obtain ⟨b, hb, rfl⟩ := field_eq_ok hsecond
       exact ⟨_, by simp only [schemeStep, hb]; rfl, by simp only [schemeStep, ha]; rfl⟩)
    | simp_all

/-! ## Steps one after another -/

theorem steps_append : steps step start (members ++ more) =
    (steps step start members >>= fun next => steps step next more) := by
  induction members generalizing start with
  | nil => rfl
  | cons m rest ih =>
    obtain ⟨key, value⟩ := m
    rw [List.cons_append, steps, steps]
    cases step start key value with
    | error e => rfl
    | ok next => exact ih

/-- **Where steps commute, members can be read in any order.** -/
theorem steps_perm (hcommutes : Commutes step) (hperm : members.Perm more)
    (hnodup : (Json.keys members).Nodup) (h : steps step start members = .ok result) :
    steps step start more = .ok result := by
  induction hperm generalizing start with
  | nil => exact h
  | cons m _ ih =>
    rw [Json.keys_cons, List.nodup_cons] at hnodup
    rw [steps] at h ⊢
    obtain ⟨next, hnext, h⟩ := bind_eq_ok h
    rw [hnext]
    exact ih hnodup.2 h
  | swap m n rest =>
    have hne : n.1 ≠ m.1 := by
      intro heq
      simp [heq] at hnodup
    rw [steps] at h
    obtain ⟨next, hnext, h⟩ := bind_eq_ok h
    rw [steps] at h
    obtain ⟨last, hlast, h⟩ := bind_eq_ok h
    -- the two steps change places
    obtain ⟨between, hfirst, hsecond⟩ := hcommutes _ _ _ _ _ _ _ hne hnext hlast
    rw [steps, hfirst]
    show steps step between (n :: rest) = .ok result
    rw [steps, hsecond]
    exact h
  | trans hleft _ ihl ihr =>
    have hnodup' := (hleft.map Prod.fst).nodup_iff.1 hnodup
    exact ihr hnodup' (ihl hnodup h)

/-- **A record is read alike from its members in any order.** -/
theorem record_perm {name : String} {fields : List String} (hcommutes : Commutes step)
    (hperm : members.Perm more) (hnodup : (Json.keys members).Nodup) :
    Agrees (record name fields step start (.object members))
      (record name fields step start (.object more)) := by
  have hnodup' : (Json.keys more).Nodup := (hperm.map Prod.fst).nodup_iff.1 hnodup
  exact fun result => ⟨steps_perm hcommutes hperm hnodup, steps_perm hcommutes hperm.symm hnodup'⟩

/-- A map is read from its members in any order, too, and has their keys. -/
theorem eachMember_perm {read : Json → Shape α} {found : List (String × α)}
    (hperm : members.Perm more) (h : eachMember read members = .ok found) :
    ∃ other, eachMember read more = .ok other ∧ found.Perm other := by
  induction hperm generalizing found with
  | nil => exact ⟨found, h, .refl _⟩
  | cons m _ ih =>
    rw [eachMember] at h
    obtain ⟨first, hfirst, h⟩ := bind_eq_ok h
    obtain ⟨rest, hrest, h⟩ := bind_eq_ok h
    cases h
    obtain ⟨other, hother, hperm⟩ := ih hrest
    refine ⟨(m.1, first) :: other, ?_, hperm.cons _⟩
    rw [eachMember, hfirst, hother]
    rfl
  | swap m n tail =>
    rw [eachMember] at h
    obtain ⟨first, hfirst, h⟩ := bind_eq_ok h
    obtain ⟨rest, hrest, h⟩ := bind_eq_ok h
    rw [eachMember] at hrest
    obtain ⟨second, hsecond, hrest⟩ := bind_eq_ok hrest
    obtain ⟨others, hothers, hrest⟩ := bind_eq_ok hrest
    cases hrest
    cases h
    refine ⟨(m.1, second) :: (n.1, first) :: others, ?_, .swap _ _ _⟩
    simp only [eachMember, hfirst, hsecond, hothers]
    rfl
  | trans _ _ ihl ihr =>
    obtain ⟨between, hbetween, hleft⟩ := ihl h
    obtain ⟨other, hother, hright⟩ := ihr hbetween
    exact ⟨other, hother, hleft.trans hright⟩

theorem keys_eachMember {read : Json → Shape α} {found : List (String × α)}
    (h : eachMember read members = .ok found) : found.map Prod.fst = Json.keys members := by
  induction members generalizing found with
  | nil =>
    cases h
    rfl
  | cons m rest ih =>
    rw [eachMember] at h
    obtain ⟨first, -, h⟩ := bind_eq_ok h
    obtain ⟨others, hothers, h⟩ := bind_eq_ok h
    cases h
    rw [List.map_cons, ih hothers, Json.keys_cons]

end Shape

end TypedClient
