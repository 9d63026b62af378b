import TypedClient.Document.Reader
import TypedClient.Proofs.Schema.Reading
/-!
# Descriptions as they are read

`Shape.YieldsIn` says that everything a reader reads from the parts of one
document has a property. There is one lemma for each way to build a reader:
lists, maps, records and references. So the schemas of a description have what
schemas read from its parts have (`Document.ofJson_yieldsIn`); for one, they are
read from these parts (`Shape.schema_readFrom`).
-/

namespace TypedClient

/-- An item in place has a property. -/
def RefOr.Holds {α : Type} (P : α → Prop) : RefOr α → Prop
  | .item value => P value
  | .reference _ => True

namespace Shape

variable {α ρ : Type} {read : Json → Shape α} {P : α → Prop}

/-- **Everything that is read from a part of a document has a property.** -/
def YieldsIn (document : Json) (read : Json → Shape α) (P : α → Prop) : Prop :=
  ∀ value a, Json.Part value document → read value = .ok a → P a

/-- A sequence that succeeds has a first part that succeeds. -/
theorem bind_eq_ok {β : Type} {x : Shape α} {f : α → Shape β} {b : β}
    (h : x >>= f = .ok b) : ∃ a, x = .ok a ∧ f a = .ok b := by
  cases x with
  | ok a => exact ⟨a, rfl, h⟩
  | error e => cases h

/-- A field that is read is put into the record. -/
theorem field_eq_ok {x : Shape α} {put : α → ρ} {record : ρ}
    (h : (do let a ← x; return put a) = (.ok record : Shape ρ)) :
    ∃ a, x = .ok a ∧ put a = record := by
  obtain ⟨a, ha, hrecord⟩ := bind_eq_ok h
  exact ⟨a, ha, Except.ok.inj hrecord⟩

theorem eachMember_value {members : List (String × Json)} :
    eachMember value members = .ok members := by
  induction members with
  | nil => rfl
  | cons m rest ih =>
    rw [eachMember, ih]
    rfl

theorem optional_eq_some {found : Json} {a : α} (h : optional read found = .ok (some a)) :
    read found = .ok a := by
  rw [optional.eq_def] at h
  split at h
  · cases h
  · cases hread : read found with
    | error e =>
      rw [hread] at h
      cases h
    | ok b =>
      rw [hread] at h
      cases h
      rfl

/-- What the steps for members keep holds of what they end with. -/
theorem steps_keep {step : ρ → String → Json → Shape ρ} {P : ρ → Prop}
    {members : List (String × Json)} {start result : ρ} (hstart : P start)
    (hstep : ∀ record key value next, (key, value) ∈ members → P record →
      step record key value = .ok next → P next)
    (h : steps step start members = .ok result) : P result := by
  induction members generalizing start with
  | nil =>
    cases h
    exact hstart
  | cons member rest ih =>
    rw [Shape.steps] at h
    obtain ⟨next, hnext, h⟩ := bind_eq_ok h
    have hfirst : P next := hstep _ _ _ _ List.mem_cons_self hstart hnext
    exact ih hfirst (fun record key value next hmem =>
      hstep record key value next (List.mem_cons_of_mem _ hmem)) h

namespace YieldsIn

variable {document : Json}

theorem optional (h : YieldsIn document read P) :
    YieldsIn document (optional read) fun found => ∀ a ∈ found, P a := by
  intro value found hpart hfound
  rw [Shape.optional.eq_def] at hfound
  split at hfound
  · cases hfound
    simp
  · cases hread : read value with
    | error e =>
      rw [hread] at hfound
      cases hfound
    | ok a =>
      rw [hread] at hfound
      cases hfound
      intro b hb
      obtain rfl := Option.some.inj hb
      exact h _ _ hpart hread

theorem each {items : List Json} {found : List α} (h : YieldsIn document read P)
    (hparts : ∀ item ∈ items, Json.Part item document) (hfound : each read items = .ok found) :
    ∀ a ∈ found, P a := by
  induction items generalizing found with
  | nil =>
    cases hfound
    simp
  | cons item rest ih =>
    rw [Shape.each] at hfound
    obtain ⟨first, hfirst, hfound⟩ := bind_eq_ok hfound
    obtain ⟨others, hothers, hfound⟩ := bind_eq_ok hfound
    cases hfound
    obtain ⟨hpart, hrest⟩ := List.forall_mem_cons.1 hparts
    exact List.forall_mem_cons.2 ⟨h _ _ hpart hfirst, ih hrest hothers⟩

theorem list (h : YieldsIn document read P) :
    YieldsIn document (list read) fun found => ∀ a ∈ found, P a := by
  intro value found hpart hfound
  cases value with
  | array items =>
    exact h.each (fun item hitem => (Json.Part.item hitem .self).trans hpart) hfound
  | _ => cases hfound

theorem eachMember {members : List (String × Json)} {found : List (String × α)}
    (h : YieldsIn document read P) (hparts : ∀ m ∈ members, Json.Part m.2 document)
    (hfound : eachMember read members = .ok found) : ∀ e ∈ found, P e.2 := by
  induction members generalizing found with
  | nil =>
    cases hfound
    simp
  | cons member rest ih =>
    rw [Shape.eachMember] at hfound
    obtain ⟨first, hfirst, hfound⟩ := bind_eq_ok hfound
    obtain ⟨others, hothers, hfound⟩ := bind_eq_ok hfound
    cases hfound
    obtain ⟨hpart, hrest⟩ := List.forall_mem_cons.1 hparts
    exact List.forall_mem_cons.2 ⟨h _ _ hpart hfirst, ih hrest hothers⟩

theorem map (h : YieldsIn document read P) :
    YieldsIn document (map read) fun found => ∀ e ∈ found, P e.2 := by
  intro value found hpart hfound
  cases value with
  | object members =>
    exact h.eachMember (fun m hm => (Json.Part.member hm .self).trans hpart) hfound
  | _ => cases hfound

theorem refOr (h : YieldsIn document read P) :
    YieldsIn document (refOr read) (RefOr.Holds P) := by
  intro value found hpart hfound
  rw [Shape.refOr] at hfound
  split at hfound
  · cases hfound
    exact trivial
  · split at hfound
    · rename_i item hitem
      cases hfound
      exact h _ _ hpart hitem
    · cases hfound

theorem steps {step : ρ → String → Json → Shape ρ} {P : ρ → Prop}
    {members : List (String × Json)} {start result : ρ} (hstart : P start)
    (hstep : ∀ record key value next, Json.Part value document → P record →
      step record key value = .ok next → P next)
    (hparts : ∀ m ∈ members, Json.Part m.2 document)
    (h : steps step start members = .ok result) : P result :=
  steps_keep hstart
    (fun record key value next hmem => hstep record key value next (hparts _ hmem)) h

/-- **A record has every property that its start has and its steps
keep.** -/
theorem record {name : String} {fields : List String} {step : ρ → String → Json → Shape ρ}
    {start : ρ} {P : ρ → Prop} (hstart : P start)
    (hstep : ∀ record key value next, Json.Part value document → P record →
      step record key value = .ok next → P next) :
    YieldsIn document (record name fields step start) P := by
  intro value found hpart hfound
  cases value with
  | object members =>
    exact steps hstart hstep (fun m hm => (Json.Part.member hm .self).trans hpart) hfound
  | array items =>
    rw [Shape.record] at hfound
    obtain ⟨result, hresult, hfound⟩ := bind_eq_ok hfound
    split at hfound
    · cases hfound
    · cases hfound
      exact steps hstart hstep
        (fun m hm => (Json.Part.item (List.of_mem_zip hm).2 .self).trans hpart) hresult
  | _ => cases hfound

end YieldsIn

end Shape

open Shape (YieldsIn field_eq_ok)

/-! ## The schemas of a description -/

/-- The schemas of media types have a property. -/
def Content.All (P : Schema → Prop) (content : Content) : Prop :=
  ∀ e ∈ content, ∀ schema ∈ e.2, P schema

/-- And those of an operation. -/
def Operation.All (P : Schema → Prop) (operation : Operation) : Prop :=
  (∀ b ∈ operation.requestBody, b.Holds fun b => Content.All P b.content) ∧
    ∀ e ∈ operation.responses, e.2.Holds fun r => Content.All P r.content

/-- And those of the operations of a path. -/
def PathItem.All (P : Schema → Prop) (item : PathItem) : Prop :=
  ∀ method, ∀ operation ∈ item.operation? method, operation.All P

/-- And those of a description. -/
def Document.All (P : Schema → Prop) (document : Document) : Prop :=
  ∀ e ∈ document.paths, e.2.All P

section Parts

variable {raw : Json} {P : Schema → Prop}

theorem mediaSchema_yieldsIn (h : YieldsIn raw Shape.schema P) :
    YieldsIn raw mediaSchema fun found => ∀ schema ∈ found, P schema := by
  refine YieldsIn.record (by simp) fun found key value next hpart hfound hnext => ?_
  split at hnext
  · exact h.optional _ _ hpart hnext
  · cases hnext
    exact hfound

theorem RequestBody.ofJson_yieldsIn (h : YieldsIn raw Shape.schema P) :
    YieldsIn raw RequestBody.ofJson fun b => Content.All P b.content := by
  refine YieldsIn.record (by simp [Content.All]) fun body key value next hpart hbody hnext => ?_
  unfold RequestBody.step at hnext
  split at hnext
  · obtain ⟨_, -, rfl⟩ := field_eq_ok hnext
    exact hbody
  · obtain ⟨content, hcontent, rfl⟩ := field_eq_ok hnext
    exact (mediaSchema_yieldsIn h).map _ _ hpart hcontent
  · obtain ⟨_, -, rfl⟩ := field_eq_ok hnext
    exact hbody
  · cases hnext
    exact hbody

theorem Response.ofJson_yieldsIn (h : YieldsIn raw Shape.schema P) :
    YieldsIn raw Response.ofJson fun r => Content.All P r.content := by
  refine YieldsIn.record (by simp [Content.All])
    fun response key value next hpart hresponse hnext => ?_
  unfold Response.step at hnext
  split at hnext
  · obtain ⟨_, -, rfl⟩ := field_eq_ok hnext
    exact hresponse
  · obtain ⟨content, hcontent, rfl⟩ := field_eq_ok hnext
    exact (mediaSchema_yieldsIn h).map _ _ hpart hcontent
  · cases hnext
    exact hresponse

theorem Operation.ofJson_yieldsIn (h : YieldsIn raw Shape.schema P) :
    YieldsIn raw Operation.ofJson (Operation.All P) := by
  refine YieldsIn.record ⟨by simp [Operation.blank], by simp [Operation.blank]⟩
    fun operation key value next hpart hoperation hnext => ?_
  unfold Operation.step at hnext
  split at hnext
  case h_5 =>
    obtain ⟨body, hbody, rfl⟩ := field_eq_ok hnext
    exact ⟨(RequestBody.ofJson_yieldsIn h).refOr.optional _ _ hpart hbody, hoperation.2⟩
  case h_6 =>
    obtain ⟨responses, hresponses, rfl⟩ := field_eq_ok hnext
    exact ⟨hoperation.1, (Response.ofJson_yieldsIn h).refOr.map _ _ hpart hresponses⟩
  case h_8 =>
    cases hnext
    exact hoperation
  -- the other fields have no schemas of their own
  all_goals
    obtain ⟨_, -, rfl⟩ := field_eq_ok hnext
    exact hoperation

theorem PathItem.ofJson_yieldsIn (h : YieldsIn raw Shape.schema P) :
    YieldsIn raw PathItem.ofJson (PathItem.All P) := by
  refine YieldsIn.record ?_ fun item key value next hpart hitem hnext => ?_
  · intro method operation hoperation
    cases method <;> cases hoperation
  unfold PathItem.step at hnext
  split at hnext
  case h_6 =>
    obtain ⟨_, -, rfl⟩ := field_eq_ok hnext
    exact fun method => hitem method
  case h_7 =>
    cases hnext
    exact hitem
  all_goals
    obtain ⟨found, hfound, rfl⟩ := field_eq_ok hnext
    have hread := (Operation.ofJson_yieldsIn h).optional _ _ hpart hfound
    -- a method has the operation that is read or the one it had
    rintro (_ | _ | _ | _ | _)
    all_goals first | exact hread | exact hitem .get | exact hitem .post | exact hitem .put |
      exact hitem .patch | exact hitem .delete

/-- **The schemas of a description have what schemas read from its parts
have.** -/
theorem Document.ofJson_yieldsIn (h : YieldsIn raw Shape.schema P) :
    YieldsIn raw Document.ofJson (Document.All P) := by
  refine YieldsIn.record (by simp [Document.All, Document.blank])
    fun document key value next hpart hdocument hnext => ?_
  unfold Document.step at hnext
  split at hnext
  case h_4 =>
    obtain ⟨paths, hpaths, rfl⟩ := field_eq_ok hnext
    exact (PathItem.ofJson_yieldsIn h).map _ _ hpart hpaths
  case h_7 =>
    cases hnext
    exact hdocument
  all_goals
    obtain ⟨_, -, rfl⟩ := field_eq_ok hnext
    exact hdocument

end Parts

/-! ## Schemas of a document -/

/-- A schema that is read from a part of a document. -/
def Schema.ReadFrom (document : Json) (schema : Schema) : Prop :=
  ∃ value, Json.Part value document ∧ schema = Schema.ofJson value

theorem Shape.schema_readFrom (document : Json) :
    YieldsIn document Shape.schema (Schema.ReadFrom document) := by
  intro value schema hpart h
  cases h
  exact ⟨value, hpart, rfl⟩

end TypedClient
