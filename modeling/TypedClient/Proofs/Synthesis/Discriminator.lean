import TypedClient.Proofs.Json.Members
import TypedClient.Proofs.Json.Text
import TypedClient.Proofs.Synthesis.Run
/-!
# Discriminated unions

A union with a discriminator has one variant for each member, in their order:
the type of the member together with a record of the discriminating property.
The property of a member that is a reference has the first value of the mapping
whose target designates the member; any other member may have any text there
(`members_tagged`). There is one value for a member, so a value of the mapping
is admitted by a variant that it is meant for exactly if it is the first one for
some member (`value_admitted_iff`).
-/

namespace TypedClient

/-! ## Values and pointers -/

namespace Discriminator

variable {d : Discriminator} {entry : String × String} {target pointer value : String}
variable {member : Schema}

/-- A target designates a pointer when it is the pointer or the text behind its
last slash. -/
def Designates (target pointer : String) : Prop :=
  target = pointer ∨ target.toList = Pointer.lastSegment pointer

instance : Decidable (Designates target pointer) := inferInstanceAs (Decidable (_ ∨ _))

/-- A target selects a member that is a reference to a pointer it designates. -/
def Selects (target : String) (member : Schema) : Prop :=
  ∃ pointer, member = .reference pointer ∧ Designates target pointer

instance : Decidable (Selects target member) :=
  match member with
  | .reference pointer => decidable_of_iff (Designates target pointer)
      ⟨fun h => ⟨pointer, rfl, h⟩, fun ⟨_, hmember, h⟩ => (Schema.reference.inj hmember) ▸ h⟩
  | .primitive _ | .enum _ | .array _ | .object _ _ | .composition _ _ _ | .any =>
    isFalse fun ⟨_, hmember, _⟩ => nomatch hmember

/-- **The first entry for a pointer.** Its target designates the pointer, and no
target before it does. -/
def First (d : Discriminator) (entry : String × String) (pointer : String) : Prop :=
  Designates entry.2 pointer ∧
    ∃ before after, d.mapping = before ++ entry :: after ∧ ∀ e ∈ before, ¬ Designates e.2 pointer

theorem First.mem (h : d.First entry pointer) : entry ∈ d.mapping := by
  obtain ⟨-, before, after, hmapping, -⟩ := h
  rw [hmapping]
  exact List.mem_append_right _ List.mem_cons_self

/-- The value for a pointer is looked up by the targets that designate it. -/
theorem valueFor?_eq (d : Discriminator) (pointer : String) :
    d.valueFor? pointer = (d.mapping.find? fun e => Designates e.2 pointer).map (·.1) := by
  have htest : ∀ e : String × String,
      (e.2 == pointer || e.2 == String.ofList (Pointer.lastSegment pointer)) =
        decide (Designates e.2 pointer) := by
    intro e
    have hname : e.2 = String.ofList (Pointer.lastSegment pointer) ↔
        e.2.toList = Pointer.lastSegment pointer := by
      rw [← String.toList_inj, String.toList_ofList]
    rw [Bool.eq_iff_iff, Bool.or_eq_true, beq_iff_eq, beq_iff_eq, hname, decide_eq_true_iff,
      Designates]
  have hfind : (fun e : String × String =>
      e.2 == pointer || e.2 == String.ofList (Pointer.lastSegment pointer)) =
        fun e => decide (Designates e.2 pointer) := funext htest
  rw [← hfind]
  rfl

theorem valueFor?_eq_none_iff :
    d.valueFor? pointer = none ↔ ∀ e ∈ d.mapping, ¬ Designates e.2 pointer := by
  rw [valueFor?_eq, Option.map_eq_none_iff, List.find?_eq_none]
  simp only [decide_eq_true_iff]

/-- **The value for a pointer is that of the first entry for it.** -/
theorem valueFor?_eq_some_iff :
    d.valueFor? pointer = some value ↔ ∃ entry, d.First entry pointer ∧ entry.1 = value := by
  rw [valueFor?_eq, Option.map_eq_some_iff]
  refine exists_congr fun entry => and_congr_left fun _ => ?_
  rw [List.find?_eq_some_iff_append, First, decide_eq_true_iff]
  simp only [Bool.not_eq_true', decide_eq_false_iff_not]

/-- Where a target designates a pointer there is a first entry for it. -/
theorem exists_first (hentry : entry ∈ d.mapping) (h : Designates entry.2 pointer) :
    ∃ first, d.First first pointer := by
  cases hvalue : d.valueFor? pointer with
  | none => exact absurd h (valueFor?_eq_none_iff.1 hvalue entry hentry)
  | some value =>
    obtain ⟨first, hfirst, -⟩ := valueFor?_eq_some_iff.1 hvalue
    exact ⟨first, hfirst⟩

/-- **A mapping that tells its members apart**: every reference has one value,
and no target selects two members. -/
structure TellsApart (d : Discriminator) (members : List Schema) : Prop where
  /-- No value is listed twice, as in the object that a mapping is read from. -/
  values : (d.mapping.map Prod.fst).Nodup
  /-- Targets under exactly one value designate the pointer of a reference. -/
  references : ∀ pointer, .reference pointer ∈ members →
    ∃! value, ∃ target, (value, target) ∈ d.mapping ∧ Designates target pointer
  /-- A target selects at most one member. -/
  members : ∀ entry ∈ d.mapping,
    members.Pairwise fun m n => ¬ (Selects entry.2 m ∧ Selects entry.2 n)

/-- The values of a mapping that is read are keys of one object. -/
theorem values_sublist (fields : List (String × Json)) :
    ((fields.filterMap fun (key, target) =>
      target.string?.map fun target => (key, target)).map Prod.fst).Sublist (Json.keys fields) := by
  induction fields with
  | nil => exact .slnil
  | cons field rest ih =>
    obtain ⟨key, target⟩ := field
    cases target with
    | string text => exact ih.cons_cons key
    | _ => exact ih.cons key

/-- **A mapping that is read lists no value twice.** -/
theorem nodup_values_of_discriminator? {source : Json} (hregular : source.Regular)
    (h : Schema.discriminator? source = some d) : (d.mapping.map Prod.fst).Nodup := by
  cases source with
  | object fields =>
    obtain ⟨name, -, rfl⟩ := Option.map_eq_some_iff.1 h
    exact (values_sublist _).nodup hregular.under.nodup_keys
  | _ => cases h

end Discriminator

/-- The texts that a type admits, as far as the type itself says so. -/
inductive TypeExpr.Admits (value : String) : TypeExpr → Prop
  | any : Admits value (.keyword .any)
  | string : Admits value (.keyword .string)
  | literal : Admits value (.literal (Json.quote value))
  | union {member : TypeExpr} {members : List TypeExpr} :
      member ∈ members → Admits value member → Admits value (.union members)
  | intersection {members : List TypeExpr} :
      (∀ member ∈ members, Admits value member) → Admits value (.intersection members)

theorem TypeExpr.admits_ofString_iff {value other : String} :
    (TypeExpr.ofString value).Admits other ↔ value = other := by
  constructor
  · intro h
    rw [ofString] at h
    generalize htext : Json.quote value = text at h
    cases h
    exact Json.quote_inj.1 htext
  · rintro rfl
    exact .literal

namespace Synthesis

open Discriminator (Designates Selects TellsApart)

variable {document : Json} {withDoc : Bool} {d : Discriminator} {kind : Composition}
variable {discriminator : Option Discriminator} {members : List Schema} {member schema : Schema}
variable {entry : String × String} {pointer property : String} {i : Nat}
variable {type tag : TypeExpr} {types : List TypeExpr} {r r' : Registry}

/-! ## Tags -/

/-- A member that no target selects may have any text. -/
theorem tagValue_of_not_selected (h : ∀ e ∈ d.mapping, ¬ Selects e.2 member) :
    tagValue d member = .string := by
  cases member with
  | reference pointer =>
    have hnone : d.valueFor? pointer = none :=
      Discriminator.valueFor?_eq_none_iff.2 fun e he hdesignates =>
        h e he ⟨pointer, rfl, hdesignates⟩
    rw [tagValue, hnone]
  | _ => rfl

/-- A reference has the value of the first entry for its pointer. -/
theorem tagValue_of_first (h : d.First entry pointer) :
    tagValue d (.reference pointer) = .ofString entry.1 := by
  have hvalue : d.valueFor? pointer = some entry.1 :=
    Discriminator.valueFor?_eq_some_iff.2 ⟨entry, h, rfl⟩
  rw [tagValue, hvalue]

/-- **What the tag of a reference admits**: the value of the first entry for its
pointer, and every text where there is none. -/
theorem admits_tagValue_iff {value : String} :
    (tagValue d (.reference pointer)).Admits value ↔
      (∀ e ∈ d.mapping, ¬ Designates e.2 pointer) ∨
        ∃ first, d.First first pointer ∧ first.1 = value := by
  rw [← Discriminator.valueFor?_eq_none_iff, ← Discriminator.valueFor?_eq_some_iff, tagValue]
  cases d.valueFor? pointer with
  | none =>
    have hadmits : TypeExpr.string.Admits value := .string
    simpa using hadmits
  | some first => simp [TypeExpr.admits_ofString_iff]

/-- **A mapping that tells its members apart** gives each reference its own
value. -/
theorem tagValue_of_tellsApart (h : TellsApart d members)
    (hmember : .reference pointer ∈ members) (hentry : entry ∈ d.mapping)
    (hdesignates : Designates entry.2 pointer) :
    tagValue d (.reference pointer) = .ofString entry.1 := by
  obtain ⟨first, hfirst⟩ := Discriminator.exists_first hentry hdesignates
  have hvalue : first.1 = entry.1 :=
    (h.references pointer hmember).unique ⟨first.2, hfirst.mem, hfirst.1⟩
      ⟨entry.2, hentry, hdesignates⟩
  rw [tagValue_of_first hfirst, hvalue]

/-- And the values of different references are different. -/
theorem tagValue_pairwise (h : TellsApart d members) : members.Pairwise fun m n =>
    ∀ p q, m = .reference p → n = .reference q → tagValue d m ≠ tagValue d n := by
  rw [List.pairwise_iff_forall_sublist]
  rintro m n hsub p q rfl rfl heq
  have hp : .reference p ∈ members := hsub.subset List.mem_cons_self
  have hq : .reference q ∈ members := hsub.subset (List.mem_cons_of_mem _ List.mem_cons_self)
  obtain ⟨_, ⟨s, hs, hsp⟩, -⟩ := h.references p hp
  obtain ⟨_, ⟨t, ht, htq⟩, -⟩ := h.references q hq
  rw [tagValue_of_tellsApart h hp hs hsp, tagValue_of_tellsApart h hq ht htq] at heq
  -- equal literals are of one value, which has one entry, and that selects both
  have hvalue := Json.quote_inj.1 (TypeExpr.literal.inj heq)
  have hentry := List.inj_on_of_nodup_map h.values hs ht hvalue
  obtain rfl := (Prod.mk.inj hentry).2
  exact List.pairwise_iff_forall_sublist.1 (h.members _ hs) hsub ⟨⟨p, rfl, hsp⟩, ⟨q, rfl, htq⟩⟩

/-! ## Members in turn -/

/-- Schemas are synthesized one after another, each from the registry that the
one before has left. -/
inductive InTurn (document : Json) (withDoc : Bool) :
    List Schema → Registry → List TypeExpr → Registry → Prop
  | done {r : Registry} : InTurn document withDoc [] r [] r
  | next {schema : Schema} {rest : List Schema} {type : TypeExpr} {types : List TypeExpr}
      {r r₁ r' : Registry} : (synthesize document withDoc schema).run r = (.ok type, r₁) →
      InTurn document withDoc rest r₁ types r' →
      InTurn document withDoc (schema :: rest) r (type :: types) r'

/-- The types of members come from the members in turn. -/
theorem inlineMembers_run (h : (inlineMembers withDoc (reference document withDoc) kind
      discriminator members).run r = (.ok types, r')) :
    InTurn document withDoc members r (members.map (translate withDoc)) r' ∧
      types = members.map fun m => memberType kind discriminator m (translate withDoc m) := by
  induction members generalizing r types with
  | nil =>
    cases h
    exact ⟨.done, rfl⟩
  | cons member rest ih =>
    rw [inlineMembers] at h
    obtain ⟨first, r₁, hfirst, h⟩ := run_bind_eq_ok h
    obtain ⟨others, r₂, hothers, h⟩ := run_bind_eq_ok h
    cases h
    obtain ⟨hturn, rfl⟩ := ih hothers
    have hfirst' : (synthesize document withDoc member).run r = (.ok first, r₁) := hfirst
    obtain rfl := type_of_run hfirst'
    exact ⟨.next hfirst' hturn, rfl⟩

/-- **A discriminated union** that is synthesized has its members in turn, each
with its tag. -/
theorem union_of_run (hkind : kind ≠ .allOf) (hne : members ≠ [])
    (h : (synthesize document withDoc (.composition kind members (some d))).run r =
      (.ok type, r')) :
    InTurn document withDoc members r (members.map (translate withDoc)) r' ∧
      type = .union (members.map fun m => tagged d m (translate withDoc m)) := by
  have hsome : ¬ members.isEmpty = true := by simpa using hne
  rw [synthesize, inline, if_neg hsome] at h
  obtain ⟨types, r₁, htypes, h⟩ := run_bind_eq_ok h
  cases h
  obtain ⟨hturn, rfl⟩ := inlineMembers_run htypes
  cases kind with
  | allOf => exact absurd rfl hkind
  | oneOf => exact ⟨hturn, rfl⟩
  | anyOf => exact ⟨hturn, rfl⟩

/-- Where all members hold at once none of them is tagged. -/
theorem inlineMembers_allOf (named : String → Synthesis TypeExpr) :
    inlineMembers withDoc named .allOf discriminator members =
      inlineMembers withDoc named .allOf none members := by
  have hplain : ∀ member type, memberType .allOf discriminator member type = type := by
    intro member type
    cases discriminator with
    | none => rfl
    | some d => rfl
  induction members with
  | nil => rfl
  | cons member rest ih =>
    rw [inlineMembers, inlineMembers, ih]
    simp only [hplain]
    rfl

/-! ## Unions -/

/-- **Discriminated unions are tagged member by member.** A union with a
discriminator that is synthesized has one variant for each member, in their
order: what the member gives in its turn, and the discriminating property with a
tag. A member that no target selects may have any text. Where the mapping tells
the members apart, each reference has its own value, and these are all
different. Where all members hold at once a discriminator makes no
difference. -/
theorem members_tagged (document : Json) (withDoc : Bool) (d : Discriminator)
    (members : List Schema) :
    (∀ kind r type r', kind ≠ .allOf → members ≠ [] →
      (synthesize document withDoc (.composition kind members (some d))).run r =
        (.ok type, r') →
      InTurn document withDoc members r (members.map (translate withDoc)) r' ∧
      ∃ tag : Schema → TypeExpr,
        type = .union (members.map fun m => .intersection
          [translate withDoc m, .record [(.plain d.propertyName, tag m)]]) ∧
        (∀ m ∈ members, (∀ e ∈ d.mapping, ¬ Selects e.2 m) → tag m = .string) ∧
        (TellsApart d members →
          (∀ pointer, .reference pointer ∈ members → ∀ e ∈ d.mapping, Designates e.2 pointer →
            tag (.reference pointer) = .ofString e.1) ∧
          members.Pairwise fun m n =>
            ∀ p q, m = .reference p → n = .reference q → tag m ≠ tag n)) ∧
    synthesize document withDoc (.composition .allOf members (some d)) =
      synthesize document withDoc (.composition .allOf members none) := by
  refine ⟨fun kind r type r' hkind hne hrun => ?_, ?_⟩
  · obtain ⟨hturn, htype⟩ := union_of_run hkind hne hrun
    refine ⟨hturn, tagValue d, htype, fun m _ hm => tagValue_of_not_selected hm, fun h => ?_⟩
    exact ⟨fun pointer hmember e he => tagValue_of_tellsApart h hmember he, tagValue_pairwise h⟩
  · rw [synthesize, synthesize, inline, inline, inlineMembers_allOf]

/-- Two schemas of objects. -/
def petSchemas : Json :=
  .object [("components", .object [("schemas", .object [
    ("Cat", .object [("type", .string "object")]),
    ("Dog", .object [("type", .string "object")])])])]

/-- The kinds of two pets, one by its pointer and one by its name. -/
def petKinds : Discriminator :=
  ⟨"kind", [("cat", "#/components/schemas/Cat"), ("dog", "Dog")]⟩

/-- Two pets, or none. -/
def pets : List Schema :=
  [.reference "#/components/schemas/Cat", .reference "#/components/schemas/Dog", .primitive .null]

theorem tellsApart_pets : TellsApart petKinds pets where
  values := by decide
  references := by
    intro pointer hpointer
    have hpointer : pointer = "#/components/schemas/Cat" ∨
        pointer = "#/components/schemas/Dog" := by
      simpa [pets] using hpointer
    have hdistinct : ¬ Designates "Dog" "#/components/schemas/Cat" ∧
        ¬ Designates "#/components/schemas/Cat" "#/components/schemas/Dog" := by
      decide
    obtain rfl | rfl := hpointer
    · refine ⟨"cat", ⟨_, List.mem_cons_self, .inl rfl⟩, ?_⟩
      rintro value ⟨target, hentry, htarget⟩
      obtain ⟨rfl, rfl⟩ | ⟨rfl, rfl⟩ : (value = "cat" ∧ target = "#/components/schemas/Cat") ∨
          (value = "dog" ∧ target = "Dog") := by
        simpa [petKinds] using hentry
      · rfl
      · exact absurd htarget hdistinct.1
    · refine ⟨"dog", ⟨_, List.mem_cons_of_mem _ List.mem_cons_self, by decide⟩, ?_⟩
      rintro value ⟨target, hentry, htarget⟩
      obtain ⟨rfl, rfl⟩ | ⟨rfl, rfl⟩ : (value = "cat" ∧ target = "#/components/schemas/Cat") ∨
          (value = "dog" ∧ target = "Dog") := by
        simpa [petKinds] using hentry
      · exact absurd htarget hdistinct.2
      · rfl
  members := by decide

/-- The cat and the dog have their own kinds, and nothing is asked of the one
that is none. -/
theorem members_tagged_of_pets :
    ∃ type r', (synthesize petSchemas true (.composition .oneOf pets (some petKinds))).run
        Registry.empty = (.ok type, r') ∧
      ∃ tag : Schema → TypeExpr,
        type = .union (pets.map fun m => .intersection
          [translate true m, .record [(.plain "kind", tag m)]]) ∧
        tag (.reference "#/components/schemas/Cat") = .ofString "cat" ∧
        tag (.reference "#/components/schemas/Dog") = .ofString "dog" ∧
        tag (.primitive .null) = .string := by
  have h : (synthesize petSchemas true (.composition .oneOf pets (some petKinds))).run
      Registry.empty = (.ok (.union [
        .intersection [.ref "Cat", .record [(.plain "kind", .ofString "cat")]],
        .intersection [.ref "Dog", .record [(.plain "kind", .ofString "dog")]],
        .intersection [.keyword .null, .record [(.plain "kind", .string)]]]),
        ⟨[("Cat", some ⟨.any, none⟩), ("Dog", some ⟨.any, none⟩)]⟩) := by
    rfl
  obtain ⟨-, tag, htype, hfree, hown⟩ :=
    (members_tagged petSchemas true petKinds pets).1 .oneOf _ _ _ (by decide) (by decide) h
  obtain ⟨hvalue, -⟩ := hown tellsApart_pets
  refine ⟨_, _, h, tag, htype, ?_, ?_, ?_⟩
  · exact hvalue _ (by simp [pets]) ("cat", "#/components/schemas/Cat") (by simp [petKinds])
      (.inl rfl)
  · exact hvalue _ (by simp [pets]) ("dog", "Dog") (by simp [petKinds]) (by decide)
  · exact hfree _ (by simp [pets]) (by decide)

/-! ## Exhaustiveness -/

/-- **The tag of a variant.** A union has the type of a member at this position,
together with a record of the property alone. -/
def TagAt (type : TypeExpr) (property : String) (i : Nat) (tag : TypeExpr) : Prop :=
  ∃ variants plain, type = .union variants ∧
    variants[i]? = some (.intersection [plain, .record [(.plain property, tag)]])

/-- The tags of a discriminated union are those of its members, in their
order. -/
theorem tagAt_iff : TagAt (.union (members.map fun m => tagged d m (translate withDoc m)))
      d.propertyName i tag ↔
    ∃ member, members[i]? = some member ∧ tagValue d member = tag := by
  constructor
  · rintro ⟨variants, plain, hunion, hvariant⟩
    obtain rfl := TypeExpr.union.inj hunion
    rw [List.getElem?_map, Option.map_eq_some_iff] at hvariant
    obtain ⟨member, hmember, htagged⟩ := hvariant
    refine ⟨member, hmember, ?_⟩
    simp only [tagged, TypeExpr.intersection.injEq, List.cons.injEq, TypeExpr.record.injEq,
      Prod.mk.injEq, true_and, and_true] at htagged
    exact htagged.2
  · rintro ⟨member, hmember, rfl⟩
    refine ⟨_, translate withDoc member, rfl, ?_⟩
    rw [List.getElem?_map, hmember]
    rfl

/-- **Which values a discriminated union admits.** A value of the mapping is
admitted by the tag of a member that it is meant for exactly if it is the first
value for some such member. The other values of a member are lost. -/
theorem value_admitted_iff (hkind : kind ≠ .allOf)
    (h : (synthesize document withDoc (.composition kind members (some d))).run r =
      (.ok type, r'))
    (hentry : entry ∈ d.mapping) :
    (∃ i pointer tag, members[i]? = some (.reference pointer) ∧ Designates entry.2 pointer ∧
        TagAt type d.propertyName i tag ∧ tag.Admits entry.1) ↔
      ∃ pointer first, .reference pointer ∈ members ∧ Designates entry.2 pointer ∧
        d.First first pointer ∧ first.1 = entry.1 := by
  constructor
  · rintro ⟨i, pointer, tag, hmember, hdesignates, htag, hadmits⟩
    have hmem := List.mem_of_getElem? hmember
    obtain ⟨-, rfl⟩ := union_of_run hkind (List.ne_nil_of_mem hmem) h
    obtain ⟨member, hmember', rfl⟩ := tagAt_iff.1 htag
    obtain rfl := Option.some.inj (hmember.symm.trans hmember')
    obtain hnone | ⟨first, hfirst, hvalue⟩ := admits_tagValue_iff.1 hadmits
    · exact absurd hdesignates (hnone entry hentry)
    · exact ⟨pointer, first, hmem, hdesignates, hfirst, hvalue⟩
  · rintro ⟨pointer, first, hmem, hdesignates, hfirst, hvalue⟩
    obtain ⟨-, rfl⟩ := union_of_run hkind (List.ne_nil_of_mem hmem) h
    obtain ⟨i, hmember⟩ := List.mem_iff_getElem?.1 hmem
    refine ⟨i, pointer, _, hmember, hdesignates, tagAt_iff.2 ⟨_, hmember, rfl⟩, ?_⟩
    exact admits_tagValue_iff.2 (.inr ⟨first, hfirst, hvalue⟩)

/-- Two values for one pet. -/
def catKinds : Discriminator :=
  ⟨"kind", [("cat", "#/components/schemas/Cat"), ("kitten", "#/components/schemas/Cat")]⟩

/-- The type of a pet with two values has the first one. -/
theorem run_catKinds :
    (synthesize petSchemas true (.composition .oneOf [.reference "#/components/schemas/Cat"]
        (some catKinds))).run Registry.empty =
      (.ok (.union [.intersection [.ref "Cat", .record [(.plain "kind", .ofString "cat")]]]),
        ⟨[("Cat", some ⟨.any, none⟩)]⟩) := by
  rfl

/-- The first one is admitted. -/
theorem value_admitted_iff_of_catKinds :
    ∃ type r', (synthesize petSchemas true (.composition .oneOf
        [.reference "#/components/schemas/Cat"] (some catKinds))).run Registry.empty =
          (.ok type, r') ∧
      ∃ i pointer tag, [Schema.reference "#/components/schemas/Cat"][i]? =
          some (.reference pointer) ∧ Designates "#/components/schemas/Cat" pointer ∧
        TagAt type "kind" i tag ∧ tag.Admits "cat" := by
  have hentry : ("cat", "#/components/schemas/Cat") ∈ catKinds.mapping := List.mem_cons_self
  have hadmitted := value_admitted_iff (by decide) run_catKinds hentry
  refine ⟨_, _, run_catKinds, hadmitted.2 ⟨_, ("cat", "#/components/schemas/Cat"),
    List.mem_cons_self, .inl rfl, ⟨.inl rfl, [], _, rfl, ?_⟩, rfl⟩⟩
  exact List.forall_mem_nil _

/-- **A value that is lost.** The second value for the pet is admitted by no
variant. -/
theorem exists_value_not_admitted :
    ∃ type r', (synthesize petSchemas true (.composition .oneOf
        [.reference "#/components/schemas/Cat"] (some catKinds))).run Registry.empty =
          (.ok type, r') ∧
      ("kitten", "#/components/schemas/Cat") ∈ catKinds.mapping ∧
      ¬ ∃ i tag, TagAt type "kind" i tag ∧ tag.Admits "kitten" := by
  refine ⟨_, _, run_catKinds, List.mem_cons_of_mem _ List.mem_cons_self, ?_⟩
  rintro ⟨i, tag, ⟨variants, plain, hunion, hvariant⟩, hadmits⟩
  obtain rfl := TypeExpr.union.inj hunion
  have hcat : TypeExpr.ofString "cat" = tag := by
    cases i with
    | zero => cases hvariant; rfl
    | succ i => cases hvariant
  rw [← hcat, TypeExpr.admits_ofString_iff] at hadmits
  exact absurd hadmits (by decide)

end Synthesis

end TypedClient
