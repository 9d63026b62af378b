import TypedClient.Proofs.Reference
import TypedClient.Proofs.Schema.Congruence
import TypedClient.Proofs.Synthesis.Visit
import TypedClient.Proofs.Document.Order
/-!
# Descriptions with their paths in another order

A pointer leads to the same value in two such descriptions, to the paths in
two orders, or to the two descriptions (`Moved.resolve?`). Schemas are written
alike at these places (`Moved.alike`), and parameters, bodies, responses and
security schemes are read alike from them (`Shape.Steady`). What is read from
the two differs by the order of the paths only (`Document.ofJson_reordered`).
-/

namespace TypedClient

open Synthesis (Alike)

/-- **Two descriptions that list their paths in different orders.** A
description is an object, or an array of its fields with the paths in fourth
place. -/
inductive PathsReordered : Json → Json → Prop
  | object {before after paths paths' : List (String × Json)} : paths.Perm paths' →
      PathsReordered (.object (before ++ ("paths", .object paths) :: after))
        (.object (before ++ ("paths", .object paths') :: after))
  | array {before after : List Json} {paths paths' : List (String × Json)} :
      before.length = 3 → paths.Perm paths' →
      PathsReordered (.array (before ++ .object paths :: after))
        (.array (before ++ .object paths' :: after))

/-- What one pointer leads to in the two: the same value, the paths in two
orders, or the descriptions themselves. -/
inductive Moved : Json → Json → Prop
  | same {value : Json} : Moved value value
  | shuffled {members more : List (String × Json)} : members.Perm more →
      Moved (.object members) (.object more)
  | whole {raw raw' : Json} : PathsReordered raw raw' → Moved raw raw'

namespace Json

variable {members more : List (String × Json)}

/-- Members in another order are regular. -/
theorem Regular.perm (h : Regular (.object members)) (hperm : members.Perm more) :
    Regular (.object more) := by
  obtain ⟨hkeys, hvalues⟩ := regular_object_iff.1 h
  exact regular_object_iff.2 ⟨(hperm.map Prod.fst).nodup_iff.1 hkeys,
    fun m hm => hvalues m (hperm.mem_iff.2 hm)⟩

end Json

namespace PathsReordered

variable {raw raw' : Json}

theorem symm (h : PathsReordered raw raw') : PathsReordered raw' raw := by
  cases h with
  | object hperm => exact .object hperm.symm
  | array hlength hperm => exact .array hlength hperm.symm

theorem regular (h : PathsReordered raw raw') (hregular : raw.Regular) : raw'.Regular := by
  cases h with
  | @object before after paths paths' hperm =>
    obtain ⟨hkeys, hvalues⟩ := Json.regular_object_iff.1 hregular
    obtain ⟨hbefore, hrest⟩ := List.forall_mem_append.1 hvalues
    obtain ⟨hpaths, hafter⟩ := List.forall_mem_cons.1 hrest
    have hpaths' : Json.Regular (.object paths') := Json.Regular.perm hpaths hperm
    refine Json.regular_object_iff.2 ⟨by simpa using hkeys, ?_⟩
    exact List.forall_mem_append.2 ⟨hbefore, List.forall_mem_cons.2 ⟨hpaths', hafter⟩⟩
  | @array before after paths paths' _ hperm =>
    obtain ⟨hbefore, hrest⟩ := List.forall_mem_append.1 (Json.regular_array_iff.1 hregular)
    obtain ⟨hpaths, hafter⟩ := List.forall_mem_cons.1 hrest
    have hpaths' : Json.Regular (.object paths') := Json.Regular.perm hpaths hperm
    refine Json.regular_array_iff.2 ?_
    exact List.forall_mem_append.2 ⟨hbefore, List.forall_mem_cons.2 ⟨hpaths', hafter⟩⟩

end PathsReordered

namespace Moved

variable {v v' : Json} {token : List Char} {tokens : List (List Char)}

/-- What a key leads to, where the paths are listed in two orders. -/
theorem find?_paths {before after paths paths' : List (String × Json)} (hperm : paths.Perm paths')
    (key : String) :
    Option.Rel Moved (Json.find? key (before ++ ("paths", .object paths) :: after))
      (Json.find? key (before ++ ("paths", .object paths') :: after)) := by
  rw [Json.find?_append, Json.find?_append]
  cases Json.find? key before with
  | some value => exact .some .same
  | none =>
    rw [Option.none_or, Option.none_or, Json.find?, Json.find?]
    split
    · exact .some (.shuffled hperm)
    · exact Synthesis.rel_refl (fun _ => .same) _

/-- **One step from places that differ by the order of paths** leads to such
places. -/
theorem step? (h : Moved v v') (hregular : v.Regular) :
    Option.Rel Moved (Pointer.step? token v) (Pointer.step? token v') := by
  cases h with
  | same => exact Synthesis.rel_refl (fun _ => .same) _
  | shuffled hperm =>
    rw [Pointer.step?, Pointer.step?, Json.find?_perm hregular.nodup_keys hperm]
    exact Synthesis.rel_refl (fun _ => .same) _
  | whole hreordered =>
    cases hreordered with
    | object hperm =>
      rw [Pointer.step?, Pointer.step?]
      exact find?_paths hperm _
    | @array before after paths paths' _ hperm =>
      rw [Pointer.step?, Pointer.step?]
      cases Pointer.position? (Pointer.unescape token) with
      | none => exact .none
      | some i =>
        show Option.Rel Moved (before ++ .object paths :: after)[i]?
          (before ++ .object paths' :: after)[i]?
        rw [List.getElem?_append, List.getElem?_append]
        split
        · exact Synthesis.rel_refl (fun _ => .same) _
        cases i - before.length with
        | zero => exact .some (.shuffled hperm)
        | succ i => exact Synthesis.rel_refl (fun _ => .same) _

theorem walk? (h : Moved v v') (hregular : v.Regular) :
    Option.Rel Moved (Pointer.walk? tokens v) (Pointer.walk? tokens v') := by
  induction tokens generalizing v v' with
  | nil => exact .some h
  | cons token rest ih =>
    have hstep : Option.Rel Moved (Pointer.step? token v) (Pointer.step? token v') :=
      h.step? hregular
    rw [Pointer.walk?, Pointer.walk?]
    cases hnext : Pointer.step? token v with
    | none =>
      rw [hnext] at hstep
      rw [Synthesis.eq_none_of_rel hstep]
      exact .none
    | some next =>
      rw [hnext] at hstep
      obtain ⟨next', hnext', hmoved⟩ := Synthesis.exists_of_rel hstep
      rw [hnext']
      exact ih hmoved (hregular.part (Json.part_of_step? hnext))

/-- **What a pointer leads to** in the two descriptions. -/
theorem resolve? {raw raw' : Json} (h : PathsReordered raw raw') (hregular : raw.Regular)
    (pointer : String) :
    Option.Rel Moved (Pointer.resolve? raw pointer) (Pointer.resolve? raw' pointer) := by
  rw [Pointer.resolve?, Pointer.resolve?]
  cases Pointer.tokens? pointer with
  | none => exact .none
  | some tokens => exact (Moved.whole h).walk? hregular

/-! ## Schemas and readers cannot tell such places apart -/

/-- A key other than that of the paths leads to the same value. -/
theorem get?_eq (h : Moved v v') (hregular : v.Regular) {key : String} (hkey : key ≠ "paths") :
    v.get? key = v'.get? key := by
  cases h with
  | same => rfl
  | shuffled hperm => exact Json.find?_perm hregular.nodup_keys hperm key
  | whole hreordered =>
    cases hreordered with
    | object _ =>
      simp only [Json.get?, Json.find?_past hkey]
    | array _ _ => rfl

/-- **They are written alike as schemas.** -/
theorem alike (h : Moved v v') (hregular : v.Regular) : Alike v v' := by
  have hget : ∀ key ∈ Schema.keywords, v.get? key = v'.get? key := by
    intro key hkey
    refine h.get?_eq hregular fun heq => ?_
    rw [heq] at hkey
    exact absurd hkey (by decide)
  refine ⟨?_, ?_⟩
  · cases h with
    | same => rfl
    | shuffled _ => exact Schema.ofJson_congr hget
    | whole hreordered =>
      cases hreordered with
      | object _ => exact Schema.ofJson_congr hget
      | array _ _ => rfl
  · rw [Synthesis.description, Synthesis.description, h.get?_eq hregular (by decide)]

end Moved

namespace Shape

variable {α ρ : Type} {read : Json → Shape α} {v v' : Json} {name : String}
variable {fields known : List String} {step : ρ → String → Json → Shape ρ} {start : ρ}

/-- **A reader that does not depend on the order of paths.** -/
def Steady (read : Json → Shape α) : Prop :=
  ∀ v v', Moved v v' → v.Regular → Agrees (read v) (read v')

/-- Whether an item or a reference is read does not depend on it either, nor
how this fails. -/
theorem Steady.refOr (h : Steady read) (hmoved : Moved v v') (hregular : v.Regular) :
    refOr read v = refOr read v' := by
  have hagrees : Agrees (read v) (read v') := h v v' hmoved hregular
  rw [Shape.refOr, Shape.refOr, hmoved.get?_eq hregular (by decide)]
  split
  · rfl
  cases hread : read v with
  | ok a => rw [(hagrees a).1 hread]
  | error e =>
    cases hread' : read v' with
    | ok a =>
      rw [(hagrees a).2 hread'] at hread
      cases hread
    | error e' => rfl

/-- A description in an array is no record of few fields. -/
theorem record_ne_ok (hfew : fields.length ≤ 3) {before after : List Json} {value : Json}
    (hlength : before.length = 3) (a : ρ) :
    record name fields step start (.array (before ++ value :: after)) ≠ .ok a := by
  intro h
  have hlong : fields.length < (before ++ value :: after).length := by
    rw [List.length_append, List.length_cons]
    omega
  rw [record] at h
  obtain ⟨result, -, h⟩ := bind_eq_ok h
  rw [if_pos hlong] at h
  cases h

/-- **Records whose steps commute are read alike**, if they do not have paths
and are not written as a description in an array. -/
theorem record_steady (hcommutes : Commutes step) (hskips : Skips known step)
    (hpaths : "paths" ∉ known)
    (harray : ∀ before after paths, before.length = 3 → ∀ a,
      record name fields step start (.array (before ++ .object paths :: after)) ≠ .ok a) :
    Steady (record name fields step start) := by
  intro v v' hmoved hregular
  cases hmoved with
  | same => exact .refl _
  | shuffled hperm => exact record_perm hcommutes hperm hregular.nodup_keys
  | whole hreordered =>
    cases hreordered with
    | @object before after paths paths' _ =>
      -- the paths are passed by
      have hpassed : ∀ value, record name fields step start
          (.object (before ++ ("paths", value) :: after)) =
            (steps step start before >>= fun next => steps step next after) := by
        intro value
        rw [record, steps_append]
        congr
        funext next
        rw [steps, hskips _ _ _ hpaths]
        rfl
      rw [hpassed, hpassed]
      exact .refl _
    | array hlength _ => exact .of_errors (harray _ _ _ hlength) (harray _ _ _ hlength)

theorem requestBody_steady : Steady RequestBody.ofJson :=
  record_steady requestBody_commutes requestBody_skips (by decide)
    fun _ _ _ hlength => record_ne_ok (by decide) hlength

theorem response_steady : Steady Response.ofJson :=
  record_steady response_commutes response_skips (by decide)
    fun _ _ _ hlength => record_ne_ok (by decide) hlength

/-- Only the failure over a required field depends on where it is missing. -/
theorem required_agrees {field : String} {found : Option α} :
    Agrees (required name fields field v found) (required name fields field v' found) := by
  have hnone : ∀ (source : Json) (a : α), required name fields field source none ≠ .ok a := by
    intro source a h
    cases source <;> cases h
  cases found with
  | some value => exact .refl _
  | none => exact .of_errors (hnone v) (hnone v')

theorem securityScheme_steady : Steady SecurityScheme.ofJson := by
  have hdraft : Steady (record "SecurityScheme" ["type", "scheme"] schemeStep (none, none)) :=
    record_steady scheme_commutes scheme_skips (by decide)
      fun _ _ _ hlength => record_ne_ok (by decide) hlength
  intro v v' hmoved hregular
  exact (hdraft v v' hmoved hregular).bind fun draft => required_agrees.bind fun kind => .refl _

theorem parameter_steady : Steady Parameter.ofJson := by
  have hdraft : Steady (record "Parameter" Parameter.fields Parameter.step
      ⟨none, none, none, false, none⟩) := by
    refine record_steady parameter_commutes parameter_skips (by decide)
      fun before after paths hlength a h => ?_
    obtain ⟨first, second, third, rfl⟩ := List.length_eq_three.1 hlength
    -- the fourth field of a parameter is a truth value
    rw [record] at h
    obtain ⟨result, hresult, -⟩ := bind_eq_ok h
    obtain ⟨d₁, -, hresult⟩ := bind_eq_ok hresult
    obtain ⟨d₂, -, hresult⟩ := bind_eq_ok hresult
    obtain ⟨d₃, -, hresult⟩ := bind_eq_ok hresult
    obtain ⟨d₄, hrequired, -⟩ := bind_eq_ok hresult
    obtain ⟨b, hflag, -⟩ := bind_eq_ok hrequired
    cases hflag
  intro v v' hmoved hregular
  refine (hdraft v v' hmoved hregular).bind fun draft => ?_
  exact required_agrees.bind fun name => required_agrees.bind fun location => .refl _

end Shape

/-! ## What pointers lead to -/

namespace PathsReordered

variable {α : Type} {raw raw' : Json} {read : Json → Shape α} {pointer : String}

/-- **A pointer leads to what is written alike.** -/
theorem alike (h : PathsReordered raw raw') (hregular : raw.Regular) (pointer : String) :
    Option.Rel Alike (Pointer.resolve? raw pointer) (Pointer.resolve? raw' pointer) := by
  have hmoved := Moved.resolve? h hregular pointer
  cases hvalue : Pointer.resolve? raw pointer with
  | none =>
    rw [hvalue] at hmoved
    rw [Synthesis.eq_none_of_rel hmoved]
    exact .none
  | some value =>
    rw [hvalue] at hmoved
    obtain ⟨value', hvalue', hmoved⟩ := Synthesis.exists_of_rel hmoved
    rw [hvalue']
    exact .some (hmoved.alike (hregular.part (Json.part_of_resolve? hvalue)))

theorem target_eq (h : PathsReordered raw raw') (hregular : raw.Regular)
    (hsteady : Shape.Steady read) :
    RefOr.target raw read pointer = RefOr.target raw' read pointer := by
  have hmoved := Moved.resolve? h hregular pointer
  rw [RefOr.target, RefOr.target]
  cases hvalue : Pointer.resolve? raw pointer with
  | none =>
    rw [hvalue] at hmoved
    rw [Synthesis.eq_none_of_rel hmoved]
  | some value =>
    rw [hvalue] at hmoved
    obtain ⟨value', hvalue', hmoved⟩ := Synthesis.exists_of_rel hmoved
    have hfound : Shape.refOr read value = Shape.refOr read value' :=
      hsteady.refOr hmoved (hregular.part (Json.part_of_resolve? hvalue))
    simp only [hvalue', hfound]

/-- **A chain of references leads to the same item**, or fails alike. -/
theorem follow_eq (h : PathsReordered raw raw') (hregular : raw.Regular)
    (hsteady : Shape.Steady read) (item : RefOr α) :
    item.follow raw read = item.follow raw' read :=
  RefOr.follow_eq_of_target fun _ => h.target_eq hregular hsteady

end PathsReordered

/-! ## What is read from the two -/

namespace Document

open Shape (bind_eq_ok field_eq_ok)

variable {members before after paths paths' : List (String × Json)} {raw raw' : Json}
variable {start next document : Document}

/-- A field that is not that of the paths is read whatever the paths are. -/
theorem step_paths {key : String} {value : Json} (hkey : key ≠ "paths")
    (h : step start key value = .ok next) : next.paths = start.paths ∧
      ∀ found, step { start with paths := found } key value = .ok { next with paths := found } := by
  unfold step at h
  split at h
  case h_4 => exact absurd rfl hkey
  case h_7 =>
    cases h
    refine ⟨rfl, fun found => ?_⟩
    unfold step
    split
    case h_7 => rfl
    all_goals simp_all
  all_goals
    obtain ⟨a, ha, rfl⟩ := field_eq_ok h
    exact ⟨rfl, fun found => by simp only [step, ha]; rfl⟩

theorem steps_paths (hkeys : "paths" ∉ Json.keys members)
    (h : Shape.steps step start members = .ok document) : document.paths = start.paths ∧
      ∀ found, Shape.steps step { start with paths := found } members =
        .ok { document with paths := found } := by
  induction members generalizing start with
  | nil =>
    cases h
    exact ⟨rfl, fun _ => rfl⟩
  | cons m rest ih =>
    rw [Json.keys_cons, List.mem_cons, not_or] at hkeys
    rw [Shape.steps] at h
    obtain ⟨next, hnext, h⟩ := bind_eq_ok h
    obtain ⟨hkept, hsteps⟩ := step_paths (Ne.symm hkeys.1) hnext
    obtain ⟨hrest, hothers⟩ := ih hkeys.2 h
    refine ⟨hrest.trans hkept, fun found => ?_⟩
    rw [Shape.steps, hsteps found]
    exact hothers found

/-- What is read behind the paths keeps them, in whatever order they are. -/
theorem steps_reordered (hperm : paths.Perm paths') (hafter : "paths" ∉ Json.keys after)
    (h : Shape.steps step start (before ++ ("paths", .object paths) :: after) = .ok document) :
    document.paths.map Prod.fst = Json.keys paths ∧
      ∃ found, document.paths.Perm found ∧
        Shape.steps step start (before ++ ("paths", .object paths') :: after) =
          .ok { document with paths := found } := by
  rw [Shape.steps_append] at h
  obtain ⟨next, hbefore, h⟩ := bind_eq_ok h
  rw [Shape.steps] at h
  obtain ⟨between, hread, h⟩ := bind_eq_ok h
  obtain ⟨listed, hlisted, rfl⟩ := field_eq_ok hread
  obtain ⟨hkept, hothers⟩ := steps_paths hafter h
  obtain ⟨found, hfound, hlistedPerm⟩ := Shape.eachMember_perm hperm hlisted
  have hpaths : document.paths = listed := hkept
  refine ⟨?_, found, ?_, ?_⟩
  · rw [hpaths]
    exact Shape.keys_eachMember hlisted
  · rw [hpaths]
    exact hlistedPerm
  · have hmap : step next "paths" (.object paths') = .ok { next with paths := found } := by
      have hread' : Shape.map PathItem.ofJson (.object paths') = .ok found := hfound
      simp only [step, hread']
      rfl
    rw [Shape.steps_append, hbefore]
    show Shape.steps step next (("paths", .object paths') :: after) = _
    rw [Shape.steps, hmap]
    exact hothers found

/-- **Where one of the two is read so is the other**, and what is read
differs by the order of the paths. -/
theorem ofJson_reordered (h : PathsReordered raw raw') (hregular : raw.Regular)
    (hread : ofJson raw = .ok document) :
    (document.paths.map Prod.fst).Nodup ∧ ∃ found, document.paths.Perm found ∧
      ofJson raw' = .ok { document with paths := found } := by
  cases h with
  | @object before after paths paths' hperm =>
    have hkeys : (Json.keys (before ++ ("paths", .object paths) :: after)).Nodup :=
      hregular.nodup_keys
    have hafter : "paths" ∉ Json.keys after := by
      rw [Json.keys_append, List.nodup_append] at hkeys
      exact (List.nodup_cons.1 hkeys.2.1).1
    have hpaths : (Json.keys paths).Nodup := by
      have hpart : Json.Part (.object paths)
          (.object (before ++ ("paths", .object paths) :: after)) :=
        .member (List.mem_append_right _ List.mem_cons_self) .self
      exact hregular paths hpart
    obtain ⟨hnames, found, hfound, hsteps⟩ := steps_reordered hperm hafter hread
    exact ⟨by rwa [hnames], found, hfound, hsteps⟩
  | @array before after paths paths' hlength hperm =>
    have hpaths : (Json.keys paths).Nodup := by
      have hpart : Json.Part (.object paths) (.array (before ++ .object paths :: after)) :=
        .item (List.mem_append_right _ List.mem_cons_self) .self
      exact hregular paths hpart
    -- the paths are the fourth field of a description
    have hzip : ∀ value, fields.zip (before ++ value :: after) =
        ["openapi", "info", "servers"].zip before ++
          ("paths", value) :: ["components", "security"].zip after := by
      intro value
      obtain ⟨first, second, third, rfl⟩ := List.length_eq_three.1 hlength
      rfl
    have hlong : (before ++ .object paths' :: after).length =
        (before ++ .object paths :: after).length := by
      simp
    have hafter : "paths" ∉ Json.keys (["components", "security"].zip after) := by
      intro hmem
      obtain ⟨m, hm, hkey⟩ := List.mem_map.1 hmem
      have hfield : m.1 ∈ ["components", "security"] := (List.of_mem_zip hm).1
      rw [hkey] at hfield
      exact absurd hfield (by decide)
    rw [ofJson, Shape.record, hzip] at hread
    obtain ⟨result, hresult, hread⟩ := bind_eq_ok hread
    obtain ⟨hnames, found, hfound, hsteps⟩ := steps_reordered hperm hafter hresult
    split at hread
    · cases hread
    · rename_i hshort
      cases hread
      refine ⟨by rwa [hnames], found, hfound, ?_⟩
      rw [ofJson, Shape.record, hzip, hsteps, hlong]
      exact if_neg hshort

end Document

end TypedClient
