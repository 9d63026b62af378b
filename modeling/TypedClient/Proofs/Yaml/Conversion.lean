import Mathlib.Data.List.Forall2
import TypedClient.Proofs.Json.Members
import TypedClient.Yaml.Reader
/-!
# What becomes of a YAML value

A YAML value becomes a JSON value of the same structure (`Converted`): items stay
in their order, tags are dropped, and scalars stay what they are. The entries of a
mapping are put in by the texts of their keys. A text that several keys have is
there once, at the place of the first with the value of the last (`Overwritten`), so
all entries are kept exactly where no two keys of a mapping have one text
(`toJson_converted`). Different keys can have one text (`exists_entry_lost`).
-/

namespace TypedClient

namespace Yaml

variable {texts members : List (String × Json)} {m : String × Json} {key text : String}
variable {value : Json} {v w : Value} {items : List Value} {entries : List (Value × Value)}
variable {law : List (String × Json) → List (String × Json) → Prop}

/-- **Members that others leave when they are put in by key**: each key once, in the
order of first occurrences, with the last value for it. -/
structure Overwritten (texts members : List (String × Json)) : Prop where
  /-- The keys are the first occurrences. -/
  keys : Json.keys members = (Json.keys texts).eraseDups
  /-- Each member is the last of its key. -/
  last : ∀ m ∈ members, ∃ before after, texts = before ++ m :: after ∧ m.1 ∉ Json.keys after

namespace Value

/-- **A value inside another**: the value itself, and what is inside its items, inside
the values of its entries and behind its tag. -/
inductive Inside (w : Value) : Value → Prop
  | self : Inside w w
  | item {v : Value} {items : List Value} : v ∈ items → Inside w v → Inside w (.sequence items)
  | entry {e : Value × Value} {entries : List (Value × Value)} : e ∈ entries → Inside w e.2 →
      Inside w (.mapping entries)
  | tagged {tag : String} {v : Value} : Inside w v → Inside w (.tagged tag v)

/-- **What a value becomes** where a law says which members the converted entries of a
mapping leave. -/
inductive Converted (law : List (String × Json) → List (String × Json) → Prop) :
    Value → Json → Prop
  | null : Converted law .null .null
  | bool {b : Bool} : Converted law (.bool b) (.bool b)
  | integer {n : Int} : Converted law (.integer n) (.number (.integer n))
  | finite {x : Binary64} : Converted law (.real (.finite x)) (.number (.double x))
  | infinite {negative : Bool} : Converted law (.real (.infinite negative)) .null
  | nan : Converted law (.real .nan) .null
  | string {s : String} : Converted law (.string s) (.string s)
  | sequence {items : List Value} {others : List Json} :
      List.Forall₂ (Converted law) items others → Converted law (.sequence items) (.array others)
  | mapping {entries : List (Value × Value)} {texts members : List (String × Json)} :
      Json.keys texts = entries.map (fun e => e.1.keyText) →
      List.Forall₂ (Converted law) (entries.map (·.2)) (texts.map (·.2)) →
      law texts members → Converted law (.mapping entries) (.object members)
  | tagged {tag : String} {v : Value} {j : Json} : Converted law v j →
      Converted law (.tagged tag v) j

/-- No two keys of a mapping have one text, at any depth. -/
def KeysApart (v : Value) : Prop :=
  ∀ entries, (Value.mapping entries).Inside v → (entries.map fun e => e.1.keyText).Nodup

/-- The keys of a mapping are different values, at any depth. -/
def KeysDiffer (v : Value) : Prop :=
  ∀ entries, (Value.mapping entries).Inside v →
    entries.Pairwise fun e f => e.1.same f.1 = false

/-- **Induction over values**, through items and the values of entries. -/
theorem induction {P : Value → Prop} (null : P .null) (bool : ∀ b, P (.bool b))
    (integer : ∀ n, P (.integer n)) (real : ∀ x, P (.real x)) (string : ∀ s, P (.string s))
    (sequence : ∀ items, (∀ v ∈ items, P v) → P (.sequence items))
    (mapping : ∀ entries, (∀ e ∈ entries, P e.2) → P (.mapping entries))
    (tagged : ∀ tag v, P v → P (.tagged tag v)) (v : Value) : P v :=
  match v with
  | .null => null
  | .bool b => bool b
  | .integer n => integer n
  | .real x => real x
  | .string s => string s
  | .sequence items => sequence items fun v _ =>
    induction null bool integer real string sequence mapping tagged v
  | .mapping entries => mapping entries fun e _ =>
    induction null bool integer real string sequence mapping tagged e.2
  | .tagged tag v =>
    tagged tag v (induction null bool integer real string sequence mapping tagged v)
termination_by sizeOf v
decreasing_by
  · rename_i hv
    have hlt := List.sizeOf_lt_of_mem hv
    simp only [Value.sequence.sizeOf_spec]
    omega
  · rename_i he
    have hlt := List.sizeOf_lt_of_mem he
    obtain ⟨k, v⟩ := e
    simp only [Value.mapping.sizeOf_spec, Prod.mk.sizeOf_spec] at hlt ⊢
    omega
  · simp only [Value.tagged.sizeOf_spec]
    omega

end Value

/-! ## Members that are put in by key -/

/-- What stands among members with one more is this one, or of another key. -/
theorem mem_insert_iff_or (hnodup : (Json.keys (Json.insert key value members)).Nodup)
    (h : m ∈ Json.insert key value members) : m = (key, value) ∨ m ∈ members ∧ m.1 ≠ key := by
  obtain ⟨k, j⟩ := m
  have hfind := (Json.find?_eq_some_iff hnodup).2 h
  by_cases hk : k = key
  · subst hk
    rw [Json.find?_insert_self] at hfind
    cases hfind
    exact .inl rfl
  · rw [Json.find?_insert_of_ne hk] at hfind
    exact .inr ⟨Json.mem_of_find? hfind, hk⟩

theorem Overwritten.nodup (h : Overwritten texts members) : (Json.keys members).Nodup := by
  rw [h.keys]
  exact nodup_eraseDups _

/-- **One more is put in by its key.** -/
theorem Overwritten.insert (h : Overwritten texts members) (key : String) (value : Json) :
    Overwritten (texts ++ [(key, value)]) (Json.insert key value members) := by
  have hkeys : Json.keys (Json.insert key value members) =
      (Json.keys (texts ++ [(key, value)])).eraseDups := by
    rw [Json.keys_insert, h.keys, Json.keys_append, Json.keys_cons, Json.keys_nil]
    by_cases hkey : key ∈ Json.keys texts
    · rw [if_pos (List.mem_eraseDups.2 hkey), eraseDups_append_of_mem hkey]
    · rw [if_neg fun hmem => hkey (List.mem_eraseDups.1 hmem), eraseDups_append_of_not_mem hkey]
  refine ⟨hkeys, fun m hm => ?_⟩
  have hnodup : (Json.keys (Json.insert key value members)).Nodup := hkeys ▸ nodup_eraseDups _
  obtain rfl | ⟨hmembers, hne⟩ := mem_insert_iff_or hnodup hm
  · exact ⟨texts, [], rfl, by simp⟩
  · obtain ⟨before, after, rfl, hafter⟩ := h.last m hmembers
    exact ⟨before, after ++ [(key, value)], by simp, by simp [hafter, hne]⟩

/-- Members that are put in one after another. -/
theorem overwritten_foldl (texts : List (String × Json)) :
    Overwritten texts (texts.foldl (fun members t => Json.insert t.1 t.2 members) []) := by
  induction texts using List.reverseRecOn with
  | nil => exact ⟨rfl, by simp⟩
  | append_singleton texts t ih =>
    rw [List.foldl_append]
    exact ih.insert t.1 t.2

/-- **Different keys leave all members as they are.** -/
theorem Overwritten.eq_of_nodup (h : Overwritten texts members)
    (hnodup : (Json.keys texts).Nodup) : texts = members := by
  have hkeys : Json.keys texts = Json.keys members := by
    rw [h.keys, eraseDups_of_nodup hnodup]
  have hlength : texts.length = members.length := by
    simpa [Json.keys] using congrArg List.length hkeys
  refine List.ext_getElem hlength fun i hi hi' => ?_
  -- both stand among the texts, under one key
  obtain ⟨before, after, htexts, -⟩ := h.last members[i] (List.getElem_mem hi')
  have hmem : members[i] ∈ texts := by
    rw [htexts]
    simp
  have hkey : texts[i].1 = members[i].1 := by
    have hsame : (Json.keys texts)[i]? = (Json.keys members)[i]? := by rw [hkeys]
    simpa [Json.keys, hi, hi'] using hsame
  exact List.inj_on_of_nodup_map hnodup (List.getElem_mem hi) hmem hkey

namespace Value

/-! ## One level -/

theorem itemsToJson_eq : itemsToJson items = items.map toJson := by
  induction items with
  | nil => rfl
  | cons v rest ih => rw [itemsToJson, List.map_cons, ih]

/-- The converted entries of a mapping, each with the text of its key. -/
def entryTexts (entries : List (Value × Value)) : List (String × Json) :=
  entries.map fun e => (e.1.keyText, e.2.toJson)

theorem keys_entryTexts : Json.keys (entryTexts entries) = entries.map fun e => e.1.keyText := by
  rw [Json.keys, entryTexts, List.map_map]
  rfl

theorem forall₂_entryTexts {R : Value → Json → Prop} :
    List.Forall₂ R (entries.map (·.2)) ((entryTexts entries).map (·.2)) ↔
      ∀ e ∈ entries, R e.2 e.2.toJson := by
  rw [entryTexts, List.map_map, List.forall₂_map_left_iff, List.forall₂_map_right_iff,
    List.forall₂_same]
  rfl

theorem entriesToJson_eq : entriesToJson members entries =
    (entryTexts entries).foldl (fun members t => Json.insert t.1 t.2 members) members := by
  induction entries generalizing members with
  | nil => rfl
  | cons e rest ih =>
    rw [entriesToJson, ih]
    rfl

/-- **A mapping becomes an object** of what its converted entries leave. -/
theorem toJson_mapping (entries : List (Value × Value)) :
    ∃ members, (Value.mapping entries).toJson = .object members ∧
      Overwritten (entryTexts entries) members := by
  refine ⟨entriesToJson [] entries, rfl, ?_⟩
  rw [entriesToJson_eq]
  exact overwritten_foldl _

/-! ## Every depth -/

/-- A value is converted by a law that holds of the mappings inside it. -/
theorem converted_of_inside (h : ∀ entries members, (Value.mapping entries).Inside v →
    Overwritten (entryTexts entries) members → law (entryTexts entries) members) :
    Converted law v v.toJson := by
  induction v using Value.induction with
  | null => exact .null
  | bool b => exact .bool
  | integer n => exact .integer
  | real x =>
    cases x with
    | finite x => exact .finite
    | infinite negative => exact .infinite
    | nan => exact .nan
  | string s => exact .string
  | sequence items ih =>
    rw [toJson, itemsToJson_eq]
    refine .sequence (List.forall₂_map_right_iff.2 (List.forall₂_same.2 fun v hv => ?_))
    exact ih v hv fun entries members hinside => h entries members (.item hv hinside)
  | mapping entries ih =>
    obtain ⟨members, hmembers, hoverwritten⟩ := toJson_mapping entries
    rw [hmembers]
    refine .mapping keys_entryTexts (forall₂_entryTexts.2 fun e he => ?_)
      (h entries members .self hoverwritten)
    exact ih e he fun inner members hinside => h inner members (.entry he hinside)
  | tagged tag v ih => exact .tagged (ih fun entries members hinside =>
      h entries members (.tagged hinside))

/-- Where all entries are kept, no two keys of a mapping have one text. -/
theorem keysApart_of_converted (h : Converted Eq v v.toJson) : KeysApart v := by
  induction v using Value.induction with
  | sequence items ih =>
    rw [toJson, itemsToJson_eq] at h
    intro entries hinside
    cases h with
    | sequence hitems =>
      cases hinside with
      | item hv hinside =>
        have hall := List.forall₂_same.1 (List.forall₂_map_right_iff.1 hitems)
        exact ih _ hv (hall _ hv) entries hinside
  | mapping entries ih =>
    obtain ⟨members, hmembers, hoverwritten⟩ := toJson_mapping entries
    rw [hmembers] at h
    cases h with
    | mapping hkeys hvalues hsame =>
      subst hsame
      have hnodup : (entries.map fun e => e.1.keyText).Nodup := hkeys ▸ hoverwritten.nodup
      rw [← hoverwritten.eq_of_nodup (keys_entryTexts ▸ hnodup)] at hvalues
      intro inner hinside
      cases hinside with
      | self => exact hnodup
      | entry he hinside => exact ih _ he (forall₂_entryTexts.1 hvalues _ he) inner hinside
  | tagged tag v ih =>
    intro entries hinside
    cases hinside with
    | tagged hinside =>
      cases h with
      | tagged h => exact ih h entries hinside
  | _ =>
    intro entries hinside
    cases hinside

/-- **A conversion keeps the structure, and loses entries only where keys have one
text.** Every value is converted at every depth: items in their order, scalars as they
are, tags dropped, and each mapping to the members that its entries leave when they are
put in by the texts of their keys. All entries of all mappings are kept, in their order,
if and only if no two keys of a mapping have one text. -/
theorem toJson_converted (v : Value) :
    Converted Overwritten v v.toJson ∧ (Converted Eq v v.toJson ↔ KeysApart v) := by
  refine ⟨converted_of_inside fun _ _ _ h => h, keysApart_of_converted, fun hapart => ?_⟩
  refine converted_of_inside fun entries members hinside hoverwritten => ?_
  exact hoverwritten.eq_of_nodup (keys_entryTexts ▸ hapart entries hinside)

/-- A mapping with a number and a string that have one text. -/
def numberAndText : Value :=
  .mapping [(.integer 1, .string "a"), (.string "1", .string "b")]

/-- Whether a value is this mapping. -/
def isNumberAndText : Option Value → Bool
  | some (.mapping [(.integer 1, .string "a"), (.string "1", .string "b")]) => true
  | _ => false

theorem eq_numberAndText {v? : Option Value} (h : isNumberAndText v? = true) :
    v? = some numberAndText := by
  unfold isNumberAndText at h
  split at h
  · rfl
  · cases h

/-- **Different keys can have one text.** What is read here has a number and a string for
keys, which are different values; its object has one member only. -/
theorem exists_entry_lost :
    (ofText? "1: a\n\"1\": b\n" = some numberAndText ∧ KeysDiffer numberAndText) ∧
      numberAndText.toJson = .object [("1", .string "b")] ∧
      ¬ Converted Eq numberAndText numberAndText.toJson := by
  refine ⟨⟨eq_numberAndText (by decide +kernel), fun entries hinside => ?_⟩, by rfl, fun h => ?_⟩
  · cases hinside with
    | self => decide +kernel
    | entry he hinside =>
      -- the values of both entries are strings, with no mapping inside
      simp only [List.mem_cons, List.not_mem_nil, or_false] at he
      obtain rfl | rfl := he <;> cases hinside
  · have hnodup := keysApart_of_converted h _ .self
    exact absurd hnodup (by decide +kernel)

end Value

end Yaml

end TypedClient
