import TypedClient.Media
import TypedClient.Proofs.Text.Joined
/-!
# Which media type is preferred

Of several entries the first whose media type names JSON is preferred, without one
the first whose media type names text, and else the first
(`preferred?_eq_some_iff`).
-/

namespace TypedClient

namespace Media

variable {α β : Type} {mediaType : String} {entries : List (String × α)} {entry : String × α}
variable {kind : Media}

/-- A media type names JSON, in letters of any case. -/
def NamesJson (mediaType : String) : Prop :=
  "json".toList <:+: mediaType.toList.map Char.toLower

theorem classify_eq_json_iff : classify mediaType = .json ↔ NamesJson mediaType := by
  rw [NamesJson, ← Text.occursIn_iff, classify]
  split
  · simp_all
  · rename_i hjson
    refine iff_of_false ?_ hjson
    split
    · simp
    · split <;> simp

/-- **The preferred entry** of several. -/
inductive Preferred (entries : List (String × α)) (entry : String × α) : Prop
  /-- It is the first for JSON. -/
  | json {before after : List (String × α)} : entries = before ++ entry :: after →
      classify entry.1 = .json → (∀ e ∈ before, classify e.1 ≠ .json) → Preferred entries entry
  /-- There is none for JSON, and it is the first for text. -/
  | text {before after : List (String × α)} : (∀ e ∈ entries, classify e.1 ≠ .json) →
      entries = before ++ entry :: after → classify entry.1 = .text →
      (∀ e ∈ before, classify e.1 ≠ .text) → Preferred entries entry
  /-- There is none for JSON and none for text, and it is the first. -/
  | first {after : List (String × α)} : (∀ e ∈ entries, classify e.1 ≠ .json) →
      (∀ e ∈ entries, classify e.1 ≠ .text) → entries = entry :: after → Preferred entries entry

theorem first?_eq_some_iff : first? kind entries = some entry ↔
    classify entry.1 = kind ∧ ∃ before after, entries = before ++ entry :: after ∧
      ∀ e ∈ before, classify e.1 ≠ kind := by
  simp [first?, List.find?_eq_some_iff_append]

theorem first?_eq_none_iff :
    first? kind entries = none ↔ ∀ e ∈ entries, classify e.1 ≠ kind := by
  simp [first?]

/-- **One entry is preferred**, by the order of the classes. -/
theorem preferred?_eq_some_iff : preferred? entries = some entry ↔ Preferred entries entry := by
  constructor
  · intro h
    rw [preferred?] at h
    split at h
    · rename_i hjson
      cases h
      obtain ⟨hkind, before, after, heq, hbefore⟩ := first?_eq_some_iff.1 hjson
      exact .json heq hkind hbefore
    · rename_i hjson
      split at h
      · rename_i htext
        cases h
        obtain ⟨hkind, before, after, heq, hbefore⟩ := first?_eq_some_iff.1 htext
        exact .text (first?_eq_none_iff.1 hjson) heq hkind hbefore
      · rename_i htext
        obtain ⟨after, rfl⟩ := List.head?_eq_some_iff.1 h
        exact .first (first?_eq_none_iff.1 hjson) (first?_eq_none_iff.1 htext) rfl
  · intro h
    cases h with
    | json heq hkind hbefore =>
      have hjson := first?_eq_some_iff.2 ⟨hkind, _, _, heq, hbefore⟩
      rw [preferred?, hjson]
    | text hnone heq hkind hbefore =>
      have htext := first?_eq_some_iff.2 ⟨hkind, _, _, heq, hbefore⟩
      rw [preferred?, first?_eq_none_iff.2 hnone, htext]
    | first hjson htext heq =>
      rw [preferred?, first?_eq_none_iff.2 hjson, first?_eq_none_iff.2 htext, heq]
      rfl

end Media

end TypedClient
