import TypedClient.Identifier
import TypedClient.Pointer
/-!
# Sanitised names are identifiers

`Identifier.sanitize` gives an identifier whatever the text, so the name of
the type for any pointer is one.
-/

namespace TypedClient

namespace Identifier

/-- The character that takes the place of a character. -/
theorem isPart_of_replaced (c : Char) : isPart (if isPart c then c else '_') = true := by
  split
  · assumption
  · rfl

/-- A character of an identifier that is no digit can start one. -/
theorem isStart_of_isPart {c : Char} (h : isPart c = true) (hdigit : c.isDigit = false) :
    isStart c = true := by
  simpa [isPart, isStart, Char.isAlphanum, hdigit] using h

/-- **A sanitised text is an identifier.** -/
theorem isIdentifier_sanitize (name : String) : isIdentifier (sanitize name) = true := by
  have hparts : ∀ c ∈ name.toList.map fun c => if isPart c then c else '_', isPart c = true := by
    intro c hc
    obtain ⟨d, -, rfl⟩ := List.mem_map.1 hc
    exact isPart_of_replaced d
  rw [sanitize]
  split
  · rfl
  · rename_i c rest hchars
    rw [hchars] at hparts
    have hc := hparts c List.mem_cons_self
    have hrest := List.all_eq_true.2 fun d hd => hparts d (List.mem_cons_of_mem _ hd)
    split
    · simp [isIdentifier, String.toList_ofList, isStart, hc, hrest]
    · rename_i hdigit
      simp [isIdentifier, String.toList_ofList, isStart_of_isPart hc (by simpa using hdigit), hrest]

/-- Where nothing is put in front, each character is kept or replaced. -/
theorem sanitize_cases (name : String) : '_' ∈ (sanitize name).toList ∨
    sanitize name = String.ofList (name.toList.map fun c => if isPart c then c else '_') := by
  rw [sanitize]
  split
  · exact .inl (by decide)
  · rename_i c rest hchars
    split
    · exact .inl (by rw [String.toList_ofList]; exact List.mem_cons_self)
    · exact .inr (by rw [hchars])

/-- **A sanitised text without an underscore is the text itself.** -/
theorem sanitize_eq_self {name : String} (h : '_' ∉ (sanitize name).toList) :
    sanitize name = name := by
  have hchars := (sanitize_cases name).resolve_left h
  rw [hchars, String.toList_ofList] at h
  have hkept : ∀ c ∈ name.toList, (if isPart c then c else '_') = c := by
    intro c hc
    split
    · rfl
    · rename_i hpart
      exact (h (List.mem_map.2 ⟨c, hc, if_neg hpart⟩)).elim
  rw [hchars, List.map_congr_left hkept, List.map_id', String.ofList_toList]

/-! ## Identifiers -/

theorem exists_of_isIdentifier {name : String} (h : isIdentifier name = true) :
    ∃ first rest, name.toList = first :: rest ∧ isStart first = true ∧ rest.all isPart = true := by
  rw [isIdentifier] at h
  cases hname : name.toList with
  | nil =>
    rw [hname] at h
    cases h
  | cons first rest =>
    rw [hname] at h
    exact ⟨first, rest, rfl, Bool.and_eq_true_iff.1 h⟩

/-- The characters of a text are those that it is written with. -/
theorem all_isPart_ofList {chars : List Char} (h : chars.all isPart = true) :
    (String.ofList chars).toList.all isPart = true := by
  rw [String.toList_ofList, h]

/-- What goes on with characters of identifiers stays one. -/
theorem isIdentifier_append {name suffix : String} (h : isIdentifier name = true)
    (hsuffix : suffix.toList.all isPart = true) : isIdentifier (name ++ suffix) = true := by
  obtain ⟨first, rest, hname, hfirst, hrest⟩ := exists_of_isIdentifier h
  rw [isIdentifier, String.toList_append, hname, List.cons_append]
  simp only [hfirst, List.all_append, hrest, hsuffix, Bool.and_self]

/-! ## Texts that are no identifiers -/

/-- A text with a character that no identifier has is no identifier. -/
theorem not_isIdentifier_of_mem {c : Char} {text : String} (hmem : c ∈ text.toList)
    (hpart : isPart c = false) : isIdentifier text = false := by
  rw [isIdentifier]
  split
  · rfl
  · rename_i first rest htext
    rw [htext] at hmem
    rcases List.mem_cons.1 hmem with rfl | hrest
    · have hstart : isStart c = false := by
        simp [isPart, Char.isAlphanum] at hpart
        simp [isStart, hpart]
      rw [hstart, Bool.false_and]
    · have hall : rest.all isPart = false := List.all_eq_false.2 ⟨c, hrest, by simp [hpart]⟩
      rw [hall, Bool.and_false]

/-- All characters of an identifier are ones that identifiers have. -/
theorem isPart_of_isIdentifier {name : String} (h : isIdentifier name = true) :
    ∀ c ∈ name.toList, isPart c = true := by
  intro c hc
  cases hpart : isPart c with
  | true => rfl
  | false =>
    rw [not_isIdentifier_of_mem hc hpart] at h
    cases h

/-- A text with a digit in front is no identifier either. -/
theorem not_isIdentifier_of_isDigit {first : Char} {rest : List Char} {text : String}
    (htext : text.toList = first :: rest) (hdigit : first.isDigit = true) :
    isIdentifier text = false := by
  have hstart : isStart first = false := by
    have hmarks : first ≠ '_' ∧ first ≠ '$' := by
      constructor <;> (rintro rfl; cases hdigit)
    have hdigits : first.isDigit =
        (decide (48 ≤ first.toNat) && decide (first.toNat ≤ 57)) := rfl
    have hupper : first.isUpper = decide (65 ≤ first.toNat ∧ first.toNat ≤ 90) := rfl
    have hlower : first.isLower =
        (decide (97 ≤ first.toNat) && decide (first.toNat ≤ 122)) := rfl
    have halpha : first.isAlpha = (first.isUpper || first.isLower) := rfl
    rw [hdigits, Bool.and_eq_true, decide_eq_true_eq, decide_eq_true_eq] at hdigit
    -- all letters come behind the digits
    have hbefore : ¬ 65 ≤ first.toNat ∧ ¬ 97 ≤ first.toNat := by omega
    rw [isStart, halpha, hupper, hlower]
    simp [hbefore, hmarks]
  rw [isIdentifier, htext]
  simp [hstart]

/-! ## What sanitising keeps -/

/-- **A text is kept exactly if it is an identifier**, at every character and in
every position. -/
theorem sanitize_eq_self_iff (name : String) :
    sanitize name = name ↔ isIdentifier name = true := by
  constructor
  · intro h
    rw [← h]
    exact isIdentifier_sanitize name
  · intro h
    obtain ⟨first, rest, hname, -⟩ := exists_of_isIdentifier h
    have hkept : ∀ c ∈ name.toList, (if isPart c then c else '_') = c :=
      fun c hc => if_pos (isPart_of_isIdentifier h c hc)
    have hdigit : ¬ first.isDigit = true := by
      intro hfirst
      rw [not_isIdentifier_of_isDigit hname hfirst] at h
      cases h
    rw [sanitize, List.map_congr_left hkept, List.map_id', hname]
    exact (if_neg hdigit).trans (by rw [← hname, String.ofList_toList])

/-- So nothing is left to sanitise in a sanitised text. -/
theorem sanitize_sanitize (name : String) : sanitize (sanitize name) = sanitize name :=
  (sanitize_eq_self_iff _).2 (isIdentifier_sanitize name)

end Identifier

/-- The name of a type is an identifier. -/
theorem Pointer.isIdentifier_typeName (pointer : String) :
    Identifier.isIdentifier (Pointer.typeName pointer) = true :=
  Identifier.isIdentifier_sanitize _

end TypedClient
