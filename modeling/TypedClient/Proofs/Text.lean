import TypedClient.Text.Blank
/-!
# Parts, replacements and numerals

A text is cut at a separator into the parts that, with the separator between
neighbours, make it up; there is one way to do so (`splitOn_eq_iff`). In
`replace` the occurrences of a pattern are replaced from left to right, each
behind the end of the one before. A number is the value of its numeral
(`decimalValue_decimal`).
-/

namespace TypedClient

namespace Text

variable {sep a c : Char} {s rest part : List Char} {parts : List (List Char)}
variable {pattern replacement : List Char}

/-! ## Parts -/

theorem splitOn_cons (hparts : splitOn sep rest = part :: parts) :
    splitOn sep (c :: rest) = if c = sep then [] :: part :: parts else (c :: part) :: parts := by
  rw [splitOn, hparts]

theorem exists_splitOn_eq_cons (sep : Char) (s : List Char) :
    ∃ part parts, splitOn sep s = part :: parts := by
  induction s with
  | nil => exact ⟨_, _, rfl⟩
  | cons c rest ih =>
    obtain ⟨part, parts, hparts⟩ := ih
    rw [splitOn_cons hparts]
    split <;> exact ⟨_, _, rfl⟩

theorem splitOn_cons_self : splitOn sep (sep :: rest) = [] :: splitOn sep rest := by
  obtain ⟨part, parts, hparts⟩ := exists_splitOn_eq_cons sep rest
  rw [splitOn_cons hparts, hparts]
  exact if_pos rfl

theorem splitOn_cons_of_ne (h : c ≠ sep) (hparts : splitOn sep rest = part :: parts) :
    splitOn sep (c :: rest) = (c :: part) :: parts := by
  rw [splitOn_cons hparts]
  exact if_neg h

/-- A first part, with the others behind it, each behind a separator, is cut
into these parts. -/
theorem splitOn_append (hpart : sep ∉ part) (hparts : ∀ p ∈ parts, sep ∉ p) :
    splitOn sep (part ++ parts.flatMap (sep :: ·)) = part :: parts := by
  induction parts generalizing part with
  | nil =>
    induction part with
    | nil => rfl
    | cons c part ih =>
      rw [List.mem_cons, not_or] at hpart
      exact splitOn_cons_of_ne (Ne.symm hpart.1) (ih hpart.2)
  | cons next parts ihparts =>
    obtain ⟨hnext, hothers⟩ := List.forall_mem_cons.1 hparts
    induction part with
    | nil =>
      rw [List.nil_append, List.flatMap_cons, List.cons_append, splitOn_cons_self,
        ihparts hnext hothers]
    | cons c part ih =>
      rw [List.mem_cons, not_or] at hpart
      exact splitOn_cons_of_ne (Ne.symm hpart.1) (ih hpart.2)

/-- **The parts of a text** are those without the separator that it is made
up of. -/
theorem splitOn_eq_iff : splitOn sep s = part :: parts ↔
    s = part ++ parts.flatMap (sep :: ·) ∧ sep ∉ part ∧ ∀ p ∈ parts, sep ∉ p := by
  refine ⟨fun h => ?_, ?_⟩
  · induction s generalizing part parts with
    | nil =>
      cases h
      exact ⟨rfl, by simp, by simp⟩
    | cons c rest ih =>
      obtain ⟨first, others, hrest⟩ := exists_splitOn_eq_cons sep rest
      obtain ⟨heq, hfirst, hothers⟩ := ih hrest
      by_cases hc : c = sep
      · subst hc
        rw [splitOn_cons_self, hrest, List.cons.injEq] at h
        obtain ⟨rfl, rfl⟩ := h
        exact ⟨by rw [heq]; rfl, by simp, List.forall_mem_cons.2 ⟨hfirst, hothers⟩⟩
      · rw [splitOn_cons_of_ne hc hrest, List.cons.injEq] at h
        obtain ⟨rfl, rfl⟩ := h
        exact ⟨by rw [heq]; rfl, by simp [Ne.symm hc, hfirst], hothers⟩
  · rintro ⟨rfl, hpart, hparts⟩
    exact splitOn_append hpart hparts

/-- No part has the separator. -/
theorem not_mem_of_mem_splitOn (h : part ∈ splitOn sep s) : sep ∉ part := by
  obtain ⟨first, others, hs⟩ := exists_splitOn_eq_cons sep s
  obtain ⟨-, hfirst, hothers⟩ := splitOn_eq_iff.1 hs
  rw [hs] at h
  rcases List.mem_cons.1 h with rfl | hmem
  · exact hfirst
  · exact hothers part hmem

/-! ## Fronts -/

variable {keep : Char → Bool}

/-- The front of a text that passes a test ends where a character fails it. -/
theorem takeWhile_append_stop (hfront : ∀ d ∈ s, keep d = true) (hstop : keep c = false) :
    (s ++ c :: rest).takeWhile keep = s := by
  have hrest : ¬ keep c = true := by simp [hstop]
  rw [List.takeWhile_append_of_pos hfront, List.takeWhile_cons_of_neg hrest, List.append_nil]

/-- And that character is the first one behind it. -/
theorem dropWhile_append_stop (hfront : ∀ d ∈ s, keep d = true) (hstop : keep c = false) :
    (s ++ c :: rest).dropWhile keep = c :: rest := by
  have hrest : ¬ keep c = true := by simp [hstop]
  rw [List.dropWhile_append_of_pos hfront, List.dropWhile_cons_of_neg hrest]

/-- A text is cut at the first occurrence of a character, if there is one. -/
theorem cut_cases (d : Char) (s : List Char) :
    (d ∉ s ∧ s.dropWhile (· ≠ d) = []) ∨
      ∃ rest, s.dropWhile (· ≠ d) = d :: rest ∧ d ∉ s.takeWhile (· ≠ d) ∧
        s = s.takeWhile (· ≠ d) ++ d :: rest := by
  have hfront : d ∉ s.takeWhile (· ≠ d) := fun hmem => by
    simpa using List.all_eq_true.1 List.all_takeWhile d hmem
  have hall : s.takeWhile (· ≠ d) ++ s.dropWhile (· ≠ d) = s := List.takeWhile_append_dropWhile
  have hhead := List.head?_dropWhile_not (· ≠ d) s
  cases hdrop : s.dropWhile (· ≠ d) with
  | nil =>
    rw [hdrop, List.append_nil] at hall
    exact .inl ⟨hall ▸ hfront, rfl⟩
  | cons c rest =>
    rw [hdrop] at hall hhead
    have hc : c = d := by simpa using hhead
    rw [hc] at hall ⊢
    exact .inr ⟨rest, rfl, hfront, hall.symm⟩

/-! ## Replacements -/

/-- The text with a replacement for each occurrence of a pattern. -/
def replace (pattern replacement : List Char) : List Char → List Char
  | [] => []
  | c :: rest =>
    if pattern.isPrefixOf (c :: rest) then
      replacement ++ replace pattern replacement (rest.drop (pattern.length - 1))
    else c :: replace pattern replacement rest
termination_by s => s.length
decreasing_by all_goals simp only [List.length_drop, List.length_cons]; omega

@[simp] theorem replace_nil : replace pattern replacement [] = [] := by
  rw [replace]

theorem replace_cons : replace pattern replacement (c :: rest) =
    if pattern.isPrefixOf (c :: rest) then
      replacement ++ replace pattern replacement (rest.drop (pattern.length - 1))
    else c :: replace pattern replacement rest := by
  rw [replace]

theorem replace_cons_of_not (h : ¬ pattern.isPrefixOf (c :: rest) = true) :
    replace pattern replacement (c :: rest) = c :: replace pattern replacement rest := by
  rw [replace_cons, if_neg h]

/-- A pattern of two characters at the front of a text. -/
theorem replace_pair_self : replace [a, c] replacement (a :: c :: rest) =
    replacement ++ replace [a, c] replacement rest := by
  rw [replace_cons, if_pos (by simp)]
  rfl

/-- Only the first character of a pattern of two at the front of a text. -/
theorem replace_pair_of_head? (h : s.head? ≠ some c) :
    replace [a, c] replacement (a :: s) = a :: replace [a, c] replacement s := by
  refine replace_cons_of_not fun hfront => h ?_
  cases s with
  | nil => simp at hfront
  | cons b s =>
    have hc : c = b := by simpa using hfront
    rw [List.head?_cons, hc]

/-- Replacing one character replaces each by itself. -/
theorem replace_singleton :
    replace [a] replacement s = s.flatMap fun c => if c = a then replacement else [c] := by
  induction s with
  | nil => rw [replace_nil, List.flatMap_nil]
  | cons c rest ih =>
    rw [replace_cons, List.flatMap_cons]
    by_cases hc : c = a
    · simp [hc, ih]
    · simp [hc, Ne.symm hc, ih]

/-! ## Numerals -/

/-- **A number is the value of its numeral.** -/
theorem decimalValue_decimal (n : Nat) : decimalValue (decimal n).toList = n := by
  rw [decimal, String.toList_ofList]
  exact Nat.ofDigitChars_ten_toDigits

theorem decimal_ne_nil (n : Nat) : (decimal n).toList ≠ [] := by
  rw [decimal, String.toList_ofList]
  exact Nat.toDigits_ne_nil

theorem isDigit_of_mem_decimal {n : Nat} (h : c ∈ (decimal n).toList) : c.isDigit = true := by
  rw [decimal, String.toList_ofList] at h
  exact Nat.isDigit_of_mem_toDigits (by decide) (by decide) h

end Text

end TypedClient
