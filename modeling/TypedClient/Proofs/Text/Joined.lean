import Mathlib.Data.List.DropRight
import Mathlib.Data.List.Infix
import TypedClient.Text.Blank
/-!
# Texts in others, joined and trimmed

A text occurs in another if it is a run of its characters (`occursIn_iff`). Texts
that stand together are joined within the others (`infix_join`). Trimming takes
the blank characters at an end, up to the first that is none.
-/

namespace TypedClient

namespace Text

variable {part s : List Char} {c d : Char} {sep first last : String} {xs ys : List String}

/-- **A text occurs in another** if it is a run of its characters. -/
theorem occursIn_iff : occursIn part s = true ↔ part <:+: s := by
  induction s with
  | nil => rw [occursIn, List.isEmpty_iff, List.infix_nil]
  | cons c rest ih =>
    rw [occursIn, Bool.or_eq_true, List.isPrefixOf_iff_prefix, ih, List.infix_cons_iff]

/-! ## Joined texts -/

theorem join_cons_cons {x y : String} :
    join sep (x :: y :: xs) = x ++ sep ++ join sep (y :: xs) := rfl

/-- Two runs of texts are joined with a separator between them. -/
theorem join_append (hxs : xs ≠ []) (hys : ys ≠ []) :
    join sep (xs ++ ys) = join sep xs ++ sep ++ join sep ys := by
  induction xs with
  | nil => exact absurd rfl hxs
  | cons x rest ih =>
    cases rest with
    | nil =>
      obtain ⟨y, others, rfl⟩ := List.exists_cons_of_ne_nil hys
      rfl
    | cons x' rest =>
      have hrest := ih (by simp)
      rw [List.cons_append, List.cons_append, join_cons_cons, join_cons_cons, ← List.cons_append,
        hrest]
      simp only [String.append_assoc]

/-- Texts that stand together among others are joined within them. -/
theorem infix_join (h : ys <:+: xs) (hys : ys ≠ []) :
    (join sep ys).toList <:+: (join sep xs).toList := by
  obtain ⟨front, behind, rfl⟩ := h
  have hbehind : (join sep ys).toList <+: (join sep (ys ++ behind)).toList := by
    cases behind with
    | nil => simp
    | cons z rest =>
      rw [join_append hys (by simp), String.append_assoc, String.toList_append]
      exact List.prefix_append _ _
  rw [List.append_assoc]
  cases front with
  | nil => exact hbehind.isInfix
  | cons x rest =>
    rw [join_append (by simp) (by simp [hys]), String.toList_append]
    exact hbehind.isInfix.trans (List.suffix_append _ _).isInfix

theorem trimEnd_append_blank (h : isBlank c = true) : trimEnd (s ++ [c]) = trimEnd s := by
  simp [trimEnd, List.foldr_append, h]

theorem trimEnd_append_mark (h : isBlank c = false) : trimEnd (s ++ [c]) = s ++ [c] := by
  induction s with
  | nil => simp [trimEnd, h]
  | cons d rest ih =>
    rw [trimEnd] at ih ⊢
    rw [List.cons_append, List.foldr_cons, ih]
    simp

/-- Trimming the end drops its blank characters. -/
theorem trimEnd_eq_rdropWhile (s : List Char) : trimEnd s = s.rdropWhile isBlank := by
  induction s using List.reverseRecOn with
  | nil => rfl
  | append_singleton s c ih =>
    cases hc : isBlank c with
    | true => rw [trimEnd_append_blank hc, List.rdropWhile_concat_pos _ _ _ hc, ih]
    | false => rw [trimEnd_append_mark hc, List.rdropWhile_concat_neg _ _ _ (by simp [hc])]

theorem trimEnd_eq_nil_iff : trimEnd s = [] ↔ ∀ c ∈ s, isBlank c = true := by
  rw [trimEnd_eq_rdropWhile, List.rdropWhile_eq_nil_iff]

/-- **Blank text** is all that trimming leaves nothing of. -/
theorem trim_eq_nil_iff : trim s = [] ↔ ∀ c ∈ s, isBlank c = true := by
  rw [trim, trimEnd_eq_nil_iff, trimStart]
  constructor
  · intro h c hc
    rw [← List.takeWhile_append_dropWhile (p := isBlank) (l := s)] at hc
    rcases List.mem_append.1 hc with hfront | hrest
    · exact List.mem_takeWhile_imp hfront
    · exact h c hrest
  · intro h c hc
    exact h c ((List.dropWhile_suffix isBlank).subset hc)

end Text

end TypedClient
