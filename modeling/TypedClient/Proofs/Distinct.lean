import Mathlib.Data.List.Induction
import Mathlib.Data.List.Nodup
/-!
# Lists without repetitions

What one more entry does to a list without repetitions, and to the list of the
first occurrences in a list.
-/

namespace TypedClient

variable {α : Type} {xs : List α} {a : α}

theorem nodup_append_singleton_iff : (xs ++ [a]).Nodup ↔ xs.Nodup ∧ a ∉ xs := by
  rw [List.nodup_append_comm, List.singleton_append, List.nodup_cons, and_comm]

variable [BEq α] [LawfulBEq α]

/-- What occurs once more is not listed again. -/
theorem eraseDups_append_of_mem (h : a ∈ xs) : (xs ++ [a]).eraseDups = xs.eraseDups := by
  rw [List.eraseDups_append, List.removeAll, List.filter_singleton, List.elem_eq_true_of_mem h]
  exact List.append_nil _

/-- What occurs for the first time goes to the end. -/
theorem eraseDups_append_of_not_mem (h : a ∉ xs) :
    (xs ++ [a]).eraseDups = xs.eraseDups ++ [a] := by
  have hnew : List.elem a xs = false := by
    rw [← Bool.not_eq_true, List.elem_iff]
    exact h
  rw [List.eraseDups_append, List.removeAll, List.filter_singleton, hnew]
  rfl

/-- **First occurrences are different.** -/
theorem nodup_eraseDups (xs : List α) : xs.eraseDups.Nodup := by
  induction xs using List.reverseRecOn with
  | nil => exact List.nodup_nil
  | append_singleton xs a ih =>
    by_cases h : a ∈ xs
    · rw [eraseDups_append_of_mem h]
      exact ih
    · rw [eraseDups_append_of_not_mem h, nodup_append_singleton_iff, List.mem_eraseDups]
      exact ⟨ih, h⟩

/-- Where nothing is repeated, everything is a first occurrence. -/
theorem eraseDups_of_nodup (h : xs.Nodup) : xs.eraseDups = xs := by
  induction xs using List.reverseRecOn with
  | nil => rfl
  | append_singleton xs a ih =>
    obtain ⟨hxs, ha⟩ := nodup_append_singleton_iff.1 h
    rw [eraseDups_append_of_not_mem ha, ih hxs]

end TypedClient
