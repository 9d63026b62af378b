import Mathlib.Data.List.Nodup
import TypedClient.Naming
/-!
# Which names can be equal

The name of a function starts with the small first letter of its verb, and
the names of its types start with the same letter made large. So types never
have the name of a function, and equal names of types of one kind come from
equal functions (`Names.function_eq_of_base_eq`). The names of types of
arguments end differently from all others; those of results and of statuses
can be equal (`Names.variant_eq_iff` says when, for one operation).
-/

namespace TypedClient

namespace Naming

variable {method : Method} {path : String} {c d : Char}

/-- The first letters of verbs. -/
def initials : List Char := ['g', 'c', 'r', 'u', 'd']

/-- The name of a function starts with its verb. -/
theorem toList_functionName (method : Method) (path : String) :
    (functionName method path).toList =
      (verb method).toList ++ pathName method (segments path) := by
  rw [functionName, String.toList_append, String.toList_ofList]

/-- And so with the first letter of one. -/
theorem functionName_eq_cons (method : Method) (path : String) :
    ∃ c ∈ initials, ∃ rest, (functionName method path).toList = c :: rest := by
  rw [toList_functionName]
  cases method with
  | get => exact ⟨'g', by decide, _, rfl⟩
  | post => exact ⟨'c', by decide, _, rfl⟩
  | put => exact ⟨'r', by decide, _, rfl⟩
  | patch => exact ⟨'u', by decide, _, rfl⟩
  | delete => exact ⟨'d', by decide, _, rfl⟩

/-- The first three letters are those of the verb. -/
theorem take_functionName (method : Method) (path : String) :
    (functionName method path).toList.take 3 = (verb method).toList.take 3 := by
  rw [toList_functionName]
  cases method <;> rfl

/-- The first letters and the large ones made of them are all different. -/
theorem nodup_initials : (initials.map Char.toUpper ++ initials).Nodup := by decide

/-- Different first letters stay different when they are made large. -/
theorem toUpper_inj (hc : c ∈ initials) (hd : d ∈ initials) (h : c.toUpper = d.toUpper) :
    c = d :=
  List.inj_on_of_nodup_map nodup_initials.of_append_left hc hd h

/-- A large first letter is none of the small ones. -/
theorem toUpper_ne (hc : c ∈ initials) (hd : d ∈ initials) : c.toUpper ≠ d := by
  intro heq
  have hlarge : d ∈ initials.map Char.toUpper := heq ▸ List.mem_map_of_mem hc
  exact List.disjoint_of_nodup_append nodup_initials hlarge hd

theorem toList_upperFirst {name : String} {rest : List Char} (h : name.toList = c :: rest) :
    (upperFirst name).toList = c.toUpper :: rest := by
  rw [upperFirst, h]
  exact String.toList_ofList

/-- The types of an operation start with the verb, its first letter made
large. -/
theorem toList_upperFirst_functionName (method : Method) (path : String) :
    (upperFirst (functionName method path)).toList =
      (upperFirst (verb method)).toList ++ pathName method (segments path) := by
  have hname := toList_functionName method path
  cases method <;> exact toList_upperFirst hname

end Naming

namespace Names

open Naming

variable {n m : Names} {name suffix : String}

/-- Names that are those of an operation. -/
def OfOperation (n : Names) : Prop := ∃ method path, n = ofPath method path

/-- The function and what the types start with only differ in the first
letter. -/
theorem OfOperation.first (h : n.OfOperation) : ∃ c ∈ initials, ∃ rest,
    n.function.toList = c :: rest ∧ n.base.toList = c.toUpper :: rest := by
  obtain ⟨method, path, rfl⟩ := h
  obtain ⟨c, hc, rest, hlist⟩ := functionName_eq_cons method path
  exact ⟨c, hc, rest, hlist, toList_upperFirst hlist⟩

/-- **Types of one start belong to one function.** -/
theorem function_eq_of_base_eq (hn : n.OfOperation) (hm : m.OfOperation) (h : n.base = m.base) :
    n.function = m.function := by
  obtain ⟨c, hc, rest, hfunction, hbase⟩ := hn.first
  obtain ⟨d, hd, more, hother, hstart⟩ := hm.first
  rw [h, hstart, List.cons.injEq] at hbase
  obtain ⟨hletter, rfl⟩ := hbase
  rw [← String.toList_inj, hfunction, hother, toUpper_inj hc hd hletter.symm]

/-- **No type has the name of a function.** -/
theorem function_ne_base_append (hn : n.OfOperation) (hm : m.OfOperation) :
    n.function ≠ m.base ++ suffix := by
  obtain ⟨c, hc, rest, hfunction, -⟩ := hn.first
  obtain ⟨d, hd, more, -, hstart⟩ := hm.first
  rw [Ne, ← String.toList_inj, String.toList_append, hfunction, hstart, List.cons_append,
    List.cons.injEq, not_and]
  intro hletter
  exact absurd hletter.symm (toUpper_ne hd hc)

theorem function_ne_params (hn : n.OfOperation) (hm : m.OfOperation) : n.function ≠ m.params :=
  function_ne_base_append hn hm

theorem function_ne_result (hn : n.OfOperation) (hm : m.OfOperation) : n.function ≠ m.result :=
  function_ne_base_append hn hm

theorem function_ne_variant (hn : n.OfOperation) (hm : m.OfOperation) (status : Status) :
    n.function ≠ m.variant status := by
  rw [variant, String.append_assoc]
  exact function_ne_base_append hn hm

theorem function_eq_of_params_eq (hn : n.OfOperation) (hm : m.OfOperation)
    (h : n.params = m.params) : n.function = m.function :=
  function_eq_of_base_eq hn hm ((String.append_left_inj _).1 h)

theorem function_eq_of_result_eq (hn : n.OfOperation) (hm : m.OfOperation)
    (h : n.result = m.result) : n.function = m.function :=
  function_eq_of_base_eq hn hm ((String.append_left_inj _).1 h)

/-- What ends in one word does not end in another of the same length. -/
theorem append_params_ne_append_result (s t : String) : s ++ "Params" ≠ t ++ "Result" := by
  rw [Ne, ← String.toList_inj, String.toList_append, String.toList_append]
  intro h
  have hsuffix := (List.append_inj' h (by decide)).2
  revert hsuffix
  decide

theorem params_ne_result : n.params ≠ m.result := append_params_ne_append_result _ _

theorem params_ne_variant (status : Status) : n.params ≠ m.variant status :=
  append_params_ne_append_result _ _

/-- **Statuses of one operation share a name exactly if they share a
word.** -/
theorem variant_eq_iff (s t : Status) : n.variant s = n.variant t ↔ s.word = t.word := by
  rw [variant, variant, String.append_left_inj, String.append_right_inj]

end Names

end TypedClient
