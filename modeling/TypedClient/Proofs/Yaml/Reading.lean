import TypedClient.Proofs.Yaml.Conversion
/-!
# The keys of a YAML value that is read

A text is read only if each key of a mapping is a value of its own
(`keysDiffer_of_ofText?`): a key that equals one before it ends the reading, at any
depth and also behind aliases. Where all keys are strings, their texts differ with
them, so the conversion keeps every entry (`converted_of_ofText?`).
-/

namespace TypedClient

namespace Yaml

variable {v : Value} {items : List Value} {before entries : List (Value × Value)}
variable {text tag : String} {tag? : Option String} {style : Style}
variable {g : Graph} {n : Node Nat} {nodes : List (Node Nat)} {pairs : List (Node Nat × Node Nat)}
variable {limit left rest : Nat} {value? : Node Nat → Nat → Option (Value × Nat)}

namespace Value

/-! ## Values from their parts -/

theorem keysDiffer_tagged (h : KeysDiffer v) : KeysDiffer (.tagged tag v) := by
  intro entries hinside
  cases hinside with
  | tagged hinside => exact h entries hinside

theorem keysDiffer_withTag (h : KeysDiffer v) : KeysDiffer (withTag tag? v) := by
  unfold withTag
  split
  · exact keysDiffer_tagged h
  · exact h

theorem keysDiffer_sequence (h : ∀ v ∈ items, KeysDiffer v) : KeysDiffer (.sequence items) := by
  intro entries hinside
  cases hinside with
  | item hv hinside => exact h _ hv entries hinside

theorem keysDiffer_mapping (hdiffer : entries.Pairwise fun e f => e.1.same f.1 = false)
    (h : ∀ e ∈ entries, KeysDiffer e.2) : KeysDiffer (.mapping entries) := by
  intro inner hinside
  cases hinside with
  | self => exact hdiffer
  | entry he hinside => exact h _ he inner hinside

/-! ## Scalars -/

/-- An untagged scalar holds no mapping. -/
theorem keysDiffer_of_ofPlain? (h : ofPlain? text = some v) : KeysDiffer v := by
  unfold ofPlain? at h
  repeat' split at h
  all_goals cases h
  all_goals exact fun entries hinside => nomatch hinside

/-- A scalar holds no mapping, whatever its tag asks for. -/
theorem keysDiffer_of_ofScalar? (h : ofScalar? tag? style text = some v) : KeysDiffer v := by
  have huntagged (w : Value)
      (hw : (if style == .plain then ofPlain? text else some (.string text)) = some w) :
      KeysDiffer w := by
    split at hw
    · exact keysDiffer_of_ofPlain? hw
    · cases hw
      exact fun entries hinside => nomatch hinside
  unfold ofScalar? at h
  dsimp only at h
  split at h
  · exact huntagged v h
  · obtain ⟨b, -, rfl⟩ := Option.map_eq_some_iff.1 h
    exact fun entries hinside => nomatch hinside
  · split at h
    · cases h
      exact fun entries hinside => nomatch hinside
    · cases h
  · obtain ⟨x, -, rfl⟩ := Option.map_eq_some_iff.1 h
    exact fun entries hinside => nomatch hinside
  · split at h
    · cases h
      exact fun entries hinside => nomatch hinside
    · cases h
  · split at h
    · obtain ⟨w, hw, rfl⟩ := Option.map_eq_some_iff.1 h
      exact keysDiffer_tagged (huntagged w hw)
    · cases h
      exact fun entries hinside => nomatch hinside

end Value

namespace Graph

open Value

/-! ## Collections -/

/-- What holds of the values of all nodes holds of the values of items. -/
theorem forall_of_items? {P : Value → Prop}
    (hvalue : ∀ n left v rest, value? n left = some (v, rest) → P v)
    (h : items? value? nodes left = some (items, rest)) : ∀ v ∈ items, P v := by
  induction nodes generalizing left items rest with
  | nil =>
    cases h
    simp
  | cons node nodes ih =>
    rw [items?] at h
    split at h
    · cases h
    · rename_i w left' hw
      obtain ⟨⟨others, rest'⟩, hothers, heq⟩ := Option.map_eq_some_iff.1 h
      cases heq
      exact List.forall_mem_cons.2 ⟨hvalue _ _ _ _ hw, ih hothers⟩

/-- Entries are added one by one, each with a key that no entry before it has. -/
theorem pairwise_of_entries? (h : entries? value? before pairs left = some (entries, rest))
    (hbefore : before.Pairwise fun e f => e.1.same f.1 = false) :
    entries.Pairwise fun e f => e.1.same f.1 = false := by
  induction pairs generalizing before left with
  | nil =>
    cases h
    exact hbefore
  | cons pair pairs ih =>
    rw [entries?] at h
    split at h
    · cases h
    · split at h
      · cases h
      · rename_i key _ _ hnew
        split at h
        · cases h
        · refine ih h (List.pairwise_append.2 ⟨hbefore, List.pairwise_singleton _ _, ?_⟩)
          intro e he f hf
          rw [List.mem_singleton.1 hf]
          exact eq_false_of_ne_true fun hsame => hnew (List.any_eq_true.2 ⟨e, he, hsame⟩)

theorem forall_of_entries? {P : Value → Prop}
    (hvalue : ∀ n left v rest, value? n left = some (v, rest) → P v)
    (h : entries? value? before pairs left = some (entries, rest))
    (hbefore : ∀ e ∈ before, P e.2) : ∀ e ∈ entries, P e.2 := by
  induction pairs generalizing before left with
  | nil =>
    cases h
    exact hbefore
  | cons pair pairs ih =>
    rw [entries?] at h
    split at h
    · cases h
    · split at h
      · cases h
      · split at h
        · cases h
        · rename_i w left' hw
          refine ih h fun e he => ?_
          obtain he | he := List.mem_append.1 he
          · exact hbefore e he
          · rw [List.mem_singleton.1 he]
            exact hvalue _ _ _ _ hw

/-- **Where a value comes from**: a scalar, or a collection that is one level less
deep. -/
theorem value?_cases (h : g.value? limit n left = some (v, rest)) :
    (∃ tag? style text, ofScalar? tag? style text = some v) ∨
      (∃ inner tag? nodes left items, limit = inner + 1 ∧
        items? (g.value? inner) nodes left = some (items, rest) ∧
          v = withTag tag? (.sequence items)) ∨
      ∃ inner tag? pairs left entries, limit = inner + 1 ∧
        entries? (g.value? inner) [] pairs left = some (entries, rest) ∧
          v = withTag tag? (.mapping entries) := by
  unfold Graph.value? at h
  split at h
  · cases h
  · split at h
    · cases h
    · obtain ⟨w, hw, heq⟩ := Option.map_eq_some_iff.1 h
      cases heq
      exact .inl ⟨_, _, _, hw⟩
    · cases h
    · obtain ⟨⟨items, rest'⟩, hitems, heq⟩ := Option.map_eq_some_iff.1 h
      cases heq
      exact .inr (.inl ⟨_, _, _, _, items, rfl, hitems, rfl⟩)
    · cases h
    · obtain ⟨⟨entries, rest'⟩, hentries, heq⟩ := Option.map_eq_some_iff.1 h
      cases heq
      exact .inr (.inr ⟨_, _, _, _, entries, rfl, hentries, rfl⟩)

/-- **The value of a node has different keys in every mapping**, by induction on the
number of collections that may stand inside each other. -/
theorem keysDiffer_of_value? (h : g.value? limit n left = some (v, rest)) : KeysDiffer v := by
  induction limit using Nat.strongRecOn generalizing n left v rest with
  | _ limit ih =>
    obtain ⟨tag?, style, text, htext⟩ | ⟨inner, tag?, nodes, left', items, rfl, hitems, rfl⟩ |
      ⟨inner, tag?, pairs, left', entries, rfl, hentries, rfl⟩ := value?_cases h
    · exact keysDiffer_of_ofScalar? htext
    · have hparts := forall_of_items? (fun n left v rest => ih inner inner.lt_succ_self) hitems
      exact keysDiffer_withTag (keysDiffer_sequence hparts)
    · have hparts := forall_of_entries? (fun n left v rest => ih inner inner.lt_succ_self)
        hentries (by simp)
      have hdiffer := pairwise_of_entries? hentries List.Pairwise.nil
      exact keysDiffer_withTag (keysDiffer_mapping hdiffer hparts)

end Graph

namespace Value

/-- **A text is read only where the keys of each mapping are different values.** -/
theorem keysDiffer_of_ofText? (h : ofText? text = some v) : KeysDiffer v := by
  unfold ofText? at h
  split at h
  · cases h
  · cases h
    exact fun entries hinside => nomatch hinside
  · obtain ⟨⟨w, rest⟩, hw, rfl⟩ := Option.map_eq_some_iff.1 h
    exact Graph.keysDiffer_of_value? hw

/-- **Strings as keys lose no entry.** What is read from a text all of whose keys are
strings is converted with all its entries, in their order, at every depth. -/
theorem converted_of_ofText? (h : ofText? text = some v)
    (hstrings : ∀ entries, (Value.mapping entries).Inside v → ∀ e ∈ entries, ∃ s, e.1 = .string s) :
    Converted Eq v v.toJson := by
  refine (toJson_converted v).2.2 fun entries hinside => ?_
  rw [List.nodup_iff_pairwise_ne, List.pairwise_map]
  refine (keysDiffer_of_ofText? h entries hinside).imp_of_mem fun {e f} he hf hdiffer hsame => ?_
  obtain ⟨s, hs⟩ := hstrings entries hinside e he
  obtain ⟨t, ht⟩ := hstrings entries hinside f hf
  rw [hs, ht] at hdiffer hsame
  -- strings are their own texts, and equal strings are equal keys
  have hst : s = t := hsame
  simp [same, hst] at hdiffer

end Value

end Yaml

end TypedClient
