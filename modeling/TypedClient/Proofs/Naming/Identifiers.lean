import Mathlib
import TypedClient.Proofs.Identifier
import TypedClient.Proofs.Naming
/-!
# Derived names are identifiers

A path may hold any characters, and so may the key of a response and the key of a
schema. The names made of them are identifiers all the same
(`derived_identifiers`). An operation starts with the verb of its method. What
follows the verb is made of the words of the path, runs of ASCII letters and
digits, which stay such when the case of letters changes. A status adds one of a
few known words. The key of a schema is sanitised, which changes everything but
identifiers.
-/

namespace TypedClient

namespace Text

variable {keep : Char → Bool} {s word : List Char} {c : Char}

/-- **The words of a text** have the characters that pass the test, in their
order, and no others. -/
theorem flatten_words (keep : Char → Bool) (s : List Char) :
    (words keep s).flatten = s.filter keep := by
  fun_induction words keep s with
  | case1 => rfl
  | case2 c hc => simp [hc]
  | case3 c hc => simp [hc]
  | case4 c d rest hc word more hwords hd ih =>
    rw [hwords, List.flatten_cons] at ih
    rw [List.flatten_cons, List.cons_append, ih, List.filter_cons_of_pos hc]
  | case5 c d rest hc _ ih =>
    -- the word ends here: the next character fails the test
    rw [List.flatten_cons, ih, List.filter_cons_of_pos hc, List.singleton_append]
  | case6 c d rest hc ih => rw [ih, List.filter_cons_of_neg hc]

theorem keep_of_mem_words (hword : word ∈ words keep s) (hc : c ∈ word) : keep c = true := by
  have hmem : c ∈ (words keep s).flatten := List.mem_flatten_of_mem hword hc
  rw [flatten_words] at hmem
  exact List.of_mem_filter hmem

end Text

/-! ## Letters and digits -/

section Letters

variable {c d : Char}

/-- A change that keeps letters letters, and anything else as it is, gives a letter
or a digit for one. -/
theorem isAlphanum_of_letter (hletter : d.isAlpha = c.isAlpha)
    (hother : ¬ c.isAlpha = true → d = c) (h : c.isAlphanum = true) : d.isAlphanum = true := by
  by_cases hc : c.isAlpha = true
  · rw [Char.isAlphanum, hletter, hc, Bool.true_or]
  · rw [hother hc]
    exact h

theorem isAlphanum_toUpper (h : c.isAlphanum = true) : c.toUpper.isAlphanum = true := by
  refine isAlphanum_of_letter (Char.isAlpha_toUpper_eq_isAlpha c) (fun hother => ?_) h
  refine Char.toUpper_eq_of_not_isLower fun hlower => hother ?_
  rw [Char.isAlpha, hlower, Bool.or_true]

theorem isAlphanum_toLower (h : c.isAlphanum = true) : c.toLower.isAlphanum = true := by
  refine isAlphanum_of_letter (Char.isAlpha_toLower_eq_isAlpha c) (fun hother => ?_) h
  refine Char.toLower_eq_of_not_isUpper fun hupper => hother ?_
  rw [Char.isAlpha, hupper, Bool.true_or]

/-- Letters and digits are characters of identifiers. -/
theorem isPart_of_isAlphanum (h : c.isAlphanum = true) : Identifier.isPart c = true := by
  rw [Identifier.isPart, h, Bool.true_or, Bool.true_or]

end Letters

namespace Naming

variable {method : Method} {c : Char} {word segment : List Char}

theorem isAlphanum_of_mem_capitalized (hword : ∀ d ∈ word, d.isAlphanum = true)
    (hc : c ∈ capitalized word) : c.isAlphanum = true := by
  cases word with
  | nil => cases hc
  | cons first rest =>
    obtain ⟨hfirst, hrest⟩ := List.forall_mem_cons.1 hword
    rcases List.mem_cons.1 hc with rfl | hmem
    · exact isAlphanum_toUpper hfirst
    · obtain ⟨d, hd, rfl⟩ := List.mem_map.1 hmem
      exact isAlphanum_toLower (hrest d hd)

theorem isAlphanum_of_mem_segmentName (hc : c ∈ segmentName segment) : c.isAlphanum = true := by
  obtain ⟨word, hword, hmem⟩ := List.mem_flatMap.1 hc
  exact isAlphanum_of_mem_capitalized (fun d hd => Text.keep_of_mem_words hword hd) hmem

/-- **What follows the verb** of an operation are letters and digits. -/
theorem isAlphanum_of_mem_pathName {segments : List (List Char)}
    (hc : c ∈ pathName method segments) : c.isAlphanum = true := by
  induction segments with
  | nil => cases hc
  | cons segment after ih =>
    rw [pathName] at hc
    rcases List.mem_append.1 hc with hsegment | hafter
    · split at hsegment
      · cases hsegment
      · exact isAlphanum_of_mem_segmentName hsegment
    · exact ih hafter

theorem all_isPart_pathName (method : Method) (segments : List (List Char)) :
    (String.ofList (pathName method segments)).toList.all Identifier.isPart = true := by
  refine Identifier.all_isPart_ofList (List.all_eq_true.2 fun c hc => ?_)
  exact isPart_of_isAlphanum (isAlphanum_of_mem_pathName hc)

/-- The types of an operation start with the verb made large. -/
theorem upperFirst_functionName (method : Method) (path : String) :
    upperFirst (functionName method path) =
      upperFirst (verb method) ++ String.ofList (pathName method (segments path)) := by
  rw [← String.toList_inj, toList_upperFirst_functionName, String.toList_append,
    String.toList_ofList]

theorem isIdentifier_functionName (method : Method) (path : String) :
    Identifier.isIdentifier (functionName method path) = true := by
  have hverb : Identifier.isIdentifier (verb method) = true := by cases method <;> rfl
  exact Identifier.isIdentifier_append hverb (all_isPart_pathName method _)

theorem isIdentifier_upperFirst_functionName (method : Method) (path : String) :
    Identifier.isIdentifier (upperFirst (functionName method path)) = true := by
  have hverb : Identifier.isIdentifier (upperFirst (verb method)) = true := by
    cases method <;> rfl
  rw [upperFirst_functionName]
  exact Identifier.isIdentifier_append hverb (all_isPart_pathName method _)

end Naming

/-! ## Words for statuses -/

namespace Status

theorem all_isPart_of_phrase? {n : Nat} {phrase : String} (h : phrase? n = some phrase) :
    phrase.toList.all Identifier.isPart = true := by
  unfold phrase? at h
  split at h <;> cases h <;> exact Identifier.all_isPart_ofList rfl

/-- The word for any status has only characters of identifiers. -/
theorem all_isPart_word (status : Status) : status.word.toList.all Identifier.isPart = true := by
  fun_cases word status with
  | case1 n =>
    cases hphrase : phrase? n with
    | none => rfl
    | some phrase => exact all_isPart_of_phrase? hphrase
  | _ => rfl

end Status

namespace Names

variable {n : Names}

theorem OfOperation.isIdentifier_function (h : n.OfOperation) :
    Identifier.isIdentifier n.function = true := by
  obtain ⟨method, path, rfl⟩ := h
  exact Naming.isIdentifier_functionName method path

/-- The types of an operation are identifiers if what they end in allows it. -/
theorem OfOperation.isIdentifier_base_append (h : n.OfOperation) {suffix : String}
    (hsuffix : suffix.toList.all Identifier.isPart = true) :
    Identifier.isIdentifier (n.base ++ suffix) = true := by
  obtain ⟨method, path, rfl⟩ := h
  exact Identifier.isIdentifier_append (Naming.isIdentifier_upperFirst_functionName method path)
    hsuffix

theorem OfOperation.isIdentifier_variant (h : n.OfOperation) (status : Status) :
    Identifier.isIdentifier (n.variant status) = true := by
  rw [variant, String.append_assoc]
  refine h.isIdentifier_base_append ?_
  rw [String.toList_append, List.all_append, Status.all_isPart_word, Bool.true_and]
  rfl

/-- The second text starts with the first one, its first letter made large. -/
def StartsCapitalized (name longer : String) : Prop :=
  ∃ first rest, name.toList = first :: rest ∧ first.isLower = true ∧
    first.toUpper :: rest <+: longer.toList

theorem OfOperation.startsCapitalized (h : n.OfOperation) (suffix : String) :
    StartsCapitalized n.function (n.base ++ suffix) := by
  obtain ⟨first, hfirst, rest, hfunction, hbase⟩ := h.first
  have hlower : first.isLower = true := List.all_eq_true.1 (by rfl) first hfirst
  refine ⟨first, rest, hfunction, hlower, ?_⟩
  rw [String.toList_append, hbase]
  exact List.prefix_append _ _

/-- **Every derived name is an identifier.** This goes for the function and the
types of an operation, whatever its path and the keys of its responses: the
function starts with the verb of the method, and the types start with the name of
the function capitalised. It goes for any sanitised text, and so for the name of
the type for any pointer; sanitising keeps a text exactly if it is an identifier,
and so changes nothing the second time. -/
theorem derived_identifiers (method : Method) (path key pointer text : String) :
    let names := ofPath method path
    let variant := names.variant (Status.ofKey key)
    (Identifier.isIdentifier names.function = true ∧
      Identifier.isIdentifier names.params = true ∧
      Identifier.isIdentifier names.result = true ∧
      Identifier.isIdentifier variant = true) ∧
    ((Naming.verb method).toList <+: names.function.toList ∧
      StartsCapitalized names.function names.params ∧
      StartsCapitalized names.function names.result ∧
      StartsCapitalized names.function variant) ∧
    (Identifier.isIdentifier (Identifier.sanitize text) = true ∧
      (Identifier.sanitize text = text ↔ Identifier.isIdentifier text = true) ∧
      Identifier.sanitize (Identifier.sanitize text) = Identifier.sanitize text) ∧
    Identifier.isIdentifier (Pointer.typeName pointer) = true := by
  intro names variant
  have hnames : names.OfOperation := ⟨method, path, rfl⟩
  have hverb : (Naming.verb method).toList <+: names.function.toList := by
    have hfunction : names.function.toList = _ := Naming.toList_functionName method path
    rw [hfunction]
    exact List.prefix_append _ _
  have hvariant : variant = names.base ++ ((Status.ofKey key).word ++ "Result") :=
    String.append_assoc ..
  refine ⟨⟨hnames.isIdentifier_function, hnames.isIdentifier_base_append rfl,
    hnames.isIdentifier_base_append rfl, hnames.isIdentifier_variant _⟩,
    ⟨hverb, hnames.startsCapitalized _, hnames.startsCapitalized _, ?_⟩,
    ⟨Identifier.isIdentifier_sanitize text, Identifier.sanitize_eq_self_iff text,
      Identifier.sanitize_sanitize text⟩, Pointer.isIdentifier_typeName pointer⟩
  rw [hvariant]
  exact hnames.startsCapitalized _

end Names

end TypedClient
