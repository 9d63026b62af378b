import TypedClient.Proofs.Json.Members
import TypedClient.Proofs.Text
/-!
# Pointers and the paths of a document

A path leads from the root of a document to a node, by the key of a member or
the position of an item at each step (`Leads`). The pointer that spells a path
out leads to the node at its end, however the keys on the way are spelled; and
a pointer that leads anywhere spells out a path to that place
(`resolve_ofPath`).

Both rest on two facts about texts. An escaped key has no slash and is read
back as the key (`unescape_escape`), so that cutting a pointer at its slashes
gives back the tokens it was put together from (`tokens?_eq_some_iff`).
-/

namespace TypedClient

namespace Pointer

open Json

variable {key pointer : String} {last : List Char} {tokens : List (List Char)}
variable {document value next : Json}

/-! ## Escaping -/

/-- What stands for one character of a key. -/
def escapeChar (c : Char) : List Char :=
  if c = '~' then ['~', '0'] else if c = '/' then ['~', '1'] else [c]

theorem escape_eq_flatMap (k : List Char) : escape k = k.flatMap escapeChar := by
  induction k with
  | nil => rfl
  | cons c rest ih =>
    rw [escape, List.flatMap_cons, escapeChar, ih]
    split
    · rfl
    · split <;> rfl

theorem slash_not_mem_escape (k : List Char) : '/' ∉ escape k := by
  rw [escape_eq_flatMap, List.mem_flatMap]
  rintro ⟨c, -, hc⟩
  rw [escapeChar] at hc
  split at hc
  · simp at hc
  · split at hc
    · simp at hc
    · rename_i hne
      exact hne (List.mem_singleton.1 hc).symm

/-- A character without a meaning of its own stands for itself. -/
theorem unescape_cons_of_ne {c : Char} (h : c ≠ '~') (rest : List Char) :
    unescape (c :: rest) = c :: unescape rest := by
  rw [unescape]
  · intro _ hc
    exact absurd hc h
  · intro _ hc
    exact absurd hc h

/-- **A key is read back from its token.** -/
theorem unescape_escape (k : List Char) : unescape (escape k) = k := by
  induction k with
  | nil => rfl
  | cons c rest ih =>
    rw [escape]
    split
    · rename_i hc
      rw [unescape, ih, hc]
    · rename_i hc
      split
      · rename_i hslash
        rw [unescape, ih, hslash]
      · rw [unescape_cons_of_ne hc, ih]

/-- A token is the key with its tildes replaced, and then its slashes. -/
theorem escape_eq_replace (k : List Char) :
    escape k = Text.replace ['/'] ['~', '1'] (Text.replace ['~'] ['~', '0'] k) := by
  rw [Text.replace_singleton, Text.replace_singleton, List.flatMap_assoc, escape_eq_flatMap]
  refine List.flatMap_congr fun c _ => ?_
  rw [escapeChar]
  split
  · rfl
  · split <;> simp_all

/-- Putting slashes for `~1` puts no zero at the front of a text that has
none there. -/
theorem head?_replace_slash {t : List Char} (h : t.head? ≠ some '0') :
    (Text.replace ['~', '1'] ['/'] t).head? ≠ some '0' := by
  cases t with
  | nil => simp
  | cons c rest =>
    rw [Text.replace_cons]
    split
    · simp
    · simpa using h

/-- A key is the token with `~1` replaced by a slash, and then `~0` by a
tilde. -/
theorem unescape_eq_replace (t : List Char) :
    unescape t = Text.replace ['~', '0'] ['~'] (Text.replace ['~', '1'] ['/'] t) := by
  fun_induction unescape t with
  | case1 => simp
  | case2 rest ih =>
    rw [Text.replace_pair_of_head? (by simp), Text.replace_cons_of_not (c := '0') (by simp),
      Text.replace_pair_self, ← ih]
    rfl
  | case3 rest ih =>
    rw [Text.replace_pair_self, List.singleton_append, Text.replace_cons_of_not (by simp), ← ih]
  | case4 c rest hzero hone ih =>
    by_cases hc : c = '~'
    · subst hc
      -- the tilde stays, as nothing behind it becomes a zero
      have hrest : rest.head? ≠ some '0' := by
        intro h
        obtain ⟨tail, rfl⟩ := List.head?_eq_some_iff.1 h
        exact hzero tail rfl rfl
      have hrest' : rest.head? ≠ some '1' := by
        intro h
        obtain ⟨tail, rfl⟩ := List.head?_eq_some_iff.1 h
        exact hone tail rfl rfl
      rw [Text.replace_pair_of_head? hrest', Text.replace_pair_of_head? (head?_replace_slash hrest),
        ← ih]
    · rw [Text.replace_cons_of_not (by simp [Ne.symm hc]),
        Text.replace_cons_of_not (by simp [Ne.symm hc]), ← ih]

/-! ## Tokens -/

/-- The pointer with the given tokens. -/
def ofTokens (tokens : List (List Char)) : String :=
  String.ofList ('#' :: tokens.flatMap ('/' :: ·))

/-- **The tokens of a pointer** are the texts without a slash that it is put
together from. -/
theorem tokens?_eq_some_iff :
    tokens? pointer = some tokens ↔ pointer = ofTokens tokens ∧ ∀ t ∈ tokens, '/' ∉ t := by
  rw [tokens?, ofTokens, ← String.toList_inj, String.toList_ofList]
  constructor
  · intro h
    split at h
    · rename_i hroot
      cases h
      exact ⟨hroot, by simp⟩
    · rename_i rest hrest
      obtain ⟨part, parts, hparts⟩ := Text.exists_splitOn_eq_cons '/' rest
      rw [Option.some.injEq, hparts] at h
      subst h
      obtain ⟨heq, hpart, hothers⟩ := Text.splitOn_eq_iff.1 hparts
      exact ⟨by rw [hrest, heq]; rfl, List.forall_mem_cons.2 ⟨hpart, hothers⟩⟩
    · cases h
  · rintro ⟨hpointer, htokens⟩
    rw [hpointer]
    cases tokens with
    | nil => rfl
    | cons part parts =>
      obtain ⟨hpart, hothers⟩ := List.forall_mem_cons.1 htokens
      exact congrArg some (Text.splitOn_append hpart hothers)

/-- The last token of a pointer is behind its last slash. -/
theorem lastSegment_ofTokens_append (htokens : ∀ t ∈ tokens, '/' ∉ t) (hlast : '/' ∉ last) :
    lastSegment (ofTokens (tokens ++ [last])) = last := by
  have hall : ∀ t ∈ tokens ++ [last], '/' ∉ t := by
    simpa [or_imp, forall_and] using And.intro htokens hlast
  rw [lastSegment, ofTokens, String.toList_ofList]
  have hsign : '/' ∉ ['#'] := by decide
  have hparts : Text.splitOn '/' ('#' :: (tokens ++ [last]).flatMap ('/' :: ·)) =
      ['#'] :: (tokens ++ [last]) := Text.splitOn_append hsign hall
  rw [hparts, List.getLast?_cons, List.getLast?_append]
  rfl

/-! ## Paths -/

/-- A step on the way into a document. -/
inductive Step
  /-- To the member with a key. -/
  | member (key : String)
  /-- To the item at a position. -/
  | item (position : Nat)

/-- A step as one token of a pointer. -/
def Step.token : Step → String
  | .member key => escapeToken key
  | .item position => Text.decimal position

/-- The pointer that spells out a path. -/
def ofPath (path : List Step) : String := ofTokens (path.map (·.token.toList))

/-- The steps of a path lead from a document to a node. -/
inductive Leads : Json → List Step → Json → Prop
  /-- No step leads away from the root. -/
  | root {value : Json} : Leads value [] value
  /-- A step to a member. -/
  | member {members : List (String × Json)} {key : String} {next value : Json}
    {path : List Step} : (key, next) ∈ members → Leads next path value →
      Leads (.object members) (.member key :: path) value
  /-- A step to an item. -/
  | item {items : List Json} {position : Nat} {next value : Json} {path : List Step} :
      items[position]? = some next → Leads next path value →
      Leads (.array items) (.item position :: path) value

/-- A token decodes to a step: to the key that it stands for, or to the
position that it is a numeral of, after a plus sign if there is one. -/
inductive Denotes : List Char → Step → Prop
  /-- The token of a key. -/
  | member {token : List Char} {key : String} :
      unescape token = key.toList → Denotes token (.member key)
  /-- The token of a position. -/
  | item {token digits : List Char} :
      unescape token = digits ∨ unescape token = '+' :: digits → digits ≠ [] →
      (∀ c ∈ digits, c.isDigit = true) → Denotes token (.item (Text.decimalValue digits))

theorem leads_cons_iff {step : Step} {path : List Step} :
    Leads document (step :: path) value ↔
      ∃ next, Leads document [step] next ∧ Leads next path value := by
  constructor
  · intro h
    cases h with
    | member hmem hrest => exact ⟨_, .member hmem .root, hrest⟩
    | item hitem hrest => exact ⟨_, .item hitem .root, hrest⟩
  · rintro ⟨next, hstep, hrest⟩
    cases hstep with
    | member hmem hroot =>
      cases hroot
      exact .member hmem hrest
    | item hitem hroot =>
      cases hroot
      exact .item hitem hrest

/-! ## Decoding -/

/-- A text without a tilde stands for itself. -/
theorem unescape_eq_self {t : List Char} (h : '~' ∉ t) : unescape t = t := by
  induction t with
  | nil => rfl
  | cons c rest ih =>
    rw [List.mem_cons, not_or] at h
    rw [unescape_cons_of_ne (Ne.symm h.1), ih h.2]

theorem position?_eq_some_iff {t : List Char} {i : Nat} :
    position? t = some i ↔ ∃ digits, (t = digits ∨ t = '+' :: digits) ∧ digits ≠ [] ∧
      (∀ c ∈ digits, c.isDigit = true) ∧ Text.decimalValue digits = i := by
  have hread : ∀ digits : List Char,
      (if digits.isEmpty || !digits.all Char.isDigit then none
        else some (Text.decimalValue digits)) = some i ↔
      digits ≠ [] ∧ (∀ c ∈ digits, c.isDigit = true) ∧ Text.decimalValue digits = i := by
    intro digits
    rw [Option.ite_none_left_eq_some, Option.some.injEq, Bool.or_eq_true, not_or,
      List.isEmpty_iff, Bool.not_eq_true', Bool.not_eq_false, List.all_eq_true, and_assoc]
  by_cases hsign : ∃ rest, t = '+' :: rest
  · obtain ⟨rest, rfl⟩ := hsign
    refine Iff.trans (hread rest) ?_
    constructor
    · exact fun h => ⟨rest, .inr rfl, h⟩
    · rintro ⟨digits, rfl | heq, hdigits⟩
      · -- a sign is not a digit
        exact absurd (hdigits.2.1 '+' List.mem_cons_self) (by decide)
      · cases heq
        exact hdigits
  · rw [position?, hread t]
    · constructor
      · exact fun h => ⟨t, .inl rfl, h⟩
      · rintro ⟨digits, rfl | rfl, hdigits⟩
        · exact hdigits
        · exact absurd ⟨digits, rfl⟩ hsign
    · exact fun rest heq => hsign ⟨rest, heq⟩

theorem denotes_member_iff {t : List Char} :
    Denotes t (.member key) ↔ String.ofList (unescape t) = key := by
  rw [← String.toList_inj, String.toList_ofList]
  refine ⟨fun h => ?_, .member⟩
  cases h with
  | member h => exact h

theorem denotes_item_iff {t : List Char} {i : Nat} :
    Denotes t (.item i) ↔ position? (unescape t) = some i := by
  rw [position?_eq_some_iff]
  constructor
  · intro h
    cases h with
    | item hsign hne hdigits => exact ⟨_, hsign, hne, hdigits, rfl⟩
  · rintro ⟨digits, hsign, hne, hdigits, rfl⟩
    exact .item hsign hne hdigits

/-- **The token of a step decodes to the step.** -/
theorem denotes_token (step : Step) : Denotes step.token.toList step := by
  cases step with
  | member key =>
    refine denotes_member_iff.2 ?_
    rw [Step.token, escapeToken, String.toList_ofList, unescape_escape, String.ofList_toList]
  | item i =>
    have htilde : '~' ∉ (Text.decimal i).toList :=
      fun h => absurd (Text.isDigit_of_mem_decimal h) (by decide)
    refine denotes_item_iff.2 (position?_eq_some_iff.2 ⟨(Text.decimal i).toList, ?_⟩)
    exact ⟨.inl (unescape_eq_self htilde), Text.decimal_ne_nil i,
      fun c hc => Text.isDigit_of_mem_decimal hc, Text.decimalValue_decimal i⟩

theorem slash_not_mem_token (step : Step) : '/' ∉ step.token.toList := by
  cases step with
  | member key =>
    rw [Step.token, escapeToken, String.toList_ofList]
    exact slash_not_mem_escape _
  | item i => exact fun h => absurd (Text.isDigit_of_mem_decimal h) (by decide)

/-! ## Walking -/

/-- One step of the walk is the step that the token decodes to. -/
theorem step?_eq_some_iff (hregular : document.Regular) {t : List Char} :
    step? t document = some next ↔ ∃ step, Denotes t step ∧ Leads document [step] next := by
  constructor
  · intro h
    cases document with
    | object members => exact ⟨_, denotes_member_iff.2 rfl, .member (mem_of_find? h) .root⟩
    | array items =>
      rw [step?] at h
      split at h
      · rename_i i hi
        exact ⟨_, denotes_item_iff.2 hi, .item h .root⟩
      · cases h
    | _ => cases h
  · rintro ⟨step, hdenotes, hleads⟩
    cases hleads with
    | member hmem hroot =>
      cases hroot
      rw [step?, denotes_member_iff.1 hdenotes]
      exact (find?_eq_some_iff hregular.nodup_keys).2 hmem
    | item hitem hroot =>
      cases hroot
      rw [step?, denotes_item_iff.1 hdenotes]
      exact hitem

/-- **The walk along tokens follows the path that they decode to.** -/
theorem walk?_eq_some_iff (hregular : document.Regular) :
    walk? tokens document = some value ↔
      ∃ path, List.Forall₂ Denotes tokens path ∧ Leads document path value := by
  induction tokens generalizing document with
  | nil =>
    rw [walk?, Option.some.injEq]
    constructor
    · rintro rfl
      exact ⟨[], .nil, .root⟩
    · rintro ⟨path, hdenotes, hleads⟩
      cases hdenotes
      cases hleads
      rfl
  | cons t rest ih =>
    rw [walk?]
    constructor
    · intro h
      split at h
      · rename_i next hnext
        obtain ⟨step, hdenotes, hstep⟩ := (step?_eq_some_iff hregular).1 hnext
        obtain ⟨path, hpath, hrest⟩ := (ih (hregular.part (part_of_step? hnext))).1 h
        exact ⟨step :: path, .cons hdenotes hpath, leads_cons_iff.2 ⟨next, hstep, hrest⟩⟩
      · cases h
    · rintro ⟨path, hdenotes, hleads⟩
      cases hdenotes with
      | cons hstep hpath =>
        obtain ⟨next, hfirst, hrest⟩ := leads_cons_iff.1 hleads
        have hnext := (step?_eq_some_iff hregular).2 ⟨_, hstep, hfirst⟩
        rw [hnext]
        exact (ih (hregular.part (part_of_step? hnext))).2 ⟨_, hpath, hrest⟩

theorem resolve_eq_ok_iff :
    resolve document pointer = .ok value ↔ resolve? document pointer = some value := by
  rw [resolve]
  cases resolve? document pointer <;> simp

theorem resolve?_ofTokens (htokens : ∀ t ∈ tokens, '/' ∉ t) :
    resolve? document (ofTokens tokens) = walk? tokens document := by
  rw [resolve?, tokens?_eq_some_iff.2 ⟨rfl, htokens⟩]

/-- The pointer that spells out a path leads where the path leads. -/
theorem resolve_ofPath (hregular : document.Regular) {path : List Step}
    (hleads : Leads document path value) : resolve document (ofPath path) = .ok value := by
  have htokens : ∀ t ∈ path.map (·.token.toList), '/' ∉ t :=
    List.forall_mem_map.2 fun step _ => slash_not_mem_token step
  have hdenotes : List.Forall₂ Denotes (path.map (·.token.toList)) path :=
    List.forall₂_map_left_iff.2 (List.forall₂_same.2 fun step _ => denotes_token step)
  rw [resolve_eq_ok_iff, ofPath, resolve?_ofTokens htokens, walk?_eq_some_iff hregular]
  exact ⟨path, hdenotes, hleads⟩

/-- A pointer that leads anywhere decodes to a path there. -/
theorem resolve_eq_ok_iff_leads (hregular : document.Regular) :
    resolve document pointer = .ok value ↔ ∃ tokens path, pointer = ofTokens tokens ∧
      (∀ t ∈ tokens, '/' ∉ t) ∧ List.Forall₂ Denotes tokens path ∧
      Leads document path value := by
  rw [resolve_eq_ok_iff]
  constructor
  · intro h
    rw [resolve?] at h
    split at h
    · rename_i tokens htokens
      obtain ⟨heq, hslash⟩ := tokens?_eq_some_iff.1 htokens
      obtain ⟨path, hdenotes, hleads⟩ := (walk?_eq_some_iff hregular).1 h
      exact ⟨tokens, path, heq, hslash, hdenotes, hleads⟩
    · cases h
  · rintro ⟨tokens, path, rfl, hslash, hdenotes, hleads⟩
    rw [resolve?_ofTokens hslash, walk?_eq_some_iff hregular]
    exact ⟨path, hdenotes, hleads⟩

/-- The last key of a pointer to a member is the key of the member. -/
theorem lastKey_ofPath_append (path : List Step) (key : String) :
    lastKey (ofPath (path ++ [.member key])) = key := by
  have htokens : ∀ t ∈ path.map (·.token.toList), '/' ∉ t :=
    List.forall_mem_map.2 fun step _ => slash_not_mem_token step
  rw [lastKey, ofPath, List.map_append, List.map_singleton,
    lastSegment_ofTokens_append htokens (slash_not_mem_token _)]
  exact denotes_member_iff.1 (denotes_token (.member key))

/-- **Spelling out a path and resolving a pointer are inverse.** The pointer
of a path leads to the node that the path leads to, and the last key of a
pointer to a member is the key of the member, whatever the keys are. A pointer
leads to a node if and only if it is a number sign with tokens behind slashes
that decode to a path to that node; any other pointer is reported, as it
stands, as leading nowhere. A key becomes a token when its tildes are replaced
and then its slashes, and a token a key by the replacements back in the other
order. -/
theorem resolve_inverts_ofPath (document : Json) (hregular : document.Regular) :
    (∀ path value, Leads document path value → resolve document (ofPath path) = .ok value) ∧
    (∀ path key, lastKey (ofPath (path ++ [.member key])) = key) ∧
    (∀ pointer value, resolve document pointer = .ok value ↔ ∃ tokens path,
      pointer = ofTokens tokens ∧ (∀ t ∈ tokens, '/' ∉ t) ∧ List.Forall₂ Denotes tokens path ∧
      Leads document path value) ∧
    (∀ pointer, (∀ value, resolve document pointer ≠ .ok value) →
      resolve document pointer = .error (.unresolved pointer)) ∧
    (∀ key, (escapeToken key).toList =
      Text.replace ['/'] ['~', '1'] (Text.replace ['~'] ['~', '0'] key.toList)) ∧
    ∀ t, unescape t = Text.replace ['~', '0'] ['~'] (Text.replace ['~', '1'] ['/'] t) := by
  refine ⟨fun path value h => resolve_ofPath hregular h, lastKey_ofPath_append,
    fun pointer value => resolve_eq_ok_iff_leads hregular, fun pointer h => ?_,
    fun key => ?_, unescape_eq_replace⟩
  · rw [resolve] at h ⊢
    cases hfind : resolve? document pointer with
    | none => rfl
    | some value =>
      rw [hfind] at h
      exact absurd rfl (h value)
  · rw [escapeToken, String.toList_ofList, escape_eq_replace]

/-- In `\x7b"~1": [true, \x7b"": null\x7d]\x7d` the last value is at `#/~01/1/`. -/
theorem resolve_inverts_ofPath_of_tilde :
    resolve (.object [("~1", .array [.bool true, .object [("", .null)]])]) "#/~01/1/" =
      .ok .null := by
  have hregular : Regular (.object [("~1", .array [.bool true, .object [("", .null)]])]) := by
    have htrue : Regular (.bool true) := regular_of_leaf rfl rfl
    have hnull : Regular .null := regular_of_leaf rfl rfl
    simp [regular_object_iff, regular_array_iff, htrue, hnull]
  have hspelled : ofPath [.member "~1", .item 1, .member ""] = "#/~01/1/" := by decide
  rw [← hspelled]
  exact (resolve_inverts_ofPath _ hregular).1 _ _
    (.member List.mem_cons_self (.item rfl (.member List.mem_cons_self .root)))

end Pointer

end TypedClient
