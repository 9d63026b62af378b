import TypedClient.Client.Template
import TypedClient.Proofs.Json.Text
/-!
# What addresses stand for

The body of a template literal is evaluated from left to right: escaped
characters stand for themselves, and arguments for the texts assigned to their
names. The address that is written for a server and a path stands for the server
and the path with the texts of its arguments, except where a dollar sign at the
end of the server meets a brace at the start of the path that is never closed:
there it stands for nothing (`evaluate_url`).
-/

namespace TypedClient

namespace Template

open Identifier (isPart isIdentifier)

variable {assign : String → String} {s t rest tail path before label : List Char}
variable {name : String} {c : Char} {bound : Nat}

/-! ## Evaluating a template literal -/

/-- The name of an argument that is read as a member, and the text behind the
closing brace. -/
def member? : List Char → Option (String × List Char)
  | '.' :: s =>
    match s.dropWhile isPart with
    | '\x7d' :: rest =>
      if isIdentifier (String.ofList (s.takeWhile isPart)) then
        some (String.ofList (s.takeWhile isPart), rest)
      else none
    | _ => none
  | '[' :: '"' :: s =>
    match Json.Reader.stringBody s with
    | some (name, ']' :: '\x7d' :: rest) => some (String.ofList name, rest)
    | _ => none
  | _ => none

/-- The name of the argument that a substitution takes, read from behind its
opening brace, and the text behind the closing one. -/
def substituted? (s : List Char) : Option (String × List Char) :=
  if "params".toList.isPrefixOf s then member? (s.drop "params".length) else none

theorem exists_front_of_member? (h : member? s = some (name, rest)) :
    ∃ front, s = front ++ '\x7d' :: rest := by
  unfold member? at h
  split at h
  · split at h
    · rename_i s _ _ hrest
      split at h
      · cases h
        refine ⟨'.' :: s.takeWhile isPart, ?_⟩
        rw [List.cons_append, ← hrest, List.takeWhile_append_dropWhile]
      · cases h
    · cases h
  · split at h
    · rename_i hbody
      cases h
      obtain ⟨c, front, rfl⟩ := Json.exists_front_of_stringBody hbody
      exact ⟨'[' :: '"' :: c :: (front ++ [']']), by simp⟩
    · cases h
  · cases h

/-- A substitution ends with a closing brace. -/
theorem exists_front_of_substituted? (h : substituted? s = some (name, rest)) :
    ∃ front, s = front ++ '\x7d' :: rest := by
  rw [substituted?] at h
  split at h
  · obtain ⟨front, hfront⟩ := exists_front_of_member? h
    refine ⟨s.take "params".length ++ front, ?_⟩
    rw [List.append_assoc, ← hfront, List.take_append_drop]
  · cases h

/-- Nothing is substituted where no brace is closed. -/
theorem substituted?_of_not_mem (h : '\x7d' ∉ s) : substituted? s = none := by
  cases hs : substituted? s with
  | none => rfl
  | some substitution =>
    obtain ⟨name, rest⟩ := substitution
    obtain ⟨front, rfl⟩ := exists_front_of_substituted? hs
    exact absurd (List.mem_append_right _ List.mem_cons_self) h

/-- **The text that the body of a template literal stands for**, for given texts
of the arguments. A backslash stands for the character behind it. There is no
text where a backquote or anything but an argument is substituted. -/
def evaluate (assign : String → String) : List Char → Option (List Char)
  | [] => some []
  | '\\' :: c :: rest => (evaluate assign rest).map (c :: ·)
  | ['\\'] => none
  | '`' :: _ => none
  | '$' :: '\x7b' :: s =>
    match _h : substituted? s with
    | some (name, rest) => (evaluate assign rest).map ((assign name).toList ++ ·)
    | none => none
  | c :: rest => (evaluate assign rest).map (c :: ·)
termination_by s => s.length
decreasing_by
  all_goals simp only [List.length_cons]
  · omega
  · obtain ⟨front, rfl⟩ := exists_front_of_substituted? _h
    simp only [List.length_append, List.length_cons]
    omega
  · omega

/-- **A path with the texts of its arguments.** An opening brace goes with the
next closing one, and the text assigned to the name between them takes their
place. -/
def fill (assign : String → String) : List Char → List Char
  | [] => []
  | c :: rest =>
    if c = '\x7b' ∧ '\x7d' ∈ rest then
      (assign (String.ofList (rest.takeWhile (· ≠ '\x7d')))).toList ++
        fill assign (rest.dropWhile (· ≠ '\x7d')).tail
    else c :: fill assign rest
termination_by s => s.length
decreasing_by
  · have hdrop : (rest.dropWhile (· ≠ '\x7d')).length ≤ rest.length :=
      (List.dropWhile_suffix _).length_le
    simp only [List.length_tail, List.length_cons]
    omega
  · simp only [List.length_cons]
    omega

/-- **The equation of evaluation**, by what the first character says. -/
theorem evaluate_eq (assign : String → String) (s : List Char) : evaluate assign s =
    match s with
    | [] => some []
    | c :: rest =>
      if c = '\\' then rest.head?.bind fun d => (evaluate assign rest.tail).map (d :: ·)
      else if c = '`' then none
      else if c = '$' ∧ rest.head? = some '\x7b' then
        (substituted? rest.tail).bind fun found =>
          (evaluate assign found.2).map ((assign found.1).toList ++ ·)
      else (evaluate assign rest).map (c :: ·) := by
  rw [evaluate.eq_def]
  split
  case h_1 => rfl
  case h_2 => rfl
  case h_3 => rfl
  case h_4 => rfl
  case h_5 s =>
    simp only [List.head?_cons, List.tail_cons]
    split
    · rename_i hsome
      rw [hsome]
      rfl
    · rename_i hnone
      rw [hnone]
      rfl
  case h_6 c rest hslash hend hquote hbrace =>
    have hplain : c ≠ '\\' := by
      rintro rfl
      cases rest with
      | nil => exact hend rfl rfl
      | cons d rest => exact hslash d rest rfl rfl
    have hopen : ¬ (c = '$' ∧ rest.head? = some '\x7b') := by
      rintro ⟨hdollar, hhead⟩
      obtain ⟨inside, hinside⟩ := List.head?_eq_some_iff.1 hhead
      exact hbrace inside hdollar hinside
    dsimp only
    rw [if_neg hplain, if_neg hquote, if_neg hopen]

theorem evaluate_nil : evaluate assign [] = some [] := evaluate_eq assign []

theorem evaluate_escaped : evaluate assign ('\\' :: c :: rest) =
    (evaluate assign rest).map (c :: ·) := by
  rw [evaluate_eq]
  rfl

theorem evaluate_plain (hslash : c ≠ '\\') (hquote : c ≠ '`')
    (hbrace : ¬ (c = '$' ∧ rest.head? = some '\x7b')) :
    evaluate assign (c :: rest) = (evaluate assign rest).map (c :: ·) := by
  rw [evaluate_eq]
  dsimp only
  rw [if_neg hslash, if_neg hquote, if_neg hbrace]

/-- What opens a substitution stands for the text of its argument. -/
theorem evaluate_opening : evaluate assign ('$' :: '\x7b' :: s) =
    (substituted? s).bind fun found =>
      (evaluate assign found.2).map ((assign found.1).toList ++ ·) := evaluate_eq assign _

theorem evaluate_substituted (h : substituted? s = some (name, rest)) :
    evaluate assign ('$' :: '\x7b' :: s) =
      (evaluate assign rest).map ((assign name).toList ++ ·) := by
  rw [evaluate_opening, h, Option.bind_some]

theorem evaluate_of_not_substituted (h : substituted? s = none) :
    evaluate assign ('$' :: '\x7b' :: s) = none := by
  rw [evaluate_opening, h, Option.bind_none]

/-! ## Escaped text -/

/-- **How a text is escaped**, from left to right. -/
inductive Escaped : List Char → List Char → Prop
  | nil : Escaped [] []
  /-- A backslash and a backquote are put behind a backslash. -/
  | mark {c : Char} {s t : List Char} : c = '\\' ∨ c = '`' → Escaped s t →
      Escaped (c :: s) ('\\' :: c :: t)
  /-- So is what would open a substitution. -/
  | opening {s t : List Char} : Escaped s t →
      Escaped ('$' :: '\x7b' :: s) ('\\' :: '$' :: '\x7b' :: t)
  /-- Everything else stays. -/
  | plain {c : Char} {s t : List Char} : c ≠ '\\' → c ≠ '`' →
      ¬ (c = '$' ∧ s.head? = some '\x7b') → Escaped s t → Escaped (c :: s) (c :: t)

theorem escaped_escape (s : List Char) : Escaped s (escape s) := by
  fun_induction escape s with
  | case1 => exact .nil
  | case2 rest ih => exact .mark (.inl rfl) ih
  | case3 rest ih => exact .mark (.inr rfl) ih
  | case4 rest ih => exact .opening ih
  | case5 c rest hslash hquote hdollar ih =>
    refine .plain hslash hquote ?_ ih
    rintro ⟨rfl, hhead⟩
    obtain ⟨inside, hinside⟩ := List.head?_eq_some_iff.1 hhead
    exact hdollar inside rfl hinside

theorem escape_cons (hslash : c ≠ '\\') (hquote : c ≠ '`')
    (hbrace : ¬ (c = '$' ∧ s.head? = some '\x7b')) : escape (c :: s) = c :: escape s := by
  rw [escape.eq_def]
  split
  case h_1 heq => cases heq
  case h_2 heq => exact absurd (List.cons.inj heq).1 hslash
  case h_3 heq => exact absurd (List.cons.inj heq).1 hquote
  case h_4 heq =>
    cases heq
    exact absurd ⟨rfl, rfl⟩ hbrace
  case h_5 heq =>
    cases heq
    rfl

namespace Escaped

/-- Escaping puts nothing but backslashes into a text. -/
theorem mem_or (h : Escaped s t) (hc : c ∈ t) : c ∈ s ∨ c = '\\' := by
  induction h with
  | nil => exact .inl hc
  | mark _ _ ih => grind
  | opening _ ih => grind
  | plain _ _ _ _ ih => grind

/-- Escaping puts no brace in front of a text, and removes none. -/
theorem head?_append (h : Escaped s t) :
    (t ++ tail).head? = some '\x7b' ↔ (s ++ tail).head? = some '\x7b' := by
  cases h with
  | nil => rfl
  | mark hmark _ => rcases hmark with rfl | rfl <;> simp
  | opening _ => simp
  | plain _ _ _ _ => rfl

/-- A dollar sign at the end of a text is left alone. -/
theorem append_dollar (h : Escaped s t) : escape (s ++ ['$']) = t ++ ['$'] := by
  induction h with
  | nil => rfl
  | mark hmark _ ih => rcases hmark with rfl | rfl <;> exact congrArg (_ :: _ :: ·) ih
  | opening _ ih => exact congrArg (_ :: _ :: _ :: ·) ih
  | @plain c s t hslash hquote hbrace _ ih =>
    have hbrace' : ¬ (c = '$' ∧ (s ++ ['$']).head? = some '\x7b') := by
      cases s with
      | nil => exact fun hboth => absurd (Option.some.inj hboth.2) (by decide)
      | cons d s => exact hbrace
    rw [List.cons_append, escape_cons hslash hquote hbrace', ih, List.cons_append]

/-- **Escaped text stands for itself**, unless it ends with a dollar sign and
there is an opening brace behind it. -/
theorem evaluate_append (hs : Escaped s t) (h : s.getLast? = some '$' → tail.head? ≠ some '\x7b') :
    evaluate assign (t ++ tail) = (evaluate assign tail).map (s ++ ·) := by
  have hlast : ∀ {c : Char} {rest : List Char},
      rest.getLast? = some '$' → (c :: rest).getLast? = some '$' := by
    intro c rest hrest
    rw [List.getLast?_cons, hrest]
    rfl
  induction hs with
  | nil => simp
  | mark _ _ ih =>
    simp only [List.cons_append]
    rw [evaluate_escaped, ih fun hrest => h (hlast hrest), Option.map_map]
    rfl
  | opening _ ih =>
    have hbrace : ∀ d, ¬ ('\x7b' = '$' ∧ d) := fun _ hboth => absurd hboth.1 (by decide)
    simp only [List.cons_append]
    rw [evaluate_escaped, evaluate_plain (by decide) (by decide) (hbrace _),
      ih fun hrest => h (hlast (hlast hrest)), Option.map_map, Option.map_map]
    rfl
  | @plain c s t hslash hquote hbrace hs ih =>
    -- a dollar sign has no brace behind it here, nor at the end of the text
    have hbrace' : ¬ (c = '$' ∧ (t ++ tail).head? = some '\x7b') := by
      rintro ⟨rfl, hhead⟩
      rw [hs.head?_append] at hhead
      cases s with
      | nil => exact h rfl hhead
      | cons d s => exact hbrace ⟨rfl, hhead⟩
    simp only [List.cons_append]
    rw [evaluate_plain hslash hquote hbrace', ih fun hrest => h (hlast hrest), Option.map_map]
    rfl

end Escaped

/-! ## Arguments -/

theorem substituted?_params (t : List Char) :
    substituted? ("params".toList ++ t) = member? t := by
  have hfront : "params".toList.isPrefixOf ("params".toList ++ t) = true := by simp
  have hlength : "params".toList.length = "params".length := rfl
  rw [substituted?, if_pos hfront, ← hlength, List.drop_left]

/-- An argument is substituted by its name. -/
theorem exists_toList_argument (name : String) : ∃ s, (argument name).toList = '$' :: '\x7b' :: s ∧
    ∀ tail, substituted? (s ++ tail) = some (name, tail) := by
  rw [argument]
  split
  · rename_i hidentifier
    refine ⟨"params".toList ++ '.' :: (name.toList ++ ['\x7d']), ?_, fun tail => ?_⟩
    · simp only [String.toList_append]
      rfl
    · have hparts := Identifier.isPart_of_isIdentifier hidentifier
      simp only [List.append_assoc, List.cons_append, List.nil_append]
      rw [substituted?_params, member?, Text.dropWhile_append_stop hparts rfl,
        Text.takeWhile_append_stop hparts rfl, String.ofList_toList]
      exact if_pos hidentifier
  · refine ⟨"params".toList ++ '[' :: (Json.quote name).toList ++ [']', '\x7d'], ?_, fun tail => ?_⟩
    · simp only [String.toList_append]
      rfl
    · rw [Json.toList_quote]
      simp only [List.append_assoc, List.cons_append, List.nil_append]
      rw [substituted?_params, member?, Json.stringBody_quoted]
      exact congrArg (fun t => some (t, tail)) String.ofList_toList

/-- **An argument stands for the text assigned to its name.** -/
theorem evaluate_argument_append : evaluate assign ((argument name).toList ++ tail) =
    (evaluate assign tail).map ((assign name).toList ++ ·) := by
  obtain ⟨s, hargument, hsubstituted⟩ := exists_toList_argument name
  rw [hargument]
  exact evaluate_substituted (hsubstituted tail)

/-! ## Paths -/

/-- A path without placeholders: no closing brace stands behind an opening
one. -/
def Plain (path : List Char) : Prop :=
  path.Pairwise fun c d => ¬ (c = '\x7b' ∧ d = '\x7d')

/-- **The equation of filling.** -/
theorem fill_eq (assign : String → String) (s : List Char) : fill assign s =
    match s with
    | [] => []
    | c :: rest =>
      if c = '\x7b' ∧ '\x7d' ∈ rest then
        (assign (String.ofList (rest.takeWhile (· ≠ '\x7d')))).toList ++
          fill assign (rest.dropWhile (· ≠ '\x7d')).tail
      else c :: fill assign rest := by
  rw [fill.eq_def]

theorem fill_cons : fill assign (c :: rest) =
    if c = '\x7b' ∧ '\x7d' ∈ rest then
      (assign (String.ofList (rest.takeWhile (· ≠ '\x7d')))).toList ++
        fill assign (rest.dropWhile (· ≠ '\x7d')).tail
    else c :: fill assign rest := fill_eq assign (c :: rest)

theorem fill_eq_self (h : Plain path) : fill assign path = path := by
  induction path with
  | nil => rw [fill_eq]
  | cons c rest ih =>
    obtain ⟨hfirst, hrest⟩ := List.pairwise_cons.1 h
    have hclosed : ¬ (c = '\x7b' ∧ '\x7d' ∈ rest) := fun ⟨hc, hmem⟩ => hfirst _ hmem ⟨hc, rfl⟩
    rw [fill_cons, if_neg hclosed, ih hrest]

/-- **The first placeholder of a path.** -/
structure FirstPlaceholder (path before name rest : List Char) : Prop where
  path_eq : path = before ++ '\x7b' :: (name ++ '\x7d' :: rest)
  before_open : '\x7b' ∉ before
  name_open : '\x7d' ∉ name

theorem fill_placeholder (h : FirstPlaceholder path before label rest) :
    fill assign path = before ++ ((assign (String.ofList label)).toList ++ fill assign rest) := by
  obtain ⟨rfl, hbefore, hname⟩ := h
  induction before with
  | nil =>
    have hkept : ∀ c ∈ label, decide (c ≠ '\x7d') = true := by
      rintro c hc
      exact decide_eq_true fun heq => hname (heq ▸ hc)
    have hclosed : '\x7b' = '\x7b' ∧ '\x7d' ∈ label ++ '\x7d' :: rest := by simp
    rw [List.nil_append, fill_cons, if_pos hclosed, Text.takeWhile_append_stop hkept rfl,
      Text.dropWhile_append_stop hkept rfl]
    rfl
  | cons c before ih =>
    rw [List.mem_cons, not_or] at hbefore
    rw [List.cons_append, fill_cons, if_neg fun hboth => hbefore.1 hboth.1.symm, ih hbefore.2]
    rfl

/-- A text without opening braces and a text without closing ones. -/
theorem plain_append {inside : List Char} (hbefore : '\x7b' ∉ before) (hinside : '\x7d' ∉ inside) :
    Plain (before ++ inside) := by
  induction before with
  | nil =>
    refine List.pairwise_iff_getElem.2 fun i j _ hj _ hboth => ?_
    have hmem : inside[j] ∈ inside := List.getElem_mem hj
    exact hinside (hboth.2 ▸ hmem)
  | cons c before ih =>
    rw [List.mem_cons, not_or] at hbefore
    exact List.pairwise_cons.2 ⟨fun d _ hboth => hbefore.1 hboth.1.symm, ih hbefore.2⟩

/-- **The parts of a path** are the path itself, if it has no placeholders, or
the text before the first one, that placeholder and the parts behind it. -/
theorem partsWithin_cases (h : path.length ≤ bound) :
    (Plain path ∧ partsWithin bound path = [.text path]) ∨
      ∃ before label rest smaller, FirstPlaceholder path before label rest ∧
        smaller < bound ∧ rest.length ≤ smaller ∧
        partsWithin bound path =
          .text before :: .placeholder label :: partsWithin smaller rest := by
  cases bound with
  | zero =>
    obtain rfl := List.length_eq_zero_iff.1 (Nat.le_zero.1 h)
    exact .inl ⟨.nil, rfl⟩
  | succ bound =>
    obtain ⟨hopen, hdrop⟩ | ⟨inside, hdrop, hbefore, hpath⟩ := Text.cut_cases '\x7b' path
    · refine .inl ⟨?_, ?_⟩
      · rw [← List.append_nil path]
        exact plain_append hopen List.not_mem_nil
      · rw [partsWithin, hdrop]
    obtain ⟨hclosed, hinside⟩ | ⟨rest, hinside, hlabel, hname⟩ := Text.cut_cases '\x7d' inside
    · refine .inl ⟨?_, ?_⟩
      · rw [hpath]
        exact plain_append hbefore (by simpa using hclosed)
      · simp only [partsWithin, hdrop, hinside]
        rw [← hpath]
    · have hfirst : FirstPlaceholder path _ _ rest := ⟨hname ▸ hpath, hbefore, hlabel⟩
      have hlength : rest.length < path.length := by
        rw [hfirst.path_eq]
        simp only [List.length_append, List.length_cons]
        omega
      refine .inr ⟨_, _, rest, bound, hfirst, bound.lt_succ_self, by omega, ?_⟩
      simp only [partsWithin, hdrop, hinside]

/-- A path as it is written. -/
def written (bound : Nat) (path : List Char) : List Char :=
  (Text.concat ((partsWithin bound path).map Part.template)).toList

theorem written_plain (h : partsWithin bound path = [.text path]) :
    written bound path = escape path := by
  simp [written, h, Text.concat, Part.template]

theorem written_placeholder {smaller : Nat}
    (h : partsWithin bound path = .text before :: .placeholder label :: partsWithin smaller rest) :
    written bound path =
      escape before ++ ((argument (String.ofList label)).toList ++ written smaller rest) := by
  simp [written, h, Text.concat, Part.template]

theorem written_of_not_mem (h : path.length ≤ bound) (hopen : '\x7d' ∉ path) :
    written bound path = escape path := by
  obtain ⟨-, hparts⟩ | ⟨before, label, rest, smaller, hfirst, -⟩ := partsWithin_cases h
  · exact written_plain hparts
  · have hmem : '\x7d' ∈ path := by simp [hfirst.path_eq]
    exact absurd hmem hopen

/-- **A written path stands for the path** with the texts of its arguments. -/
theorem evaluate_written (h : path.length ≤ bound) :
    evaluate assign (written bound path) = some (fill assign path) := by
  induction bound using Nat.strongRecOn generalizing path with
  | ind bound ih =>
    obtain ⟨hplain, hparts⟩ | ⟨before, label, rest, smaller, hfirst, hsmaller, hrest, hparts⟩ :=
      partsWithin_cases h
    · have hend : ([] : List Char).head? ≠ some '\x7b' := by decide
      rw [written_plain hparts, fill_eq_self hplain, ← List.append_nil (escape path),
        (escaped_escape path).evaluate_append fun _ => hend, evaluate_nil, Option.map_some,
        List.append_nil]
    · have hargument : ((argument (String.ofList label)).toList ++ written smaller rest).head? ≠
          some '\x7b' := by
        obtain ⟨s, hs, -⟩ := exists_toList_argument (String.ofList label)
        rw [hs]
        exact fun heq => absurd (Option.some.inj heq) (by decide)
      rw [written_placeholder hparts, fill_placeholder hfirst,
        (escaped_escape before).evaluate_append fun _ => hargument, evaluate_argument_append,
        ih smaller hsmaller hrest]
      rfl

/-- A written path has an opening brace in front only if there is one that is
never closed. -/
theorem head?_written (h : path.length ≤ bound) :
    (written bound path).head? = some '\x7b' ↔ path.head? = some '\x7b' ∧ '\x7d' ∉ path := by
  obtain ⟨hplain, hparts⟩ | ⟨before, label, rest, smaller, hfirst, -, -, hparts⟩ :=
    partsWithin_cases h
  · rw [written_plain hparts, ← List.append_nil (escape path), (escaped_escape _).head?_append,
      List.append_nil]
    refine ⟨fun hhead => ⟨hhead, fun hmem => ?_⟩, And.left⟩
    cases path with
    | nil => cases hhead
    | cons c rest =>
      obtain rfl := Option.some.inj hhead
      have hrest : '\x7d' ∈ rest := by simpa using hmem
      exact (List.pairwise_cons.1 hplain).1 _ hrest ⟨rfl, rfl⟩
  · obtain ⟨s, hs, -⟩ := exists_toList_argument (String.ofList label)
    obtain ⟨hpath, hopen, -⟩ := hfirst
    have hmem : '\x7d' ∈ path := by simp [hpath]
    rw [written_placeholder hparts, (escaped_escape _).head?_append, hs]
    refine ⟨fun hhead => ?_, fun hboth => absurd hmem hboth.2⟩
    cases before with
    | nil => exact absurd (Option.some.inj hhead) (by decide)
    | cons c before =>
      obtain rfl := Option.some.inj hhead
      exact absurd List.mem_cons_self hopen

/-! ## Addresses -/

variable {server path : String}

theorem toList_url (server path : String) :
    (url server path).toList = escape server.toList ++ written path.length path.toList := by
  rw [url, String.toList_append, String.toList_ofList]
  rfl

/-- **A brace that opens by accident.** The server ends with a dollar sign, and
the path starts with a brace that is not closed. -/
def Opens (server path : String) : Prop :=
  server.toList.getLast? = some '$' ∧ path.toList.head? = some '\x7b' ∧ '\x7d' ∉ path.toList

instance : Decidable (Opens server path) := inferInstanceAs (Decidable (_ ∧ _))

/-- Such a brace opens a substitution that never ends. -/
theorem evaluate_of_opens (h : Opens server path) :
    evaluate assign (escape server.toList ++ escape path.toList) = none := by
  obtain ⟨hserver, hpath, hopen⟩ := h
  obtain ⟨front, hfront⟩ := List.getLast?_eq_some_iff.1 hserver
  obtain ⟨inside, hinside⟩ := List.head?_eq_some_iff.1 hpath
  rw [hinside, List.mem_cons, not_or] at hopen
  have hnone : substituted? (escape inside) = none := by
    refine substituted?_of_not_mem fun hmem => ?_
    obtain hmem | hslash := (escaped_escape inside).mem_or hmem
    · exact hopen.2 hmem
    · exact absurd hslash (by decide)
  have hbrace : escape ('\x7b' :: inside) = '\x7b' :: escape inside :=
    escape_cons (by decide) (by decide) fun hboth => absurd hboth.1 (by decide)
  have hdollar : ('$' :: '\x7b' :: escape inside).head? ≠ some '\x7b' :=
    fun hhead => absurd (Option.some.inj hhead) (by decide)
  calc evaluate assign (escape server.toList ++ escape path.toList)
      = evaluate assign (escape front ++ '$' :: '\x7b' :: escape inside) := by
        rw [hfront, hinside, (escaped_escape front).append_dollar, hbrace, List.append_assoc,
          List.singleton_append]
    _ = (evaluate assign ('$' :: '\x7b' :: escape inside)).map (front ++ ·) :=
        (escaped_escape front).evaluate_append fun _ => hdollar
    _ = none := by rw [evaluate_of_not_substituted hnone, Option.map_none]

/-- **What an address stands for.** The address for a server and a path is the
body of a template literal that stands for the server and the path with the
texts of its arguments, and for nothing exactly where a brace opens by
accident. -/
theorem evaluate_url (assign : String → String) (server path : String) :
    evaluate assign (url server path).toList =
      if Opens server path then none else some (server.toList ++ fill assign path.toList) := by
  have hlength : path.toList.length ≤ path.length := Nat.le_of_eq String.length_toList
  rw [toList_url]
  split
  · rename_i hopens
    rw [written_of_not_mem hlength hopens.2.2, evaluate_of_opens hopens]
  · rename_i hopens
    have hseam : server.toList.getLast? = some '$' →
        (written path.length path.toList).head? ≠ some '\x7b' :=
      fun hlast hhead => hopens ⟨hlast, (head?_written hlength).1 hhead⟩
    rw [(escaped_escape _).evaluate_append hseam, evaluate_written hlength, Option.map_some]

/-- **An address that stands for nothing**, whatever the arguments. -/
theorem not_exists_text_of_url : ¬ ∃ assign text,
    evaluate assign (url "https://api.example.com/$" "\x7bx").toList = some text := by
  rintro ⟨assign, text, htext⟩
  have hlength : "\x7bx".toList.length ≤ "\x7bx".length := Nat.le_of_eq String.length_toList
  rw [toList_url, written_of_not_mem hlength (by decide), evaluate_of_opens (by decide)] at htext
  cases htext

end Template

end TypedClient
