import Mathlib.Tactic.SplitIfs
import TypedClient.Json.Reader
import TypedClient.Json.Text
import TypedClient.Proofs.Identifier
import TypedClient.Proofs.Text
/-!
# The text of strings and numbers

What stands between the quotes of a string reads back as the string
(`stringBody_quoted`), so different strings have different texts. The text of
a number is made of digits and of marks, and it is no identifier
(`not_isIdentifier_numberText`).
-/

namespace TypedClient

namespace Json

variable {c : Char} {s t rest tail : List Char} {n : Nat}

/-! ## Strings -/

theorem hexValue_hexDigit (h : n < 16) : Reader.hexValue? (hexDigit n) = some n := by
  revert n
  decide

/-- A character that is escaped by its number is read back. -/
theorem hexValue4_control (h : c.toNat < 0x20) :
    Reader.hexValue4? '0' '0' (hexDigit (c.toNat / 16)) (hexDigit (c.toNat % 16)) =
      some c.toNat := by
  have hhigh : c.toNat / 16 < 16 := by omega
  have hlow : c.toNat % 16 < 16 := Nat.mod_lt _ (by decide)
  have hzero : Reader.hexValue? '0' = some 0 := by decide
  rw [Reader.hexValue4?, hzero, hexValue_hexDigit hhigh, hexValue_hexDigit hlow]
  simp only [Option.bind_eq_bind, Option.bind_some, Option.pure_def, Option.some.injEq]
  omega

/-- **A spelling of a character** inside quotes. -/
inductive Spelled : Char → List Char → Prop
  /-- A character below the space, by its number. -/
  | control {c : Char} : c.toNat < 0x20 →
      Spelled c ['\\', 'u', '0', '0', hexDigit (c.toNat / 16), hexDigit (c.toNat % 16)]
  /-- A character with an escape of its own. -/
  | short {c e : Char} : e ≠ 'u' → Reader.shortEscape? e = some c → Spelled c ['\\', e]
  /-- A character that stands for itself. -/
  | plain {c : Char} : c ≠ '"' → c ≠ '\\' → ¬ c.toNat < 0x20 → Spelled c [c]

/-- Each character is written in one of these ways. -/
theorem spelled_escapeChar (c : Char) : Spelled c (escapeChar c) := by
  rw [escapeChar]
  split_ifs with hquote hslash hfeed hreturn htab hback hform hcontrol
  · exact .short (by decide) (by rw [hquote]; rfl)
  · exact .short (by decide) (by rw [hslash]; rfl)
  · exact .short (by decide) (by rw [hfeed]; rfl)
  · exact .short (by decide) (by rw [hreturn]; rfl)
  · exact .short (by decide) (by rw [htab]; rfl)
  · exact .short (by decide) (by rw [hback]; rfl)
  · exact .short (by decide) (by rw [hform]; rfl)
  · exact .control hcontrol
  · exact .plain hquote hslash hcontrol

/-- **A character is read back** from a spelling. -/
theorem stringBody_spelled {front : List Char} (h : Spelled c front)
    (hrest : Reader.stringBody rest = some (s, tail)) :
    Reader.stringBody (front ++ rest) = some (c :: s, tail) := by
  cases h with
  | control h =>
    have hvalue := hexValue4_control h
    have hleading : Reader.isLeading c.toNat = false := by simp [Reader.isLeading]; omega
    have htrailing : Reader.isTrailing c.toNat = false := by simp [Reader.isTrailing]; omega
    simp only [List.cons_append, List.nil_append]
    rw [Reader.stringBody.eq_def]
    split
    case h_1 heq => cases heq
    case h_2 heq => cases heq
    case h_3 heq =>
      cases heq
      simp [hvalue, hleading, htrailing, hrest]
    case h_4 heq =>
      cases heq
      simp [hvalue, hleading, htrailing, hrest]
    case h_5 hno heq =>
      cases heq
      exact (hno _ _ _ _ _ rfl rfl).elim
    case h_6 hno heq =>
      cases heq
      exact (hno _ _ rfl rfl).elim
  | short hu he => simp [Reader.stringBody, hu, he, hrest]
  | plain hquote hslash hcontrol => simp [Reader.stringBody, hslash, hcontrol, hrest]

theorem toList_quote (text : String) :
    (quote text).toList = '"' :: text.toList.flatMap escapeChar ++ ['"'] := by
  rw [quote, String.toList_ofList]

/-- **A string is read back** from what stands behind its first quote. -/
theorem stringBody_quoted (s : List Char) :
    Reader.stringBody (s.flatMap escapeChar ++ '"' :: tail) = some (s, tail) := by
  induction s with
  | nil => rfl
  | cons c rest ih =>
    rw [List.flatMap_cons, List.append_assoc]
    exact stringBody_spelled (spelled_escapeChar c) ih

/-- Different texts have different quotes. -/
theorem quote_inj {text other : String} : quote text = quote other ↔ text = other := by
  refine ⟨fun h => ?_, fun h => by rw [h]⟩
  have hread : ∀ t : String, Reader.stringBody ((quote t).toList.drop 1) = some (t.toList, []) := by
    intro t
    rw [toList_quote]
    exact stringBody_quoted t.toList
  have hboth := hread text
  rw [h, hread other] at hboth
  have hlists : other.toList = text.toList := (Prod.mk.inj (Option.some.inj hboth)).1
  exact (String.toList_inj.1 hlists).symm

/-- What is read of a string is in front of what stands behind it. -/
theorem exists_front_of_stringBody (h : Reader.stringBody s = some (t, rest)) :
    ∃ c front, s = c :: (front ++ rest) := by
  -- a step reads a character and goes on behind what is written for it
  have hstep : ∀ {later t rest : List Char} {c : Char},
      (∀ {t rest}, Reader.stringBody later = some (t, rest) →
        ∃ c front, later = c :: (front ++ rest)) →
      (Reader.stringBody later).map (fun read => (c :: read.1, read.2)) = some (t, rest) →
      ∃ front, later = front ++ rest := by
    intro later t rest c ih h
    obtain ⟨⟨t', rest'⟩, hlater, heq⟩ := Option.map_eq_some_iff.1 h
    obtain ⟨d, front, hfront⟩ := ih hlater
    cases heq
    exact ⟨d :: front, hfront⟩
  fun_induction Reader.stringBody s generalizing t rest
  case case2 =>
    cases h
    exact ⟨_, [], rfl⟩
  case case6 a b c d e f g _ _ _ _ _ _ _ _ _ ih =>
    obtain ⟨front, rfl⟩ := hstep ih h
    exact ⟨_, _ :: a :: b :: c :: d :: _ :: _ :: e :: f :: g :: _ :: front, rfl⟩
  case case8 a b c d _ _ _ _ _ _ _ _ _ ih =>
    obtain ⟨front, hfront⟩ := hstep ih h
    rw [hfront]
    exact ⟨_, _ :: a :: b :: c :: d :: front, rfl⟩
  case case11 a b c d _ _ _ _ _ ih =>
    obtain ⟨front, rfl⟩ := hstep ih h
    exact ⟨_, _ :: a :: b :: c :: d :: front, rfl⟩
  case case13 c _ _ _ _ _ ih =>
    obtain ⟨front, rfl⟩ := hstep ih h
    exact ⟨_, c :: front, rfl⟩
  case case15 ih =>
    obtain ⟨front, rfl⟩ := hstep ih h
    exact ⟨_, front, rfl⟩
  all_goals cases h

/-! ## Numbers -/

/-- The characters that numbers are written with. -/
def isNumeral (c : Char) : Bool := c.isDigit || c == 'e' || c == '.' || c == '-' || c == '+'

theorem isNumeral_of_isDigit (h : c.isDigit = true) : isNumeral c = true := by
  simp [isNumeral, h]

theorem isNumeral_of_mem_toDigits (h : c ∈ Nat.toDigits 10 n) : isNumeral c = true :=
  isNumeral_of_isDigit (Nat.isDigit_of_mem_toDigits (by decide) (by decide) h)

theorem isNumeral_of_mem_significantDigits (h : c ∈ Notation.significantDigits n) :
    isNumeral c = true := by
  rw [Notation.significantDigits, List.mem_reverse] at h
  exact isNumeral_of_mem_toDigits (List.mem_reverse.1 ((List.dropWhile_sublist _).mem h))

/-- A number that is laid out is made of numerals. -/
theorem isNumeral_of_mem_layout {digits : List Char} {p : Int}
    (hdigits : ∀ d ∈ digits, isNumeral d = true) :
    ∀ d ∈ numberNotation.layout digits p, isNumeral d = true := by
  have hzeros : ∀ k, ∀ d ∈ List.replicate k '0', isNumeral d = true := by
    intro k d hd
    rw [List.eq_of_mem_replicate hd]
    rfl
  have htake : ∀ k, ∀ d ∈ digits.take k, isNumeral d = true :=
    fun k d hd => hdigits d (List.mem_of_mem_take hd)
  have hpoint : ∀ k, ∀ d ∈ '.' :: digits.drop k, isNumeral d = true :=
    fun k => List.forall_mem_cons.2 ⟨rfl, fun d hd => hdigits d (List.mem_of_mem_drop hd)⟩
  rw [Notation.layout]
  split
  · have hend : ∀ d ∈ ['.', '0'], isNumeral d = true := by simp [isNumeral]
    exact List.forall_mem_append.2 ⟨List.forall_mem_append.2 ⟨hdigits, hzeros _⟩, hend⟩
  split
  · exact List.forall_mem_append.2 ⟨htake _, hpoint _⟩
  split
  · have hstart : ∀ d ∈ ['0', '.'], isNumeral d = true := by simp [isNumeral]
    exact List.forall_mem_append.2 ⟨List.forall_mem_append.2 ⟨hstart, hzeros _⟩, hdigits⟩
  · have hexponent : ∀ d ∈ Nat.toDigits 10 (p - 1).natAbs, isNumeral d = true :=
      fun d => isNumeral_of_mem_toDigits
    refine List.forall_mem_append.2 ⟨List.forall_mem_append.2 ⟨?_, ?_⟩, hexponent⟩
    · split
      · exact hdigits
      · exact List.forall_mem_append.2 ⟨htake 1, hpoint 1⟩
    · refine List.forall_mem_cons.2 ⟨rfl, ?_⟩
      split
      · simp [isNumeral]
      · simp [numberNotation, isNumeral]

/-- And has a mark, which no identifier has. -/
theorem exists_mark_of_layout (digits : List Char) (p : Int) :
    ∃ c ∈ numberNotation.layout digits p, Identifier.isPart c = false := by
  rw [Notation.layout]
  split
  · exact ⟨'.', by simp, rfl⟩
  split
  · exact ⟨'.', by simp, rfl⟩
  split
  · exact ⟨'.', by simp, rfl⟩
  · by_cases h : p - 1 < 0
    · exact ⟨'-', by simp [h], rfl⟩
    · exact ⟨'+', by simp [h, numberNotation], rfl⟩

/-- A double is written as its sign, and then as zero or with its digits laid
out. -/
theorem toList_doubleText (x : Binary64) : ∃ sign body,
    (numberText (.double x)).toList = sign ++ body ∧ (∀ d ∈ sign, d = '-') ∧
      (body = ['0', '.', '0'] ∨
        ∃ n p, body = numberNotation.layout (Notation.significantDigits n) p) := by
  refine ⟨_, _, by rw [numberText, Notation.text, String.toList_ofList], ?_, ?_⟩
  · split
    · simp
    · simp
  · split
    · exact .inl rfl
    · exact .inr ⟨_, _, rfl⟩

/-- The text of a number is made of numerals. -/
theorem isNumeral_of_mem_numberText {number : Number} (h : c ∈ (numberText number).toList) :
    isNumeral c = true := by
  cases number with
  | integer n =>
    cases n with
    | ofNat n =>
      exact isNumeral_of_isDigit (Text.isDigit_of_mem_decimal h)
    | negSucc n =>
      rw [numberText, integerText, String.toList_append] at h
      rcases List.mem_append.1 h with hsign | hdigit
      · obtain rfl := List.mem_singleton.1 hsign
        rfl
      · exact isNumeral_of_isDigit (Text.isDigit_of_mem_decimal hdigit)
  | double x =>
    obtain ⟨sign, body, htext, hsign, hbody⟩ := toList_doubleText x
    rw [htext] at h
    rcases List.mem_append.1 h with hmem | hmem
    · rw [hsign c hmem]
      rfl
    · rcases hbody with rfl | ⟨n, p, rfl⟩
      · have hmarks : ∀ d ∈ ['0', '.', '0'], isNumeral d = true := by simp [isNumeral]
        exact hmarks c hmem
      · exact isNumeral_of_mem_layout (fun d => isNumeral_of_mem_significantDigits) c hmem

theorem numberText_ne_nil (number : Number) : (numberText number).toList ≠ [] := by
  cases number with
  | integer n =>
    cases n with
    | ofNat n => exact Text.decimal_ne_nil n
    | negSucc n => simp [numberText, integerText]
  | double x =>
    obtain ⟨sign, body, htext, -, hbody⟩ := toList_doubleText x
    rw [htext]
    rcases hbody with rfl | ⟨n, p, rfl⟩
    · simp
    · obtain ⟨c, hc, -⟩ := exists_mark_of_layout (Notation.significantDigits n) p
      exact List.ne_nil_of_mem (List.mem_append_right _ hc)

/-- **The text of a number is no identifier.** -/
theorem not_isIdentifier_numberText (number : Number) :
    Identifier.isIdentifier (numberText number) = false := by
  cases number with
  | integer n =>
    cases n with
    | ofNat n =>
      obtain ⟨first, rest, htext⟩ := List.exists_cons_of_ne_nil (Text.decimal_ne_nil n)
      have hmem : first ∈ (Text.decimal n).toList := by rw [htext]; exact List.mem_cons_self
      exact Identifier.not_isIdentifier_of_isDigit htext (Text.isDigit_of_mem_decimal hmem)
    | negSucc n =>
      have hmem : '-' ∈ (numberText (.integer (.negSucc n))).toList := by
        rw [numberText, integerText, String.toList_append]
        exact List.mem_append_left _ (by decide)
      exact Identifier.not_isIdentifier_of_mem hmem rfl
  | double x =>
    obtain ⟨sign, body, htext, -, hbody⟩ := toList_doubleText x
    have hmark : ∃ c ∈ body, Identifier.isPart c = false := by
      rcases hbody with rfl | ⟨n, p, rfl⟩
      · exact ⟨'.', by simp, rfl⟩
      · exact exists_mark_of_layout _ _
    obtain ⟨c, hc, hpart⟩ := hmark
    exact Identifier.not_isIdentifier_of_mem (by rw [htext]; exact List.mem_append_right _ hc) hpart

end Json

end TypedClient
