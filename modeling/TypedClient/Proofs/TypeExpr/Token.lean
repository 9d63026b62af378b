import TypedClient.Proofs.Json.Text
import TypedClient.Proofs.Text.Comment
import TypedClient.Proofs.TypeExpr.Normal
import TypedClient.Proofs.TypeExpr.Part
import TypedClient.TypeExpr.Text
/-!
# The tokens of a written type

A written type is read in tokens: words, quoted texts and single marks, with
blanks and comments between them. `Token.scan` finds the tokens of any text, one
character after the other. `TypeExpr.tokens` says which tokens a type is meant
to be written with, and these are the ones that are found in its text
(`scans_textAt`): neither a description nor a quoted name can pass for anything
else.
-/

namespace TypedClient

/-- A token of a written type. -/
inductive Token where
  | word (text : String)
  | quoted (text : String)
  | mark (c : Char)
deriving DecidableEq, Repr

namespace Token

variable {c : Char} {s seen rest : List Char} {text : String}

/-! ## Scanning -/

/-- The characters of words: those of identifiers and of numbers. -/
def isWordPart (c : Char) : Bool := Identifier.isPart c || Json.isNumeral c

/-- Where a scanner is: between tokens, in a word or in quotes with what it has
seen of them, or in a comment. -/
inductive Mode where
  | between
  | word (seen : List Char)
  | quoted (seen : List Char)
  /-- Behind a backslash in quotes. -/
  | escaped (seen : List Char)
  /-- Behind a slash, which may start a comment. -/
  | slash
  | comment
  /-- Behind an asterisk, which may end the comment. -/
  | asterisk

/-- What a character starts between tokens. -/
def start (c : Char) : List Token × Mode :=
  if isWordPart c then ([], .word [c])
  else if c = '"' then ([], .quoted [c])
  else if c = '/' then ([], .slash)
  else if Text.isBlank c then ([], .between)
  else ([.mark c], .between)

/-- The tokens that a character completes, and where the scanner is then. -/
def step : Mode → Char → List Token × Mode
  | .between, c => start c
  | .word seen, c =>
    if isWordPart c then ([], .word (seen ++ [c]))
    else (.word (String.ofList seen) :: (start c).1, (start c).2)
  | .quoted seen, c =>
    if c = '"' then ([.quoted (String.ofList (seen ++ [c]))], .between)
    else if c = '\\' then ([], .escaped (seen ++ [c]))
    else ([], .quoted (seen ++ [c]))
  | .escaped seen, c => ([], .quoted (seen ++ [c]))
  | .slash, c =>
    if c = '*' then ([], .comment) else (.mark '/' :: (start c).1, (start c).2)
  | .comment, c => ([], if c = '*' then .asterisk else .comment)
  | .asterisk, c => ([], if c = '/' then .between else if c = '*' then .asterisk else .comment)

/-- The tokens at the end of a text. Quotes and comments that are not closed are
left as marks. -/
def finish : Mode → List Token
  | .between => []
  | .word seen => [.word (String.ofList seen)]
  | .quoted _ => [.mark '"']
  | .escaped _ => [.mark '"']
  | .slash => [.mark '/']
  | .comment => [.mark '/']
  | .asterisk => [.mark '/']

/-- **The tokens of a text.** -/
def scan : Mode → List Char → List Token
  | mode, [] => finish mode
  | mode, c :: rest => (step mode c).1 ++ scan (step mode c).2 rest

/-- The text does not go on with a word. -/
def Apart (rest : List Char) : Prop := ∀ c ∈ rest.head?, isWordPart c = false

theorem apart_nil : Apart [] := fun _ h => by cases h

theorem apart_cons (h : isWordPart c = false) : Apart (c :: rest) := by
  intro d hd
  rwa [← Option.some.inj hd]

theorem scan_spaces (k : Nat) :
    scan .between (List.replicate k ' ' ++ rest) = scan .between rest := by
  induction k with
  | zero => rfl
  | succ k ih => exact ih

/-! ## Words -/

theorem scan_inWord (hs : ∀ d ∈ s, isWordPart d = true) (hrest : Apart rest) :
    scan (.word seen) (s ++ rest) = .word (String.ofList (seen ++ s)) :: scan .between rest := by
  induction s generalizing seen with
  | nil =>
    rw [List.nil_append, List.append_nil]
    cases rest with
    | nil => rfl
    | cons d rest =>
      rw [scan, step, hrest d rfl]
      rfl
  | cons d s ih =>
    obtain ⟨hd, hs⟩ := List.forall_mem_cons.1 hs
    rw [List.cons_append, scan, step, if_pos hd, List.nil_append, ih hs, List.append_assoc,
      List.singleton_append]

/-- A word that stands apart is one token. -/
theorem scan_word (hne : text.toList ≠ []) (hparts : ∀ d ∈ text.toList, isWordPart d = true)
    (hrest : Apart rest) :
    scan .between (text.toList ++ rest) = .word text :: scan .between rest := by
  obtain ⟨first, more, htext⟩ := List.exists_cons_of_ne_nil hne
  rw [htext] at hparts
  obtain ⟨hfirst, hmore⟩ := List.forall_mem_cons.1 hparts
  rw [htext, List.cons_append, scan, step, start, if_pos hfirst, List.nil_append,
    scan_inWord hmore hrest, List.singleton_append, ← htext, String.ofList_toList]

theorem toList_ne_nil_of_isIdentifier (h : Identifier.isIdentifier text = true) :
    text.toList ≠ [] := by
  obtain ⟨first, rest, htext, -⟩ := Identifier.exists_of_isIdentifier h
  rw [htext]
  exact List.cons_ne_nil first rest

theorem isWordPart_of_isIdentifier (h : Identifier.isIdentifier text = true) :
    ∀ d ∈ text.toList, isWordPart d = true := by
  intro d hd
  rw [isWordPart, Bool.or_eq_true]
  exact .inl (Identifier.isPart_of_isIdentifier h d hd)

theorem scan_identifier (h : Identifier.isIdentifier text = true) (hrest : Apart rest) :
    scan .between (text.toList ++ rest) = .word text :: scan .between rest :=
  scan_word (toList_ne_nil_of_isIdentifier h) (isWordPart_of_isIdentifier h) hrest

/-! ## Quoted texts -/

theorem scan_escape (e : Char) : scan (.quoted seen) ('\\' :: e :: rest) =
    scan (.quoted (seen ++ ['\\', e])) rest := by
  rw [scan, step, if_neg (by decide), if_pos rfl, scan, step]
  simp

theorem scan_plain (hquote : c ≠ '"') (hslash : c ≠ '\\') :
    scan (.quoted seen) (c :: rest) = scan (.quoted (seen ++ [c])) rest := by
  rw [scan, step, if_neg hquote, if_neg hslash, List.nil_append]

theorem hexDigit_ne : ∀ n < 16, Json.hexDigit n ≠ '"' ∧ Json.hexDigit n ≠ '\\' := by decide

/-- A spelling of a character does not end the quotes. -/
theorem scan_spelled {front : List Char} (h : Json.Spelled c front) :
    scan (.quoted seen) (front ++ rest) = scan (.quoted (seen ++ front)) rest := by
  cases h with
  | control h =>
    obtain ⟨hhighQuote, hhighSlash⟩ := hexDigit_ne (c.toNat / 16) (by omega)
    obtain ⟨hlowQuote, hlowSlash⟩ := hexDigit_ne (c.toNat % 16) (Nat.mod_lt _ (by decide))
    simp only [List.cons_append, List.nil_append]
    rw [scan_escape, scan_plain (by decide) (by decide), scan_plain (by decide) (by decide),
      scan_plain hhighQuote hhighSlash, scan_plain hlowQuote hlowSlash]
    simp
  | short _ _ => exact scan_escape _
  | plain hquote hslash _ => exact scan_plain hquote hslash

theorem scan_inQuotes (s : List Char) :
    scan (.quoted seen) (s.flatMap Json.escapeChar ++ '"' :: rest) =
      .quoted (String.ofList (seen ++ s.flatMap Json.escapeChar ++ ['"'])) ::
        scan .between rest := by
  induction s generalizing seen with
  | nil => simp [scan, step]
  | cons c s ih =>
    rw [List.flatMap_cons, List.append_assoc, scan_spelled (Json.spelled_escapeChar c), ih,
      List.append_assoc seen]

/-- **A quoted text is one token.** -/
theorem scan_quote (text : String) : scan .between ((Json.quote text).toList ++ rest) =
    .quoted (Json.quote text) :: scan .between rest := by
  have hquote : isWordPart '"' = false := rfl
  rw [Json.quote, String.toList_ofList, List.cons_append, List.cons_append, scan, step, start,
    hquote, if_neg (by decide), if_pos rfl, List.nil_append, List.append_assoc]
  exact scan_inQuotes _

/-! ## Comments -/

/-- A comment is over at its end mark, and a text without end marks does not
end it. -/
theorem scan_inComment (h : Text.Unended s) :
    scan .comment (s ++ '*' :: '/' :: rest) = scan .between rest ∧
      (Text.Unended ('*' :: s) →
        scan .asterisk (s ++ '*' :: '/' :: rest) = scan .between rest) := by
  induction s with
  | nil => exact ⟨rfl, fun _ => rfl⟩
  | cons d s ih =>
    obtain ⟨-, hs⟩ := Text.unended_cons_iff.1 h
    obtain ⟨hcomment, hasterisk⟩ := ih hs
    have hopen : scan (if d = '*' then .asterisk else .comment) (s ++ '*' :: '/' :: rest) =
        scan .between rest := by
      split
      · rename_i hd
        subst hd
        exact hasterisk h
      · exact hcomment
    refine ⟨hopen, fun hstar => ?_⟩
    have hslash : d ≠ '/' := by
      rintro rfl
      exact (Text.unended_cons_iff.1 hstar).1 ⟨rfl, rfl⟩
    rw [List.cons_append, scan, step, if_neg hslash]
    exact hopen

/-- **A comment leaves no token.** -/
theorem scan_comment (text : String) (depth : Nat) :
    scan .between ((Text.comment text depth).toList ++ rest) = scan .between rest := by
  rcases Text.comment_eq text depth with hempty | ⟨inner, hinner, hunended⟩
  · rw [hempty]
    rfl
  · rw [hinner, Text.toList_indentation, List.append_assoc, scan_spaces]
    have hopen : ∀ s, scan .between ('/' :: '*' :: s) = scan .comment s := fun _ => rfl
    rw [List.cons_append, List.cons_append, hopen, List.append_assoc]
    exact (scan_inComment hunended).1

end Token

/-- Whether a value is a string, a number or a truth value. -/
def Json.isPrimitive : Json → Bool
  | .bool _ => true
  | .number _ => true
  | .string _ => true
  | _ => false

/-- The token of a literal type. -/
def Token.ofLiteral (text : String) : Token :=
  if text.toList.head? = some '"' then .quoted text else .word text

/-- The token of a field name. -/
def Token.ofName (name : String) : Token :=
  if Identifier.isIdentifier name then .word name else .quoted (Json.quote name)

namespace Connective

/-- The word for no members. -/
def word : Connective → String
  | .union => "never"
  | .intersection => "unknown"

/-- The mark between members. -/
def mark : Connective → Char
  | .union => '|'
  | .intersection => '&'

/-- Which members are written in parentheses. -/
def groups : Connective → TypeExpr → Bool
  | .union => TypeExpr.isIntersection
  | .intersection => TypeExpr.isUnion

end Connective

namespace TypeExpr

variable {c : Connective} {depth : Nat} {type : TypeExpr} {types : List TypeExpr}
variable {label : FieldLabel} {fields : List (FieldLabel × TypeExpr)} {rest : List Char}

/-! ## The tokens of a type -/

/-- The tokens before the type of a field. -/
def labelTokens (label : FieldLabel) : List Token :=
  (if label.readOnly then [.word "readonly"] else []) ++
    .ofName label.name :: ((if label.required then [] else [.mark '?']) ++ [.mark ':'])

/-- Tokens in parentheses, if they are asked for. -/
def groupedTokens (parentheses : Bool) (tokens : List Token) : List Token :=
  if parentheses then .mark '(' :: (tokens ++ [.mark ')']) else tokens

mutual

/-- **The tokens that a type is written with.** -/
def tokens : TypeExpr → List Token
  | .keyword word => [.word word.text]
  | .literal text => [.ofLiteral text]
  | .ref name => [.word name]
  | .array element =>
    if element.isWord then tokens element ++ [.mark '[', .mark ']']
    else .word "Array" :: .mark '<' :: (tokens element ++ [.mark '>'])
  | .union members => compoundTokens .union members
  | .intersection members => compoundTokens .intersection members
  | .record fields => .mark '\x7b' :: (fieldTokens fields ++ [.mark '\x7d'])
termination_by structural type => type

/-- The tokens of members with their mark between them, or the word for no
members. -/
def compoundTokens (c : Connective) : List TypeExpr → List Token
  | [] => [.word c.word]
  | member :: rest => groupedTokens (c.groups member) (tokens member) ++ furtherTokens c rest
termination_by structural members => members

/-- The tokens of further members, each behind the mark. -/
def furtherTokens (c : Connective) : List TypeExpr → List Token
  | [] => []
  | member :: rest =>
    .mark c.mark :: (groupedTokens (c.groups member) (tokens member) ++ furtherTokens c rest)
termination_by structural members => members

/-- The tokens of fields. -/
def fieldTokens : List (FieldLabel × TypeExpr) → List Token
  | [] => []
  | (label, type) :: rest =>
    labelTokens label ++ (tokens type ++ .mark ';' :: fieldTokens rest)
termination_by structural fields => fields

end

/-- The words that are no names of types. -/
def builtinWords : List String :=
  ["string", "number", "boolean", "null", "any", "never", "unknown", "true", "false"]

/-- **A type that can be printed**: its names are identifiers that no built-in
type has, and its literals are the texts of strings, numbers and truth
values. -/
structure Printable (type : TypeExpr) : Prop where
  names : ∀ name, Part (.ref name) type →
    Identifier.isIdentifier name = true ∧ name ∉ builtinWords
  literals : ∀ text, Part (.literal text) type →
    ∃ value : Json, value.isPrimitive = true ∧ value.text = text

theorem printable_keyword {word : Keyword} : (keyword word).Printable := by
  refine ⟨fun _ hpart => ?_, fun _ hpart => ?_⟩
  · cases hpart
  · cases hpart

theorem printable_literal_iff {text : String} : (literal text).Printable ↔
    ∃ value : Json, value.isPrimitive = true ∧ value.text = text := by
  refine ⟨fun h => h.literals text .self, fun h => ⟨fun _ hpart => ?_, fun _ hpart => ?_⟩⟩
  · cases hpart
  · cases hpart
    exact h

theorem printable_ref_iff {name : String} : (ref name).Printable ↔
    Identifier.isIdentifier name = true ∧ name ∉ builtinWords := by
  refine ⟨fun h => h.names name .self, fun h => ⟨fun _ hpart => ?_, fun _ hpart => ?_⟩⟩
  · cases hpart
    exact h
  · cases hpart

/-- The parts of a printable type are printable. -/
theorem Printable.part {part : TypeExpr} (h : type.Printable) (hpart : Part part type) :
    part.Printable :=
  ⟨fun name hname => h.names name (hname.trans hpart),
    fun text htext => h.literals text (htext.trans hpart)⟩

theorem printable_array_iff : (array type).Printable ↔ type.Printable := by
  refine ⟨fun h => h.part (.array .self), fun h => ⟨fun _ hpart => ?_, fun _ hpart => ?_⟩⟩
  · cases hpart with
    | array hpart => exact h.names _ hpart
  · cases hpart with
    | array hpart => exact h.literals _ hpart

/-- The members are parts of their type. -/
theorem part_of_member {member : TypeExpr} (hm : member ∈ types) :
    Part member (c.compound types) := by
  cases c with
  | union => exact .union hm .self
  | intersection => exact .intersection hm .self

/-- And there are no other parts but those of members, and the type itself. -/
theorem part_compound_cases {part : TypeExpr} (h : Part part (c.compound types)) :
    part = c.compound types ∨ ∃ m ∈ types, Part part m := by
  cases c with
  | union =>
    cases h with
    | self => exact .inl rfl
    | union hm hpart => exact .inr ⟨_, hm, hpart⟩
  | intersection =>
    cases h with
    | self => exact .inl rfl
    | intersection hm hpart => exact .inr ⟨_, hm, hpart⟩

theorem printable_compound_iff : (c.compound types).Printable ↔ ∀ t ∈ types, t.Printable := by
  refine ⟨fun h t ht => h.part (part_of_member ht),
    fun h => ⟨fun _ hpart => ?_, fun _ hpart => ?_⟩⟩
  · rcases part_compound_cases hpart with heq | ⟨m, hm, hpart⟩
    · cases c <;> cases heq
    · exact (h m hm).names _ hpart
  · rcases part_compound_cases hpart with heq | ⟨m, hm, hpart⟩
    · cases c <;> cases heq
    · exact (h m hm).literals _ hpart

theorem printable_record_iff : (record fields).Printable ↔ ∀ f ∈ fields, f.2.Printable := by
  refine ⟨fun h f hf => h.part (.record hf .self),
    fun h => ⟨fun _ hpart => ?_, fun _ hpart => ?_⟩⟩
  · cases hpart with
    | record hf hpart => exact (h _ hf).names _ hpart
  · cases hpart with
    | record hf hpart => exact (h _ hf).literals _ hpart

/-! ## The tokens in a text -/

open Token (scan Apart apart_cons)

/-- The tokens of a text are found wherever it stands, as long as no word goes
on behind it. -/
def Scans (text : String) (found : List Token) : Prop :=
  ∀ rest, Apart rest → scan .between (text.toList ++ rest) = found ++ scan .between rest

theorem scans_identifier {text : String} (h : Identifier.isIdentifier text = true) :
    Scans text [.word text] := fun _ => Token.scan_identifier h

theorem scans_quote (s : String) : Scans (Json.quote s) [.quoted (Json.quote s)] :=
  fun _ _ => Token.scan_quote s

theorem ofLiteral_quote (s : String) : Token.ofLiteral (Json.quote s) = .quoted (Json.quote s) :=
  if_pos (by rw [Json.toList_quote]; rfl)

theorem ofLiteral_number (number : Number) :
    Token.ofLiteral (Json.numberText number) = .word (Json.numberText number) := by
  refine if_neg fun hquote => ?_
  have hnumeral := Json.isNumeral_of_mem_numberText (List.mem_of_head? hquote)
  exact absurd hnumeral (by decide)

theorem scans_literal {value : Json} (h : value.isPrimitive = true) :
    Scans value.text [.ofLiteral value.text] := by
  cases value with
  | bool b => cases b <;> exact scans_identifier rfl
  | number number =>
    intro rest hrest
    rw [Json.text, ofLiteral_number]
    refine Token.scan_word (Json.numberText_ne_nil number) (fun d hd => ?_) hrest
    rw [Token.isWordPart, Json.isNumeral_of_mem_numberText hd, Bool.or_true]
  | string s =>
    rw [Json.text, ofLiteral_quote]
    exact scans_quote s
  | _ => cases h

theorem scans_name (name : String) : Scans (fieldName name) [.ofName name] := by
  rw [fieldName, Token.ofName]
  split
  · rename_i h
    exact scans_identifier h
  · exact scans_quote name

theorem scans_grouped {text : String} {found : List Token} (parentheses : Bool)
    (h : Scans text found) : Scans (grouped parentheses text) (groupedTokens parentheses found) := by
  intro rest hrest
  cases parentheses with
  | false => exact h rest hrest
  | true =>
    have hopen : ∀ s, scan .between ('(' :: s) = .mark '(' :: scan .between s := fun _ => rfl
    have hclose : ∀ s, scan .between (')' :: s) = .mark ')' :: scan .between s := fun _ => rfl
    have hinner := h (')' :: rest) (apart_cons rfl)
    simp [grouped, groupedTokens, hopen, hclose, hinner]

/-- The text of members. -/
theorem textAt_compound : textAt depth (c.compound types) =
    if types.isEmpty then c.word
    else Text.join (String.ofList [' ', c.mark, ' ']) (textsAt depth c.groups types) := by
  cases c <;> rfl

theorem tokens_compound : tokens (c.compound types) = compoundTokens c types := by
  cases c <;> rfl

theorem scans_members {m : TypeExpr}
    (h : ∀ t ∈ m :: types, Scans (textAt depth t) (tokens t)) :
    Scans (Text.join (String.ofList [' ', c.mark, ' ']) (textsAt depth c.groups (m :: types)))
      (compoundTokens c (m :: types)) := by
  induction types generalizing m with
  | nil =>
    have hm := scans_grouped (c.groups m) (h m List.mem_cons_self)
    intro rest hrest
    simpa [textsAt, Text.join, compoundTokens, furtherTokens] using hm rest hrest
  | cons next types ih =>
    obtain ⟨hm, hothers⟩ := List.forall_mem_cons.1 h
    intro rest hrest
    have hmark : ∀ s, scan .between (' ' :: c.mark :: ' ' :: s) =
        .mark c.mark :: scan .between s := by
      cases c <;> exact fun _ => rfl
    have happly := scans_grouped (c.groups m) hm (' ' :: c.mark :: ' ' ::
      ((Text.join (String.ofList [' ', c.mark, ' ']) (textsAt depth c.groups (next :: types))).toList
        ++ rest)) (apart_cons rfl)
    rw [hmark, ih hothers rest hrest] at happly
    simpa [textsAt, Text.join, compoundTokens, furtherTokens] using happly

theorem scans_compound {types : List TypeExpr}
    (h : ∀ t ∈ types, Scans (textAt depth t) (tokens t)) :
    Scans (textAt depth (c.compound types)) (tokens (c.compound types)) := by
  rw [textAt_compound, tokens_compound]
  cases types with
  | nil =>
    have hword : Identifier.isIdentifier c.word = true := by cases c <;> rfl
    exact scans_identifier hword
  | cons m types => exact scans_members h

theorem scans_array {element : TypeExpr}
    (h : Scans (textAt depth element) (tokens element)) :
    Scans (textAt depth (.array element)) (tokens (.array element)) := by
  intro rest hrest
  rw [textAt, tokens]
  split
  · have hbrackets : scan .between ('[' :: ']' :: rest) =
        .mark '[' :: .mark ']' :: scan .between rest := rfl
    have hinner := h ('[' :: ']' :: rest) (apart_cons rfl)
    simpa [hbrackets] using hinner
  · have hopen : ∀ s, scan .between ("Array<".toList ++ s) =
        .word "Array" :: .mark '<' :: scan .between s := fun _ => rfl
    have hclose : scan .between ('>' :: rest) = .mark '>' :: scan .between rest := rfl
    have hinner := h ('>' :: rest) (apart_cons rfl)
    rw [String.toList_append, String.toList_append, List.append_assoc, List.append_assoc, hopen]
    simpa [hclose] using hinner

/-! ## The tokens of fields -/

/-- The text before the type of a field ends with a mark, so whatever stands
behind it stands apart. -/
theorem scan_fieldHead : scan .between ((fieldHead depth label).toList ++ rest) =
    labelTokens label ++ scan .between rest := by
  have hreadonly : ∀ s, scan .between ((if label.readOnly then "readonly " else "").toList ++ s) =
      (if label.readOnly then [.word "readonly"] else []) ++ scan .between s := by
    intro s
    cases label.readOnly <;> rfl
  have hpresence : ∀ s, scan .between ((if label.required then "" else "?").toList ++
      (": ".toList ++ s)) = (if label.required then [] else [.mark '?']) ++
        .mark ':' :: scan .between s := by
    intro s
    cases label.required <;> rfl
  have hname := scans_name label.name
    ((if label.required then "" else "?").toList ++ (": ".toList ++ rest))
    (by cases label.required <;> exact apart_cons rfl)
  have hcode : scan .between ((Text.indentation depth).toList ++
      ((if label.readOnly then "readonly " else "").toList ++ ((fieldName label.name).toList ++
        ((if label.required then "" else "?").toList ++ (": ".toList ++ rest))))) =
      labelTokens label ++ scan .between rest := by
    rw [Text.toList_indentation, Token.scan_spaces, hreadonly, hname, hpresence]
    simp [labelTokens]
  rw [fieldHead]
  simp only [String.toList_append, List.append_assoc]
  cases label.description with
  | none => exact hcode
  | some text => exact (Token.scan_comment text depth).trans hcode

/-- So does the text of fields. -/
theorem scan_fieldLines (h : ∀ f ∈ fields, Scans (textAt depth f.2) (tokens f.2)) :
    scan .between ((fieldLines depth fields).toList ++ rest) =
      fieldTokens fields ++ scan .between rest := by
  induction fields with
  | nil => rfl
  | cons f fields ih =>
    obtain ⟨label, type⟩ := f
    obtain ⟨htype, hfields⟩ := List.forall_mem_cons.1 h
    have hend : ∀ s, scan .between (";\n".toList ++ s) = .mark ';' :: scan .between s :=
      fun _ => rfl
    have hinner := htype (";\n".toList ++ ((fieldLines depth fields).toList ++ rest))
      (apart_cons rfl)
    rw [hend, ih hfields] at hinner
    rw [fieldLines, fieldTokens]
    simp only [String.toList_append, List.append_assoc]
    rw [scan_fieldHead, hinner]
    rfl

theorem scans_record (h : ∀ f ∈ fields, Scans (textAt (depth + 1) f.2) (tokens f.2)) :
    Scans (textAt depth (.record fields)) (tokens (.record fields)) := by
  intro rest hrest
  have hclose : scan .between ('\x7d' :: rest) = .mark '\x7d' :: scan .between rest := rfl
  rw [textAt, tokens]
  cases fields with
  | nil =>
    rw [List.isEmpty_nil, if_pos rfl]
    rfl
  | cons f fields =>
    have hopen : ∀ s, scan .between ("\x7b\n".toList ++ s) =
        .mark '\x7b' :: scan .between s := fun _ => rfl
    rw [List.isEmpty_cons, if_neg (by decide)]
    simp only [String.toList_append, List.append_assoc]
    rw [hopen, scan_fieldLines h, Text.toList_indentation, Token.scan_spaces]
    simp [hclose]

/-- **The tokens of a type are found in its text.** -/
theorem scans_textAt (depth : Nat) (h : type.Printable) :
    Scans (textAt depth type) (tokens type) := by
  induction type using induction generalizing depth with
  | keyword word =>
    rw [textAt, tokens]
    exact scans_identifier (by cases word <;> rfl)
  | literal text =>
    obtain ⟨value, hvalue, rfl⟩ := printable_literal_iff.1 h
    exact scans_literal hvalue
  | ref name => exact scans_identifier (printable_ref_iff.1 h).1
  | array element ih => exact scans_array (ih depth (printable_array_iff.1 h))
  | union types ih =>
    have hmembers := (printable_compound_iff (c := .union)).1 h
    exact scans_compound (c := .union) fun t ht => ih t ht depth (hmembers t ht)
  | intersection types ih =>
    have hmembers := (printable_compound_iff (c := .intersection)).1 h
    exact scans_compound (c := .intersection) fun t ht => ih t ht depth (hmembers t ht)
  | record fields ih =>
    have hfields := printable_record_iff.1 h
    exact scans_record fun f hf => ih f hf (depth + 1) (hfields f hf)

end TypeExpr

end TypedClient
