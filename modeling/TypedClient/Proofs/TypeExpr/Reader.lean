import TypedClient.Proofs.TypeExpr.Token
/-!
# Reading a written type

A machine with a stack reads a type from its tokens, as the grammar has it: a
union binds looser than an intersection, brackets stand behind an operand, and
parentheses, `Array<` and fields have a type of their own inside. From the text
of a printable type it recovers the normal form of the type. So types with one
text have one normal form (`text_unambiguous`).
-/

namespace TypedClient

namespace TypeExpr

/-! ## The machine -/

/-- What is read of a type: the members of the union so far, and those of the
intersection that its next member is. -/
structure Group where
  alternatives : List TypeExpr
  factors : List TypeExpr

namespace Group

/-- Nothing is read. -/
def empty : Group := ⟨[], []⟩

/-- The group with more members. -/
def add (g : Group) : Connective → List TypeExpr → Group
  | .union, types => ⟨g.alternatives ++ types, g.factors⟩
  | .intersection, types => ⟨g.alternatives, g.factors ++ types⟩

theorem add_add {g : Group} {c : Connective} {types more : List TypeExpr} :
    (g.add c types).add c more = g.add c (types ++ more) := by
  cases c <;> simp [add]

/-- The group behind an operand and a mark: the operand is the last factor, and
a union takes the factors together. -/
def next (g : Group) (operand : TypeExpr) : Connective → Group
  | .intersection => g.add .intersection (Connective.intersection.members operand)
  | .union =>
    let factors := g.factors ++ Connective.intersection.members operand
    ⟨g.alternatives ++ Connective.union.members (Connective.intersection.join factors), []⟩

/-- The type that ends with an operand. -/
def type (g : Group) (operand : TypeExpr) : TypeExpr :=
  Connective.union.join (g.next operand .union).alternatives

end Group

/-- What is open around a type that is read. -/
inductive Frame where
  | parentheses (outer : Group)
  | array (outer : Group)
  | field (outer : Group) (fields : List (FieldLabel × TypeExpr)) (label : FieldLabel)

/-- Where the machine is: in front of an operand or behind it, behind an opening
bracket, in front of a field, behind the word `readonly`, or behind the name of
a field. -/
inductive Place where
  | operand (group : Group)
  | operator (group : Group) (operand : TypeExpr)
  | bracket (group : Group) (operand : TypeExpr)
  | fields (outer : Group) (fields : List (FieldLabel × TypeExpr))
  | readOnly (outer : Group) (fields : List (FieldLabel × TypeExpr))
  | label (outer : Group) (fields : List (FieldLabel × TypeExpr)) (label : FieldLabel)

/-- The state of the machine. -/
structure Reader where
  stack : List Frame
  place : Place

namespace Reader

/-- The type that a word stands for. -/
def wordType (text : String) : TypeExpr :=
  match [Keyword.string, .number, .boolean, .null, .any].find? fun word => word.text == text with
  | some word => .keyword word
  | none =>
    if text = "never" then .union []
    else if text = "unknown" then .intersection []
    else if text = "true" || text = "false" || !Identifier.isIdentifier text then .literal text
    else .ref text

/-- The name of a field. -/
def name? : Token → Option String
  | .word text => if Identifier.isIdentifier text then some text else none
  | .quoted text =>
    match Json.Reader.stringBody text.toList.tail with
    | some (s, []) => some (String.ofList s)
    | _ => none
  | .mark _ => none

/-- The machine behind the name of a field. -/
def atName? (stack : List Frame) (outer : Group) (fields : List (FieldLabel × TypeExpr))
    (readOnly : Bool) (token : Token) : Option Reader :=
  (name? token).map fun name => ⟨stack, .label outer fields ⟨name, true, readOnly, none⟩⟩

/-- The machine behind a mark after the name of a field. -/
def atLabel? (stack : List Frame) (outer : Group) (fields : List (FieldLabel × TypeExpr))
    (label : FieldLabel) (c : Char) : Option Reader :=
  if c = '?' && label.required then some ⟨stack, .label outer fields { label with required := false }⟩
  else if c = ':' then some ⟨.field outer fields label :: stack, .operand .empty⟩
  else none

/-- The machine behind a mark after an operand. -/
def atOperator? (stack : List Frame) (g : Group) (operand : TypeExpr) (c : Char) : Option Reader :=
  if c = '|' then some ⟨stack, .operand (g.next operand .union)⟩
  else if c = '&' then some ⟨stack, .operand (g.next operand .intersection)⟩
  else if c = '[' then some ⟨stack, .bracket g operand⟩
  else if c = '<' then
    match operand with
    | .ref name => if name = "Array" then some ⟨.array g :: stack, .operand .empty⟩ else none
    | _ => none
  else
    match stack with
    | .parentheses outer :: stack =>
      if c = ')' then some ⟨stack, .operator outer (g.type operand)⟩ else none
    | .array outer :: stack =>
      if c = '>' then some ⟨stack, .operator outer (.array (g.type operand))⟩ else none
    | .field outer fields label :: stack =>
      if c = ';' then some ⟨stack, .fields outer (fields ++ [(label, g.type operand)])⟩ else none
    | [] => none

/-- One step of the machine. -/
def step (reader : Reader) (token : Token) : Option Reader :=
  match reader.place, token with
  | .operand g, .word text => some ⟨reader.stack, .operator g (wordType text)⟩
  | .operand g, .quoted text => some ⟨reader.stack, .operator g (.literal text)⟩
  | .operand g, .mark c =>
    if c = '(' then some ⟨.parentheses g :: reader.stack, .operand .empty⟩
    else if c = '\x7b' then some ⟨reader.stack, .fields g []⟩
    else none
  | .operator g operand, .mark c => atOperator? reader.stack g operand c
  | .bracket g operand, .mark c =>
    if c = ']' then some ⟨reader.stack, .operator g (.array operand)⟩ else none
  | .fields outer fields, .mark c =>
    if c = '\x7d' then some ⟨reader.stack, .operator outer (.record fields)⟩ else none
  | .fields outer fields, token =>
    if token = .word "readonly" then some ⟨reader.stack, .readOnly outer fields⟩
    else atName? reader.stack outer fields false token
  | .readOnly outer fields, .mark c =>
    atLabel? reader.stack outer fields (.plain "readonly") c
  | .readOnly outer fields, token => atName? reader.stack outer fields true token
  | .label outer fields label, .mark c => atLabel? reader.stack outer fields label c
  | _, _ => none

/-- The machine behind some tokens. -/
def run (reader : Reader) (tokens : List Token) : Option Reader := tokens.foldlM step reader

end Reader

/-- **The type that a text writes**, in its normal form. -/
def read? (text : String) : Option TypeExpr :=
  match Reader.run ⟨[], .operand .empty⟩ (Token.scan .between text.toList) with
  | some ⟨[], .operator g operand⟩ => some (g.type operand)
  | _ => none

/-! ## What is read of a type -/

open Reader (run)

variable {c : Connective} {type : TypeExpr} {found more : List Token} {types : List TypeExpr}
variable {reader next : Reader} {label : FieldLabel} {fields : List (FieldLabel × TypeExpr)}

theorem run_append : run reader (found ++ more) = (run reader found).bind (run · more) :=
  List.foldlM_append

theorem run_append_of_some (h : run reader found = some next) :
    run reader (found ++ more) = run next more := by
  rw [run_append, h, Option.bind_some]

theorem run_cons_of_some {token : Token} (h : reader.step token = some next) :
    run reader (token :: more) = run next more := by
  rw [run, List.foldlM_cons, h]
  rfl

@[simp] theorem run_nil : run reader [] = some reader := rfl

/-- The tokens are read as an operand, wherever one may stand. -/
def ReadsOperand (found : List Token) (type : TypeExpr) : Prop :=
  ∀ stack g, run ⟨stack, .operand g⟩ found = some ⟨stack, .operator g type⟩

/-- The tokens are read as members of a union, where one may begin, or as
members of an intersection. -/
def Reads (c : Connective) (found : List Token) (type : TypeExpr) : Prop :=
  ∀ stack g, (c = .union → g.factors = []) → ∃ last operand,
    run ⟨stack, .operand g⟩ found = some ⟨stack, .operator last operand⟩ ∧
      last.next operand c = g.add c (c.members type)

/-- An operand is one member of anything. -/
theorem ReadsOperand.reads (h : ReadsOperand found type) (hnormal : type.Normal) :
    Reads c found type := by
  intro stack g hfactors
  refine ⟨g, type, h stack g, ?_⟩
  cases c with
  | intersection => rfl
  | union => simp [Group.next, Group.add, hfactors rfl, hnormal.join_members]

/-- Members of an intersection make up one member of a union. -/
theorem Reads.union_of_intersection (h : Reads .intersection found type) (hnormal : type.Normal) :
    Reads .union found type := by
  intro stack g hfactors
  obtain ⟨last, operand, hrun, hnext⟩ := h stack g (fun hc => by cases hc)
  refine ⟨last, operand, hrun, ?_⟩
  obtain ⟨halternatives, hfactor⟩ := Group.mk.inj hnext
  rw [hfactors rfl, List.nil_append] at hfactor
  simp [Group.next, Group.add, hfactors rfl, halternatives, hfactor, hnormal.join_members]

/-- **What is read from the beginning is the type.** -/
theorem Reads.whole (h : Reads .union found type) (hnormal : type.Normal) (stack : List Frame) :
    ∃ g operand, run ⟨stack, .operand .empty⟩ found = some ⟨stack, .operator g operand⟩ ∧
      g.type operand = type := by
  obtain ⟨g, operand, hrun, hnext⟩ := h stack .empty (fun _ => rfl)
  refine ⟨g, operand, hrun, ?_⟩
  rw [Group.type, hnext]
  exact hnormal.join_members

/-! ## Members -/

/-- In parentheses a type is an operand. -/
theorem readsOperand_parentheses (h : Reads .union found type) (hnormal : type.Normal) :
    ReadsOperand (.mark '(' :: (found ++ [.mark ')'])) type := by
  intro stack g
  obtain ⟨last, operand, hrun, htype⟩ := h.whole hnormal (.parentheses g :: stack)
  have hopen : Reader.step ⟨stack, .operand g⟩ (.mark '(') =
      some ⟨.parentheses g :: stack, .operand .empty⟩ := rfl
  have hclose : Reader.step ⟨.parentheses g :: stack, .operator last operand⟩ (.mark ')') =
      some ⟨stack, .operator g (last.type operand)⟩ := rfl
  rw [run_cons_of_some hopen, run_append_of_some hrun, run_cons_of_some hclose, htype, run_nil]

/-- What is to be shown of a type: it is read as a member of a union, and unless
it is a union as a member of an intersection. -/
def ReadsBack (type : TypeExpr) : Prop :=
  Reads .union type.tokens type.normal ∧
    (type.isUnion = false → Reads .intersection type.tokens type.normal)

theorem ReadsBack.grouped (h : type.ReadsBack) :
    Reads c (groupedTokens (c.groups type) type.tokens) type.normal := by
  have hparentheses := (readsOperand_parentheses h.1 (normal_normal type)).reads (c := c)
    (normal_normal type)
  rw [groupedTokens]
  split
  · exact hparentheses
  · rename_i hgroups
    cases c with
    | union => exact h.1
    | intersection => exact h.2 (Bool.eq_false_iff.2 hgroups)

/-- The mark of a connective takes the operand in. -/
theorem step_mark (stack : List Frame) (g : Group) (operand : TypeExpr) :
    Reader.step ⟨stack, .operator g operand⟩ (.mark c.mark) =
      some ⟨stack, .operand (g.next operand c)⟩ := by
  cases c <;> rfl

/-- Members are read one after another. -/
theorem reads_members {m : TypeExpr} (h : ∀ t ∈ m :: types, t.ReadsBack) (stack : List Frame)
    (g : Group) (hfactors : c = .union → g.factors = []) : ∃ last operand,
      run ⟨stack, .operand g⟩ (compoundTokens c (m :: types)) =
        some ⟨stack, .operator last operand⟩ ∧
      last.next operand c = g.add c (normalMembers c (m :: types)) := by
  induction types generalizing m g with
  | nil =>
    obtain ⟨last, operand, hrun, hnext⟩ := (h m List.mem_cons_self).grouped stack g hfactors
    refine ⟨last, operand, ?_, ?_⟩
    · rw [compoundTokens, furtherTokens, List.append_nil, hrun]
    · rw [hnext, normalMembers, normalMembers, List.append_nil]
  | cons other types ih =>
    obtain ⟨hm, hothers⟩ := List.forall_mem_cons.1 h
    obtain ⟨first, operand, hrun, hnext⟩ := hm.grouped stack g hfactors
    obtain ⟨last, more, hmore, hlast⟩ := ih hothers (first.next operand c) (by
      rintro rfl
      rfl)
    refine ⟨last, more, ?_, ?_⟩
    · rw [compoundTokens, furtherTokens, run_append_of_some hrun,
        run_cons_of_some (step_mark stack first operand)]
      exact hmore
    · rw [hlast, hnext, Group.add_add]
      rfl

/-- The word for no members. -/
theorem readsOperand_word : ReadsOperand [.word c.word] (c.compound []) := by
  cases c <;> exact fun _ _ => rfl

/-- **A union and an intersection are read back.** -/
theorem reads_compound (h : ∀ t ∈ types, t.ReadsBack) :
    Reads c (tokens (c.compound types)) (c.compound types).normal := by
  rw [tokens_compound, normal_compound]
  cases types with
  | nil =>
    have hempty : c.join (normalMembers c []) = c.compound [] := by cases c <;> rfl
    rw [hempty]
    exact readsOperand_word.reads (.compound (by simp) (by simp) (by simp))
  | cons m types =>
    intro stack g hfactors
    rw [members_join_normalMembers]
    exact reads_members h stack g hfactors

/-! ## Words, literals and arrays -/

theorem wordType_keyword (word : Keyword) : Reader.wordType word.text = .keyword word := by
  cases word <;> rfl

/-- A word that no built-in type has is none of the keywords. -/
theorem find?_keyword_eq_none {text : String} (h : text ∉ builtinWords) :
    [Keyword.string, .number, .boolean, .null, .any].find? (fun word => word.text == text) =
      none := by
  rw [List.find?_eq_none]
  intro word _ hword
  rw [beq_iff_eq] at hword
  subst hword
  exact h (by cases word <;> decide)

theorem wordType_name {name : String} (h : Identifier.isIdentifier name = true)
    (hbuiltin : name ∉ builtinWords) : Reader.wordType name = .ref name := by
  rw [Reader.wordType, find?_keyword_eq_none hbuiltin]
  simp [builtinWords] at hbuiltin
  simp [hbuiltin, h]

theorem wordType_number (number : Number) :
    Reader.wordType (Json.numberText number) = .literal (Json.numberText number) := by
  have hidentifier := Json.not_isIdentifier_numberText number
  have hbuiltin : Json.numberText number ∉ builtinWords := by
    intro hmem
    have hall : ∀ word ∈ builtinWords, Identifier.isIdentifier word = true := by decide
    rw [hall _ hmem] at hidentifier
    cases hidentifier
  rw [Reader.wordType, find?_keyword_eq_none hbuiltin]
  simp [builtinWords] at hbuiltin
  simp [hbuiltin, hidentifier]

theorem readsOperand_of_wordType {text : String} (h : Reader.wordType text = type) :
    ReadsOperand [.word text] type := by
  intro stack g
  rw [← h]
  rfl

theorem readsOperand_literal {value : Json} (h : value.isPrimitive = true) :
    ReadsOperand [.ofLiteral value.text] (.literal value.text) := by
  cases value with
  | bool b => cases b <;> exact readsOperand_of_wordType rfl
  | number number =>
    rw [Json.text, ofLiteral_number]
    exact readsOperand_of_wordType (wordType_number number)
  | string s =>
    rw [Json.text, ofLiteral_quote]
    exact fun _ _ => rfl
  | _ => cases h

/-- Brackets behind an operand make an array of it. -/
theorem readsOperand_brackets (h : ReadsOperand found type) :
    ReadsOperand (found ++ [.mark '[', .mark ']']) (.array type) := by
  intro stack g
  have hopen : Reader.step ⟨stack, .operator g type⟩ (.mark '[') =
      some ⟨stack, .bracket g type⟩ := rfl
  have hclose : Reader.step ⟨stack, .bracket g type⟩ (.mark ']') =
      some ⟨stack, .operator g (.array type)⟩ := rfl
  rw [run_append_of_some (h stack g), run_cons_of_some hopen, run_cons_of_some hclose, run_nil]

/-- And so does the word for arrays in front of a type. -/
theorem readsOperand_array (h : Reads .union found type) (hnormal : type.Normal) :
    ReadsOperand (.word "Array" :: .mark '<' :: (found ++ [.mark '>'])) (.array type) := by
  intro stack g
  obtain ⟨last, operand, hrun, htype⟩ := h.whole hnormal (.array g :: stack)
  have hword : Reader.step ⟨stack, .operand g⟩ (.word "Array") =
      some ⟨stack, .operator g (.ref "Array")⟩ := rfl
  have hopen : Reader.step ⟨stack, .operator g (.ref "Array")⟩ (.mark '<') =
      some ⟨.array g :: stack, .operand .empty⟩ := rfl
  have hclose : Reader.step ⟨.array g :: stack, .operator last operand⟩ (.mark '>') =
      some ⟨stack, .operator g (.array (last.type operand))⟩ := rfl
  rw [run_cons_of_some hword, run_cons_of_some hopen, run_append_of_some hrun,
    run_cons_of_some hclose, htype, run_nil]

/-! ## Records -/

theorem name?_ofName (name : String) : Reader.name? (.ofName name) = some name := by
  rw [Token.ofName]
  split
  · rename_i h
    exact if_pos h
  · rw [Reader.name?, Json.toList_quote, List.cons_append, List.tail_cons, Json.stringBody_quoted]
    exact congrArg some String.ofList_toList

theorem run_cons_congr {other : Reader} {token : Token}
    (h : reader.step token = other.step token) :
    run reader (token :: more) = run other (token :: more) := by
  rw [run, run, List.foldlM_cons, List.foldlM_cons, h]

/-- A field may have the name `readonly`, which is told from the word by the mark
behind it. -/
theorem run_name {name : String} (mark : Char) (stack : List Frame) (g : Group) :
    run ⟨stack, .fields g fields⟩ (.ofName name :: .mark mark :: more) =
      run ⟨stack, .label g fields (.plain name)⟩ (.mark mark :: more) := by
  by_cases hname : name = "readonly"
  · subst hname
    have hword : Reader.step ⟨stack, .fields g fields⟩ (.ofName "readonly") =
        some ⟨stack, .readOnly g fields⟩ := rfl
    rw [run_cons_of_some hword]
    exact run_cons_congr rfl
  · have hne : Token.ofName name ≠ .word "readonly" := by
      rw [Token.ofName]
      split
      · simpa using hname
      · simp
    have hstep : Reader.step ⟨stack, .fields g fields⟩ (.ofName name) =
        Reader.atName? stack g fields false (.ofName name) := by
      cases htoken : Token.ofName name with
      | mark c =>
        have hread := name?_ofName name
        rw [htoken] at hread
        cases hread
      | word text => exact if_neg (htoken ▸ hne)
      | quoted text => rfl
    rw [Reader.atName?, name?_ofName] at hstep
    exact run_cons_of_some hstep

theorem run_readOnlyName {name : String} (stack : List Frame) (g : Group) :
    run ⟨stack, .readOnly g fields⟩ (.ofName name :: more) =
      run ⟨stack, .label g fields ⟨name, true, true, none⟩⟩ more := by
  have hstep : Reader.step ⟨stack, .readOnly g fields⟩ (.ofName name) =
      Reader.atName? stack g fields true (.ofName name) := by
    rw [Token.ofName]
    split <;> rfl
  rw [Reader.atName?, name?_ofName] at hstep
  exact run_cons_of_some hstep

/-- **The label of a field is read back**, but for its documentation. -/
theorem run_labelTokens (stack : List Frame) (g : Group) :
    run ⟨stack, .fields g fields⟩ (labelTokens label) =
      some ⟨.field g fields label.undocumented :: stack, .operand .empty⟩ := by
  obtain ⟨name, required, readOnly, description⟩ := label
  cases readOnly with
  | true =>
    have hword : Reader.step ⟨stack, .fields g fields⟩ (.word "readonly") =
        some ⟨stack, .readOnly g fields⟩ := rfl
    have htokens : labelTokens ⟨name, required, true, description⟩ =
        .word "readonly" :: .ofName name ::
          ((if required then [] else [.mark '?']) ++ [.mark ':']) := rfl
    rw [htokens, run_cons_of_some hword, run_readOnlyName]
    cases required <;> rfl
  | false =>
    cases required with
    | true => exact (run_name ':' stack g).trans rfl
    | false => exact (run_name '?' stack g).trans rfl

theorem run_fieldTokens (h : ∀ f ∈ fields, Reads .union f.2.tokens f.2.normal)
    (before : List (FieldLabel × TypeExpr)) (stack : List Frame) (g : Group) :
    run ⟨stack, .fields g before⟩ (fieldTokens fields) =
      some ⟨stack, .fields g (before ++ normalFields fields)⟩ := by
  induction fields generalizing before with
  | nil => simp [fieldTokens, normalFields]
  | cons f fields ih =>
    obtain ⟨label, type⟩ := f
    obtain ⟨htype, hfields⟩ := List.forall_mem_cons.1 h
    obtain ⟨last, operand, hrun, hwhole⟩ := Reads.whole htype (normal_normal type)
      (.field g before label.undocumented :: stack)
    have hend : Reader.step ⟨.field g before label.undocumented :: stack, .operator last operand⟩
        (.mark ';') =
          some ⟨stack, .fields g (before ++ [(label.undocumented, last.type operand)])⟩ := rfl
    rw [fieldTokens, run_append_of_some (run_labelTokens stack g), run_append_of_some hrun,
      run_cons_of_some hend, ih hfields, hwhole, normalFields, List.append_assoc,
      List.singleton_append]

theorem readsOperand_record (h : ∀ f ∈ fields, Reads .union f.2.tokens f.2.normal) :
    ReadsOperand (tokens (.record fields)) (.record (normalFields fields)) := by
  intro stack g
  have hopen : Reader.step ⟨stack, .operand g⟩ (.mark '\x7b') = some ⟨stack, .fields g []⟩ := rfl
  have hclose : Reader.step ⟨stack, .fields g (normalFields fields)⟩ (.mark '\x7d') =
      some ⟨stack, .operator g (.record (normalFields fields))⟩ := rfl
  rw [tokens, run_cons_of_some hopen, run_append_of_some (run_fieldTokens h [] stack g),
    List.nil_append, run_cons_of_some hclose, run_nil]

/-! ## Types -/

/-- What is read as an operand is read back. -/
theorem ReadsOperand.readsBack (h : ReadsOperand type.tokens type.normal) : type.ReadsBack :=
  ⟨h.reads (normal_normal type), fun _ => h.reads (normal_normal type)⟩

/-- A single word is read as an operand. -/
theorem readsOperand_of_isWord (h : type.Printable) (hword : type.isWord = true) :
    ReadsOperand type.tokens type.normal := by
  cases type with
  | keyword word => exact readsOperand_of_wordType (wordType_keyword word)
  | ref name =>
    obtain ⟨hidentifier, hbuiltin⟩ := printable_ref_iff.1 h
    exact readsOperand_of_wordType (wordType_name hidentifier hbuiltin)
  | _ => cases hword

/-- **Every printable type is read back from its tokens.** -/
theorem readsBack (h : type.Printable) : type.ReadsBack := by
  induction type using induction with
  | keyword word => exact (readsOperand_of_isWord h rfl).readsBack
  | literal text =>
    obtain ⟨value, hvalue, rfl⟩ := printable_literal_iff.1 h
    exact ReadsOperand.readsBack (readsOperand_literal hvalue)
  | ref name => exact (readsOperand_of_isWord h rfl).readsBack
  | array element ih =>
    have helement := printable_array_iff.1 h
    refine ReadsOperand.readsBack ?_
    rw [tokens, normal]
    split
    · rename_i hword
      exact readsOperand_brackets (readsOperand_of_isWord helement hword)
    · exact readsOperand_array (ih helement).1 (normal_normal element)
  | union types ih =>
    have hmembers := (printable_compound_iff (c := .union)).1 h
    exact ⟨reads_compound (c := .union) fun t ht => ih t ht (hmembers t ht),
      fun hunion => by cases hunion⟩
  | intersection types ih =>
    have hmembers := (printable_compound_iff (c := .intersection)).1 h
    have hreads := reads_compound (c := .intersection) fun t ht => ih t ht (hmembers t ht)
    exact ⟨hreads.union_of_intersection (normal_normal _), fun _ => hreads⟩
  | record fields ih =>
    have hfields := printable_record_iff.1 h
    exact ReadsOperand.readsBack (readsOperand_record fun f hf => (ih f hf (hfields f hf)).1)

/-- The reader recovers the normal form. -/
theorem read?_textAt (depth : Nat) (h : type.Printable) :
    read? (textAt depth type) = some type.normal := by
  have hscan := scans_textAt depth h [] Token.apart_nil
  obtain ⟨g, operand, hrun, htype⟩ := (readsBack h).1.whole (normal_normal type) []
  have hend : Token.scan .between [] = [] := rfl
  rw [List.append_nil, hend, List.append_nil] at hscan
  rw [read?, hscan, hrun]
  exact congrArg some htype

/-- **The text of types is unambiguous.** From the text of a printable type the
reader recovers its normal form, with the name of each field and whether it is
read-only and required; printable types with one text have one normal form. -/
theorem text_unambiguous (h : type.Printable) : read? type.text = some type.normal ∧
    type.normal.Normal ∧
    ∀ other : TypeExpr, other.Printable → other.text = type.text →
      other.normal = type.normal := by
  have hread := read?_textAt 0 h
  refine ⟨hread, normal_normal type, fun other hother htext => ?_⟩
  have hreadOther := read?_textAt 0 hother
  have htextAt : textAt 0 other = textAt 0 type := htext
  rw [htextAt, hread] at hreadOther
  exact (Option.some.inj hreadOther).symm

/-- A record whose first field has a quoted name, a comment with an end mark in
its text, and some types for the type that they make up. -/
def sizes (types : List TypeExpr) : TypeExpr :=
  .record [(⟨"max-size", false, true, some "At most */ this"⟩, .union types),
    (.plain "readonly", .array (.ref "Size"))]

theorem printable_sizes {types : List TypeExpr} (h : ∀ t ∈ types, t.Printable) :
    (sizes types).Printable := by
  have hunion : (union types).Printable := (printable_compound_iff (c := .union)).2 h
  have hsize : (ref "Size").Printable := printable_ref_iff.2 (by decide)
  simp [sizes, printable_record_iff, printable_array_iff, hunion, hsize]

/-- Whether two of the types stand in a union of their own does not show, and
their normal forms agree. -/
theorem text_unambiguous_of_sizes :
    (sizes [.ref "Small", .union [.ofString "a|b", .number]]).Printable ∧
    (sizes [.union [.ref "Small", .ofString "a|b"], .number]).Printable ∧
    read? (sizes [.ref "Small", .union [.ofString "a|b", .number]]).text =
      some (sizes [.ref "Small", .union [.ofString "a|b", .number]]).normal ∧
    (sizes [.union [.ref "Small", .ofString "a|b"], .number]).text =
      (sizes [.ref "Small", .union [.ofString "a|b", .number]]).text ∧
    (sizes [.union [.ref "Small", .ofString "a|b"], .number]).normal =
      (sizes [.ref "Small", .union [.ofString "a|b", .number]]).normal := by
  have hsmall : (ref "Small").Printable := printable_ref_iff.2 (by decide)
  have htext : (ofString "a|b").Printable :=
    printable_literal_iff.2 ⟨.string "a|b", rfl, rfl⟩
  have hlast : (union [ofString "a|b", .number]).Printable :=
    (printable_compound_iff (c := .union)).2 (by simp [htext, number, printable_keyword])
  have hfirst : (union [.ref "Small", ofString "a|b"]).Printable :=
    (printable_compound_iff (c := .union)).2 (by simp [hsmall, htext])
  have hone : (sizes [.ref "Small", .union [.ofString "a|b", .number]]).Printable :=
    printable_sizes (by simp [hsmall, hlast])
  have hother : (sizes [.union [.ref "Small", .ofString "a|b"], .number]).Printable :=
    printable_sizes (by simp [hfirst, number, printable_keyword])
  have hsame : (sizes [.union [.ref "Small", .ofString "a|b"], .number]).text =
      (sizes [.ref "Small", .union [.ofString "a|b", .number]]).text := by
    decide
  obtain ⟨hread, -, hnormal⟩ := text_unambiguous hone
  exact ⟨hone, hother, hread, hsame, hnormal _ hother hsame⟩

end TypeExpr

end TypedClient
