import TypedClient.Proofs.Text.Joined
import TypedClient.Text.Comment
/-!
# Templates

A template is text with holes, conditions and loops (`Part`), and may have others in
it by name. It is filled with what is known under names (`filled?`): a hole shows a
text, a condition holds if something is there, and a loop is filled once for each
datum of a list. The mark of a condition or loop, at its start or its end, may trim
the text before it. What is not known cannot be shown, and nothing is filled then.
-/

namespace TypedClient

namespace Markup

/-! ## Templates and how they are filled -/

/-- What a template is filled with. -/
inductive Datum where
  | null
  | flag (b : Bool)
  | text (s : String)
  | list (items : List Datum)
  | record (fields : List (String × Datum))

/-- What is known under names. -/
abbrev Known := List (String × Datum)

/-- The first datum under a name. -/
def under? (name : String) (known : Known) : Option Datum :=
  (known.find? (·.1 == name)).map (·.2)

namespace Datum

/-- Whether a condition on a datum holds: it is true, or there is something in it. -/
def holds : Datum → Bool
  | .null => false
  | .flag b => b
  | .text s => s != ""
  | .list items => !items.isEmpty
  | .record fields => !fields.isEmpty

/-- A datum that is shown as it is. -/
def shown? : Datum → Option String
  | .text s => some s
  | _ => none

/-- A text as a comment; what is not there gives none. -/
def comment? : Datum → Option Datum
  | .null => some (.text "")
  | .text s => some (.text (Text.comment s 0))
  | _ => none

end Datum

/-- Where a template takes a datum from. -/
inductive Place where
  | named (name : String)
  | field (of : Place) (name : String)
  | comment (of : Place)

/-- The datum at a place. -/
def Place.datum? (known : Known) : Place → Option Datum
  | .named name => under? name known
  | .field of name =>
    match of.datum? known with
    | some (.record fields) => under? name fields
    | _ => none
  | .comment of => (of.datum? known).bind Datum.comment?

/-- Whether the marks at the start and at the end of a body trim the text before
them. -/
structure Trims where
  start : Bool
  stop : Bool

/-- Marks that trim nothing. -/
def Trims.none : Trims := ⟨false, false⟩

/-- Marks that both trim. -/
def Trims.both : Trims := ⟨true, true⟩

/-- A part of a template. -/
inductive Part where
  | text (s : String)
  /-- Text that stands between marks that trim it. -/
  | raw (s : String)
  | hole (place : Place)
  | cond (trims : Trims) (place : Place) (body : List Part)
  | each (trims : Trims) (name : String) (place : Place) (body : List Part)
  /-- Another template, which knows the same. -/
  | insert (template : String)

/-- Whether a part trims the text before it. -/
def Part.trims : Part → Bool
  | .cond trims _ _ => trims.start
  | .each trims _ _ _ => trims.start
  | _ => false

/-- Whether the mark behind some text trims it, where `trims` says so of a mark behind
all parts. -/
def nextTrims (trims : Bool) : List Part → Bool
  | [] => trims
  | part :: _ => part.trims

/-- A text without the blank characters at its end. -/
def trimmed (s : String) : String := String.ofList (Text.trimEnd s.toList)

section

variable (inserted? : String → Known → Option String)

mutual

/-- What a part gives, where `trims` says whether a mark behind it trims. -/
def fill (known : Known) : Part → Bool → Option String
  | .text s, trims => some (if trims then trimmed s else s)
  | .raw s, _ => some (String.ofList (Text.trim s.toList))
  | .hole place, _ => (place.datum? known).bind Datum.shown?
  | .cond trims place body, _ =>
    if (place.datum? known).any Datum.holds then fillAll known body trims.stop else some ""
  | .each trims name place body, _ =>
    match place.datum? known with
    | some (.list items) =>
      (items.mapM fun item => fillAll ((name, item) :: known) body trims.stop).map Text.concat
    | _ => none
  | .insert template, _ => inserted? template known
termination_by structural part => part

/-- What parts give one after another, where `trims` says whether a mark behind them
trims. -/
def fillAll (known : Known) : List Part → Bool → Option String
  | [], _ => some ""
  | part :: rest, trims =>
    match fill known part (nextTrims trims rest), fillAll known rest trims with
    | some s, some t => some (s ++ t)
    | _, _ => none
termination_by structural parts => parts

end

end

/-- What a template gives, with at most `depth` templates inside each other. -/
def filled? (template? : String → Option (List Part)) : Nat → String → Known → Option String
  | 0, _, _ => none
  | depth + 1, name, known =>
    (template? name).bind fun parts => fillAll (filled? template? depth) known parts false

/-! ## Parts and what they give -/

section

variable {inserted? : String → Known → Option String} {known : Known} {trims : Trims}
variable {place : Place} {body : List Part} {datum : Datum} {s name : String} {trim : Bool}

end

end Markup

end TypedClient
