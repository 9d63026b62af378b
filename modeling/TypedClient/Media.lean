import TypedClient.Text.Blank
/-!
# Media types

Media types are told apart by words in them, whatever the case of their
letters. Of several, JSON is preferred, then text, then the first.
-/

namespace TypedClient

/-- The classes of media types. -/
inductive Media where
  | json
  | text
  | octetStream
  | other
deriving DecidableEq, Repr

namespace Media

/-- The class of a media type. -/
def classify (mediaType : String) : Media :=
  let lower := mediaType.toList.map Char.toLower
  if Text.occursIn "json".toList lower then .json
  else if Text.occursIn "octet-stream".toList lower then .octetStream
  else if Text.occursIn "text".toList lower then .text
  else .other

variable {α : Type}

/-- The first entry whose media type is of a class. -/
def first? (kind : Media) (entries : List (String × α)) : Option (String × α) :=
  entries.find? fun entry => classify entry.1 == kind

/-- The preferred entry: JSON, then text, then the first. -/
def preferred? (entries : List (String × α)) : Option (String × α) :=
  match first? .json entries with
  | some entry => some entry
  | none =>
    match first? .text entries with
    | some entry => some entry
    | none => entries.head?

end Media

end TypedClient
