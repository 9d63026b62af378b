import TypedClient.Json.Basic
import TypedClient.Error
/-!
# Merging documents

Several documents become one. The first supplies everything; later ones
add the paths and the entries of the component sections that are not there
yet, in their order. All of several documents must be objects, and what is
added to must be one, or it is replaced by an empty one.
-/

namespace TypedClient

namespace Merge

/-- The component sections that are merged entry by entry. -/
def sections : List String :=
  ["schemas", "responses", "parameters", "examples", "requestBodies", "headers",
   "securitySchemes", "links", "callbacks"]

/-- The members with the entries of others whose keys are not there. -/
def addMissing (target : List (String × Json)) : List (String × Json) → List (String × Json)
  | [] => target
  | (key, value) :: rest =>
    if Json.hasKey key target then addMissing target rest
    else addMissing (target ++ [(key, value)]) rest

/-- The members of the object under a key; none if something else or
nothing is there. -/
def membersUnder (key : String) (members : List (String × Json)) : List (String × Json) :=
  ((Json.find? key members).bind Json.members?).getD []

/-- The target with the entries of the source's object under a key, if the
source has an object there. -/
def addUnder (key : String) (source target : List (String × Json)) : List (String × Json) :=
  match Json.find? key source with
  | some (.object entries) =>
    Json.insert key (.object (addMissing (membersUnder key target) entries)) target
  | _ => target

/-- The target's components with those of the source, section by
section. -/
def addSections (source : List (String × Json)) :
    List String → List (String × Json) → List (String × Json)
  | [], target => target
  | name :: rest, target => addSections source rest (addUnder name source target)

/-- The target with the components of the source. -/
def addComponents (source target : List (String × Json)) : List (String × Json) :=
  match Json.find? "components" source with
  | some (.object components) =>
    Json.insert "components"
      (.object (addSections components sections (membersUnder "components" target))) target
  | _ => target

/-- One document added to another. -/
def add (target source : Json) : Except Error Json :=
  match source with
  | .object source =>
    match target with
    | .object target => .ok (.object (addComponents source (addUnder "paths" source target)))
    | _ => .error (.parse .rootNotObject)
  | _ => .error (.parse .rootNotObject)

/-- Documents added one after another. -/
def addAll : Json → List Json → Except Error Json
  | target, [] => .ok target
  | target, source :: rest =>
    match add target source with
    | .ok target => addAll target rest
    | .error e => .error e

end Merge

/-- The documents as one, where earlier ones win. -/
def merge : List Json → Except Error Json
  | [] => .error (.parse .noDocuments)
  | first :: rest => Merge.addAll first rest

end TypedClient
