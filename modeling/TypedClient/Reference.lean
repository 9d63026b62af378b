import TypedClient.Document.Shape
import TypedClient.Pointer
import TypedClient.Synthesis
/-!
# Chains of references

`RefOr.follow` goes from reference to reference until it meets an item.
It fails where a pointer leads nowhere, where a value is neither a
reference nor an item, and at the first pointer it meets again. The
pointers of a chain are written in the document, but for the first, so
their number bounds the walk.
-/

namespace TypedClient

namespace RefOr

variable {α : Type}

/-- What a pointer leads to, read as an item or a reference. -/
def target (document : Json) (read : Json → Shape α) (pointer : String) :
    Except Error (RefOr α) :=
  match Pointer.resolve? document pointer with
  | none => .error (.unresolved pointer)
  | some value =>
    match Shape.refOr read value with
    | .ok next => .ok next
    | .error shape => .error (.parse (.target pointer shape))

/-- The item at the end of the chain from a pointer, where `visited` are
the pointers met before. -/
def followFrom (document : Json) (read : Json → Shape α) :
    Nat → List String → String → Except Error α
  | 0, _, pointer => .error (.unresolved pointer)
  | left + 1, visited, pointer =>
    if visited.contains pointer then .error (.unresolved pointer)
    else
      match target document read pointer with
      | .error e => .error e
      | .ok (.item value) => .ok value
      | .ok (.reference next) => followFrom document read left (pointer :: visited) next

/-- The item that this is or refers to. -/
def follow (document : Json) (read : Json → Shape α) : RefOr α → Except Error α
  | .item value => .ok value
  | .reference pointer =>
    followFrom document read (Synthesis.referenceCount document + 2) [] pointer

end RefOr

end TypedClient
