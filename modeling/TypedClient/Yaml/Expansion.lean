import TypedClient.Yaml.Anchor
import TypedClient.Yaml.Value
/-!
# Values of nodes

A graph of nodes stands for a value in which every alias is replaced by
the value of its node. At most 128 collections stand inside each other,
which also ends nodes that contain themselves, and at most a hundred times
as many aliases are replaced as the text has starts and ends of nodes. No
mapping has equal keys.
-/

namespace TypedClient

namespace Yaml

namespace Graph

/-- How many collections may stand inside each other. -/
def nestingLimit : Nat := 128

/-- The number of aliases that may still be replaced, if it is not
exceeded by a node. -/
def spend (left : Nat) : Node Nat → Option Nat
  | .alias _ => if left == 0 then none else some (left - 1)
  | _ => some left

/-- The values of items. -/
def items? (value? : Node Nat → Nat → Option (Value × Nat)) :
    List (Node Nat) → Nat → Option (List Value × Nat)
  | [], left => some ([], left)
  | item :: rest, left =>
    match value? item left with
    | none => none
    | some (item, left) =>
      (items? value? rest left).map fun (rest, left) => (item :: rest, left)

/-- The values of entries, added to those before. -/
def entries? (value? : Node Nat → Nat → Option (Value × Nat)) :
    List (Value × Value) → List (Node Nat × Node Nat) → Nat →
    Option (List (Value × Value) × Nat)
  | before, [], left => some (before, left)
  | before, (key, value) :: rest, left =>
    match value? key left with
    | none => none
    | some (key, left) =>
      if before.any fun (other, _) => other.same key then none
      else
        match value? value left with
        | none => none
        | some (value, left) => entries? value? (before ++ [(key, value)]) rest left

/-- The value of a node, with at most `limit` collections inside each
other and `left` aliases, and the number of aliases that are left. -/
def value? (g : Graph) : Nat → Node Nat → Nat → Option (Value × Nat)
  | limit, n, left =>
    match spend left n with
    | none => none
    | some left =>
      match g.resolve n, limit with
      | .alias _, _ => none
      | .scalar p text style, _ => (Value.ofScalar? p.tag style text).map fun v => (v, left)
      | .sequence _ _, 0 => none
      | .sequence p items, limit + 1 =>
        (items? (value? g limit) items left).map fun (items, left) =>
          (Value.withTag p.tag (.sequence items), left)
      | .mapping _ _, 0 => none
      | .mapping p entries, limit + 1 =>
        (entries? (value? g limit) [] entries left).map fun (entries, left) =>
          (Value.withTag p.tag (.mapping entries), left)

end Graph

/-- The value of a text; null if no document is in it. -/
def Value.ofText? (text : String) : Option Value :=
  match Graph.ofText? text with
  | none => none
  | some none => some .null
  | some (some g) =>
    (g.value? Graph.nestingLimit g.root (100 * g.root.eventCount)).map (·.1)

end Yaml

end TypedClient
