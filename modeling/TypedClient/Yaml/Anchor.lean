import TypedClient.Yaml.Node
/-!
# Anchors and aliases

Each anchored node gets a number in the order of the text: the number of
names that have been given before. An alias takes the number that its name
has at that place, and stands for the last node with that number. A name
that is given twice leaves a number to be given again.
-/

namespace TypedClient

namespace Yaml

namespace Node

/-- The names given so far with their numbers. -/
abbrev Names := List (String × Nat)

/-- The names with a new number for one of them. -/
def give (name : String) (names : Names) : Nat × Names :=
  let n := names.length
  if names.any (·.1 == name) then
    (n, names.map fun (other, m) => if other == name then (other, n) else (other, m))
  else (n, names ++ [(name, n)])

/-- The properties of a node with a number for its anchor. -/
def numberProperties (p : Properties String) (names : Names) : Properties Nat × Names :=
  match p.anchor with
  | some name =>
    let (n, names) := give name names
    (⟨some n, p.tag⟩, names)
  | none => (⟨none, p.tag⟩, names)

mutual

/-- A node with numbers for names, if each alias has a name that was given
before. -/
def number? : Node String → Names → Option (Node Nat × Names)
  | .alias name, names =>
    (names.find? (·.1 == name)).map fun (_, n) => (.alias n, names)
  | .scalar p text style, names =>
    let (p, names) := numberProperties p names
    some (.scalar p text style, names)
  | .sequence p items, names =>
    let (p, names) := numberProperties p names
    (numberItems? items names).map fun (items, names) => (.sequence p items, names)
  | .mapping p entries, names =>
    let (p, names) := numberProperties p names
    (numberEntries? entries names).map fun (entries, names) => (.mapping p entries, names)
termination_by structural n => n

/-- Items with numbers for names. -/
def numberItems? : List (Node String) → Names → Option (List (Node Nat) × Names)
  | [], names => some ([], names)
  | item :: rest, names =>
    match number? item names with
    | none => none
    | some (item, names) =>
      (numberItems? rest names).map fun (rest, names) => (item :: rest, names)
termination_by structural items => items

/-- Entries with numbers for names. -/
def numberEntries? : List (Node String × Node String) → Names →
    Option (List (Node Nat × Node Nat) × Names)
  | [], names => some ([], names)
  | (key, value) :: rest, names =>
    match number? key names with
    | none => none
    | some (key, names) =>
      match number? value names with
      | none => none
      | some (value, names) =>
        (numberEntries? rest names).map fun (rest, names) => ((key, value) :: rest, names)
termination_by structural entries => entries

end

/-- A node with the number of its anchor, if it has one. -/
def anchored (p : Properties Nat) (n : Node Nat) : List (Nat × Node Nat) :=
  match p.anchor with
  | some id => [(id, n)]
  | none => []

mutual

/-- The anchored nodes in the order of the text. -/
def targets : Node Nat → List (Nat × Node Nat)
  | .alias _ => []
  | .scalar p text style => anchored p (.scalar p text style)
  | .sequence p items => anchored p (.sequence p items) ++ itemTargets items
  | .mapping p entries => anchored p (.mapping p entries) ++ entryTargets entries
termination_by structural n => n

/-- The anchored nodes in items. -/
def itemTargets : List (Node Nat) → List (Nat × Node Nat)
  | [] => []
  | item :: rest => targets item ++ itemTargets rest
termination_by structural items => items

/-- The anchored nodes in entries. -/
def entryTargets : List (Node Nat × Node Nat) → List (Nat × Node Nat)
  | [] => []
  | (key, value) :: rest => targets key ++ targets value ++ entryTargets rest
termination_by structural entries => entries

end

mutual

/-- The number of starts and ends of nodes: one for a scalar or an alias,
and two for a collection. -/
def eventCount : Node Nat → Nat
  | .alias _ => 1
  | .scalar _ _ _ => 1
  | .sequence _ items => 2 + itemEventCount items
  | .mapping _ entries => 2 + entryEventCount entries
termination_by structural n => n

/-- The number of starts and ends in items. -/
def itemEventCount : List (Node Nat) → Nat
  | [] => 0
  | item :: rest => eventCount item + itemEventCount rest
termination_by structural items => items

/-- The number of starts and ends in entries. -/
def entryEventCount : List (Node Nat × Node Nat) → Nat
  | [] => 0
  | (key, value) :: rest => eventCount key + eventCount value + entryEventCount rest
termination_by structural entries => entries

end

/-- The last node with a number. -/
def target? (table : List (Nat × Node Nat)) (id : Nat) : Option (Node Nat) :=
  (table.reverse.find? (·.1 == id)).map (·.2)

end Node

/-- A tree of nodes with the nodes that aliases stand for. -/
structure Graph where
  root : Node Nat
  table : List (Nat × Node Nat)

namespace Graph

/-- The graph of a text, or nothing if no document is in it. -/
def ofText? (text : String) : Option (Option Graph) :=
  match (Token.ofText? text).bind Node.ofTokens? with
  | none => none
  | some none => some none
  | some (some root) =>
    (Node.number? root []).map fun (root, _) => some ⟨root, root.targets⟩

/-- The node that a node stands for: itself, or that of an alias. -/
def resolve (g : Graph) (n : Node Nat) : Node Nat :=
  match n with
  | .alias id => (Node.target? g.table id).getD n
  | n => n

end Graph

end Yaml

end TypedClient
