import TypedClient.Yaml.Token
/-!
# YAML nodes

Tokens make a tree of nodes: scalars, sequences, mappings and aliases. A
node may have an anchor and a tag. A stream holds at most one document,
and directives belong to an explicit one.
-/

namespace TypedClient

namespace Yaml

/-- What may stand before a node. The anchor is a name of type `ν`. -/
structure Properties (ν : Type) where
  anchor : Option ν
  tag : Option String

/-- A node. Without a tag only a plain scalar can mean anything but its
text. -/
inductive Node (ν : Type) where
  | alias (name : ν)
  | scalar (properties : Properties ν) (text : String) (style : Style)
  | sequence (properties : Properties ν) (items : List (Node ν))
  | mapping (properties : Properties ν) (entries : List (Node ν × Node ν))

namespace Node

/-- The node for a place where nothing is written. -/
def nothing {ν : Type} : Node ν := .scalar ⟨none, none⟩ "" .plain

/-- What handles stand for in tags. -/
abbrev Handles := List (String × String)

/-- The handles that need no directive. -/
def standardHandles : Handles := [("!", "!"), ("!!", "tag:yaml.org,2002:")]

/-- The full tag of a handle and a suffix. -/
def fullTag? (handles : Handles) (handle suffix : String) : Option String :=
  if handle.isEmpty then some suffix
  else (handles.find? (·.1 == handle)).map fun h => h.2 ++ suffix

/-- The properties at the start of tokens, in either order. -/
def properties? (handles : Handles) :
    List Token → Option (Properties String × List Token)
  | .anchor name :: .tag handle suffix :: rest => do
    return (⟨some name, some (← fullTag? handles handle suffix)⟩, rest)
  | .anchor name :: rest => some (⟨some name, none⟩, rest)
  | .tag handle suffix :: .anchor name :: rest => do
    return (⟨some name, some (← fullTag? handles handle suffix)⟩, rest)
  | .tag handle suffix :: rest => do
    return (⟨none, some (← fullTag? handles handle suffix)⟩, rest)
  | rest => some (⟨none, none⟩, rest)

/-- Whether the next token ends an entry of a block sequence. -/
def endsItem : List Token → Bool
  | .blockEntry :: _ => true
  | .blockEnd :: _ => true
  | _ => false

/-- Whether the next token ends a key or a value of a block mapping. -/
def endsEntry : List Token → Bool
  | .key :: _ => true
  | .value :: _ => true
  | .blockEnd :: _ => true
  | _ => false

mutual

/-- A node, with block collections where `block` holds. Entries of a
sequence need no indentation where `indentless` holds. The first number
bounds the steps. -/
def node? (handles : Handles) : Nat → Bool → Bool → List Token →
    Option (Node String × List Token)
  | 0, _, _, _ => none
  | steps + 1, block, indentless, tokens =>
    match tokens with
    | .alias name :: rest => some (.alias name, rest)
    | _ =>
      match properties? handles tokens with
      | none => none
      | some (p, rest) =>
        match rest, block, indentless with
        | .scalar text style :: rest, _, _ =>
          let tag := if p.tag == some "!" then none else p.tag
          some (.scalar ⟨p.anchor, tag⟩ text style, rest)
        | .blockEntry :: _, _, true =>
          (looseItems? handles steps rest).map fun (items, rest) => (.sequence p items, rest)
        | .flowSequenceStart :: rest, _, _ =>
          (flowItems? handles steps true rest).map fun (items, rest) => (.sequence p items, rest)
        | .flowMappingStart :: rest, _, _ =>
          (flowEntries? handles steps true rest).map fun (entries, rest) =>
            (.mapping p entries, rest)
        | .blockSequenceStart :: rest, true, _ =>
          (blockItems? handles steps rest).map fun (items, rest) => (.sequence p items, rest)
        | .blockMappingStart :: rest, true, _ =>
          (blockEntries? handles steps rest).map fun (entries, rest) => (.mapping p entries, rest)
        | rest, _, _ =>
          if p.anchor.isSome || p.tag.isSome then some (.scalar p "" .plain, rest) else none

/-- The items of a block sequence up to its end. -/
def blockItems? (handles : Handles) : Nat → List Token →
    Option (List (Node String) × List Token)
  | 0, _ => none
  | steps + 1, tokens =>
    match tokens with
    | .blockEntry :: rest =>
      let item := if endsItem rest then some (nothing, rest)
        else node? handles steps true false rest
      match item with
      | none => none
      | some (item, rest) =>
        (blockItems? handles steps rest).map fun (items, rest) => (item :: items, rest)
    | .blockEnd :: rest => some ([], rest)
    | _ => none

/-- The items of a sequence without indentation of its own. -/
def looseItems? (handles : Handles) : Nat → List Token →
    Option (List (Node String) × List Token)
  | 0, _ => none
  | steps + 1, tokens =>
    match tokens with
    | .blockEntry :: rest =>
      let item := if endsItem rest || endsEntry rest then some (nothing, rest)
        else node? handles steps true false rest
      match item with
      | none => none
      | some (item, rest) =>
        (looseItems? handles steps rest).map fun (items, rest) => (item :: items, rest)
    | _ => some ([], tokens)

/-- The entries of a block mapping up to its end. -/
def blockEntries? (handles : Handles) : Nat → List Token →
    Option (List (Node String × Node String) × List Token)
  | 0, _ => none
  | steps + 1, tokens =>
    match tokens with
    | .key :: rest =>
      let key := if endsEntry rest then some (nothing, rest)
        else node? handles steps true true rest
      match key with
      | none => none
      | some (key, rest) =>
        let value := match rest with
          | .value :: rest =>
            if endsEntry rest then some (nothing, rest) else node? handles steps true true rest
          | _ => some (nothing, rest)
        match value with
        | none => none
        | some (value, rest) =>
          (blockEntries? handles steps rest).map fun (entries, rest) =>
            ((key, value) :: entries, rest)
    | .blockEnd :: rest => some ([], rest)
    | _ => none

/-- The items of a sequence in brackets. A key among them is a mapping
with one entry; without text of its own it takes the next token away. -/
def flowItems? (handles : Handles) : Nat → Bool → List Token →
    Option (List (Node String) × List Token)
  | 0, _, _ => none
  | steps + 1, first, tokens =>
    let start := match first, tokens with
      | true, _ => some tokens
      | false, .flowEntry :: rest => some rest
      | false, .flowSequenceEnd :: _ => some tokens
      | false, _ => none
    match start with
    | none => none
    | some (.flowSequenceEnd :: rest) => some ([], rest)
    | some (.key :: rest) =>
      let key := match rest with
        | .value :: rest => some (nothing, rest)
        | .flowEntry :: rest => some (nothing, rest)
        | .flowSequenceEnd :: rest => some (nothing, rest)
        | _ => node? handles steps false false rest
      match key with
      | none => none
      | some (key, rest) =>
        let value := match rest with
          | .value :: .flowEntry :: _ => some (nothing, rest.drop 1)
          | .value :: .flowSequenceEnd :: _ => some (nothing, rest.drop 1)
          | .value :: rest => node? handles steps false false rest
          | _ => some (nothing, rest)
        match value with
        | none => none
        | some (value, rest) =>
          (flowItems? handles steps false rest).map fun (items, rest) =>
            (.mapping ⟨none, none⟩ [(key, value)] :: items, rest)
    | some rest =>
      match node? handles steps false false rest with
      | none => none
      | some (item, rest) =>
        (flowItems? handles steps false rest).map fun (items, rest) => (item :: items, rest)

/-- The entries of a mapping in braces. -/
def flowEntries? (handles : Handles) : Nat → Bool → List Token →
    Option (List (Node String × Node String) × List Token)
  | 0, _, _ => none
  | steps + 1, first, tokens =>
    let start := match first, tokens with
      | true, _ => some tokens
      | false, .flowEntry :: rest => some rest
      | false, .flowMappingEnd :: _ => some tokens
      | false, _ => none
    match start with
    | none => none
    | some (.flowMappingEnd :: rest) => some ([], rest)
    | some (.key :: rest) =>
      let key := match rest with
        | .value :: _ => some (nothing, rest)
        | .flowEntry :: _ => some (nothing, rest)
        | .flowMappingEnd :: _ => some (nothing, rest)
        | _ => node? handles steps false false rest
      match key with
      | none => none
      | some (key, rest) =>
        let value := match rest with
          | .value :: .flowEntry :: _ => some (nothing, rest.drop 1)
          | .value :: .flowMappingEnd :: _ => some (nothing, rest.drop 1)
          | .value :: rest => node? handles steps false false rest
          | _ => some (nothing, rest)
        match value with
        | none => none
        | some (value, rest) =>
          (flowEntries? handles steps false rest).map fun (entries, rest) =>
            ((key, value) :: entries, rest)
    | some rest =>
      match node? handles steps false false rest with
      | none => none
      | some (key, rest) =>
        (flowEntries? handles steps false rest).map fun (entries, rest) =>
          ((key, nothing) :: entries, rest)

end

/-- The handles of directives, and the tokens behind them: at most one
version, which is known, and no handle twice. -/
def directives? (versioned : Bool) (handles : Handles) :
    List Token → Option (Handles × List Token)
  | .version major minor :: rest =>
    if versioned || major != 1 || !(minor == 1 || minor == 2) then none
    else directives? true handles rest
  | .tagDirective handle start :: rest =>
    if handles.any (·.1 == handle) then none
    else directives? versioned (handles ++ [(handle, start)]) rest
  | rest => some (handles ++ standardHandles, rest)

/-- Whether the next token ends a document without content. -/
def endsDocument : List Token → Bool
  | [] => true
  | .version _ _ :: _ => true
  | .tagDirective _ _ :: _ => true
  | .documentStart :: _ => true
  | .documentEnd :: _ => true
  | _ => false

/-- Whether nothing but ends of documents is left. -/
def onlyEnds (tokens : List Token) : Bool := tokens.all (· == .documentEnd)

/-- Whether a document starts with a mark or a directive. -/
def startsExplicitly : List Token → Bool
  | .version _ _ :: _ => true
  | .tagDirective _ _ :: _ => true
  | .documentStart :: _ => true
  | _ => false

/-- The root of the one document that tokens make; nothing if there is
none. A token takes at most three steps. -/
def ofTokens? (tokens : List Token) : Option (Option (Node String)) :=
  let steps := 3 * tokens.length + 8
  let root :=
    if tokens.isEmpty then some (none, [])
    else if startsExplicitly tokens then
      match directives? false [] tokens with
      | some (handles, .documentStart :: rest) =>
        if endsDocument rest then some (some nothing, rest)
        else (node? handles steps true false rest).map fun (n, rest) => (some n, rest)
      | _ => none
    else (node? standardHandles steps true false tokens).map fun (n, rest) => (some n, rest)
  match root with
  | some (root, rest) => if onlyEnds rest then some root else none
  | none => none

end Node

end Yaml

end TypedClient
