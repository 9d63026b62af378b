import TypedClient.Error
import TypedClient.Options.Basic
import TypedClient.Yaml.Anchor
import TypedClient.Yaml.Value
/-!
# Reading options

Options are written as a YAML mapping with a key for each setting. What is
not mentioned has its default, keys of no setting are passed over whatever
their values, and no setting is given twice. `Options.ofYaml?` reads the
nodes of a text and not its values, since only the nodes tell a plain
scalar from a quoted one.
-/

namespace TypedClient

namespace Options

open Yaml

/-- The truth value of a node: a plain scalar, or a literal one with the
tag for truth values. -/
def truth? : Node Nat → Option Bool
  | .scalar _ s .plain => Value.bool? s
  | .scalar p s .literal =>
    if p.tag = some "tag:yaml.org,2002:bool" then Value.bool? s else none
  | _ => none

/-- The policy with a name. -/
def policy? (name : String) : Option MediaPolicy :=
  if name == "strict" then some .strict
  else if name == "prefer" then some .prefer
  else none

/-- Whether a node under a tag says nothing more. -/
def isVacant : Node Nat → Bool
  | .scalar _ s .plain => s.isEmpty || Value.isNull s
  | _ => false

/-- The policy that a node names, by its tag or else by its text. -/
def policyOf? (n : Node Nat) : Option MediaPolicy :=
  match n with
  | .scalar p s _ =>
    match p.tag.bind Value.ownTag? with
    | some tag => if isVacant n then policy? tag else none
    | none => policy? s
  | _ => none

/-- The text of a node, if it is not null. A plain scalar is null when it
is empty or a word for null; with a tag, only when the tag is that of null,
and then it has to be such a word. -/
def textOrNull? : Node Nat → Option (Option String)
  | .scalar p s .plain =>
    match p.tag with
    | none => if s.isEmpty || Value.isNull s then some none else some (some s)
    | some tag =>
      if tag = "tag:yaml.org,2002:null" then
        if Value.isNull s then some none else none
      else some (some s)
  | .scalar _ s _ => some (some s)
  | _ => none

/-- How a key changes options by the node of its value; nothing for the
keys of no setting. -/
def setting? (key : String) : Option (Options → Node Nat → Option Options) :=
  if key == "types" then some fun o n => (truth? n).map fun b => { o with types := b }
  else if key == "request" then some fun o n => (truth? n).map fun b => { o with request := b }
  else if key == "operations" then
    some fun o n => (truth? n).map fun b => { o with operations := b }
  else if key == "with_doc" then some fun o n => (truth? n).map fun b => { o with withDoc := b }
  else if key == "media_type_policy" then
    some fun o n => (policyOf? n).map fun policy => { o with mediaPolicy := policy }
  else if key == "all_components" then
    some fun o n => (truth? n).map fun b => { o with allComponents := b }
  else if key == "server" then
    some fun o n => (textOrNull? n).map fun server => { o with server }
  else none

/-- Options changed by entries, where the settings of some keys have been
given before. -/
def ofEntries? (g : Graph) : List String → Options → List (Node Nat × Node Nat) → Option Options
  | _, o, [] => some o
  | given, o, (key, value) :: rest =>
    match g.resolve key with
    | .scalar _ name _ =>
      match setting? name with
      | none => ofEntries? g given o rest
      | some set =>
        if given.contains name then none
        else
          match set o (g.resolve value) with
          | some o => ofEntries? g (name :: given) o rest
          | none => none
    | _ => none

/-- The options that a document writes: a mapping, or a place where
nothing is written. -/
def ofGraph? (g : Graph) : Option Options :=
  match g.root with
  | .mapping _ entries => ofEntries? g [] default entries
  | .scalar _ "" .plain => some default
  | _ => none

/-- The options that a YAML text writes. A text without a document leaves
all at their defaults. -/
def ofYaml? (text : String) : Option Options :=
  if (Text.trim text.toList).isEmpty then some default
  else
    match Graph.ofText? text with
    | none => none
    | some none => some default
    | some (some g) => ofGraph? g

end Options

end TypedClient
