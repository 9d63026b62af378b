import TypedClient.Text.Blank
/-!
# Flags of the command line

Every flag has a long name, some have a letter, and some take a value: the
next argument, what follows an equals sign, or what follows the letter in
the same argument. `Flag.scan` reads flags up to the first other word. A
flag is given once, unless it may repeat, and the first fault, or the
first flag that asks for help or for the version, ends the reading.
-/

namespace TypedClient

/-- The flags of all commands. -/
inductive Flag where
  | help
  | version
  | verbose
  | spec
  | json
  | config
  | mediaPolicy
  | output
  | noTypes
  | noRequest
  | noOperations
  | noDoc
  | allComponents
  | server
deriving DecidableEq, Repr

/-- Why arguments are no command. -/
inductive Stop where
  /-- They ask for help. -/
  | help
  /-- They ask for the version. -/
  | version
  /-- They are at fault. -/
  | usage
deriving DecidableEq, Repr

namespace Flag

/-- The long name of a flag. -/
def long : Flag → String
  | .help => "help"
  | .version => "version"
  | .verbose => "verbose"
  | .spec => "spec"
  | .json => "json"
  | .config => "config"
  | .mediaPolicy => "media-type-policy"
  | .output => "output"
  | .noTypes => "no-types"
  | .noRequest => "no-request"
  | .noOperations => "no-operations"
  | .noDoc => "no-doc"
  | .allComponents => "all-components"
  | .server => "server"

/-- The letter of a flag. -/
def letter? : Flag → Option Char
  | .help => some 'h'
  | .version => some 'V'
  | .verbose => some 'v'
  | .spec => some 's'
  | .config => some 'c'
  | .output => some 'o'
  | _ => none

/-- Whether a flag takes a value. -/
def takesValue : Flag → Bool
  | .spec => true
  | .config => true
  | .mediaPolicy => true
  | .output => true
  | .server => true
  | _ => false

/-- Whether a flag may be given more than once. -/
def mayRepeat (flag : Flag) : Bool := flag == .spec

/-- Whether a value is one for a flag. Paths are not empty, and policies
have names. -/
def accepts (flag : Flag) (value : String) : Bool :=
  match flag with
  | .spec => !value.isEmpty
  | .config => !value.isEmpty
  | .output => !value.isEmpty
  | .mediaPolicy => value == "strict" || value == "prefer"
  | _ => true

end Flag

/-- The flags that are given, in order, with their values. A flag without
a value has an empty one. -/
structure Given where
  entries : List (Flag × String)

namespace Given

/-- No flags. -/
def none : Given := ⟨[]⟩

/-- Whether a flag is given. -/
def has (given : Given) (flag : Flag) : Bool := given.entries.any (·.1 == flag)

/-- The values of a flag, in order. -/
def values (given : Given) (flag : Flag) : List String :=
  (given.entries.filter (·.1 == flag)).map (·.2)

/-- The value of a flag that is given once. -/
def value? (given : Given) (flag : Flag) : Option String := (given.values flag).head?

/-- The flags with one more. -/
def add (given : Given) (flag : Flag) (value : String) : Except Stop Given :=
  match flag with
  | .help => .error .help
  | .version => .error .version
  | flag =>
    if (given.has flag && !flag.mayRepeat) || !flag.accepts value then .error .usage
    else .ok ⟨given.entries ++ [(flag, value)]⟩

end Given

/-- The form of an argument. -/
inductive Form where
  | word
  /-- Two dashes, after which all arguments are words. -/
  | separator
  | long (name : String) (value : Option String)
  | letters (cs : List Char)

namespace Form

/-- The name and the value of a long flag. -/
def ofLong (s : List Char) : Form :=
  let name := String.ofList (s.takeWhile (· != '='))
  match s.dropWhile (· != '=') with
  | [] => .long name none
  | _ :: value => .long name (some (String.ofList value))

/-- The form of an argument. A single dash is a word. -/
def ofArgument (s : String) : Form :=
  match s.toList with
  | ['-', '-'] => .separator
  | '-' :: '-' :: rest => ofLong rest
  | ['-'] => .word
  | '-' :: rest => .letters rest
  | _ => .word

/-- Whether a form is that of a word. -/
def isWord : Form → Bool
  | .word => true
  | _ => false

end Form

namespace Flag

/-- Reads the letters of one argument. What follows a letter that takes a
value is its value, after an equals sign if there is one; if nothing
follows, the flag is returned, for the next argument to be its value. -/
def scanLetters (flags : List Flag) : Given → List Char → Except Stop (Given × Option Flag)
  | given, [] => .ok (given, none)
  | given, c :: rest =>
    match flags.find? (·.letter? == some c) with
    | none => .error .usage
    | some flag =>
      if flag.takesValue then
        match rest with
        | [] => .ok (given, some flag)
        | '=' :: value => (given.add flag (String.ofList value)).map (·, none)
        | value => (given.add flag (String.ofList value)).map (·, none)
      else
        match given.add flag "" with
        | .ok given => scanLetters flags given rest
        | .error stop => .error stop

/-- Reads one argument that is no word, and returns the flag that still
needs a value. -/
def scanOne (flags : List Flag) (given : Given) (form : Form) :
    Except Stop (Given × Option Flag) :=
  match form with
  | .letters cs => scanLetters flags given cs
  | .long name value =>
    match flags.find? (·.long == name) with
    | none => .error .usage
    | some flag =>
      match flag.takesValue, value with
      | true, none => .ok (given, some flag)
      | true, some value => (given.add flag value).map (·, none)
      | false, none => (given.add flag "").map (·, none)
      | false, some _ => .error .usage
  | _ => .error .usage

/-- Reads flags up to the first word, and returns the arguments from there.
Nothing may follow two dashes. -/
def scan (flags : List Flag) : Given → List String → Except Stop (Given × List String)
  | given, [] => .ok (given, [])
  | given, arg :: rest =>
    match Form.ofArgument arg with
    | .word => .ok (given, arg :: rest)
    | .separator => if rest.isEmpty then .ok (given, []) else .error .usage
    | form =>
      match scanOne flags given form with
      | .error stop => .error stop
      | .ok (given, none) => scan flags given rest
      | .ok (given, some flag) =>
        match rest with
        | [] => .error .usage
        | value :: rest =>
          if (Form.ofArgument value).isWord then
            match given.add flag value with
            | .ok given => scan flags given rest
            | .error stop => .error stop
          else .error .usage

end Flag

end TypedClient
