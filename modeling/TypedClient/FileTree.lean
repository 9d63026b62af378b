import TypedClient.Error
import TypedClient.Path
/-!
# Trees of files

A tree of files is a file or a directory with named entries. A path is
walked step by step from the top of a tree: each step has to start at a
directory, an empty step or a single dot stays there, and a double dot
goes back. Beyond the top, and at the start of absolute paths, is a
directory about which nothing is known and which nothing can be put into.
-/

namespace TypedClient

/-- A file with its bytes, or a directory. -/
inductive FileTree where
  | file (content : ByteArray)
  | directory (entries : List (String × FileTree))

namespace FileTree

/-- A directory without entries. -/
def empty : FileTree := .directory []

/-- The tree under a name in entries. -/
def named? (name : String) : List (String × FileTree) → Option FileTree
  | [] => none
  | (n, tree) :: rest => if n = name then some tree else named? name rest

/-- Entries with a tree under a name: in place of the tree there, or at
the end. -/
def setEntry (name : String) (tree : FileTree) :
    List (String × FileTree) → List (String × FileTree)
  | [] => [(name, tree)]
  | (n, t) :: rest => if n = name then (n, tree) :: rest else (n, t) :: setEntry name tree rest

/-- Where a walk has got to. -/
inductive Place where
  /-- Beyond the top. -/
  | outside
  /-- Below the top, by the names that lead there. -/
  | inside (names : List String)

/-- The tree that names lead to, if they lead to one. -/
def get? : FileTree → List String → Option FileTree
  | tree, [] => some tree
  | .file _, _ :: _ => none
  | .directory entries, name :: rest =>
    match named? name entries with
    | some tree => tree.get? rest
    | none => none

/-- The tree with another where names lead to, making entries as far as
they are missing. What is below a file cannot be reached. -/
def set (tree : FileTree) (new : FileTree) : List String → FileTree
  | [] => new
  | name :: rest =>
    match tree with
    | .file content => .file content
    | .directory entries =>
      .directory (setEntry name (((named? name entries).getD empty).set new rest) entries)

/-- The tree at a place. -/
def atPlace? (tree : FileTree) : Place → Option FileTree
  | .outside => some empty
  | .inside names => tree.get? names

/-- The place one step up. -/
def Place.up : Place → Place
  | .outside => .outside
  | .inside [] => .outside
  | .inside names => .inside names.dropLast

/-- The place below another. -/
def Place.down (name : String) : Place → Place
  | .outside => .outside
  | .inside names => .inside (names ++ [name])

/-- Whether a step stays where it is. -/
def isStay (step : String) : Bool := step == "" || step == "."

/-- The place that one step leads to. -/
def step (tree : FileTree) (place : Place) (name : String) : Except FileError Place :=
  match tree.atPlace? place with
  | none => .error .notFound
  | some (.file _) => .error .notADirectory
  | some (.directory entries) =>
    if isStay name then .ok place
    else if name == ".." then .ok place.up
    else
      match named? name entries with
      | some _ => .ok (place.down name)
      | none => .error .notFound

/-- The place that steps lead to. -/
def walk (tree : FileTree) : Place → List String → Except FileError Place
  | place, [] => .ok place
  | place, name :: rest =>
    match tree.step place name with
    | .ok place => walk tree place rest
    | .error e => .error e

/-- The steps of a path. -/
def steps (path : String) : List String := (Text.splitOn '/' path.toList).map String.ofList

/-- The place where a path starts. -/
def start (path : String) : Place := if Path.isAbsolute path then .outside else .inside []

/-- The entries of the directory at a place. -/
def entriesAt (tree : FileTree) (place : Place) :
    Except FileError (List (String × FileTree)) :=
  match tree.atPlace? place with
  | none => .error .notFound
  | some (.file _) => .error .notADirectory
  | some (.directory entries) => .ok entries

/-- The tree that a path leads to. -/
def find (tree : FileTree) (path : String) : Except FileError FileTree :=
  if path.isEmpty then .error .notFound
  else
    match tree.walk (start path) (steps path) with
    | .error e => .error e
    | .ok place =>
      match tree.atPlace? place with
      | some found => .ok found
      | none => .error .notFound

/-- Whether a path leads to a directory. -/
def isDirectory (tree : FileTree) (path : String) : Bool :=
  match tree.find path with
  | .ok (.directory _) => true
  | _ => false

/-- The text of a file. -/
def read (tree : FileTree) (path : String) : Except FileError String :=
  match tree.find path with
  | .error e => .error e
  | .ok (.directory _) => .error .isADirectory
  | .ok (.file content) =>
    match String.fromUTF8? content with
    | some text => .ok text
    | none => .error .notText

/-- Where a path puts something: a directory with its entries, and a name
in it, unless the path ends in dots. -/
structure Target where
  place : Place
  entries : List (String × FileTree)
  name : Option String
  /-- The path ends in a slash. -/
  slash : Bool

/-- Where a path puts something. The directory has to be there. -/
def target (tree : FileTree) (path : String) : Except FileError Target :=
  if path.isEmpty then .error .notFound
  else
    let reversed := (steps path).reverse
    let slash := reversed.head? == some ""
    match reversed.dropWhile (· == "") with
    | [] => .ok ⟨start path, [], none, slash⟩
    | last :: before =>
      match tree.walk (start path) before.reverse with
      | .error e => .error e
      | .ok place =>
        match tree.entriesAt place with
        | .error e => .error e
        | .ok entries =>
          if isStay last || last == ".." then .ok ⟨place, entries, none, slash⟩
          else .ok ⟨place, entries, some last, slash⟩

/-- What is said of an attempt to change what is beyond the top. -/
def denied : FileError := .other "Permission denied (os error 13)"

/-- The tree with another under a name at a place. -/
def put (tree new : FileTree) (place : Place) (name : String) : Except FileError FileTree :=
  match place with
  | .outside => .error denied
  | .inside names => .ok (tree.set new (names ++ [name]))

/-- The tree with a file at a path, in place of a file that was there. -/
def write (tree : FileTree) (path : String) (content : ByteArray) : Except FileError FileTree :=
  match tree.target path with
  | .error e => .error e
  | .ok ⟨place, entries, some name, false⟩ =>
    match named? name entries with
    | some (.directory _) => .error .isADirectory
    | _ => tree.put (.file content) place name
  | .ok _ => .error .isADirectory

/-- The tree with a new directory at a path. -/
def createDirectory (tree : FileTree) (path : String) : Except FileError FileTree :=
  match tree.target path with
  | .error e => .error e
  | .ok ⟨place, entries, some name, _⟩ =>
    match named? name entries with
    | some _ => .error .alreadyExists
    | none => tree.put empty place name
  | .ok _ => .error .alreadyExists

end FileTree

end TypedClient
