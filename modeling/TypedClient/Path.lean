import TypedClient.Text.Blank
/-!
# Paths of files

A path is read by its parts between slashes. Empty parts and single dots
are no parts of their own. The last part is the name of a file, unless it
is a double dot, and what follows the last dot of a name is its extension,
unless the dot comes first.
-/

namespace TypedClient

namespace Path

/-- The parts of a path. -/
def parts (path : String) : List (List Char) :=
  (Text.splitOn '/' path.toList).filter fun part => !part.isEmpty && part != ['.']

/-- The name of the file of a path. -/
def fileName? (path : String) : Option (List Char) :=
  match (parts path).getLast? with
  | some name => if name = ['.', '.'] then none else some name
  | none => none

/-- The extension of the file of a path. -/
def extension? (path : String) : Option String :=
  match fileName? path with
  | none => none
  | some name =>
    match (Text.splitOn '.' name).reverse with
    | _ :: [] :: [] => none
    | last :: _ :: _ => some (String.ofList last)
    | _ => none

/-- Whether a path starts at the root of the file system. -/
def isAbsolute (path : String) : Bool :=
  match path.toList with
  | '/' :: _ => true
  | _ => false

/-- The starts of a list that hold something, the longest first. -/
def starts {α : Type} : List α → List (List α)
  | [] => []
  | a :: rest => (starts rest).map (a :: ·) ++ [[a]]

/-- The path with some parts. -/
def ofParts (ps : List (List Char)) : String := Text.join "/" (ps.map String.ofList)

/-- The paths of the directories that a file stands in, the nearest first.
The directory that relative paths start at is not among them. -/
def directories (path : String) : List String :=
  let paths := (starts (parts path).dropLast).map ofParts
  if isAbsolute path then paths.map ("/" ++ ·) ++ ["/"] else paths

end Path

end TypedClient
