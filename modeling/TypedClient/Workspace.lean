import TypedClient.FileTree
import TypedClient.Host
/-!
# Workspaces in memory

A workspace is a tree of files, together with what has been printed. It is
a host of its own, so a whole run against it is a plain function.
-/

namespace TypedClient

/-- A tree of files and the text on the standard output. -/
structure Workspace where
  files : FileTree
  printed : String

namespace Workspace

/-- A workspace without files. -/
def empty : Workspace := ⟨FileTree.empty, ""⟩

/-- Takes over a changed tree, if the change succeeded. -/
def commit (result : Except FileError FileTree) : StateM Workspace (Except FileError Unit) :=
  match result with
  | .ok files => do
    modify fun w => { w with files }
    return .ok ()
  | .error e => return .error e

/-- The workspace as a host. -/
def host : Host (StateM Workspace) where
  read path := return (← get).files.read path
  isDirectory path := return (← get).files.isDirectory path
  createDirectory path := do commit ((← get).files.createDirectory path)
  write path text := do commit ((← get).files.write path text.toUTF8)
  print text := modify fun w => { w with printed := w.printed ++ text }

/-- Puts a file into the workspace, with its directories. -/
def place (path : String) (content : ByteArray) :
    StateM Workspace (Except FileError Unit) := do
  match ← host.createDirectories (Path.directories path) with
  | .ok () => commit ((← get).files.write path content)
  | .error e => return .error e

/-- The workspace that holds files. What cannot be put anywhere is left
out. -/
def ofFiles (files : List (String × ByteArray)) : Workspace :=
  files.foldl (fun w (path, content) => ((place path content).run w).2) empty

end Workspace

end TypedClient
