import TypedClient.Error
import TypedClient.Path
/-!
# The host of a run

What a run asks of the system around it: to read and write files, to make
directories, and to print. Everything else is decided without it, so a run
is the same against a disk and against a tree of files in memory.
-/

namespace TypedClient

/-- The system around a run, in a monad. -/
structure Host (m : Type → Type) where
  /-- The text of a file. -/
  read : String → m (Except FileError String)
  /-- Whether a path leads to a directory. -/
  isDirectory : String → m Bool
  /-- Makes a directory in one that is there. -/
  createDirectory : String → m (Except FileError Unit)
  /-- Puts a text into a file, in place of what was in it. -/
  write : String → String → m (Except FileError Unit)
  /-- Puts a text on the standard output. -/
  print : String → m Unit

namespace Host

variable {m : Type → Type} [Monad m] (host : Host m)

/-- The result of making a directory, which is a success if the directory
is there. -/
def settleDirectory (path : String) (result : Except FileError Unit) :
    m (Except FileError Unit) := do
  match result with
  | .ok () => return .ok ()
  | .error e => if ← host.isDirectory path then return .ok () else return .error e

/-- Makes the first of some directories, each of which stands in the next.
Those after it are made only if it cannot be made without them. -/
def createDirectories : List String → m (Except FileError Unit)
  | [] => return .ok ()
  | [path] => do host.settleDirectory path (← host.createDirectory path)
  | path :: above => do
    match ← host.createDirectory path with
    | .error .notFound =>
      match ← createDirectories above with
      | .ok () => host.settleDirectory path (← host.createDirectory path)
      | .error e => return .error e
    | result => host.settleDirectory path result

end Host

end TypedClient
