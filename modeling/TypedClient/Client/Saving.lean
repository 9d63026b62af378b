import TypedClient.Client.Module
import TypedClient.Host
/-!
# Saving a client

A client is rendered before anything is touched; then the directory of its
file is made, and the file is written.
-/

namespace TypedClient

namespace Client

variable {m : Type → Type} [Monad m] (host : Host m)

/-- Puts a text into a file, with its directory. -/
def write (path text : String) : ExceptT Error m Unit := do
  match ← host.createDirectories (Path.directories path) with
  | .error cause => throw (.output (.directory cause))
  | .ok () =>
    match ← host.write path text with
    | .ok () => return ()
    | .error cause => throw (.output (.file path cause))

/-- Puts the client of an API into a file. -/
def save (api : Api) (options : Options) (path : String) : ExceptT Error m Unit := do
  write host path (← MonadExcept.ofExcept (render api options))

end Client

end TypedClient
