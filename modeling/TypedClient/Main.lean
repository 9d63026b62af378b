import TypedClient.CommandLine.Run
/-!
# The program

Runs the command line against the files of the disk.
-/

namespace TypedClient

namespace Disk

/-- The failure with a number of the system, which may come negated. -/
def failure (code : UInt32) (details : String) : FileError :=
  match min code (-code) with
  | 2 => .notFound
  | 17 => .alreadyExists
  | 20 => .notADirectory
  | 21 => .isADirectory
  | n => .other (details ++ " (os error " ++ Text.decimal n.toNat ++ ")")

/-- What an access met. -/
def fileError : IO.Error → FileError
  | .noFileOrDirectory _ code details => failure code details
  | .alreadyExists _ code details => failure code details
  | .inappropriateType _ code details => failure code details
  | .permissionDenied _ code details => failure code details
  | .invalidArgument _ code details => failure code details
  | .resourceExhausted _ code details => failure code details
  | .resourceBusy code details => failure code details
  | .illegalOperation code details => failure code details
  | .unsatisfiedConstraints code details => failure code details
  | .noSuchThing _ code details => failure code details
  | .otherError code details => failure code details
  | e => .other (toString e)

/-- The result of an access. -/
def attempt {α : Type} (act : IO α) : IO (Except FileError α) := do
  match ← act.toBaseIO with
  | .ok a => return .ok a
  | .error e => return .error (fileError e)

/-- The text of bytes. -/
def decode (bytes : ByteArray) : Except FileError String :=
  match String.fromUTF8? bytes with
  | some text => .ok text
  | none => .error .notText

/-- Whether a path leads to a directory. -/
def isDirectory (path : String) : IO Bool := do
  match ← (IO.FS.realPath path).toBaseIO with
  | .ok real => real.isDir
  | .error _ => return false

/-- The disk as a host. -/
def host : Host IO where
  read path := do return (← attempt (IO.FS.readBinFile path)).bind decode
  isDirectory path := isDirectory path
  createDirectory path := attempt (IO.FS.createDir path)
  write path text := attempt (IO.FS.writeFile path text)
  print text := do
    let out ← IO.getStdout
    out.putStr text
    out.flush

end Disk

end TypedClient

/-- Runs the program. -/
def main (args : List String) : IO UInt32 := do
  let exit ← TypedClient.CommandLine.run TypedClient.Disk.host args
  match exit.complaint with
  | some text => (← IO.getStderr).putStr text
  | none => pure ()
  return UInt32.ofNat exit.code
