/-!
# Options of a run

What a run emits and how it treats a response with several media types.
-/

namespace TypedClient

/-- How a response with several media types is treated. -/
inductive MediaPolicy where
  /-- The run fails. -/
  | strict
  /-- All are kept, and one is preferred. -/
  | prefer
deriving DecidableEq, Repr

/-- The options of a run. -/
structure Options where
  /-- Declare the named types. -/
  types : Bool
  /-- Declare the function that sends requests. -/
  request : Bool
  /-- Declare the bindings of the operations. -/
  operations : Bool
  /-- Write descriptions as comments. -/
  withDoc : Bool
  mediaPolicy : MediaPolicy
  /-- Register every component schema, referred to or not. -/
  allComponents : Bool
  /-- What stands before every path, in place of the first server. -/
  server : Option String
deriving DecidableEq, Repr

/-- Everything that is referred to, with comments, and no exceptions. -/
def Options.default : Options := ⟨true, true, true, true, .strict, false, none⟩

instance : Inhabited Options := ⟨Options.default⟩

end TypedClient
