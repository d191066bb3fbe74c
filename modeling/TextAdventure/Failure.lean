/-!
# Failures

What can go wrong while an adventure is played. A failure names its cause; `Failure.message` is the
wording.
-/

namespace TextAdventure

/-- Why an operation failed. -/
inductive Failure where
  /-- The text at a path could not be had. -/
  | load (path reason : String)
  /-- The text at a path is not the document that was expected. -/
  | parse (path : String)
  /-- A file or a save could not be read or written. -/
  | io (reason : String)
  /-- There is no adventure under way that could take the input. -/
  | noSession
  deriving DecidableEq, Repr

namespace Failure

/-- The wording of a failure. -/
def message : Failure → String
  | load path reason => "could not load " ++ path ++ ": " ++ reason
  | parse path => "could not parse " ++ path
  | io reason => "io error: " ++ reason
  | noSession => "no adventure session is active"

/-- Whether a failure concerns the content of an adventure. -/
def isContent : Failure → Bool
  | load .. => true
  | parse .. => true
  | _ => false

end Failure

end TextAdventure
