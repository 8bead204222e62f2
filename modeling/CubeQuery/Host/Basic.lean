import CubeQuery.Bridge.Client

/-!
# Hosts

What the program needs from its surroundings: variables, files and bridge programs. A host may look
them up in any monad `m`; its bridge processes have states `σ`.
-/

namespace CubeQuery

inductive FileFault where
  | missing
  | denied
  | notDirectory
  | isDirectory
  | nameTooLong
  /-- A file name holds the character that ends names. -/
  | endedName
  /-- A program name or an argument holds that character. -/
  | endedArgument
  | other (reason : String)
deriving DecidableEq, Repr

def FileFault.reason : FileFault → String
  | .missing => "No such file or directory (os error 2)"
  | .denied => "Permission denied (os error 13)"
  | .notDirectory => "Not a directory (os error 20)"
  | .isDirectory => "Is a directory (os error 21)"
  | .nameTooLong => "File name too long (os error 36)"
  | .endedName => "file name contained an unexpected NUL byte"
  | .endedArgument => "nul byte found in provided data"
  | .other reason => reason

/-- The surroundings of a run. -/
structure Host (m : Type → Type) (σ : Type) where
  /-- The value of a variable that is set. -/
  lookup : String → m (Option String)
  /-- The directory of the user, if there is one. -/
  home : m (Option String)
  /-- Whether there is a file or a directory with a path. -/
  present : String → m Bool
  read : String → m (Except FileFault String)
  /-- Starts a bridge program with arguments. -/
  start : String → List String → m (Except FileFault (Bridge.Endpoint σ))
  /-- The state of the bridge processes before any request. -/
  processes : σ

end CubeQuery
