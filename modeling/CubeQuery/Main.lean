import CubeQuery.CommandLine.Run

/-!
# The program

The command line on the host that the operating system provides. Bridge programs are left to hosts
that can start them.
-/

namespace CubeQuery

def FileFault.ofError : IO.Error → FileFault
  | .noFileOrDirectory .. => .missing
  | .permissionDenied .. => .denied
  | .inappropriateType _ code _ => if code = 20 then .notDirectory else .isDirectory
  | .invalidArgument _ 36 _ => .nameTooLong
  | e => .other e.toString

def readText (path : String) : IO (Except FileFault String) := do
  try return .ok (← IO.FS.readFile path)
  catch e => return .error (.ofError e)

def isPresent (path : String) : IO Bool := do
  match ← readText path with
  | .error .missing => return false
  | .error .notDirectory => return false
  | .error .nameTooLong => return false
  | _ => return true

def systemHost : Host IO Unit where
  lookup := fun name => IO.getEnv name
  home := return (← IO.getEnv "HOME").filter (!·.isEmpty)
  present := isPresent
  read := readText
  start := fun _ _ => return .error (.other "Operation not supported (os error 95)")
  processes := ()

/-- Waits for an answer that never comes. -/
partial def waitForever : IO UInt32 := do
  IO.sleep 1000
  waitForever

end CubeQuery

def main (args : List String) : IO UInt32 := do
  match ← CubeQuery.CommandLine.run CubeQuery.systemHost args with
  | none => CubeQuery.waitForever
  | some outcome =>
    IO.print outcome.output
    IO.eprint outcome.errors
    return outcome.code.toUInt32
