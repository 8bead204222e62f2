import CubeQuery.Host.Basic
import CubeQuery.Settings.Basic
import CubeQuery.Settings.Expansion

/-!
# Loading settings

Where settings are looked for, and the paths in them with their variables expanded.
-/

namespace CubeQuery.Settings

variable {m : Type → Type} [Monad m] {σ : Type}

def ofFile (host : Host m σ) (path : String) : m (Except SettingsError Settings) := do
  if ← host.present path then
    match ← host.read path with
    | .ok text => return ofText text
    | .error fault => return .error (.unreadable fault.reason)
  else return .error (.fileNotFound path)

def fileVariable : String := "PRISM_CONFIG"

def localFile : String := "prism.toml"

/-- The directory in which programs keep the settings of the user: the one that a variable names, if it
names one from the top. -/
def userDirectory? (host : Host m σ) : m (Option String) := do
  match (← host.lookup "XDG_CONFIG_HOME").filter (·.startsWith "/") with
  | some directory => return some directory
  | none => return (← host.home).map (· ++ "/.config")

def userFile? (host : Host m σ) : m (Option String) := do
  return (← userDirectory? host).map (· ++ "/prism/config.toml")

def firstPresent? (host : Host m σ) : List String → m (Option String)
  | [] => return none
  | path :: rest => do
    if ← host.present path then return some path else firstPresent? host rest

/-- The file that holds the settings: the one that the variable names, whether it is present or not,
else the first present one of the usual files. -/
def file? (host : Host m σ) : m (Option String) := do
  match ← host.lookup fileVariable with
  | some path => return some path
  | none => firstPresent? host (localFile :: (← userFile? host).toList)

/-- The settings of the user, or the initial ones where there is no file for them. -/
def load (host : Host m σ) : m (Except SettingsError Settings) := do
  match ← file? host with
  | some path => ofFile host path
  | none => return .ok initial

def expandOn (host : Host m σ) (text : String) : m (Except String String) := do
  let names := references text
  let values ← names.mapM host.lookup
  let environment : Environment := fun name =>
    ((names.zip values).find? (·.1 == name)).bind (·.2)
  return expand environment text

def expandPath (host : Host m σ) : Option String → m (Except String (Option String))
  | none => return .ok none
  | some path => return (← expandOn host path).map some

def enginePath (host : Host m σ) (s : Settings) : m (Except String (Option String)) :=
  expandPath host s.engine.path

def catalogPath (host : Host m σ) (s : Settings) : m (Except String (Option String)) :=
  expandPath host s.engine.catalog

end CubeQuery.Settings
