import CubeQuery.Catalog.Engine
import CubeQuery.Engine.Session
import CubeQuery.Host.Basic
import CubeQuery.Settings.Load

/-!
# Connections

Opening sessions on a host: on a catalog file, or on whatever engine the settings name.
-/

namespace CubeQuery

open Bridge

abbrev HostSession (σ : Type) := Session (ClientState σ)

namespace Host

variable {m : Type → Type} [Monad m] {σ : Type}

def sessionState (host : Host m σ) : SessionState (ClientState σ) :=
  .initial ⟨host.processes, 0⟩

def openCatalog (host : Host m σ) (path : String) :
    m (Except EngineError (Engine (ClientState σ))) := do
  match ← host.read path with
  | .ok text => return ((Catalog.ofText text).map (·.engine)).mapError .catalog
  | .error fault => return .error (.catalog (.unreadable path fault.reason))

def openBridge (host : Host m σ) (path : String) (settings : EngineSettings) :
    m (Except EngineError (Engine (ClientState σ))) := do
  match ← host.start path settings.args with
  | .ok process => return .ok (Bridge.engine process settings.timeoutSeconds)
  | .error fault => return .error (.bridge (.spawnFailed fault.reason))

/-- A variable that is missing from the path of an engine counts as a failure of the engine. -/
def missingVariable (name : String) : EngineError := .catalog (.missingVariable name)

/-- The engine that the settings name; a catalog comes before a bridge program. -/
def openEngine (host : Host m σ) (settings : Settings) :
    m (Except EngineError (Engine (ClientState σ))) := do
  match ← settings.catalogPath host with
  | .error name => return .error (missingVariable name)
  | .ok (some path) => host.openCatalog path
  | .ok none =>
    match ← settings.enginePath host with
    | .error name => return .error (missingVariable name)
    | .ok (some path) => host.openBridge path settings.engine
    | .ok none =>
      return .error (.unsupported "no engine configured: set engine.path or engine.catalog")

def connect (host : Host m σ) (settings : Settings) : m (Except QueryError (HostSession σ)) := do
  return ((← host.openEngine settings).map (⟨·, settings.caching⟩)).mapError .engine

def connectCatalog (host : Host m σ) (path : String) : m (Except QueryError (HostSession σ)) := do
  return ((← host.openCatalog path).map (⟨·, true⟩)).mapError .engine

end Host

end CubeQuery
