import CubeQuery.Cube.Naming
import CubeQuery.Engine.Basic

/-!
# Sessions

A session holds one engine for all requests and keeps the metadata of cubes it has asked for until it
is flushed.
-/

namespace CubeQuery

structure SessionState (σ : Type) where
  engine : σ
  cubes : NameMap Cube

/-- An engine, and whether cubes are kept. -/
structure Session (σ : Type) where
  engine : Engine σ
  caching : Bool

abbrev SessionM (σ α : Type) := Action QueryError (SessionState σ) α

namespace SessionState

def initial {σ : Type} (engine : σ) : SessionState σ := ⟨engine, NameMap.empty⟩

end SessionState

def SessionM.onEngine {σ α : Type} (action : QueryM σ α) : SessionM σ α :=
  ExceptT.mk fun s =>
    let (outcome, engine) := action.run s.engine
    (outcome, { s with engine })

namespace Session

variable {σ : Type}

def fetchCube (session : Session σ) (name : String) : QueryM σ Cube := do
  match ← (session.engine.cube name).toQuery with
  | some cube => return cube.completed
  | none => throw (.unknownCube name)

def kept? (session : Session σ) (name : String) (s : SessionState σ) : Option Cube :=
  if session.caching then s.cubes.find? name else none

def keep (session : Session σ) (name : String) (cube : Cube) (s : SessionState σ) :
    SessionState σ :=
  if session.caching then { s with cubes := s.cubes.insert name cube } else s

/-- The metadata of a cube, from the engine only where it is not kept. -/
def cube (session : Session σ) (name : String) : SessionM σ Cube := do
  match session.kept? name (← get) with
  | some cube => return cube
  | none =>
    let cube ← SessionM.onEngine (session.fetchCube name)
    modify (session.keep name cube)
    return cube

def cubeNames (session : Session σ) : SessionM σ (List String) :=
  SessionM.onEngine session.engine.cubeNames.toQuery

/-- Flushes the engine and then forgets the kept cubes; neither happens if the engine fails. -/
def flush (session : Session σ) : SessionM σ Unit := do
  SessionM.onEngine session.engine.flush.toQuery
  modify fun s => { s with cubes := NameMap.empty }

end Session

end CubeQuery
