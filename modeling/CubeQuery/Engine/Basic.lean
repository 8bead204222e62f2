import CubeQuery.Error
import CubeQuery.Result.Cells

/-!
# Engines

The operations by which queries reach an analytical engine. An engine may keep state of its own
between calls, so each operation acts on a state and may fail.
-/

namespace CubeQuery

/-- An action on a state that may fail; what it did to the state stays done. -/
abbrev Action (ε σ α : Type) := ExceptT ε (StateM σ) α

abbrev EngineM (σ α : Type) := Action EngineError σ α

abbrev QueryM (σ α : Type) := Action QueryError σ α

structure Engine (σ : Type) where
  cubeNames : EngineM σ (List String)
  /-- The metadata of a cube, if there is one of that name. -/
  cube : String → EngineM σ (Option Cube)
  /-- The member of a cube that an expression names. -/
  member : String → String → EngineM σ (Option Member)
  /-- The ancestors of a member, nearest first. -/
  ancestors : String → Member → EngineM σ (List Member)
  children : String → Member → EngineM σ (List Member)
  levelMembers : String → LevelRef → EngineM σ (List Member)
  /-- Runs a query against a cube. -/
  execute : String → String → EngineM σ CellResult
  /-- Drops what the engine itself has cached. -/
  flush : EngineM σ Unit

def EngineM.toQuery {σ α : Type} (action : EngineM σ α) : QueryM σ α :=
  action.adapt QueryError.engine

def Action.ofExcept {ε σ α : Type} (outcome : Except ε α) : Action ε σ α :=
  ExceptT.mk (pure outcome)

/-- Succeeds with all values, or fails like the first failure. -/
def Action.combine {ε α : Type} : Except ε α → Except ε (List α) → Except ε (List α)
  | .ok a, .ok as => .ok (a :: as)
  | .error e, _ => .error e
  | .ok _, .error e => .error e

/-- Runs every action even after one has failed; the first failure is the outcome. -/
def Action.all {ε σ α : Type} : List (Action ε σ α) → Action ε σ (List α)
  | [] => pure []
  | action :: rest => ExceptT.mk do
    let first ← action.run
    let others ← (Action.all rest).run
    return Action.combine first others

end CubeQuery
