import CubeQuery.Bridge.Envelope
import CubeQuery.Engine.Basic

/-!
# Bridge clients

An engine behind a bridge process. Every request has an id of its own, and of the lines that arrive
only the first response with that id counts.
-/

namespace CubeQuery.Bridge

open Json

/-- What arrives after a request, and whether the process then closes its output. -/
structure Delivery where
  lines : List String
  closed : Bool

structure Endpoint (σ : Type) where
  /-- Writes a request; nothing if the process takes no more input. -/
  send : Request → StateM σ (Option Delivery)

def firstResponse? (id : String) (lines : List String) : Option Response :=
  (lines.filterMap Response.ofLine?).find? (·.id == id)

def Delivery.response (d : Delivery) (seconds : Nat) (id : String) : Except BridgeError Response :=
  match firstResponse? id d.lines with
  | some r => .ok r
  | none => .error (if d.closed then .exited else .timeout seconds)

structure ClientState (σ : Type) where
  process : σ
  sent : Nat

def requestId (number : Nat) : String := "request-" ++ Decimal.natText number

def call {σ α : Type} (process : Endpoint σ) (seconds : Nat) (method : String)
    (params : List (String × Json)) (decode : Decoder α) : EngineM (ClientState σ) α :=
  ExceptT.mk fun s =>
    let id := requestId s.sent
    let (delivery, after) := (process.send ⟨id, method, params⟩).run s.process
    let outcome : Except BridgeError α :=
      match delivery with
      | none => .error .writeFailed
      | some d => (d.response seconds id).bind (·.outcome decode)
    (outcome.mapError EngineError.bridge, ⟨after, s.sent + 1⟩)

def field? {α : Type} (name : String) (decode : Decoder α) : Decoder α := fun j =>
  (record? [name] j).bind (·.required name decode)

/-- One field of a response that may be left out or null. -/
def optionalField? {α : Type} (name : String) (decode : Decoder α) : Decoder (Option α) := fun j =>
  (record? [name] j).bind (·.optional name decode)

def flushed? : Decoder Unit := fun j =>
  (record? ["flushed"] j).bind fun r => (r.withDefault "flushed" flag? false).map fun _ => ()

def levelParams (level : LevelRef) : List (String × Json) :=
  [("dimension", .str level.dimension), ("hierarchy", .str level.hierarchy),
    ("level", .str level.level)]

/-- The engine behind a process that has the given number of seconds to answer. -/
def engine {σ : Type} (process : Endpoint σ) (seconds : Nat) : Engine (ClientState σ) where
  cubeNames := call process seconds "olap.cube_names" [] (field? "cubes" (list? text?))
  cube name :=
    call process seconds "olap.cube" [("cube", .str name)] (optionalField? "cube" Cube.ofJson?)
  member cube expression :=
    call process seconds "olap.member" [("cube", .str cube), ("expression", .str expression)]
      (optionalField? "member" Member.ofJson?)
  ancestors cube m :=
    call process seconds "olap.ancestors" [("cube", .str cube), ("member", .str m.fullName)]
      (field? "ancestors" (list? Member.ofJson?))
  children cube m :=
    call process seconds "olap.children" [("cube", .str cube), ("member", .str m.fullName)]
      (field? "children" (list? Member.ofJson?))
  levelMembers cube level :=
    call process seconds "olap.level_members" (("cube", .str cube) :: levelParams level)
      (field? "members" (list? Member.ofJson?))
  execute cube mdx :=
    call process seconds "olap.execute" [("cube", .str cube), ("mdx", .str mdx)] CellResult.ofJson?
  flush := call process seconds "olap.flush" [] flushed?

end CubeQuery.Bridge
