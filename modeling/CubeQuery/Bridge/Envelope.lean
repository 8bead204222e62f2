import CubeQuery.Error
import CubeQuery.Json.Decode
import CubeQuery.Json.Reader

/-!
# Bridge envelopes

Requests and responses of a bridge process, one JSON object per line. A response carries the id of
the request it answers.
-/

namespace CubeQuery.Bridge

open Json

structure Request where
  id : String
  method : String
  params : List (String × Json)

structure Failure where
  code : String
  message : String
deriving DecidableEq, Repr

def Failure.ofJson? : Decoder Failure := fun j => do
  let r ← record? ["code", "message"] j
  return { code := ← r.required "code" text?, message := ← r.required "message" text? }

/-- Some codes have a meaning of their own; any other failure is the engine's. -/
def Failure.error (f : Failure) : BridgeError :=
  match f.code with
  | "CONNECTION_FAILED" => .connectionFailed f.message
  | "INVALID_REQUEST" => .invalidRequest f.message
  | "METHOD_NOT_FOUND" => .methodNotFound f.message
  | code => .remote code f.message

structure Response where
  id : String
  success : Bool
  result : Json
  failure : Option Failure

def Response.ofJson? : Decoder Response := fun j => do
  let r ← record? ["id", "success", "result", "error"] j
  return {
    id := ← r.required "id" text?
    success := ← r.required "success" flag?
    result := ← r.withDefault "result" readable? .null
    failure := ← r.optional "error" Failure.ofJson? }

/-- The response written on a line, if it is one. Its result has to be readable throughout. -/
def Response.ofLine? (line : String) : Option Response := (Json.scan line).bind ofJson?

def Response.outcome {α : Type} (r : Response) (decode : Decoder α) : Except BridgeError α :=
  if r.success then
    match decode r.result with
    | some a => .ok a
    | none => .error .undecodable
  else
    match r.failure with
    | some f => .error f.error
    | none => .error (.remote "UNKNOWN" "bridge reported failure")

end CubeQuery.Bridge
