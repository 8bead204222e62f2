import CubeQuery.Decimal.Layout

/-!
# Errors

The causes of failure and their wording. An engine failure is a rejection if the engine did answer;
every failure of a request has the status class that a caller should report.
-/

namespace CubeQuery

inductive BridgeError where
  | spawnFailed (reason : String)
  | writeFailed
  | undecodable
  | timeout (seconds : Nat)
  | exited
  | remote (code message : String)
  | connectionFailed (message : String)
  | invalidRequest (message : String)
  | methodNotFound (message : String)
deriving DecidableEq, Repr

def BridgeError.message : BridgeError → String
  | .spawnFailed reason => s!"failed to spawn worker process: {reason}"
  | .writeFailed => "failed to write to worker"
  | .undecodable => "failed to deserialize response"
  | .timeout seconds => s!"request timed out after {Decimal.natText seconds} seconds"
  | .exited => "worker process exited unexpectedly"
  | .remote code message => s!"worker error: {message} (code: {code})"
  | .connectionFailed message => s!"engine connection failed: {message}"
  | .invalidRequest message => s!"invalid request: {message}"
  | .methodNotFound message => s!"method not found: {message}"

inductive CatalogError where
  | unreadable (path reason : String)
  | undecodable
  | missingVariable (name : String)
  | unknownDimension (dimension : String)
  | unknownHierarchy (dimension : String)
  | noLevels (hierarchy : String)
  | tooDeep (member hierarchy : String)
  | unknownCube (cube : String)
  | unknownMember (member : String)
deriving DecidableEq, Repr

def CatalogError.message : CatalogError → String
  | .unreadable path reason => s!"{path}: {reason}"
  | .undecodable => "malformed catalog"
  | .missingVariable name => s!"Missing environment variable: {name}"
  | .unknownDimension dimension => s!"members given for unknown dimension {dimension}"
  | .unknownHierarchy dimension => s!"members given for unknown hierarchy in {dimension}"
  | .noLevels hierarchy => s!"hierarchy {hierarchy} has no levels"
  | .tooDeep member hierarchy => s!"member {member} is deeper than the levels of {hierarchy}"
  | .unknownCube cube => s!"recorded result for unknown cube {cube}"
  | .unknownMember member => s!"recorded result references unknown member {member}"

inductive EngineError where
  | rejected (message : String)
  | bridge (cause : BridgeError)
  | catalog (cause : CatalogError)
  | unsupported (operation : String)
  /-- The engine works on without end and never answers. -/
  | endless
deriving DecidableEq, Repr

namespace EngineError

def message : EngineError → String
  | .rejected message => s!"engine rejected query: {message}"
  | .bridge cause => cause.message
  | .catalog cause => s!"catalog error: {cause.message}"
  | .unsupported operation => s!"operation not supported by this engine: {operation}"
  | .endless => "no answer"

/-- Whether the engine answered and refused. -/
def isRejection : EngineError → Bool
  | .rejected _ => true
  | .bridge (.remote ..) => true
  | .bridge (.invalidRequest _) => true
  | _ => false

end EngineError

inductive QueryError where
  | unknownCube (cube : String)
  | unknownMeasure (cube measure : String)
  | unknownDimension (cube dimension : String)
  | unknownHierarchy (dimension hierarchy : String)
  | unknownLevel (dimension level : String)
  | unknownMember (context expression : String)
  | memberNotFound (member : String)
  | invalidDrilldown (drilldown reason : String)
  | invalidCut (cut reason : String)
  | invalidFilter (filter : String)
  | invalidOrder (order reason : String)
  | invalidProperty (property reason : String)
  | heterogeneousCutSet (cut : String)
  | heterogeneousCutRange (cut : String)
  | illegalDrilldown (cut drilldown : String)
  | propertyNotInDrilldown (dimension : String)
  | unsupportedOperation (reason : String)
  | engine (cause : EngineError)
deriving DecidableEq, Repr

namespace QueryError

def message : QueryError → String
  | .unknownCube cube => s!"cube `{cube}` not found"
  | .unknownMeasure cube measure => s!"measure `{measure}` does not exist in cube {cube}"
  | .unknownDimension cube dimension => s!"dimension `{dimension}` does not exist in cube {cube}"
  | .unknownHierarchy dimension hierarchy =>
    s!"hierarchy `{hierarchy}` does not exist in dimension {dimension}"
  | .unknownLevel dimension level => s!"level `{level}` does not exist in {dimension}"
  | .unknownMember context expression => s!"{context}: `{expression}`"
  | .memberNotFound member => s!"member `{member}` not found"
  | .invalidDrilldown drilldown reason => s!"invalid drilldown `{drilldown}`: {reason}"
  | .invalidCut cut reason => s!"invalid cut `{cut}`: {reason}"
  | .invalidFilter filter => s!"filter clause `{filter}` is invalid"
  | .invalidOrder order reason => s!"invalid order `{order}`: {reason}"
  | .invalidProperty property reason => s!"invalid property `{property}`: {reason}"
  | .heterogeneousCutSet cut => s!"all members in cut set `{cut}` must belong to the same level"
  | .heterogeneousCutRange cut =>
    s!"both limits of cut range `{cut}` must belong to the same level"
  | .illegalDrilldown cut drilldown =>
    s!"cut `{cut}` is on a level deeper than drilldown `{drilldown}`"
  | .propertyNotInDrilldown dimension => s!"dimension `{dimension}` not in drilldown list"
  | .unsupportedOperation reason => s!"unsupported operation: {reason}"
  | .engine cause => cause.message

/-- 404 for what does not exist, 502 where the engine failed to answer, else 400. -/
def status : QueryError → Nat
  | .unknownCube _ => 404
  | .unknownMeasure .. => 404
  | .unknownHierarchy .. => 404
  | .unknownLevel .. => 404
  | .memberNotFound _ => 404
  | .engine cause => if cause.isRejection then 400 else 502
  | _ => 400

end QueryError

end CubeQuery
