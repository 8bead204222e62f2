import CubeQuery.Aggregate
import CubeQuery.CommandLine.Help
import CubeQuery.Describe.Cube
import CubeQuery.Host.Connection

/-!
# Running commands

A command line on a host, up to the two texts it prints and its exit code. A run on an engine that
never answers leaves nothing behind.
-/

namespace CubeQuery.CommandLine

structure Outcome where
  code : Nat
  output : String
  errors : String
deriving DecidableEq, Repr

namespace Outcome

def success (output : String) : Outcome := ⟨0, output, ""⟩

def failure (stage message : String) : Outcome := ⟨1, "", stage ++ ": " ++ message ++ "\n"⟩

def misuse (cause : UsageError) : Outcome := ⟨2, "", cause.message ++ "\n"⟩

def queryFailure (e : QueryError) : Outcome :=
  failure ("Query error (" ++ Decimal.natText e.status ++ ")") e.message

def line (text : String) : Outcome := success (text ++ "\n")

end Outcome

/-- Turns flags on that are on by default. -/
def withDefaults (d : Plan.RequestDefaults) (r : Plan.Request) : Plan.Request :=
  { r with
    nonempty := r.nonempty || d.nonempty
    distinct := r.distinct || d.distinct
    parents := r.parents || d.parents
    debug := r.debug || d.debug
    sparse := r.sparse || d.sparse }

variable {σ : Type}

/-- The outcome of an action of a session, in which no later action follows; none if it never ends. -/
def conclude {α : Type} (action : SessionM σ α) (state : SessionState σ)
    (failed : QueryError → Outcome) (done : α → Outcome) : Option Outcome :=
  match (action.run state).1 with
  | .ok a => some (done a)
  | .error (.engine .endless) => none
  | .error e => some (failed e)

/-- The result in a format; delimited text already ends its last line. -/
def rendered (format : Output.Format) (a : Aggregation) : Outcome :=
  match format.render a.result a.cube a.options with
  | .ok text => if format = .csv then .success text else .line text
  | .error e => .failure "Output error" e.message

def describeCubes (session : Session σ) : SessionM σ Json := do
  let names ← session.cubeNames
  let cubes ← names.mapM session.cube
  return .arr (cubes.map Describe.cubeJson)

def describeMembers (session : Session σ) (cube dimension level : String) (children : Bool) :
    SessionM σ Json := do
  let cube ← session.cube cube
  let members ← SessionM.onEngine
    (Describe.levelMembers session.engine cube dimension level { Describe.MemberOptions.none with children })
  return .arr (members.map (·.json))

def runCommand (defaults : Plan.RequestDefaults) (session : Session σ) (state : SessionState σ) :
    Command → Option Outcome
  | .compile cube request =>
    conclude (session.compile cube (withDefaults defaults request)) state
      (fun e => .failure "Compilation error" e.message) (fun q => .line q.text)
  | .aggregate cube request format =>
    conclude (session.aggregate cube (withDefaults defaults request)) state .queryFailure
      (rendered format)
  | .cubes false =>
    conclude session.cubeNames state (fun e => .failure "Engine error" e.message)
      (fun names => .success (String.join (names.map (· ++ "\n"))))
  | .cubes true =>
    conclude (describeCubes session) state (fun e => .failure "Engine error" e.message)
      (fun j => .line j.pretty)
  | .members cube dimension level children =>
    conclude (describeMembers session cube dimension level children) state .queryFailure
      (fun j => .line j.pretty)

variable {m : Type → Type} [Monad m]

def openSession (host : Host m σ) (settings : Settings) : Option String →
    m (Except QueryError (HostSession σ))
  | some path => host.connectCatalog path
  | none => host.connect settings

/-- Settings, session and command, in this order; the first failure ends the run. -/
def runInvocation (host : Host m σ) (i : Invocation) : m (Option Outcome) := do
  match ← Settings.load host with
  | .error e => return some (.failure "Configuration error" e.message)
  | .ok settings =>
    match ← openSession host settings i.catalog with
    | .error e => return some (.failure "Engine error" e.message)
    | .ok session => return runCommand settings.query session host.sessionState i.command

/-- Whether help is printed in colour: where one variable forces it and no other forbids it. An empty
variable does neither, any other value does. -/
def colours (host : Host m σ) : m Bool := do
  let forbidden := (← host.lookup "NO_COLOR").any (!·.isEmpty)
  let forced := (← host.lookup "CLICOLOR_FORCE").any (!·.isEmpty)
  return forced && !forbidden

def help (host : Host m σ) (text : Styled) : m Outcome := do
  return .success (text.render (← colours host))

/-- Runs a command line; none if the run never ends. -/
def run (host : Host m σ) (words : List String) : m (Option Outcome) :=
  match Demand.ofWords words with
  | .error cause => return some (.misuse cause)
  | .ok .version => return some (.line "prism 0.1.0")
  | .ok .helpOnHelp => return some (← help host Help.helpText)
  | .ok (.help none _) => return some (← help host Help.programText)
  | .ok (.help (some name) full) => return some (← help host (Help.commandText name full))
  | .ok (.run invocation) => runInvocation host invocation

end CubeQuery.CommandLine
