import CubeQuery.Bridge.Client

/-!
# Exchanges with a bridge

Several requests may share one bridge process. Each puts its id into a table of waiters, writes its
line and waits. A reader takes the lines that arrive one after another and hands every response to
the waiter with its id.
-/

namespace CubeQuery.Bridge

inductive Phase where
  /-- Its line is still to be written. -/
  | writing
  | waiting
  /-- It has given up, but its waiter may still be in the table. -/
  | leaving (error : BridgeError)
  | finished (outcome : Except BridgeError Response)

/-- The requests of a client and the lines in flight. -/
structure Exchange where
  phases : NameMap Phase
  /-- The ids under which a response is waited for. -/
  waiters : List String
  /-- The responses handed over, by the id of the request. -/
  delivered : NameMap Response
  /-- The lines that have been sent but not read. -/
  arriving : List String
  /-- Whether the bridge has closed its output. -/
  closed : Bool
  /-- Whether the reader is still there. -/
  reading : Bool

namespace Exchange

inductive Event where
  | register (id : String)
  | write (id : String)
  | failWrite (id : String)
  /-- The time of a request is over. -/
  | expire (id : String)
  /-- A request that has given up takes its waiter out of the table and ends. -/
  | leave (id : String)
  /-- A waiting request finds its response, or that its waiter is gone, and ends. -/
  | wake (id : String)
  | send (line : String)
  | close
  | read (line : String)
  /-- The reader stops at the end of the output, or where reading fails. -/
  | stop (failed : Bool)
deriving DecidableEq, Repr

def initial : Exchange := ⟨.empty, [], .empty, [], false, true⟩

def waits (x : Exchange) (id : String) : Bool := x.waiters.contains id

def put (x : Exchange) (id : String) (phase : Phase) : Exchange :=
  { x with phases := x.phases.insert id phase }

def withWaiter (x : Exchange) (id : String) : Exchange := { x with waiters := id :: x.waiters }

def withoutWaiter (x : Exchange) (id : String) : Exchange :=
  { x with waiters := x.waiters.filter (· != id) }

/-- Hands a response to the waiter with its id, if there is one. -/
def deliver (x : Exchange) (r : Response) : Exchange :=
  if x.waits r.id then { x.withoutWaiter r.id with delivered := x.delivered.insert r.id r } else x

/-- What is done with a line that has been read; one that is no response is passed over. -/
def take (x : Exchange) (line : String) : Exchange :=
  match Response.ofLine? line with
  | some r => x.deliver r
  | none => x

/-- What a waiting request finds: its response, that its waiter is gone, or nothing yet. -/
def found? (x : Exchange) (id : String) : Option (Except BridgeError Response) :=
  match x.delivered.find? id with
  | some r => some (.ok r)
  | none => if x.waits id then none else some (.error .exited)

/-- The exchange after an event, if the event can happen. Requests have the given number of seconds;
an id is used for one request only. -/
def step? (seconds : Nat) (x : Exchange) : Event → Option Exchange
  | .register id =>
    match x.phases.find? id with
    | none => some ((x.withWaiter id).put id .writing)
    | some _ => none
  | .write id =>
    match x.phases.find? id with
    | some .writing => some (x.put id .waiting)
    | _ => none
  | .failWrite id =>
    match x.phases.find? id with
    | some .writing => some (x.put id (.leaving .writeFailed))
    | _ => none
  | .expire id =>
    match x.phases.find? id, x.found? id with
    | some .waiting, none => some (x.put id (.leaving (.timeout seconds)))
    | _, _ => none
  | .leave id =>
    match x.phases.find? id with
    | some (.leaving e) => some ((x.withoutWaiter id).put id (.finished (.error e)))
    | _ => none
  | .wake id =>
    match x.phases.find? id, x.found? id with
    | some .waiting, some outcome => some (x.put id (.finished outcome))
    | _, _ => none
  | .send line => if x.closed then none else some { x with arriving := x.arriving ++ [line] }
  | .close => some { x with closed := true }
  | .read line =>
    match x.arriving with
    | first :: rest =>
      if x.reading ∧ first = line then some ({ x with arriving := rest }.take line) else none
    | [] => none
  | .stop failed =>
    if x.reading && (failed || (x.closed && x.arriving.isEmpty)) then
      some { x with waiters := [], reading := false }
    else none

def run? (seconds : Nat) (x : Exchange) (events : List Event) : Option Exchange :=
  events.foldlM (step? seconds) x

def outcome? (x : Exchange) (id : String) : Option (Except BridgeError Response) :=
  match x.phases.find? id with
  | some (.finished outcome) => some outcome
  | _ => none

end Exchange

end CubeQuery.Bridge
