import CubeQuery.CommandLine.Options
import CubeQuery.Output.Format
import CubeQuery.Plan.Request

/-!
# Commands

The commands of the program and the command lines that stand for them.
-/

namespace CubeQuery.CommandLine

inductive CommandName where
  | compile
  | aggregate
  | cubes
  | members
deriving DecidableEq, Repr

namespace CommandName

def all : List CommandName := [.compile, .aggregate, .cubes, .members]

def text : CommandName → String
  | .compile => "compile"
  | .aggregate => "aggregate"
  | .cubes => "cubes"
  | .members => "members"

def about : CommandName → String
  | .compile => "Print the MDX a request compiles to"
  | .aggregate => "Compile, execute and print the result"
  | .cubes => "List the cubes the engine serves"
  | .members => "List the members of a level as JSON"

def ofText? (text : String) : Option CommandName := all.find? (·.text == text)

end CommandName

/-! ## The options of the commands -/

/-- The digits of a natural number of 64 bits, perhaps after a plus sign. -/
def sizeDigits? (text : String) : Option Nat :=
  let digits := match text.toList with
    | '+' :: cs => cs
    | cs => cs
  if digits.isEmpty ∨ !digits.all Char.isDigit then none
  else
    let n := digits.foldl (fun n c => n * 10 + (c.toNat - 48)) 0
    if n < UInt64.size then some n else none

def flagForm (name about : String) : OptionForm := ⟨name, none, .flag, "", about, fun _ => true⟩

def onceForm (name valueName about : String) : OptionForm :=
  ⟨name, none, .once, valueName, about, fun _ => true⟩

def sizeForm (name valueName : String) : OptionForm :=
  ⟨name, none, .once, valueName, "", fun v => (sizeDigits? v).isSome⟩

def repeatedForm (name : String) (letter : Option Char) (valueName about : String) : OptionForm :=
  ⟨name, letter, .repeated, valueName, about, fun _ => true⟩

def catalogForm : OptionForm :=
  ⟨"catalog", none, .once, "CATALOG",
    "JSON catalog to serve cubes from instead of the configured engine", fun v => !v.isEmpty⟩

def formatOfText? (text : String) : Option Output.Format :=
  [Output.Format.csv, .jsonRecords, .json].find? (·.name == text)

def formatForm : OptionForm :=
  ⟨"format", none, .once, "FORMAT", "Output format", fun v => (formatOfText? v).isSome⟩

def requestForms : List OptionForm := [
  onceForm "cube" "CUBE" "",
  repeatedForm "measure" (some 'm') "MEASURES" "",
  repeatedForm "drilldown" (some 'd') "DRILLDOWN" "",
  repeatedForm "cut" (some 'c') "CUT" "",
  repeatedForm "filter" (some 'f') "FILTER" "",
  onceForm "order" "ORDER" "",
  flagForm "desc" "Sort descending",
  sizeForm "offset" "OFFSET",
  sizeForm "limit" "LIMIT",
  flagForm "nonempty" "",
  flagForm "distinct" "",
  repeatedForm "property" none "PROPERTIES" "`Dimension.Level.Property` columns to add",
  repeatedForm "caption" none "CAPTION" "Properties that replace member captions",
  flagForm "parents" "",
  flagForm "debug" "",
  flagForm "sparse" ""]

namespace CommandName

/-- The options of a command, apart from the catalog. -/
def forms : CommandName → List OptionForm
  | .compile => requestForms
  | .aggregate => requestForms ++ [formatForm]
  | .cubes => [flagForm "describe" "Print each cube's full description as JSON"]
  | .members => [
    onceForm "cube" "CUBE" "",
    onceForm "dimension" "DIMENSION" "",
    onceForm "level" "LEVEL" "",
    flagForm "children" "Include member children"]

def requiredNames : CommandName → List String
  | .compile => ["cube"]
  | .aggregate => ["cube"]
  | .cubes => []
  | .members => ["cube", "dimension", "level"]

end CommandName

/-! ## Reading command lines -/

inductive Command where
  | compile (cube : String) (request : Plan.Request)
  | aggregate (cube : String) (request : Plan.Request) (format : Output.Format)
  | cubes (describe : Bool)
  | members (cube dimension level : String) (children : Bool)

structure Invocation where
  catalog : Option String
  command : Command

inductive Demand where
  | run (invocation : Invocation)
  /-- The help text of a command, or of the program. -/
  | help (command : Option CommandName) (full : Bool)
  /-- The help text of the command that gives help. -/
  | helpOnHelp
  | version

def requestOf (given : List Given) : Plan.Request where
  measures := valuesOf given "measure"
  drilldown := valuesOf given "drilldown"
  cut := valuesOf given "cut"
  filter := valuesOf given "filter"
  order := valueOf? given "order"
  orderDesc := has given "desc"
  offset := (valueOf? given "offset").bind sizeDigits?
  limit := (valueOf? given "limit").bind sizeDigits?
  nonempty := has given "nonempty"
  distinct := has given "distinct"
  properties := valuesOf given "property"
  caption := valuesOf given "caption"
  parents := has given "parents"
  debug := has given "debug"
  sparse := has given "sparse"

/-- The cube and the request of a command; the order may be descending only if there is one. -/
def cubeAndRequest (given : List Given) : Except Stop (String × Plan.Request) := do
  let cube ← required given "cube"
  if has given "desc" ∧ !has given "order" then throw (.usage (.missingOption "order"))
  return (cube, requestOf given)

def formatOf (given : List Given) : Output.Format :=
  ((valueOf? given "format").bind formatOfText?).getD .json

def Command.ofGiven (name : CommandName) (given : List Given) : Except Stop Command :=
  match name with
  | .compile => do
    let (cube, request) ← cubeAndRequest given
    return .compile cube request
  | .aggregate => do
    let (cube, request) ← cubeAndRequest given
    return .aggregate cube request (formatOf given)
  | .cubes => return .cubes (has given "describe")
  | .members => do
    return .members (← required given "cube") (← required given "dimension")
      (← required given "level") (has given "children")

/-- The command that the words after its name describe; a catalog named there counts more than one
named before, and so does a fault. -/
def readCommand (front : Except Stop (List Given)) (name : CommandName) (words : List String) :
    Except Stop Invocation := do
  let given ← readAll ⟨catalogForm :: name.forms, false⟩ words
  let command ← Command.ofGiven name given
  return ⟨(valueOf? given "catalog").or (valueOf? (← front) "catalog"), command⟩

def readHelp : List String → Except UsageError Demand
  | [] => .ok (.help none true)
  | [word] =>
    if word = "help" then .ok .helpOnHelp
    else
      match CommandName.ofText? word with
      | some name => .ok (.help (some name) true)
      | none => .error (.unexpected word)
  | word :: next :: _ =>
    .error (.unexpected (if (CommandName.ofText? word).isSome then next else word))

def Stop.demand (command : Option CommandName) : Stop → Except UsageError Demand
  | .usage cause => .error cause
  | .help full => .ok (.help command full)
  | .version => .ok .version

def Demand.ofWords (words : List String) : Except UsageError Demand :=
  match readOptions ⟨[catalogForm], true⟩ none (.ok []) words with
  | .error stop => stop.demand none
  | .ok ⟨_, none⟩ => .error .missingCommand
  | .ok ⟨front, some (word, rest)⟩ =>
    if word = "help" then readHelp rest
    else
      match CommandName.ofText? word with
      | none => .error (.unexpected word)
      | some name =>
        match readCommand front name rest with
        | .error stop => stop.demand (some name)
        | .ok invocation => .ok (.run invocation)

end CubeQuery.CommandLine
