import CubeQuery.Decimal.Layout
import CubeQuery.Plan.Request
import CubeQuery.Toml.Decode
import CubeQuery.Toml.Document

/-!
# Settings

Where cubes come from, the defaults of requests, and whether the metadata of cubes is kept. Settings
are written in TOML, and everything in them may be left out.
-/

namespace CubeQuery

open Toml

inductive SettingsError where
  | fileNotFound (path : String)
  | unreadable (reason : String)
  | malformed
  | missingVariable (name : String)
  | bothSources
  | noTimeout
deriving DecidableEq, Repr

def SettingsError.message : SettingsError → String
  | .fileNotFound path => s!"Config file not found: {path}"
  | .unreadable reason => s!"Failed to read config file: {reason}"
  | .malformed => "Failed to parse config file"
  | .missingVariable name => s!"Missing environment variable: {name}"
  | .bothSources =>
    "Invalid configuration: engine.path and engine.catalog are mutually exclusive"
  | .noTimeout => "Invalid configuration: engine.timeout_secs must be positive"

/-- Where cubes come from: a bridge program or a catalog file. -/
structure EngineSettings where
  /-- The bridge program; it may refer to variables. -/
  path : Option String
  args : List String
  /-- How long one exchange with the bridge may take. -/
  timeoutSeconds : Nat
  /-- The catalog file; it may refer to variables. -/
  catalog : Option String
deriving DecidableEq, Repr

structure Settings where
  engine : EngineSettings
  query : Plan.RequestDefaults
  /-- Whether the metadata of cubes is kept between requests. -/
  caching : Bool
deriving DecidableEq, Repr

namespace EngineSettings

def initial : EngineSettings := ⟨none, [], 30, none⟩

def ofToml? : Decoder EngineSettings := fun v => do
  let r ← fields? ["path", "args", "timeout_secs", "catalog"] v
  return {
    path := ← r.optional "path" text?
    args := ← r.withDefault "args" (list? text?) []
    timeoutSeconds := ← r.withDefault "timeout_secs" size? 30
    catalog := ← r.optional "catalog" text? }

end EngineSettings

namespace Settings

def initial : Settings := ⟨.initial, .none, true⟩

def defaultsOfToml? : Decoder Plan.RequestDefaults := fun v => do
  let r ← fields? ["sparse", "debug", "nonempty", "distinct", "parents"] v
  return {
    sparse := ← r.withDefault "sparse" flag? false
    debug := ← r.withDefault "debug" flag? false
    nonempty := ← r.withDefault "nonempty" flag? false
    distinct := ← r.withDefault "distinct" flag? false
    parents := ← r.withDefault "parents" flag? false }

def cachingOfToml? : Decoder Bool := fun v => do
  (← fields? ["enabled"] v).withDefault "enabled" flag? true

def ofToml? : Decoder Settings := fun v => do
  let r ← fields? ["engine", "query", "cache"] v
  return {
    engine := ← r.withDefault "engine" EngineSettings.ofToml? .initial
    query := ← r.withDefault "query" defaultsOfToml? .none
    caching := ← r.withDefault "cache" cachingOfToml? true }

/-- Refuses two sources of cubes at once, and a bridge that may take no time. -/
def validated (s : Settings) : Except SettingsError Settings :=
  if s.engine.path.isSome ∧ s.engine.catalog.isSome then .error .bothSources
  else if s.engine.timeoutSeconds = 0 then .error .noTimeout
  else .ok s

def ofText (text : String) : Except SettingsError Settings :=
  match (Toml.parse text).bind ofToml? with
  | some s => s.validated
  | none => .error .malformed

end Settings

end CubeQuery
