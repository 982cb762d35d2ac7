import ShardedSql.Cell
import ShardedSql.Fault
import ShardedSql.Json.Coercion

/-!
# Settings

Settings of the whole program.  They come from three layers: defaults, a document, and environment
variables, the last one winning.
-/

namespace ShardedSql

/-- How failures of units are reported. -/
inductive FailurePolicy where
  /-- The first failure ends the execution. -/
  | failFast
  /-- Every unit is run and all failures are reported together. -/
  | collectAll
  deriving DecidableEq, Repr

/-- The policies by name. -/
def FailurePolicy.names : List (String × FailurePolicy) :=
  [("fail_fast", .failFast), ("collect_all", .collectAll)]

/-- Reads a policy, in any case and with hyphens or underscores. -/
def FailurePolicy.parse? (text : String) : Option FailurePolicy :=
  FailurePolicy.names.lookup (Text.substitute '-' '_' (Text.lower text))

/-- The collations by name. -/
def Collation.names : List (String × Collation) :=
  [("binary", .binary), ("case_insensitive", .caseInsensitive)]

/-- A physical data source with its address. -/
structure DataSource where
  name : String
  url : String
  deriving DecidableEq, Repr

/-- All settings. -/
structure Settings where
  databaseName : String
  maxConnections : Nat
  /-- Number of workers; the number of processors when absent. -/
  workers : Option Nat
  failurePolicy : FailurePolicy
  /-- How long a connection is waited for, in milliseconds. -/
  acquireTimeout : Nat
  /-- How long a statement may take, in milliseconds. -/
  unitTimeout : Option Nat
  defaultDataSource : Option String
  collation : Collation
  implicitCommit : Bool
  logLevel : String
  logStyle : String
  dataSources : List DataSource
  deriving DecidableEq, Repr

/-- Environment variables by name. -/
abbrev Environment := List (String × String)

namespace Settings

open Json (asText? asNat? asBool? asChoice? asOption? asList? asRecord?)

/-- Settings when nothing is configured. -/
def default : Settings :=
  { databaseName := "logic_db", maxConnections := 1, workers := none, failurePolicy := .failFast
    acquireTimeout := 30000, unitTimeout := none, defaultDataSource := none, collation := .binary
    implicitCommit := true, logLevel := "info", logStyle := "auto", dataSources := [] }

/-- The lowest layer. -/
def defaults : Json :=
  .object [("database_name", .string "logic_db"),
    ("execution", .object [("max_connections_per_query", .int 1),
      ("failure_policy", .string "fail_fast"), ("connection_acquire_timeout_ms", .int 30000)]),
    ("merge", .object [("collation", .string "binary")]),
    ("transaction", .object [("implicit_commit", .bool true)]),
    ("logging", .object [("level", .string "info"), ("style", .string "auto")]),
    ("routing", .object [("default_data_source", .null)])]

/-! ## Environment -/

/-- Variables that hold numbers, with the setting each one replaces. -/
def numericVariables : List (String × List String) :=
  [("PROXY_MAX_CONNECTIONS_PER_QUERY", ["execution", "max_connections_per_query"]),
    ("PROXY_WORKER_POOL_SIZE", ["execution", "worker_pool_size"])]

/-- Variables that hold texts, with the setting each one replaces. -/
def textVariables : List (String × List String) :=
  [("PROXY_FAILURE_POLICY", ["execution", "failure_policy"]),
    ("PROXY_DEFAULT_DATA_SOURCE", ["routing", "default_data_source"]),
    ("RUST_LOG", ["logging", "level"]), ("RUST_LOG_STYLE", ["logging", "style"])]

/-- The replacements made by numeric variables. -/
def numericOverrides (env : Environment) : Except Fault (List Json) := do
  let found ← numericVariables.mapM fun (name, path) =>
    match env.lookup name with
    | none => .ok none
    | some text =>
        match Text.readNat64 text with
        | .ok n => .ok (some (Json.nested path (.int n)))
        | .error e => .error (.configuration (.environment name e.message))
  return found.filterMap id

/-- The replacements made by text variables. -/
def textOverrides (env : Environment) : List Json :=
  textVariables.filterMap fun (name, path) =>
    (env.lookup name).map fun text => Json.nested path (.string text)

/-! ## Reading -/

/-- Reads a data source. -/
def readDataSource? (j : Json) : Option DataSource := do
  let r ← asRecord? j
  return { name := ← r.required "name" 0 asText?, url := ← r.required "url" 1 asText? }

/-- Reads all layers put together. -/
def ofJson? (j : Json) : Option Settings := do
  let root ← asRecord? j
  let databaseName ← root.required "database_name" 0 asText?
  let execution ← root.required "execution" 1 asRecord?
  let routing ← root.required "routing" 2 asRecord?
  let merge ← root.required "merge" 3 asRecord?
  let transaction ← root.required "transaction" 4 asRecord?
  let logging ← root.required "logging" 5 asRecord?
  return {
    databaseName
    maxConnections := ← execution.required "max_connections_per_query" 0 asNat?
    workers := ← execution.optional "worker_pool_size" 1 none fun j => (asNat? j).map some
    failurePolicy := ← execution.required "failure_policy" 2 (asChoice? FailurePolicy.names)
    acquireTimeout := ← execution.required "connection_acquire_timeout_ms" 3 asNat?
    unitTimeout := ← execution.optional "unit_timeout_ms" 4 none (asOption? asNat?)
    defaultDataSource := ← routing.optional "default_data_source" 0 none (asOption? asText?)
    collation := ← merge.required "collation" 0 (asChoice? Collation.names)
    implicitCommit := ← transaction.required "implicit_commit" 0 asBool?
    logLevel := ← logging.required "level" 0 asText?
    logStyle := ← logging.required "style" 1 asText?
    dataSources := ← root.optional "data_sources" 6 [] (asList? readDataSource?) }

/-- Settings with a budget of connections and workers other than zero. -/
def validated (s : Settings) : Except Fault Settings :=
  if s.maxConnections == 0 then
    .error (.configuration (.notPositive "execution.max_connections_per_query"))
  else if s.workers == some 0 then
    .error (.configuration (.notPositive "execution.worker_pool_size"))
  else .ok s

/-- Why settings could not be loaded. -/
inductive LoadFault where
  | fault (fault : Fault)
  /-- A document that is unreadable or has values of the wrong form. -/
  | unreadable
  deriving Repr

/-- What was read, or the fault that it could not be. -/
def LoadFault.orUnreadable {α : Type} : Option α → Except LoadFault α
  | some a => .ok a
  | none => .error unreadable

/-- The defaults overlaid by an optional document. -/
def documentLayers? : Option String → Option Json
  | none => some defaults
  | some text => (Json.parse? text).bind (Json.overlayDocument defaults)

/-- Loads settings from an optional document and the environment.  Numeric variables are checked
first. -/
def load (document : Option String) (env : Environment) : Except LoadFault Settings := do
  let numbers ← (numericOverrides env).mapError .fault
  let base ← LoadFault.orUnreadable (documentLayers? document)
  let overrides := numbers ++ textOverrides env
  let settings ← LoadFault.orUnreadable (ofJson? (overrides.foldl Json.overlay base))
  (validated settings).mapError .fault

end Settings

end ShardedSql
