import ShardedSql.Fault
import ShardedSql.Settings
import ShardedSql.Url

/-!
# Connection pools

The pool of a data source is created when it is first asked for.  Each attempt to create one is
logged, with the address but without user and password.  The library that reads the address for the
log and the one that sets up connections from it are given.
-/

namespace ShardedSql.Postgres

variable (parse? : UrlLibrary)

/-- The address of a data source as it is logged. -/
def loggedAddress (url : String) : String :=
  match parse? url with
  | some u => u.render
  | none => "[unparseable url]"

/-- The pools of a list of data sources. -/
structure Pools where
  /-- Of several with one name the last counts. -/
  dataSources : List DataSource
  maxSize : Nat
  created : List String
  deriving DecidableEq, Repr

/-- What comes of asking for a pool. -/
structure PoolReply where
  /-- The pool, given by its size. -/
  answer : Except Fault Nat
  log : List String
  pools : Pools

namespace Pools

/-- Pools of at most `maxSize` connections, none of them created yet; no connection counts as
one. -/
def ofDataSources (dataSources : List DataSource) (maxSize : Nat := 16) : Pools :=
  { dataSources, maxSize := max 1 maxSize, created := [] }

/-- The address of a data source. -/
def url? (p : Pools) (dataSource : String) : Option String :=
  (p.dataSources.reverse.find? (·.name == dataSource)).map (·.url)

/-- The line that is logged before a pool is created. -/
def creationLine (p : Pools) (dataSource url : String) : String :=
  "Creating connection pool for data source " ++ dataSource ++ " at " ++ loggedAddress parse? url ++
    " (max_size: " ++ toString p.maxSize ++ ")"

/-- Asks for the pool of a data source.  It can be created from a usable address. -/
def request (isUsable : String → Bool) (p : Pools) (dataSource : String) : PoolReply :=
  if dataSource ∈ p.created then { answer := .ok p.maxSize, log := [], pools := p }
  else
    match p.url? dataSource with
    | none =>
        { answer := .error (.acquisition dataSource .notConfigured), log := [], pools := p }
    | some url =>
        let log := [p.creationLine parse? dataSource url]
        if isUsable url then
          { answer := .ok p.maxSize, log, pools := { p with created := dataSource :: p.created } }
        else { answer := .error (.acquisition dataSource .noPool), log, pools := p }

end Pools

end ShardedSql.Postgres
