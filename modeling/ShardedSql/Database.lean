import ShardedSql.Execution.Batch
import ShardedSql.Execution.Transaction
import ShardedSql.Merge
import ShardedSql.Adaptation
import ShardedSql.Route.RuleSet
import ShardedSql.Route.Traffic

/-!
# Logical databases

A logical database is what a configuration comes to once it is set up: the rules by which
statements are placed, how they are adapted and run, and how their results are merged.  It does
not change while statements are executed.
-/

namespace ShardedSql

/-- A logical database. -/
structure Database where
  name : String
  /-- How long a statement may take, in milliseconds. -/
  timeout : Option Nat
  rules : RuleSet
  adapt : Adapter
  limits : LaneLimits
  runner : Runner
  merger : Merger
  implicitCommit : Bool
  traffic : TrafficRule

namespace Database

/-- Sets up a logical database, with the libraries for the SQL of its statements and for text
patterns. -/
def setUp (sql : Sql.Library) (patterns : PatternLibrary) (settings : Settings) (rules : Rules) :
    Except Fault Database := do
  let ruleSet ← RuleSet.setUp patterns rules settings.defaultDataSource
  let masks ← match rules.mask with
    | some spec => MaskRule.setUp spec
    | none => .ok .none
  let traffic ← match rules.traffic with
    | some spec => TrafficRule.setUp spec
    | none => .ok .none
  return { name := settings.databaseName
           timeout := settings.unitTimeout
           rules := ruleSet
           adapt := adapterFor sql
           limits := { maxConnections := settings.maxConnections, wait := settings.acquireTimeout }
           runner := { workers := settings.workers.getD 1, policy := settings.failurePolicy }
           merger := { collation := settings.collation, masks }
           implicitCommit := settings.implicitCommit
           traffic }

/-- The report of one execution. -/
def report (db : Database) : Report :=
  { databaseName := db.name, timeout := db.timeout }

/-- The execution units of a statement that is not redirected. -/
def unitsFor (db : Database) (statement : Statement) (inTransaction : Bool) :
    Balancing (List ExecutionUnit) := do
  let route ← db.rules.route statement inTransaction
  .ofExcept (buildUnits db.adapt statement route)

end Database

end ShardedSql
