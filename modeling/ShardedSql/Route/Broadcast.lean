import ShardedSql.Fault
import ShardedSql.Route.Unit
import ShardedSql.Rules
import ShardedSql.Statement

/-!
# Broadcast rule

A broadcast table exists on every data source of the rule.  Reading broadcast tables alone takes
one replica; everything else takes all of them.
-/

namespace ShardedSql

/-- The broadcast rule. -/
structure BroadcastRule where
  priority : Int
  /-- Broadcast tables, in lower case. -/
  tables : List String
  dataSources : List String
  deriving DecidableEq, Repr

namespace BroadcastRule

/-- Priority of the rule when none is configured. -/
def defaultPriority : Int := 10

/-- Sets up the rule. -/
def setUp (spec : BroadcastSpec) : Except Fault BroadcastRule :=
  if !spec.tables.isEmpty && spec.dataSources.isEmpty then
    .error (.configuration .broadcastWithoutDataSources)
  else
    .ok { priority := spec.priority.getD defaultPriority
          tables := spec.tables.map Text.lower
          dataSources := spec.dataSources }

/-- Whether a table is broadcast. -/
def isBroadcast (rule : BroadcastRule) (table : String) : Bool :=
  rule.tables.any (Text.alike · table)

/-- Whether a statement has tables and all of them are broadcast. -/
def isAllBroadcast (rule : BroadcastRule) (statement : Statement) : Bool :=
  !statement.tables.isEmpty && statement.tables.all rule.isBroadcast

/-- The replicas a statement goes to. -/
def replicas (rule : BroadcastRule) (statement : Statement) (route : Route) : List String :=
  if route.isEmpty && !statement.kind.isWrite && rule.isAllBroadcast statement then
    rule.dataSources.take 1
  else rule.dataSources

/-- The units of a statement, or `none` when it has no broadcast table. -/
def route (rule : BroadcastRule) (statement : Statement) (route : Route) :
    Option (List RouteUnit) :=
  let tables := distinctly ((statement.tables.filter rule.isBroadcast).map .identity)
  if tables.isEmpty then none
  else
    some ((rule.replicas statement route).map fun ds => { dataSource := .identity ds, tables })

end BroadcastRule

end ShardedSql
