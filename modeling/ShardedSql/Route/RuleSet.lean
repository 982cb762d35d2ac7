import ShardedSql.Route.Broadcast
import ShardedSql.Route.Narrowing
import ShardedSql.Route.Replicas
import ShardedSql.Route.Shadow
import ShardedSql.Route.Sharding

/-!
# Rule sets

The rules that take part in routing.  Placing rules resolve tables to data nodes; redirecting
rules rename data sources that are already resolved, and come after all placing rules.
-/

namespace ShardedSql

/-- A rule that takes part in routing. -/
inductive RouteRule where
  | sharding (rule : ShardingRule)
  | broadcast (rule : BroadcastRule)
  | shadow (rule : ShadowRule)
  | replicas (rule : ReplicaRule)

namespace RouteRule

/-- Name of a rule in messages. -/
def name : RouteRule → String
  | sharding _ => "sharding"
  | broadcast _ => "broadcast"
  | shadow _ => "shadow"
  | replicas _ => "readwrite_splitting"

/-- Whether a rule resolves tables to data nodes. -/
def isPlacing : RouteRule → Bool
  | sharding _ | broadcast _ => true
  | shadow _ | replicas _ => false

/-- Place of a rule among those of its sort. -/
def priority : RouteRule → Int
  | sharding r => r.priority
  | broadcast r => r.priority
  | shadow r => r.priority
  | replicas r => r.priority

/-- Whether a rule may stand before another: placing rules first, then by priority. -/
def mayPrecede (a b : RouteRule) : Bool :=
  if a.isPlacing == b.isPlacing then a.priority ≤ b.priority else a.isPlacing

/-- Candidates of a rule for a statement, or `none` when it does not apply. -/
def route (rule : RouteRule) (statement : Statement) (route : Route) (inTransaction : Bool) :
    Balancing (Option (List RouteUnit)) :=
  match rule with
  | sharding r => .ofExcept (r.route statement)
  | broadcast r => pure (r.route statement route)
  | shadow r => .ofExcept (r.route statement route)
  | replicas r => r.route statement route inTransaction

end RouteRule

/-- Everything that routing needs to know. -/
structure RuleSet where
  rules : List RouteRule
  singleTables : Named String
  defaultDataSource : Option String

/-- The algorithms of a configuration, set up. -/
structure AlgorithmRegistry where
  sharding : Named ShardingAlgorithm
  shadow : Named ShadowAlgorithm
  balancers : Named BalancePolicy

/-- Sets up the algorithms of a configuration. -/
def AlgorithmRegistry.setUp (patterns : PatternLibrary) (rules : Rules) :
    Except Fault AlgorithmRegistry := do
  let sharding ← setUpAll ShardingAlgorithm.setUp ((rules.sharding.map (·.algorithms)).getD [])
  let shadow ← setUpAll (ShadowAlgorithm.setUp patterns)
    ((rules.shadow.map (·.algorithms)).getD [])
  let balancers ← setUpAll BalancePolicy.setUp ((rules.replicas.map (·.balancers)).getD [])
  return { sharding, shadow, balancers }

namespace RuleSet

/-- The rule set with the given rules, which are put in order. -/
def ofRules (rules : List RouteRule) (singleTables : Named String)
    (defaultDataSource : Option String) : RuleSet :=
  { rules := rules.mergeSort RouteRule.mayPrecede
    singleTables := singleTables.map fun (table, ds) => (Text.lower table, ds)
    defaultDataSource }

/-- Sets up the routing rules of the configuration with the given number. -/
def setUpRules (patterns : PatternLibrary) (configuration : Nat) (rules : Rules) :
    Except Fault (List RouteRule) := do
  let registry ← AlgorithmRegistry.setUp patterns rules
  let sharding ← rules.sharding.mapM (ShardingRule.setUp registry.sharding)
  let broadcast ← rules.broadcast.mapM BroadcastRule.setUp
  let shadow ← rules.shadow.mapM (ShadowRule.setUp registry.shadow)
  let replicas ← rules.replicas.mapM (ReplicaRule.setUp registry.balancers configuration)
  return (sharding.map .sharding).toList ++ (broadcast.map .broadcast).toList ++
    (shadow.map .shadow).toList ++ (replicas.map .replicas).toList

/-- Sets up the rule set of a configuration. -/
def setUp (patterns : PatternLibrary) (rules : Rules) (defaultDataSource : Option String) :
    Except Fault RuleSet := do
  return ofRules (← setUpRules patterns 0 rules) rules.singleTables defaultDataSource

/-- Sets up several configurations together; single tables are those of the first one. -/
def setUpMany (patterns : PatternLibrary) (configurations : List Rules)
    (defaultDataSource : Option String) : Except Fault RuleSet := do
  let rules ← configurations.zipIdx.mapM fun (rules, n) => setUpRules patterns n rules
  return ofRules rules.flatten ((configurations.head?.map (·.singleTables)).getD [])
    defaultDataSource

/-- The data source of a single table. -/
def singleTable? (rs : RuleSet) (table : String) : Option String :=
  rs.singleTables.lookup (Text.lower table)

/-- The first sharding rule. -/
def sharding? (rs : RuleSet) : Option ShardingRule :=
  rs.rules.findSome? fun
    | .sharding r => some r
    | _ => none

/-- The first broadcast rule. -/
def broadcast? (rs : RuleSet) : Option BroadcastRule :=
  rs.rules.findSome? fun
    | .broadcast r => some r
    | _ => none

/-- Whether the update counts of all units are summed: the statement has a sharded table.
Otherwise the count of one unit is reported. -/
def accumulates (rs : RuleSet) (statement : Statement) : Bool :=
  match rs.sharding? with
  | some r => statement.tables.any r.isSharded
  | none => false

/-! ## Routing -/

/-- Applies one rule: the first candidates start the route, later ones narrow it. -/
def applyRule (statement : Statement) (inTransaction : Bool) (route : Route) (rule : RouteRule) :
    Balancing Route := do
  match ← rule.route statement route inTransaction with
  | none => return route
  | some [] => throw (.routing (.noUnits rule.name))
  | some candidates =>
      if route.isEmpty then return Route.ofUnits candidates
      else
        .ofExcept (route.narrow candidates rule.name)

/-- Where a statement without tables goes: to the default data source, else to the first broadcast
data source. -/
def fallback? (rs : RuleSet) : Option String :=
  match rs.defaultDataSource with
  | some ds => some ds
  | none => rs.broadcast?.bind (·.dataSources.head?)

/-- Adds a single table to a route.  On a route that is already there only the units on the data
source of the table survive. -/
def addSingleTable (rs : RuleSet) (route : Route) (table : String) : Except Fault Route := do
  let dataSource ← match (rs.singleTable? table).or rs.defaultDataSource with
    | some ds => .ok ds
    | none => .error (.routing (.unplacedTable table))
  if route.isEmpty then
    return route.add { dataSource := .identity dataSource, tables := [.identity table] }
  else
    let attached := (route.units.filter fun u =>
        u.dataSource.logical == dataSource || u.dataSource.actual == dataSource).map fun u =>
      { u with tables := u.tables ++ [.identity table] }
    if attached.isEmpty then
      .error (.routing (.unreachableTable table dataSource route.dataSources))
    else return Route.ofUnits attached

/-- Routes the tables that no placing rule covers. -/
def routeSingleTables (rs : RuleSet) (statement : Statement) (route : Route) :
    Except Fault Route := do
  let uncovered := distinctly (statement.tables.filter fun t => !route.covers t)
  if uncovered.isEmpty then
    if route.isEmpty then
      match rs.fallback? with
      | some ds => return route.add { dataSource := .identity ds, tables := [] }
      | none => .error (.routing .noDefaultDataSource)
    else return route
  else uncovered.foldlM rs.addSingleTable route

/-- The route of a statement. -/
def route (rs : RuleSet) (statement : Statement) (inTransaction : Bool) : Balancing Route := do
  let (placing, redirecting) := rs.rules.partition (·.isPlacing)
  let placed ← placing.foldlM (applyRule statement inTransaction) Route.empty
  let complete ← Balancing.ofExcept (rs.routeSingleTables statement placed)
  redirecting.foldlM (applyRule statement inTransaction) complete

end RuleSet

end ShardedSql
