import ShardedSql.Algorithm

/-!
# Rules of a logical database

The rules as they are written down: which tables are sharded, shadowed, broadcast or kept on one
data source, how reads are spread, which columns are masked, and which statements are redirected.
Nothing is checked here; names may still refer to nothing.
-/

namespace ShardedSql

/-- Entries by name. -/
abbrev Named (α : Type) := List (String × α)

/-- A sharded table as configured. -/
structure ShardedTableSpec where
  /-- Its data nodes, in written form. -/
  nodes : List String
  column : Option String := none
  algorithm : Option String := none
  deriving DecidableEq, Repr

/-- The sharding rule as configured. -/
structure ShardingSpec where
  priority : Option Int := none
  tables : Named ShardedTableSpec
  algorithms : Named AlgorithmSpec := []
  deriving DecidableEq, Repr

/-- A production data source and its shadow. -/
structure ShadowPair where
  name : String
  production : String
  shadow : String
  deriving DecidableEq, Repr

/-- A shadowed table as configured. -/
structure ShadowTableSpec where
  pairs : List String
  /-- Names of the algorithms, any of which may recognise a shadow access. -/
  algorithms : List String
  deriving DecidableEq, Repr

/-- The shadow rule as configured. -/
structure ShadowSpec where
  priority : Option Int := none
  pairs : List ShadowPair
  tables : Named ShadowTableSpec
  algorithms : Named AlgorithmSpec := []
  deriving DecidableEq, Repr

/-- A group of a write data source and its replicas. -/
structure ReplicaGroupSpec where
  name : String
  writer : String
  readers : List String
  balancer : Option String := none
  deriving DecidableEq, Repr

/-- The read/write splitting rule as configured. -/
structure ReplicaSpec where
  priority : Option Int := none
  groups : List ReplicaGroupSpec
  balancers : Named AlgorithmSpec := []
  deriving DecidableEq, Repr

/-- The broadcast rule as configured. -/
structure BroadcastSpec where
  priority : Option Int := none
  tables : List String
  dataSources : List String
  deriving DecidableEq, Repr

/-- The mask rule as configured. -/
structure MaskSpec where
  /-- Names of masks by table and column. -/
  tables : Named (Named String)
  algorithms : Named AlgorithmSpec := []
  deriving DecidableEq, Repr

/-- A traffic strategy as configured. -/
structure TrafficStrategySpec where
  name : String
  /-- Labels, any of which makes an instance eligible. -/
  labels : List String
  algorithm : String
  balancer : Option String := none
  deriving DecidableEq, Repr

/-- A compute instance. -/
structure Instance where
  id : String
  labels : List String := []
  deriving DecidableEq, Repr

/-- The traffic rule as configured. -/
structure TrafficSpec where
  strategies : List TrafficStrategySpec
  instances : List Instance := []
  algorithms : Named AlgorithmSpec := []
  balancers : Named AlgorithmSpec := []
  deriving DecidableEq, Repr

/-- All rules of a logical database. -/
structure Rules where
  singleTables : Named String := []
  sharding : Option ShardingSpec := none
  shadow : Option ShadowSpec := none
  replicas : Option ReplicaSpec := none
  broadcast : Option BroadcastSpec := none
  mask : Option MaskSpec := none
  traffic : Option TrafficSpec := none
  deriving DecidableEq, Repr

end ShardedSql
