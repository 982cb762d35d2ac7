import ShardedSql.Json.Coercion
import ShardedSql.Rules

/-!
# Rules from a document

The written form of the rules of a logical database.  Sections and options may be absent or null;
members that are not known are ignored.
-/

namespace ShardedSql

open Json (asText? asInt32? asOption? asList? asNamed? asRecord?)

/-- Reads a list of texts. -/
def readTexts? : Json → Option (List String) :=
  asList? asText?

/-- Reads an algorithm. -/
def AlgorithmSpec.ofJson? (j : Json) : Option AlgorithmSpec := do
  let r ← asRecord? j
  return { type := ← r.required "type" 0 asText?
           properties := ← r.optional "props" 1 [] (asNamed? asText?) }

/-- Reads algorithms by name. -/
def readAlgorithms? : Json → Option (Named AlgorithmSpec) :=
  asNamed? AlgorithmSpec.ofJson?

/-- Reads a sharded table. -/
def ShardedTableSpec.ofJson? (j : Json) : Option ShardedTableSpec := do
  let r ← asRecord? j
  return { nodes := ← r.required "actual_data_nodes" 0 readTexts?
           column := ← r.optional "sharding_column" 1 none (asOption? asText?)
           algorithm := ← r.optional "algorithm" 2 none (asOption? asText?) }

/-- Reads the sharding section. -/
def ShardingSpec.ofJson? (j : Json) : Option ShardingSpec := do
  let r ← asRecord? j
  return { priority := ← r.optional "priority" 0 none (asOption? asInt32?)
           tables := ← r.required "tables" 1 (asNamed? ShardedTableSpec.ofJson?)
           algorithms := ← r.optional "algorithms" 2 [] readAlgorithms? }

/-- Reads a pair of data sources. -/
def ShadowPair.ofJson? (j : Json) : Option ShadowPair := do
  let r ← asRecord? j
  return { name := ← r.required "name" 0 asText?
           production := ← r.required "production_data_source" 1 asText?
           shadow := ← r.required "shadow_data_source" 2 asText? }

/-- Reads a shadowed table. -/
def ShadowTableSpec.ofJson? (j : Json) : Option ShadowTableSpec := do
  let r ← asRecord? j
  return { pairs := ← r.required "data_source_names" 0 readTexts?
           algorithms := ← r.required "algorithm_names" 1 readTexts? }

/-- Reads the shadow section. -/
def ShadowSpec.ofJson? (j : Json) : Option ShadowSpec := do
  let r ← asRecord? j
  return { priority := ← r.optional "priority" 0 none (asOption? asInt32?)
           pairs := ← r.required "data_sources" 1 (asList? ShadowPair.ofJson?)
           tables := ← r.required "tables" 2 (asNamed? ShadowTableSpec.ofJson?)
           algorithms := ← r.optional "algorithms" 3 [] readAlgorithms? }

/-- Reads a replica group. -/
def ReplicaGroupSpec.ofJson? (j : Json) : Option ReplicaGroupSpec := do
  let r ← asRecord? j
  return { name := ← r.required "name" 0 asText?
           writer := ← r.required "write_data_source" 1 asText?
           readers := ← r.required "read_data_sources" 2 readTexts?
           balancer := ← r.optional "load_balancer" 3 none (asOption? asText?) }

/-- Reads the read/write splitting section. -/
def ReplicaSpec.ofJson? (j : Json) : Option ReplicaSpec := do
  let r ← asRecord? j
  return { priority := ← r.optional "priority" 0 none (asOption? asInt32?)
           groups := ← r.required "groups" 1 (asList? ReplicaGroupSpec.ofJson?)
           balancers := ← r.optional "load_balancers" 2 [] readAlgorithms? }

/-- Reads the broadcast section. -/
def BroadcastSpec.ofJson? (j : Json) : Option BroadcastSpec := do
  let r ← asRecord? j
  return { priority := ← r.optional "priority" 0 none (asOption? asInt32?)
           tables := ← r.required "tables" 1 readTexts?
           dataSources := ← r.required "data_sources" 2 readTexts? }

/-- Reads the mask section. -/
def MaskSpec.ofJson? (j : Json) : Option MaskSpec := do
  let r ← asRecord? j
  return { tables := ← r.required "tables" 0 (asNamed? (asNamed? asText?))
           algorithms := ← r.optional "algorithms" 1 [] readAlgorithms? }

/-- Reads a traffic strategy. -/
def TrafficStrategySpec.ofJson? (j : Json) : Option TrafficStrategySpec := do
  let r ← asRecord? j
  return { name := ← r.required "name" 0 asText?
           labels := ← r.required "labels" 1 readTexts?
           algorithm := ← r.required "algorithm" 2 asText?
           balancer := ← r.optional "load_balancer" 3 none (asOption? asText?) }

/-- Reads a compute instance. -/
def Instance.ofJson? (j : Json) : Option Instance := do
  let r ← asRecord? j
  return { id := ← r.required "id" 0 asText?
           labels := ← r.optional "labels" 1 [] readTexts? }

/-- Reads the traffic section. -/
def TrafficSpec.ofJson? (j : Json) : Option TrafficSpec := do
  let r ← asRecord? j
  return { strategies := ← r.required "strategies" 0 (asList? TrafficStrategySpec.ofJson?)
           instances := ← r.optional "instances" 1 [] (asList? Instance.ofJson?)
           algorithms := ← r.optional "algorithms" 2 [] readAlgorithms?
           balancers := ← r.optional "load_balancers" 3 [] readAlgorithms? }

namespace Rules

/-- Reads all sections. -/
def ofJson? (j : Json) : Option Rules := do
  let r ← asRecord? j
  return { singleTables := ← r.optional "single_tables" 0 [] (asNamed? asText?)
           sharding := ← r.optional "sharding" 1 none (asOption? ShardingSpec.ofJson?)
           shadow := ← r.optional "shadow" 2 none (asOption? ShadowSpec.ofJson?)
           replicas := ← r.optional "readwrite_splitting" 3 none (asOption? ReplicaSpec.ofJson?)
           broadcast := ← r.optional "broadcast" 4 none (asOption? BroadcastSpec.ofJson?)
           mask := ← r.optional "mask" 5 none (asOption? MaskSpec.ofJson?)
           traffic := ← r.optional "traffic" 6 none (asOption? TrafficSpec.ofJson?) }

/-- Reads the rules of a document. -/
def ofDocument? (text : String) : Option Rules := do
  let document ← Json.parse? text
  ofJson? (← Json.overlayDocument (.object []) document)

end Rules

end ShardedSql
