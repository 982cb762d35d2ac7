import ShardedSql.Json
import ShardedSql.Rules

/-!
# Rules as a document

Rules are written with all their members: an option that is absent becomes null, and a section
without entries stays empty.
-/

namespace ShardedSql

namespace Json

/-- A list of texts. -/
def ofTexts (texts : List String) : Json :=
  array (texts.map string)

/-- What may be absent. -/
def ofOption {α : Type} (write : α → Json) : Option α → Json
  | some a => write a
  | none => null

/-- A list. -/
def ofList {α : Type} (write : α → Json) (xs : List α) : Json :=
  array (xs.map write)

/-- Things by name. -/
def ofNamed {α : Type} (write : α → Json) (xs : Named α) : Json :=
  object (xs.map fun (name, a) => (name, write a))

end Json

open Json (ofTexts ofOption ofNamed)

/-- Writes an algorithm. -/
def AlgorithmSpec.toJson (a : AlgorithmSpec) : Json :=
  .object [("type", .string a.type), ("props", ofNamed .string a.properties)]

/-- Writes algorithms by name. -/
def writeAlgorithms : Named AlgorithmSpec → Json :=
  ofNamed AlgorithmSpec.toJson

/-- Writes a sharded table. -/
def ShardedTableSpec.toJson (t : ShardedTableSpec) : Json :=
  .object [("actual_data_nodes", ofTexts t.nodes), ("sharding_column", ofOption .string t.column),
    ("algorithm", ofOption .string t.algorithm)]

/-- Writes the sharding section. -/
def ShardingSpec.toJson (s : ShardingSpec) : Json :=
  .object [("priority", ofOption .int s.priority),
    ("tables", ofNamed ShardedTableSpec.toJson s.tables),
    ("algorithms", writeAlgorithms s.algorithms)]

/-- Writes a pair of data sources. -/
def ShadowPair.toJson (p : ShadowPair) : Json :=
  .object [("name", .string p.name), ("production_data_source", .string p.production),
    ("shadow_data_source", .string p.shadow)]

/-- Writes a shadowed table. -/
def ShadowTableSpec.toJson (t : ShadowTableSpec) : Json :=
  .object [("data_source_names", ofTexts t.pairs), ("algorithm_names", ofTexts t.algorithms)]

/-- Writes the shadow section. -/
def ShadowSpec.toJson (s : ShadowSpec) : Json :=
  .object [("priority", ofOption .int s.priority),
    ("data_sources", .ofList ShadowPair.toJson s.pairs),
    ("tables", ofNamed ShadowTableSpec.toJson s.tables),
    ("algorithms", writeAlgorithms s.algorithms)]

/-- Writes a replica group. -/
def ReplicaGroupSpec.toJson (g : ReplicaGroupSpec) : Json :=
  .object [("name", .string g.name), ("write_data_source", .string g.writer),
    ("read_data_sources", ofTexts g.readers), ("load_balancer", ofOption .string g.balancer)]

/-- Writes the read/write splitting section. -/
def ReplicaSpec.toJson (s : ReplicaSpec) : Json :=
  .object [("priority", ofOption .int s.priority),
    ("groups", .ofList ReplicaGroupSpec.toJson s.groups),
    ("load_balancers", writeAlgorithms s.balancers)]

/-- Writes the broadcast section. -/
def BroadcastSpec.toJson (s : BroadcastSpec) : Json :=
  .object [("priority", ofOption .int s.priority), ("tables", ofTexts s.tables),
    ("data_sources", ofTexts s.dataSources)]

/-- Writes the mask section. -/
def MaskSpec.toJson (s : MaskSpec) : Json :=
  .object [("tables", ofNamed (ofNamed .string) s.tables),
    ("algorithms", writeAlgorithms s.algorithms)]

/-- Writes a traffic strategy. -/
def TrafficStrategySpec.toJson (t : TrafficStrategySpec) : Json :=
  .object [("name", .string t.name), ("labels", ofTexts t.labels),
    ("algorithm", .string t.algorithm), ("load_balancer", ofOption .string t.balancer)]

/-- Writes a compute instance. -/
def Instance.toJson (i : Instance) : Json :=
  .object [("id", .string i.id), ("labels", ofTexts i.labels)]

/-- Writes the traffic section. -/
def TrafficSpec.toJson (s : TrafficSpec) : Json :=
  .object [("strategies", .ofList TrafficStrategySpec.toJson s.strategies),
    ("instances", .ofList Instance.toJson s.instances),
    ("algorithms", writeAlgorithms s.algorithms),
    ("load_balancers", writeAlgorithms s.balancers)]

/-- Writes all sections. -/
def Rules.toJson (r : Rules) : Json :=
  .object [("single_tables", ofNamed .string r.singleTables),
    ("sharding", ofOption ShardingSpec.toJson r.sharding),
    ("shadow", ofOption ShadowSpec.toJson r.shadow),
    ("readwrite_splitting", ofOption ReplicaSpec.toJson r.replicas),
    ("broadcast", ofOption BroadcastSpec.toJson r.broadcast),
    ("mask", ofOption MaskSpec.toJson r.mask),
    ("traffic", ofOption TrafficSpec.toJson r.traffic)]

end ShardedSql
