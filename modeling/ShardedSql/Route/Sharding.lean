import ShardedSql.Algorithm.Sharding
import ShardedSql.Route.Unit
import ShardedSql.Rules
import ShardedSql.Statement

/-!
# Sharding rule

A sharded table is spread over data nodes.  A statement goes to the nodes that its conditions on
the sharding column select, or to all of them; several sharded tables are combined on each data
source that holds nodes of all of them.
-/

namespace ShardedSql

/-- A table spread over data nodes. -/
structure ShardedTable where
  name : String
  nodes : List DataNode
  /-- The sharding column with its algorithm, if there is one. -/
  placement : Option (String × ShardingAlgorithm)
  deriving DecidableEq, Repr

/-- The sharding rule. -/
structure ShardingRule where
  priority : Int
  tables : List ShardedTable
  deriving DecidableEq, Repr

namespace ShardedTable

/-- Sets up a sharded table. -/
def setUp (algorithms : Named ShardingAlgorithm) (name : String) (spec : ShardedTableSpec) :
    Except Fault ShardedTable := do
  if spec.nodes.isEmpty then .error (.configuration (.tableWithoutNodes name))
  else
    let nodes ← spec.nodes.mapM DataNode.parse
    let placement ← match spec.column, spec.algorithm with
      | some column, some algorithm =>
          match algorithms.lookup algorithm with
          | some a => .ok (some (column, a))
          | none => .error (.algorithm (.notRegistered "sharding" algorithm))
      | none, none => .ok none
      | _, _ => .error (.configuration (.halfShardedTable name))
    return { name := Text.lower name, nodes, placement }

/-- The nodes a statement goes to: those of the condition values, or all. -/
def selected (table : ShardedTable) (statement : Statement) : Except Fault (List DataNode) :=
  match table.placement with
  | none => .ok table.nodes
  | some (column, algorithm) =>
      match statement.conditionValues table.name column with
      | none => .ok table.nodes
      | some values => (values.mapM (algorithm.nodeOf table.nodes)).map distinctly

end ShardedTable

/-- A sharded table with the nodes a statement goes to. -/
abbrev Selection := ShardedTable × List DataNode

namespace ShardingRule

/-- Priority of the rule when none is configured. -/
def defaultPriority : Int := 0

/-- Sets up the rule.  Tables are kept in the order of their names. -/
def setUp (algorithms : Named ShardingAlgorithm) (spec : ShardingSpec) :
    Except Fault ShardingRule := do
  let tables ← spec.tables.mapM fun (name, table) => ShardedTable.setUp algorithms name table
  return { priority := spec.priority.getD defaultPriority
           tables := tables.mergeSort fun a b => (Text.order a.name b.name).isLE }

/-- The sharded table of a name. -/
def table? (rule : ShardingRule) (name : String) : Option ShardedTable :=
  rule.tables.find? fun t => Text.alike t.name name

/-- Whether a table is sharded. -/
def isSharded (rule : ShardingRule) (name : String) : Bool :=
  (rule.table? name).isSome

/-- Adds the selection of a table, unless the table is not sharded or has been met before. -/
def addSelection (rule : ShardingRule) (statement : Statement) (selections : List Selection)
    (name : String) : Except Fault (List Selection) :=
  match rule.table? name with
  | none => .ok selections
  | some table =>
      if selections.any (·.1.name == table.name) then .ok selections
      else do
        let nodes ← table.selected statement
        if nodes.isEmpty then .error (.routing (.noNode table.name))
        else return selections ++ [(table, nodes)]

/-- The selections of all sharded tables of a statement, in order. -/
def selections (rule : ShardingRule) (statement : Statement) : Except Fault (List Selection) :=
  statement.tables.foldlM (rule.addSelection statement) []

/-- Whether a data source holds a selected node of a table. -/
def holds (dataSource : String) (selection : Selection) : Bool :=
  selection.2.any (·.dataSource == dataSource)

/-- The data sources that hold selected nodes of every table, in the order of the nodes of the
first table. -/
def sharedDataSources : List Selection → List String
  | [] => []
  | first :: rest =>
      (distinctly (first.2.map (·.dataSource))).filter fun ds => (first :: rest).all (holds ds)

/-- All ways to choose one selected node on a data source for each table. -/
def choices (dataSource : String) : List Selection → List (List Mapping)
  | [] => [[]]
  | (table, nodes) :: rest =>
      (nodes.filter (·.dataSource == dataSource)).flatMap fun node =>
        (choices dataSource rest).map fun mappings => ⟨table.name, node.table⟩ :: mappings

/-- The units of some selections. -/
def unitsOf (selections : List Selection) : List RouteUnit :=
  (sharedDataSources selections).flatMap fun ds =>
    (choices ds selections).map fun tables => { dataSource := .identity ds, tables }

/-- The units of a statement, or `none` when it has no sharded table. -/
def route (rule : ShardingRule) (statement : Statement) :
    Except Fault (Option (List RouteUnit)) := do
  let selections ← rule.selections statement
  if selections.isEmpty then return none
  else
    let units := unitsOf selections
    if units.isEmpty then
      .error (.routing (.noSharedDataSource (selections.map (·.1.name))))
    else return some units

end ShardingRule

end ShardedSql
