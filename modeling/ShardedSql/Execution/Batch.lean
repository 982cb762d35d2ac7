import ShardedSql.Execution.Runner

/-!
# Batches

A batch collects the units of several statements.  Units with one data source and one text are run
together, once for each set of parameters, and every entry of the batch gets an update count.
-/

namespace ShardedSql

/-- The update count that is reported for several units: their sum, or the count of the first. -/
def reportedCount (accumulates : Bool) (counts : List UInt64) : UInt64 :=
  if accumulates then counts.foldr (· + ·) 0 else counts.head?.getD 0

/-- A text for a data source with the parameters of every entry that uses it. -/
structure BatchUnit where
  dataSource : String
  sql : String
  /-- The sets of parameters in the order they were added, each with the number of its entry. -/
  parameterSets : List (Nat × List Cell)
  deriving DecidableEq, Repr

/-- The unit for one set of parameters. -/
def BatchUnit.bound (u : BatchUnit) (parameters : List Cell) : ExecutionUnit :=
  { dataSource := u.dataSource, statement := { sql := u.sql, parameters } }

/-- Collected units. -/
structure Batch where
  units : List BatchUnit
  size : Nat
  deriving DecidableEq, Repr

namespace Batch

/-- The batch without entries. -/
def empty : Batch := ⟨[], 0⟩

/-- Whether there is no entry. -/
def isEmpty (batch : Batch) : Bool := batch.size == 0

/-- Adds a set of parameters to the unit of its data source and text. -/
def insert (entry : Nat) (u : ExecutionUnit) : List BatchUnit → List BatchUnit
  | [] => [{ dataSource := u.dataSource, sql := u.statement.sql
             parameterSets := [(entry, u.statement.parameters)] }]
  | v :: others =>
      if v.dataSource = u.dataSource ∧ v.sql = u.statement.sql then
        { v with parameterSets := v.parameterSets ++ [(entry, u.statement.parameters)] } :: others
      else v :: insert entry u others

/-- Adds an entry, whose number is the size before. -/
def add (batch : Batch) (units : List ExecutionUnit) : Batch :=
  { units := units.foldl (fun us u => insert batch.size u us) batch.units
    size := batch.size + 1 }

/-- Runs a unit once for each set of parameters; yields the update count of each. -/
def updating (b : Backend) : UnitWork BatchUnit (List (Nat × UInt64)) := fun lane u =>
  u.parameterSets.mapM fun (entry, parameters) => do
    let result ← Action.ask b.update (lane.call .update (u.bound parameters))
    return (entry, result.count)

/-- The update count of each of `n` entries. -/
def entryCounts (accumulates : Bool) (n : Nat) (counts : List (Nat × UInt64)) : List UInt64 :=
  (List.range n).map fun entry =>
    reportedCount accumulates ((counts.filter (·.1 == entry)).map (·.2))

/-- Runs a batch and yields the update count of each entry. -/
def execute (batch : Batch) (limits : LaneLimits) (runner : Runner) (b : Backend) (report : Report)
    (accumulates : Bool) : Action (List UInt64) := do
  if batch.isEmpty then return []
  let lanes ← limits.openFor b (·.dataSource) batch.units
  let counts ← runner.run b report (updating b) lanes
  return entryCounts accumulates batch.size counts.flatten

end Batch

end ShardedSql
