import ShardedSql.Cell

/-!
# Execution units

An execution unit is one statement for one data source.
-/

namespace ShardedSql

/-- A text of SQL with the values of its parameters. -/
structure BoundSql where
  sql : String
  parameters : List Cell
  deriving DecidableEq, Repr

/-- Whether two bound texts are the same; the parameters are compared as values. -/
def BoundSql.same (a b : BoundSql) : Bool :=
  a.sql == b.sql && Row.same a.parameters b.parameters

/-- One statement for one data source. -/
structure ExecutionUnit where
  dataSource : String
  statement : BoundSql
  deriving DecidableEq, Repr

/-- Whether two units are the same. -/
def ExecutionUnit.same (a b : ExecutionUnit) : Bool :=
  a.dataSource == b.dataSource && a.statement.same b.statement

/-- Adds a unit at the end unless the same one is there. -/
def addUnit (units : List ExecutionUnit) (u : ExecutionUnit) : List ExecutionUnit :=
  if units.any u.same then units else units ++ [u]

end ShardedSql
