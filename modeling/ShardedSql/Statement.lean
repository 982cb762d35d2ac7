import ShardedSql.Cell
import ShardedSql.Text.Case

/-!
# Statements

A statement as it reaches the router: its text and parameters, the tables and conditions found in
it, and the shape of the result it asks for.
-/

namespace ShardedSql

/-- What a statement does. -/
inductive StatementKind where
  | select
  | insert
  | update
  | delete
  /-- Definition and administration statements. -/
  | other
  deriving DecidableEq, Repr

namespace StatementKind

/-- Reads rows. -/
def isSelect (k : StatementKind) : Bool :=
  k == select

/-- Changes rows. -/
def isWrite : StatementKind → Bool
  | insert | update | delete => true
  | _ => false

/-- Reads or changes rows. -/
def isManipulation (k : StatementKind) : Bool :=
  k.isSelect || k.isWrite

end StatementKind

/-- Sort direction. -/
inductive Direction where
  | ascending
  | descending
  deriving DecidableEq, Repr

/-- Where nulls go in a sort. -/
inductive NullPlace where
  | first
  | last
  deriving DecidableEq, Repr

/-- One sort criterion. -/
structure OrderItem where
  column : Nat
  direction : Direction
  /-- Place of nulls, whatever the direction. -/
  nulls : NullPlace
  deriving DecidableEq, Repr

/-- Nulls lead an ascending sort and end a descending one unless stated otherwise. -/
def Direction.defaultNulls : Direction → NullPlace
  | .ascending => .first
  | .descending => .last

/-- An aggregate function.  An average is computed from a sum and a count in other columns. -/
inductive AggregateKind where
  | count
  | sum
  | min
  | max
  | average (sumColumn countColumn : Nat)
  deriving DecidableEq, Repr

/-- An aggregate and the result column it fills. -/
structure Aggregate where
  column : Nat
  kind : AggregateKind
  deriving DecidableEq, Repr

/-- A page: how many rows to skip and, optionally, how many to keep. -/
structure Page where
  offset : UInt64
  rowCount : Option UInt64
  deriving DecidableEq, Repr

/-- Rows that every shard has to deliver so that the page can be cut from the merged rows: the
skipped ones too, at most `2 ^ 64 - 1`. -/
def Page.pushedDown (p : Page) : Option Nat :=
  p.rowCount.map fun n => Nat.min (n.toNat + p.offset.toNat) (Nat.pow 2 64 - 1)

/-- The shape of a result. -/
structure Shape where
  orderBy : List OrderItem
  groupBy : List Nat
  aggregates : List Aggregate
  distinct : Bool
  page : Option Page
  /-- How many leading columns the caller sees; `none` for all. -/
  visibleColumns : Option Nat
  deriving DecidableEq, Repr

/-- The shape that asks for nothing in particular. -/
def Shape.plain : Shape :=
  { orderBy := [], groupBy := [], aggregates := [], distinct := false, page := none
    visibleColumns := none }

namespace Shape

/-- There are sort criteria. -/
def hasOrder (s : Shape) : Bool := !s.orderBy.isEmpty

/-- There are group columns. -/
def hasGroups (s : Shape) : Bool := !s.groupBy.isEmpty

/-- There are aggregates. -/
def hasAggregates (s : Shape) : Bool := !s.aggregates.isEmpty

end Shape

/-- Where a result column comes from. -/
structure Projection where
  table : Option String
  column : String
  deriving DecidableEq, Repr

/-- A column restricted to one of several values. -/
structure Condition where
  table : String
  column : String
  /-- The values, any of which may match. -/
  values : List Cell
  deriving DecidableEq, Repr

/-- Values made up for a key column that an insert leaves out. -/
structure GeneratedKey where
  column : String
  /-- One value for each inserted row. -/
  values : List Cell
  deriving DecidableEq, Repr

/-- A statement with everything the router and the merger need to know about it. -/
structure Statement where
  sql : String
  parameters : List Cell := []
  kind : StatementKind := .select
  tables : List String := []
  projections : List Projection := []
  conditions : List Condition := []
  shape : Shape := .plain
  comments : List String := []
  /-- Asks for redirection to a compute instance. -/
  useTraffic : Bool := false
  /-- Asks for the write data source even when reading. -/
  writeOnly : Bool := false
  generatedKey : Option GeneratedKey := none
  deriving DecidableEq, Repr

namespace Statement

/-- The statement on the given tables, whose names are lowered. -/
def withTables (s : Statement) (tables : List String) : Statement :=
  { s with tables := tables.map Text.lower }

/-- The values a column is restricted to by the first condition on it. -/
def conditionValues (s : Statement) (table column : String) : Option (List Cell) :=
  (s.conditions.find? fun c => Text.alike c.table table && Text.alike c.column column).map
    (·.values)

/-- Whether the statement mentions a table. -/
def mentions (s : Statement) (table : String) : Bool :=
  s.tables.any (Text.alike · table)

end Statement

end ShardedSql
