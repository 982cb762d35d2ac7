import ShardedSql.Cell.Order
import ShardedSql.Cursor
import ShardedSql.Cursor.Sorting
import ShardedSql.Number.Endian

/-!
# Grouping

Rows of several results that agree on the group columns are merged into one row, in which every
aggregate is computed from the partial values.  Groups come in the order in which they first
appear, unless the statement asks for another order.
-/

namespace ShardedSql

/-!
## Keys

Rows are grouped by a byte string made from their key cells.  Each cell is written with a leading
tag; texts and byte strings carry their length, so that the keys of several cells can be put one
after the other.  A floating-point number that is an integer is written like that integer.
-/

namespace Cell

/-- Bytes preceded by their count in four bytes. -/
def counted (bs : List UInt8) : List UInt8 :=
  littleEndian 4 bs.length ++ bs

/-- Key bytes of an integer. -/
def integerKey (n : Int64) : List UInt8 :=
  2 :: littleEndian 8 n.toUInt64.toNat

/-- Key bytes of a cell. -/
def groupKey (collation : Collation) : Cell → List UInt8
  | null => [0]
  | bool b => [1, b.toUInt8]
  | int n => integerKey n
  | float x =>
      if x.isIntegral && x.units < Nat.pow 2 63 * Nat.pow 2 Binary64.unitScale then
        integerKey (Int64.ofInt x.truncated)
      else 5 :: littleEndian 8 x.bits.toNat
  | text s => 3 :: counted (Text.bytes (collation.fold s))
  | bytes bs => 4 :: counted bs

end Cell

/-! ## Aggregates -/

/-- A number added to a sum; null adds nothing. -/
def addPartial (total addend : Cell) : Except Fault Cell :=
  match total, addend with
  | .null, c => .ok c
  | c, .null => .ok c
  | .int a, .int b =>
      let sum := a.toInt + b.toInt
      if -Nat.pow 2 63 ≤ sum && sum < Nat.pow 2 63 then .ok (.int (Int64.ofInt sum))
      else .error (.merge (.overflow b.toInt a.toInt))
  | a, b =>
      match a.number?, b.number? with
      | some x, some y => .ok (.float (x.add y))
      | _, _ => .error (.merge (.notAddable b.kind a.kind))

/-- The better of two partial values: the new one when it compares as wanted; null is never
better. -/
def pickPartial (wanted : Ordering) (collation : Collation) (current candidate : Cell) :
    Except Fault Cell :=
  if current.isNull then .ok candidate
  else if candidate.isNull then .ok current
  else
    (Cell.order collation candidate current).map fun o => if o == wanted then candidate else current

/-- The average of a sum over a count; null when either is null or nothing was counted. -/
def average (sum count : Cell) : Except Fault Cell :=
  if count.isNull then .ok .null
  else
    match count.number? with
    | none => .error (.merge (.averageCount count.kind))
    | some n =>
        if n.isZero || sum.isNull then .ok .null
        else
          match sum.number? with
          | some s => .ok (.float (s.div n))
          | none => .error (.merge (.averageSum sum.kind))

/-- The cell of a row at a position; null beyond its end. -/
def Row.cell (row : Row) (column : Nat) : Cell :=
  row.getD column .null

/-- Replaces the cell of a column by what a function makes of it and the same cell of another
row. -/
def Row.combine (f : Cell → Cell → Except Fault Cell) (column : Nat) (total addend : Row) :
    Except Fault Row :=
  (f (total.cell column) (addend.cell column)).map fun c => total.set column c

namespace Aggregate

/-- Adds a row to the total of its group. -/
def accumulate (a : Aggregate) (collation : Collation) (total row : Row) : Except Fault Row :=
  match a.kind with
  | .count | .sum => total.combine addPartial a.column row
  | .min => total.combine (pickPartial .lt collation) a.column row
  | .max => total.combine (pickPartial .gt collation) a.column row
  | .average sumColumn countColumn => do
      let total ← total.combine addPartial sumColumn row
      total.combine addPartial countColumn row

/-- Computes what can only be computed from the totals. -/
def finish (a : Aggregate) (total : Row) : Except Fault Row :=
  match a.kind with
  | .average sumColumn countColumn =>
      (average (total.cell sumColumn) (total.cell countColumn)).map fun c => total.set a.column c
  | _ => .ok total

/-- The columns an aggregate reads or fills. -/
def columns (a : Aggregate) : List Nat :=
  match a.kind with
  | .average sumColumn countColumn => [a.column, sumColumn, countColumn]
  | _ => [a.column]

end Aggregate

/-! ## Groups -/

/-- A group: its key and the total of its rows. -/
structure Group where
  key : List UInt8
  total : Row
  deriving DecidableEq, Repr

/-- What rows are grouped by, and how they are merged. -/
structure Grouping where
  columns : List Nat
  aggregates : List Aggregate
  collation : Collation
  deriving DecidableEq, Repr

namespace Grouping

/-- The key of a row. -/
def key (g : Grouping) (row : Row) : List UInt8 :=
  g.columns.flatMap fun c => (row.cell c).groupKey g.collation

/-- Adds a row to the total of its group. -/
def accumulate (g : Grouping) (total row : Row) : Except Fault Row :=
  g.aggregates.foldlM (fun total a => a.accumulate g.collation total row) total

/-- Adds a row with the given key to its group; a row without a group starts one at the end. -/
def addKeyed (g : Grouping) (key : List UInt8) (row : Row) :
    List Group → Except Fault (List Group)
  | [] => .ok [⟨key, row⟩]
  | group :: groups =>
      if group.key == key then
        (g.accumulate group.total row).map fun total => { group with total } :: groups
      else (addKeyed g key row groups).map (group :: ·)

/-- Adds a row to its group. -/
def addRow (g : Grouping) (groups : List Group) (row : Row) : Except Fault (List Group) :=
  g.addKeyed (g.key row) row groups

/-- The groups of all rows of some results. -/
def collect (g : Grouping) (width : Nat) (results : List ResultCursor) :
    Except Fault (List Group) :=
  results.foldlM (fun groups result => (Cursor.foldRows width g.addRow groups result).1) []

/-- The merged row of a group. -/
def finish (g : Grouping) (group : Group) : Except Fault Row :=
  g.aggregates.foldlM (fun total a => a.finish total) group.total

end Grouping

namespace Shape

/-- The columns whose cells tell groups apart: the group columns, or all visible ones when equal
rows are dropped, or none. -/
def groupColumns (s : Shape) (width : Nat) : List Nat :=
  if s.hasGroups then s.groupBy
  else if s.distinct then List.range (min (s.visibleColumns.getD width) width)
  else []

/-- All columns that grouping refers to. -/
def columnsUsed (s : Shape) (width : Nat) : List Nat :=
  s.groupColumns width ++ s.orderBy.map (·.column) ++ s.aggregates.flatMap (·.columns)

/-- How rows of a width are grouped. -/
def grouping (s : Shape) (width : Nat) (collation : Collation) : Grouping :=
  { columns := s.groupColumns width, aggregates := s.aggregates, collation }

end Shape

/-- Order of two rows in memory. -/
def Row.order (collation : Collation) (items : List OrderItem) (a b : Row) :
    Except Fault Ordering :=
  orderRows collation (fun c => .ok (a.cell c)) (fun c => .ok (b.cell c)) items

/-- The merged rows of all groups of some results, sorted if the shape asks for it. -/
def groupRows (results : List ResultCursor) (shape : Shape) (width : Nat)
    (collation : Collation) : Except Fault (List Row) := do
  match (shape.columnsUsed width).find? (width ≤ ·) with
  | some column => .error (.columnRange column width)
  | none =>
      let grouping := shape.grouping width collation
      let groups ← grouping.collect width results
      let rows ← groups.mapM grouping.finish
      if shape.hasOrder then sortRising (Row.order collation shape.orderBy) rows else return rows

end ShardedSql
