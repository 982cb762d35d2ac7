import ShardedSql.Cursor
import ShardedSql.Cursor.Ordered
import ShardedSql.Cursor.Paged
import ShardedSql.Cursor.Stream
import ShardedSql.Grouping
import ShardedSql.MaskRule

/-!
# Merging results

The results of all targets of a statement become one.  A single result is passed on as it is;
several ones are grouped, merged by order or put one after the other, as the shape of the statement
asks, and the page is cut from the merged rows.
-/

namespace ShardedSql

/-! ## Masked rows -/

/-- A cursor with masks on its columns. -/
structure Masked (σ : Type) where
  inner : σ
  masks : ColumnMasks
  deriving Repr

instance {σ : Type} [Cursor σ] : Cursor (Masked σ) where
  next m := ((Cursor.next m.inner).1, { m with inner := (Cursor.next m.inner).2 })
  cell m column := (Cursor.cell m.inner column).map (m.masks.apply column)
  bound m := Cursor.bound m.inner

/-! ## Merged rows -/

/-- Merged rows before a page is cut from them. -/
inductive CombinedCursor where
  | rows (cursor : RowCursor)
  | single (cursor : ResultCursor)
  | stream (cursor : StreamCursor)
  | ordered (cursor : OrderedCursor)
  deriving Repr

/-- A move seen from outside a wrapper. -/
def wrapMove {σ τ : Type} (wrap : σ → τ) (moved : Except Fault Bool × σ) :
    Except Fault Bool × τ :=
  (moved.1, wrap moved.2)

namespace CombinedCursor

instance : Cursor CombinedCursor where
  next
    | rows c => wrapMove rows (Cursor.next c)
    | single c => wrapMove single (Cursor.next c)
    | stream c => wrapMove stream (Cursor.next c)
    | ordered c => wrapMove ordered (Cursor.next c)
  cell
    | rows c => Cursor.cell c
    | single c => Cursor.cell c
    | stream c => Cursor.cell c
    | ordered c => Cursor.cell c
  bound
    | rows c => Cursor.bound c
    | single c => Cursor.bound c
    | stream c => Cursor.bound c
    | ordered c => Cursor.bound c

/-- Combines results as a shape asks, leaving its page aside. -/
def ofResults (results : List ResultCursor) (shape : Shape) (width : Nat)
    (collation : Collation) : Except Fault CombinedCursor :=
  if shape.hasGroups || shape.hasAggregates || shape.distinct then
    (groupRows results shape width collation).map fun rs => rows (.ofRows rs)
  else if shape.hasOrder then
    (OrderedCursor.ofResults results shape.orderBy collation).map ordered
  else .ok (stream (.ofResults results))

end CombinedCursor

/-- Merged rows. -/
inductive MergedCursor where
  | whole (cursor : CombinedCursor)
  | page (cursor : Paged CombinedCursor)
  deriving Repr

namespace MergedCursor

instance : Cursor MergedCursor where
  next
    | whole c => wrapMove whole (Cursor.next c)
    | page c => wrapMove page (Cursor.next c)
  cell
    | whole c => Cursor.cell c
    | page c => Cursor.cell c
  bound
    | whole c => Cursor.bound c
    | page c => Cursor.bound c

/-- Merges results of one width.  A single result is not cut: its target has done so. -/
def ofResults (results : List ResultCursor) (shape : Shape) (width : Nat)
    (collation : Collation) : Except Fault MergedCursor :=
  match results with
  | [] => .ok (whole (.rows (.ofRows [])))
  | [result] => .ok (whole (.single result))
  | results =>
      (CombinedCursor.ofResults results shape width collation).map fun c =>
        match shape.page with
        | some p => page { inner := c, page := p }
        | none => whole c

end MergedCursor

/-- The result of a statement as its sender sees it. -/
structure MergedResult where
  columns : List Column
  cursor : Masked MergedCursor
  deriving Repr

namespace MergedResult

/-- The number of visible columns. -/
def width (r : MergedResult) : Nat := r.columns.length

/-- A cell of the current row; columns that are not visible cannot be read. -/
def cell (r : MergedResult) (column : Nat) : Except Fault Cell :=
  if r.width ≤ column then .error (.columnRange column r.width)
  else Cursor.cell r.cursor column

instance : Cursor MergedResult where
  next r := ((Cursor.next r.cursor).1, { r with cursor := (Cursor.next r.cursor).2 })
  cell := cell
  bound r := Cursor.bound r.cursor

/-- All rows still to come. -/
def rows (r : MergedResult) : Except Fault (List Row) × MergedResult :=
  Cursor.rows r.width r

end MergedResult

/-- How results are merged. -/
structure Merger where
  collation : Collation
  masks : MaskRule := .none
  deriving DecidableEq, Repr

/-- Columns of a list of results: those of the first one. -/
def commonColumns (results : List ResultCursor) : List Column :=
  ((results.head?).map (·.columns)).getD []

/-- Merges the results of a statement. -/
def Merger.merge (m : Merger) (results : List ResultCursor) (statement : Statement) :
    Except Fault MergedResult := do
  let columns := commonColumns results
  let width := columns.length
  match results.find? (·.width != width) with
  | some other => .error (.merge (.widthMismatch width other.width))
  | none =>
      let merged ← MergedCursor.ofResults results statement.shape width m.collation
      let visible := min (statement.shape.visibleColumns.getD width) width
      return { columns := columns.take visible
               cursor := { inner := merged, masks := m.masks.columnMasks statement } }

end ShardedSql
