import ShardedSql.Fault
import ShardedSql.Text.Case

/-!
# Cursors

A cursor stands before the first row, on a row, or after the last one.  Moving it may fail; a
failed move leaves the outcome of later moves to the cursor.  Everything that delivers rows,
single results as well as merged ones, is a cursor.
-/

namespace ShardedSql

/-- A source of rows that is read one row at a time. -/
class Cursor (σ : Type) where
  next : σ → Except Fault Bool × σ
  cell : σ → Nat → Except Fault Cell
  /-- No more rows than this are still to come. -/
  bound : σ → Nat

namespace Cursor

variable {σ α : Type} [Cursor σ]

/-- The first `width` cells of the current row. -/
def readRow (width : Nat) (s : σ) : Except Fault Row :=
  (List.range width).mapM (cell s)

/-- Folds a function over the rows still to come, at most `fuel` of them.  The fold ends at the
first fault, whether of the cursor or of the function. -/
def foldUpTo (width : Nat) (f : α → Row → Except Fault α) :
    (fuel : Nat) → α → σ → Except Fault α × σ
  | 0, a, s => (.ok a, s)
  | fuel + 1, a, s =>
      match next s with
      | (.error e, s) => (.error e, s)
      | (.ok false, s) => (.ok a, s)
      | (.ok true, s) =>
          match readRow width s >>= f a with
          | .error e => (.error e, s)
          | .ok a => foldUpTo width f fuel a s

/-- Folds a function over all rows still to come. -/
def foldRows (width : Nat) (f : α → Row → Except Fault α) (a : α) (s : σ) :
    Except Fault α × σ :=
  foldUpTo width f (bound s + 1) a s

/-- All rows still to come. -/
def rows (width : Nat) (s : σ) : Except Fault (List Row) × σ :=
  foldRows width (fun rows row => .ok (rows ++ [row])) [] s

/-- Moves forward by `n` rows; the answer says whether there are that many. -/
def skip : (n : Nat) → σ → Except Fault Bool × σ
  | 0, s => (.ok true, s)
  | n + 1, s =>
      match next s with
      | (.ok true, s) => skip n s
      | stopped => stopped

end Cursor

/-! ## Rows in memory -/

/-- Where a cursor stands. -/
inductive Position where
  | beforeFirst
  | onRow (row : Row)
  | afterLast
  deriving DecidableEq, Repr

/-- A cell of the row a cursor stands on. -/
def Position.cell : Position → Nat → Except Fault Cell
  | beforeFirst, _ => .error (.position .notStarted)
  | afterLast, _ => .error (.position .exhausted)
  | onRow row, column =>
      match row[column]? with
      | some c => .ok c
      | none => .error (.columnRange column row.length)

/-- A cursor over rows in memory. -/
structure RowCursor where
  position : Position
  rest : List Row
  deriving DecidableEq, Repr

namespace RowCursor

/-- A cursor before the first of the given rows. -/
def ofRows (rows : List Row) : RowCursor := ⟨.beforeFirst, rows⟩

/-- Moves to the next row. -/
def advance (c : RowCursor) : Bool × RowCursor :=
  match c.rest with
  | [] => (false, ⟨.afterLast, []⟩)
  | row :: rest => (true, ⟨.onRow row, rest⟩)

instance : Cursor RowCursor where
  next c := (.ok c.advance.1, c.advance.2)
  cell c := c.position.cell
  bound c := c.rest.length

end RowCursor

/-! ## Results of targets -/

/-- A result column: its name and the label it is shown under. -/
structure Column where
  name : String
  label : String
  deriving DecidableEq, Repr

/-- The position of the column of a label, whose letters may differ in case. -/
def columnIndex? (columns : List Column) (label : String) : Option Nat :=
  columns.findIdx? fun c => Text.alike c.label label

/-- The result a target delivers. -/
structure ResultCursor where
  columns : List Column
  rows : RowCursor
  /-- What happens at the coming moves: a fault leaves the cursor where it is, and after the last
  entry every move succeeds. -/
  interruptions : List (Option Fault) := []
  deriving Repr

namespace ResultCursor

/-- A result that never fails. -/
def ofRows (columns : List Column) (rows : List Row) : ResultCursor :=
  { columns, rows := .ofRows rows }

/-- Moves to the next row, unless the move is interrupted. -/
def next (c : ResultCursor) : Except Fault Bool × ResultCursor :=
  match c.interruptions with
  | some fault :: later => (.error fault, { c with interruptions := later })
  | none :: later =>
      (.ok c.rows.advance.1, { c with rows := c.rows.advance.2, interruptions := later })
  | [] => (.ok c.rows.advance.1, { c with rows := c.rows.advance.2 })

instance : Cursor ResultCursor where
  next := next
  cell c := c.rows.position.cell
  bound c := c.rows.rest.length

/-- The number of columns. -/
def width (c : ResultCursor) : Nat := c.columns.length

/-- Loads the rows still to come into a result of its own. -/
def load (c : ResultCursor) : Except Fault ResultCursor :=
  (Cursor.rows c.width c).1.map (ofRows c.columns)

end ResultCursor

end ShardedSql
