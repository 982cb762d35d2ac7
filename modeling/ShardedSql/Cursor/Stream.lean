import ShardedSql.Cursor

/-!
# Results one after the other

The rows of the first result, then those of the second, and so on.
-/

namespace ShardedSql

/-- How far a stream has come. -/
inductive StreamState where
  | beforeFirst
  | onRow
  | exhausted
  deriving DecidableEq, Repr

/-- Results read one after the other. -/
structure StreamCursor where
  /-- The results that are not used up, the current one first. -/
  results : List ResultCursor
  state : StreamState
  deriving Repr

namespace StreamCursor

/-- A stream before its first row. -/
def ofResults (results : List ResultCursor) : StreamCursor := ⟨results, .beforeFirst⟩

/-- Moves to the next row of some results, dropping those that are used up. -/
def advance (state : StreamState) : List ResultCursor → Except Fault Bool × StreamCursor
  | [] => (.ok false, ⟨[], .exhausted⟩)
  | result :: results =>
      match result.next with
      | (.error e, result) => (.error e, ⟨result :: results, state⟩)
      | (.ok true, result) => (.ok true, ⟨result :: results, .onRow⟩)
      | (.ok false, _) => advance state results

/-- A cell of the current row. -/
def cell (c : StreamCursor) (column : Nat) : Except Fault Cell :=
  match c.state, c.results with
  | .onRow, result :: _ => Cursor.cell result column
  | .beforeFirst, _ => .error (.position .notStarted)
  | _, _ => .error (.position .exhausted)

instance : Cursor StreamCursor where
  next c := advance c.state c.results
  cell := cell
  bound c := (c.results.map Cursor.bound).foldr (· + ·) 0

end StreamCursor

end ShardedSql
