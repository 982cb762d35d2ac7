import ShardedSql.Cursor
import ShardedSql.Cursor.Sorting

/-!
# Results merged by order

Every result is sorted by the same criteria; the merged rows are sorted too.  Each input stands on
its least row that has not been delivered.  The least of these rows comes next; among equal ones
that of the first input.
-/

namespace ShardedSql

/-- One input of an ordered merge. -/
structure OrderedInput where
  result : ResultCursor
  active : Bool
  deriving Repr

/-- Moves an input to its next row.  When the move fails the input counts as active as before. -/
def OrderedInput.advance (i : OrderedInput) : Except Fault Unit × OrderedInput :=
  match i.result.next with
  | (.ok active, result) => (.ok (), ⟨result, active⟩)
  | (.error e, result) => (.error e, { i with result })

/-- An ordered merge. -/
structure OrderedCursor where
  items : List OrderItem
  collation : Collation
  inputs : List OrderedInput
  /-- The input whose row is the current one. -/
  current : Option Nat
  started : Bool
  deriving Repr

namespace OrderedCursor

/-- Moves a result to its first row. -/
def startInput (result : ResultCursor) : Except Fault OrderedInput :=
  match result.next with
  | (.ok active, result) => .ok ⟨result, active⟩
  | (.error e, _) => .error e

/-- A merge before its first row.  Every input is moved to its first row, which may fail. -/
def ofResults (results : List ResultCursor) (items : List OrderItem) (collation : Collation) :
    Except Fault OrderedCursor := do
  let inputs ← results.mapM startInput
  return { items, collation, inputs, current := none, started := false }

/-- Order of the current rows of two inputs. -/
def compareInputs (c : OrderedCursor) (a b : OrderedInput) : Except Fault Ordering :=
  orderRows c.collation (Cursor.cell a.result) (Cursor.cell b.result) c.items

/-- The least of the inputs from left to right, given the least one so far. -/
def leastFrom (c : OrderedCursor) :
    Option (OrderedInput × Nat) → List (OrderedInput × Nat) →
      Except Fault (Option (OrderedInput × Nat))
  | best, [] => .ok best
  | best, (input, index) :: rest =>
      if !input.active then leastFrom c best rest
      else
        match best with
        | none => leastFrom c (some (input, index)) rest
        | some (least, position) => do
            match ← c.compareInputs input least with
            | .lt => leastFrom c (some (input, index)) rest
            | _ => leastFrom c (some (least, position)) rest

/-- The active input with the least row. -/
def least? (c : OrderedCursor) : Except Fault (Option Nat) :=
  (c.leastFrom none c.inputs.zipIdx).map fun best => best.map (·.2)

/-- Moves the input at a position. -/
def advanceInput (index : Nat) : List OrderedInput → Except Fault Unit × List OrderedInput
  | [] => (.ok (), [])
  | input :: inputs =>
      match index with
      | 0 => (input.advance.1, input.advance.2 :: inputs)
      | index + 1 =>
          let (moved, inputs) := advanceInput index inputs
          (moved, input :: inputs)

/-- Makes the least row the current one. -/
def select (c : OrderedCursor) : Except Fault Bool × OrderedCursor :=
  let c := { c with started := true }
  match c.least? with
  | .ok current => (.ok current.isSome, { c with current })
  | .error e => (.error e, c)

/-- Moves to the next row: the input of the current row moves on, then the least row is taken. -/
def next (c : OrderedCursor) : Except Fault Bool × OrderedCursor :=
  if c.started then
    match c.current with
    | none => (.ok false, c)
    | some index =>
        match advanceInput index c.inputs with
        | (.ok (), inputs) => select { c with inputs }
        | (.error e, inputs) => (.error e, { c with inputs })
  else select c

/-- A cell of the current row. -/
def cell (c : OrderedCursor) (column : Nat) : Except Fault Cell :=
  match c.current.bind (c.inputs[·]?) with
  | some input => Cursor.cell input.result column
  | none => .error (.position (if c.started then .exhausted else .notStarted))

instance : Cursor OrderedCursor where
  next := next
  cell := cell
  bound c := (c.inputs.map fun i => Cursor.bound i.result + 1).foldr (· + ·) 0

end OrderedCursor

end ShardedSql
