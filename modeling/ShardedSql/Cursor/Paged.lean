import ShardedSql.Cursor
import ShardedSql.Statement

/-!
# Pages

A page of the rows of another cursor: some rows are skipped at the first move, and delivery ends
after a number of rows.
-/

namespace ShardedSql

/-- A page of a cursor. -/
structure Paged (σ : Type) where
  inner : σ
  page : Page
  /-- Whether skipping has been tried. -/
  skipped : Bool := false
  returned : Nat := 0
  exhausted : Bool := false
  deriving Repr

namespace Paged

variable {σ : Type} [Cursor σ]

/-- Ends the page. -/
def finish (p : Paged σ) : Except Fault Bool × Paged σ :=
  (.ok false, { p with exhausted := true })

/-- Whether the page is full. -/
def isFull (p : Paged σ) : Bool :=
  match p.page.rowCount with
  | some n => n.toNat ≤ p.returned
  | none => false

/-- Moves to the next row of the page, the skipped rows being behind. -/
def deliver (p : Paged σ) : Except Fault Bool × Paged σ :=
  if p.isFull then p.finish
  else
    match Cursor.next p.inner with
    | (.error e, inner) => (.error e, { p with inner })
    | (.ok false, inner) => { p with inner }.finish
    | (.ok true, inner) => (.ok true, { p with inner, returned := p.returned + 1 })

/-- Moves to the next row of the page.  Skipping is tried once: a fault during it is not made up
for at later moves. -/
def next (p : Paged σ) : Except Fault Bool × Paged σ :=
  if p.exhausted then (.ok false, p)
  else if p.skipped then p.deliver
  else
    match Cursor.skip p.page.offset.toNat p.inner with
    | (.error e, inner) => (.error e, { p with inner, skipped := true })
    | (.ok false, inner) => { p with inner, skipped := true }.finish
    | (.ok true, inner) => { p with inner, skipped := true }.deliver

/-- A cell of the current row. -/
def cell (p : Paged σ) (column : Nat) : Except Fault Cell :=
  if p.exhausted then .error (.position .exhausted) else Cursor.cell p.inner column

instance : Cursor (Paged σ) where
  next := next
  cell := cell
  bound p := Cursor.bound p.inner

end Paged

end ShardedSql
