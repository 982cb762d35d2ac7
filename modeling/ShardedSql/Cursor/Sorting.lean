import ShardedSql.Cell.Order
import ShardedSql.Statement

/-!
# Order of rows

Rows compare by sort criteria, one after the other.  Nulls are placed by the criterion, whatever
its direction; other cells compare under a collation.
-/

namespace ShardedSql

/-- Order of a null before a cell that is not null. -/
def NullPlace.order : NullPlace → Ordering
  | .first => .lt
  | .last => .gt

/-- The order in a direction. -/
def Direction.orient : Direction → Ordering → Ordering
  | .ascending, o => o
  | .descending, o => o.swap

/-- Order of two cells under a criterion. -/
def OrderItem.order (item : OrderItem) (collation : Collation) (a b : Cell) :
    Except Fault Ordering :=
  match a.isNull, b.isNull with
  | true, true => .ok .eq
  | true, false => .ok item.nulls.order
  | false, true => .ok item.nulls.order.swap
  | false, false => (Cell.order collation a b).map item.direction.orient

/-- Order of two rows, given by functions that read their cells.  Cells are read only as far as
the order is still open. -/
def orderRows (collation : Collation) (left right : Nat → Except Fault Cell) :
    List OrderItem → Except Fault Ordering
  | [] => .ok .eq
  | item :: items => do
      let a ← left item.column
      let b ← right item.column
      match ← item.order collation a b with
      | .eq => orderRows collation left right items
      | o => return o

/-! ## Sorting -/

/-- Puts an element into a list in falling order, after the elements it equals in rising order. -/
def insertFalling {α : Type} (order : α → α → Except Fault Ordering) (x : α) :
    List α → Except Fault (List α)
  | [] => .ok [x]
  | y :: ys => do
      match ← order x y with
      | .lt => return y :: (← insertFalling order x ys)
      | _ => return x :: y :: ys

/-- Stable sort in rising order by insertion; the first comparison that fails is the fault. -/
def sortRising {α : Type} (order : α → α → Except Fault Ordering) (xs : List α) :
    Except Fault (List α) :=
  (xs.foldlM (fun sorted x => insertFalling order x sorted) []).map List.reverse

end ShardedSql
