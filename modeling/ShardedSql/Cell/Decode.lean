import ShardedSql.Cell
import ShardedSql.Json

/-!
# Cells from JSON

A JSON value names the first kind of cell that can hold it: null, boolean, signed 64-bit integer,
floating-point number, text, or, for an array of numbers below 256, a byte string.
-/

namespace ShardedSql.Cell

/-- A byte from an item of an array. -/
def byteOfJson? : Json → Option UInt8
  | .int n => if 0 ≤ n && n < 256 then some (UInt8.ofNat n.toNat) else none
  | _ => none

/-- The cell a JSON value stands for. -/
def ofJson? : Json → Option Cell
  | .null => some null
  | .bool b => some (bool b)
  | .int n =>
      if n < Nat.pow 2 63 then some (int (Int64.ofInt n)) else some (float (Binary64.ofInt n))
  | .float x => some (float x)
  | .string s => some (text s)
  | .array items => (items.mapM byteOfJson?).map bytes
  | .object _ => none

/-- The cell a JSON text stands for. -/
def decode? (json : String) : Option Cell :=
  (Json.parse? json).bind ofJson?

end ShardedSql.Cell
