import ShardedSql.Number.Shortest

/-!
# Cells

A cell is one value of a row, of a parameter list or of a condition.
-/

namespace ShardedSql

/-- A single value. -/
inductive Cell where
  | null
  | bool (b : Bool)
  | int (n : Int64)
  | float (x : Binary64)
  | text (s : String)
  | bytes (bs : List UInt8)
  deriving DecidableEq, Repr

/-- The kind of a cell. -/
inductive CellKind where
  | null
  | bool
  | int
  | float
  | text
  | bytes
  deriving DecidableEq, Repr

/-- Name of a kind in messages. -/
def CellKind.name : CellKind → String
  | .null => "null"
  | .bool => "bool"
  | .int => "int"
  | .float => "float"
  | .text => "text"
  | .bytes => "bytes"

/-- How texts compare. -/
inductive Collation where
  /-- By code points. -/
  | binary
  /-- By code points of the lower-case forms. -/
  | caseInsensitive
  deriving DecidableEq, Repr

/-- A row is its cells from left to right. -/
abbrev Row := List Cell

namespace Cell

/-- The kind of a cell. -/
def kind : Cell → CellKind
  | null => .null
  | bool _ => .bool
  | int _ => .int
  | float _ => .float
  | text _ => .text
  | bytes _ => .bytes

/-- Whether a cell is null. -/
def isNull : Cell → Bool
  | null => true
  | _ => false

/-- The integer of an integer cell. -/
def int? : Cell → Option Int64
  | int n => some n
  | _ => none

/-- The number of a numeric cell, an integer being rounded to the nearest floating-point number. -/
def number? : Cell → Option Binary64
  | int n => some (Binary64.ofInt n.toInt)
  | float x => some x
  | _ => none

/-- The text of a text cell. -/
def text? : Cell → Option String
  | text s => some s
  | _ => none

/-- The text a cell is shown as. -/
def display : Cell → String
  | null => "NULL"
  | bool b => if b then "true" else "false"
  | int n => toString n.toInt
  | float x => x.text
  | text s => s
  | bytes bs => "<" ++ toString bs.length ++ " bytes>"

/-- Whether two cells are the same value of the same kind.  Floating-point numbers are compared
as numbers, so a NaN differs from itself. -/
def same : Cell → Cell → Bool
  | null, null => true
  | bool a, bool b => a == b
  | int a, int b => a == b
  | float a, float b => a.same b
  | text a, text b => a == b
  | bytes a, bytes b => a == b
  | _, _ => false

end Cell

/-- Whether two rows hold the same cells. -/
def Row.same : Row → Row → Bool
  | [], [] => true
  | a :: as, b :: bs => a.same b && Row.same as bs
  | _, _ => false

end ShardedSql
