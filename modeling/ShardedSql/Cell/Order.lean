import ShardedSql.Fault
import ShardedSql.Text.Case

/-!
# Order of cells

Null comes first; booleans, integers, texts and byte strings compare within their kind; integers
and floating-point numbers compare as floating-point numbers.  Every other pair has no order.
-/

namespace ShardedSql

/-- Order of two byte strings, byte by byte. -/
def orderBytes : List UInt8 → List UInt8 → Ordering
  | [], [] => .eq
  | [], _ :: _ => .lt
  | _ :: _, [] => .gt
  | a :: as, b :: bs => (compare a.toNat b.toNat).then (orderBytes as bs)

/-- The form of a text that a collation compares. -/
def Collation.fold : Collation → String → String
  | .binary, s => s
  | .caseInsensitive, s => Text.lower s

namespace Cell

/-- Order of two floating-point numbers; a NaN has none. -/
def orderNumbers (x y : Binary64) : Except Fault Ordering :=
  match x.compare? y with
  | some o => .ok o
  | none => .error (.merge (.unordered x.text y.text))

/-- Order of two cells under a collation. -/
def order (collation : Collation) : Cell → Cell → Except Fault Ordering
  | null, null => .ok .eq
  | null, _ => .ok .lt
  | _, null => .ok .gt
  | bool a, bool b => .ok (compare a.toNat b.toNat)
  | int a, int b => .ok (compare a.toInt b.toInt)
  | float x, float y => orderNumbers x y
  | int a, float y => orderNumbers (Binary64.ofInt a.toInt) y
  | float x, int b => orderNumbers x (Binary64.ofInt b.toInt)
  | text a, text b => .ok (Text.order (collation.fold a) (collation.fold b))
  | bytes a, bytes b => .ok (orderBytes a b)
  | a, b => .error (.merge (.incomparable a.kind b.kind))

/-- Equality of two cells under a collation. -/
def equals (collation : Collation) (a b : Cell) : Except Fault Bool :=
  (order collation a b).map (· == .eq)

end Cell

end ShardedSql
