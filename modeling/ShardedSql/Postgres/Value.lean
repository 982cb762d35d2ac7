import ShardedSql.Postgres.Codec
import ShardedSql.Text.Numeral

/-!
# Parameters and fields

A parameter is sent as the bytes of its value.  The bytes follow the kind of the value; the type of
the parameter only chooses the width of numbers.  A field becomes a cell according to the type of
its column.  What cannot be read is shown as the name of the type in angle brackets.
-/

namespace ShardedSql.Postgres

/-- An integer, if it fits into `width` bytes. -/
def checkWidth (width : Nat) (v : Int64) : Except Text.NumeralFault Int64 :=
  if Nat.pow 2 (8 * width - 1) ≤ v.toInt then .error .tooLarge
  else if v.toInt < -Nat.pow 2 (8 * width - 1) then .error .tooSmall
  else .ok v

section Codec

variable (c : Codec)

/-! ## Parameters -/

/-- The bytes of an integer. -/
def integerBytes (type : ColumnType) (v : Int64) : Except Text.NumeralFault (List UInt8) :=
  match type with
  | .int2 => (checkWidth 2 v).map fun v => c.int2.write type v.toInt16
  | .int4 => (checkWidth 4 v).map fun v => c.int4.write type v.toInt32
  | .float4 => .ok (c.float4.write type (Binary64.intToBinary32 v.toInt))
  | .float8 => .ok (c.float8.write type (Binary64.ofInt v.toInt))
  | _ => .ok (c.int8.write type v)

/-- The bytes of a floating-point number. -/
def floatBytes (type : ColumnType) (x : Binary64) : List UInt8 :=
  match type with
  | .float4 => c.float4.write type x.toBinary32
  | _ => c.float8.write type x

/-- A value as a parameter of a type. -/
def encode (type : ColumnType) : Cell → Except Text.NumeralFault Wire
  | .null => .ok none
  | .bool b => .ok (some (c.bool.write type b))
  | .int v => (integerBytes c type v).map some
  | .float x => .ok (some (floatBytes c type x))
  | .text s => .ok (some (c.text.write type s))
  | .bytes bs => .ok (some (c.bytes.write type bs))

/-! ## Fields -/

/-- The cell of a field, if it can be read, with nothing for NULL. -/
def cell? (type : ColumnType) (wire : Wire) : Option (Option Cell) :=
  match type with
  | .int2 => (c.int2.field? type wire).map (·.map fun v => .int v.toInt64)
  | .int4 => (c.int4.field? type wire).map (·.map fun v => .int v.toInt64)
  | .int8 => (c.int8.field? type wire).map (·.map .int)
  | .float4 => (c.float4.field? type wire).map (·.map fun bits => .float (.ofBinary32 bits))
  | .float8 => (c.float8.field? type wire).map (·.map .float)
  | .bool => (c.bool.field? type wire).map (·.map .bool)
  | .bytea => (c.bytes.field? type wire).map (·.map .bytes)
  | .timestamp => (c.timestamp.field? type wire).map (·.map .text)
  | .timestamptz => (c.timestamptz.field? type wire).map (·.map .text)
  | .date => (c.date.field? type wire).map (·.map .text)
  | .text | .varchar | .other _ => (c.text.field? type wire).map (·.map .text)

/-- What is shown for a field that cannot be read. -/
def unreadable (type : ColumnType) : Cell :=
  .text ("<" ++ type.name ++ ">")

/-- The cell of a field. -/
def decode (type : ColumnType) (wire : Wire) : Cell :=
  match cell? c type wire with
  | some (some cell) => cell
  | some none => .null
  | none => unreadable type

end Codec

end ShardedSql.Postgres
