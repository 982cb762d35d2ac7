import ShardedSql.Cell

/-!
# Codecs

The types of parameters and columns of a PostgreSQL server are told apart as far as values depend on
them.  A library writes native values as the bytes of parameters, and reads them from the bytes of
fields.  Each sort of native values accepts some types of columns.  A field of any other type is not
read, and neither is its NULL; what is written does not depend on which types are accepted.
-/

namespace ShardedSql.Postgres

/-! ## Types of columns -/

/-- A column type. -/
inductive ColumnType where
  | bool
  | int2
  | int4
  | int8
  | float4
  | float8
  | bytea
  | date
  | timestamp
  | timestamptz
  | text
  | varchar
  | other (name : String)
  deriving DecidableEq, Repr

namespace ColumnType

/-- The type of a name. -/
def ofName : String → ColumnType
  | "bool" => bool
  | "int2" => int2
  | "int4" => int4
  | "int8" => int8
  | "float4" => float4
  | "float8" => float8
  | "bytea" => bytea
  | "date" => date
  | "timestamp" => timestamp
  | "timestamptz" => timestamptz
  | "text" => text
  | "varchar" => varchar
  | name => other name

/-- The name of a type. -/
def name : ColumnType → String
  | bool => "bool"
  | int2 => "int2"
  | int4 => "int4"
  | int8 => "int8"
  | float4 => "float4"
  | float8 => "float8"
  | bytea => "bytea"
  | date => "date"
  | timestamp => "timestamp"
  | timestamptz => "timestamptz"
  | text => "text"
  | varchar => "varchar"
  | other name => name

end ColumnType

/-! ## Values on the wire -/

/-- A value on the wire: nothing for NULL, else its bytes. -/
abbrev Wire := Option (List UInt8)

/-- Reads native values from fields. -/
structure NativeReader (α : Type) where
  accepts : ColumnType → Bool
  read? : ColumnType → List UInt8 → Option α

/-- Reads native values from fields and writes them as parameters. -/
structure NativeType (α : Type) extends NativeReader α where
  write : ColumnType → α → List UInt8

/-- The native value of a field, if it can be read; a NULL can be read if the type is accepted. -/
def NativeReader.field? {α : Type} (r : NativeReader α) (type : ColumnType) (wire : Wire) :
    Option (Option α) :=
  if r.accepts type then
    match wire with
    | some bs => (r.read? type bs).map some
    | none => some none
  else none

/-- What is used of a library for the values of a server. -/
structure Codec where
  bool : NativeType Bool
  int2 : NativeType Int16
  int4 : NativeType Int32
  int8 : NativeType Int64
  /-- Numbers of single precision, by their bits. -/
  float4 : NativeType UInt32
  float8 : NativeType Binary64
  text : NativeType String
  bytes : NativeType (List UInt8)
  /-- Dates and moments, as they are shown. -/
  date : NativeReader String
  timestamp : NativeReader String
  timestamptz : NativeReader String

end ShardedSql.Postgres
