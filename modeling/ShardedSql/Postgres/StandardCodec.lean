import ShardedSql.Number.Endian
import ShardedSql.Postgres.Calendar
import ShardedSql.Postgres.Codec

/-!
# The standard codec

Values are written in binary form, numbers with the most significant byte first.
-/

namespace ShardedSql.Postgres

/-- Bytes of exactly the given count. -/
def sized? (width : Nat) (bs : List UInt8) : Option (List UInt8) :=
  if bs.length = width then some bs else none

/-- The signed number in exactly `width` bytes. -/
def signed? (width : Nat) (bs : List UInt8) : Option Int :=
  (sized? width bs).map ofSignedBigEndian

/-- The bytes of a signed number in two's complement. -/
def signedBytes (width : Nat) (n : Int) : List UInt8 :=
  bigEndian width (n % Nat.pow 2 (8 * width)).toNat

namespace ColumnType

/-- Whether the values of a type are texts. -/
def isCharacter (type : ColumnType) : Bool :=
  type.name ∈ ["text", "varchar", "bpchar", "name", "unknown", "citext", "ltree", "lquery",
    "ltxtquery"]

/-- The bytes in front of a text: the version of the format, for labels of trees and what they are
searched by. -/
def textHeader (type : ColumnType) : List UInt8 :=
  if type.name ∈ ["ltree", "lquery", "ltxtquery"] then [1] else []

end ColumnType

namespace NativeType

/-- Signed numbers of some width, each kind with a type of its own. -/
def signed {α : Type} (own : ColumnType) (width : Nat) (ofInt : Int → α) (toInt : α → Int) :
    NativeType α where
  accepts := (· == own)
  read? _ bs := (signed? width bs).map ofInt
  write _ v := signedBytes width (toInt v)

/-- Numbers that are given by their bits. -/
def bits {α : Type} (own : ColumnType) (width : Nat) (ofNat : Nat → α) (toNat : α → Nat) :
    NativeType α where
  accepts := (· == own)
  read? _ bs := (sized? width bs).map fun bs => ofNat (ofBigEndian bs)
  write _ x := bigEndian width (toNat x)

end NativeType

namespace Codec

/-- Booleans are one byte; any byte other than zero is true. -/
def standardBool : NativeType Bool where
  accepts := (· == .bool)
  read? _
    | [b] => some (b != 0)
    | _ => none
  write _ b := [b.toUInt8]

/-- Texts in UTF-8. -/
def standardText : NativeType String where
  accepts := ColumnType.isCharacter
  read? type bs := if type.textHeader <+: bs then Text.ofBytes? (bs.drop type.textHeader.length)
    else none
  write type s := type.textHeader ++ Text.bytes s

/-- The standard codec. -/
def standard : Codec where
  bool := standardBool
  int2 := .signed .int2 2 Int16.ofInt Int16.toInt
  int4 := .signed .int4 4 Int32.ofInt Int32.toInt
  int8 := .signed .int8 8 Int64.ofInt Int64.toInt
  float4 := .bits .float4 4 UInt32.ofNat UInt32.toNat
  float8 := .bits .float8 8 (⟨UInt64.ofNat ·⟩) (·.bits.toNat)
  text := standardText
  bytes :=
    { accepts := (· == .bytea)
      read? := fun _ bs => some bs
      write := fun _ bs => bs }
  date :=
    { accepts := (· == .date)
      read? := fun _ bs => (signed? 4 bs).bind dateText? }
  timestamp :=
    { accepts := (· == .timestamp)
      read? := fun _ bs => (signed? 8 bs).bind (momentText? " ") }
  timestamptz :=
    { accepts := (· == .timestamptz)
      read? := fun _ bs => ((signed? 8 bs).bind (momentText? "T")).map (· ++ "+00:00") }

end Codec

end ShardedSql.Postgres
