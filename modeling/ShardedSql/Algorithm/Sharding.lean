import ShardedSql.Algorithm
import ShardedSql.Route.DataNode
import ShardedSql.Text.Case
import ShardedSql.Text.Numeral

/-!
# Sharding algorithms

A sharding algorithm maps a value to a shard number, and a shard number to one of the data nodes
of a table.  The count is an unsigned 64-bit number; remainders are taken with the signed number
of the same bits, so counts from `2 ^ 63` on act as negative moduli.
-/

namespace ShardedSql

/-- How a value is mapped to a shard number. -/
inductive ShardingAlgorithm where
  /-- Remainder of an integer. -/
  | modulo (count : UInt64)
  /-- Remainder of a hash of the text of the value. -/
  | hashModulo (count : UInt64)
  deriving DecidableEq, Repr

namespace ShardingAlgorithm

/-- Reads the sharding count, a positive 64-bit number. -/
def readCount (name : String) (spec : AlgorithmSpec) : Except Fault UInt64 := do
  let text ← spec.required name "sharding-count"
  match Text.readNat64 text with
  | .ok n => if n == 0 then .error (.algorithm (.shardingCount name)) else .ok (UInt64.ofNat n)
  | .error _ => .error (.algorithm (.shardingCount name))

/-- Sets up a sharding algorithm. -/
def setUp (name : String) (spec : AlgorithmSpec) : Except Fault ShardingAlgorithm := do
  let count ← readCount name spec
  let type := Text.upper spec.type
  if type == "MOD" then .ok (modulo count)
  else if type == "HASH_MOD" then .ok (hashModulo count)
  else .error (.algorithm (.unknownType name "sharding algorithm" type))

/-- Hash of bytes: each byte is mixed in by exclusive or and a multiplication by the prime
`2 ^ 40 + 2 ^ 8 + 0xb3`. -/
def hashBytes (bs : List UInt8) : UInt64 :=
  bs.foldl (fun h b => (h ^^^ b.toUInt64) * 0x100000001b3) 0xcbf29ce484222325

/-- The integer that `modulo` reduces: an integer cell, or a text that is a numeral when trimmed. -/
def integerOf : Cell → Except Fault Int64
  | .int n => .ok n
  | .text s =>
      match Text.readInt64 (Text.trim s) with
      | .ok n => .ok n
      | .error _ => .error (.routing (.notAnInteger s))
  | c => .error (.routing (.unshardableKind c.kind))

/-- Euclidean remainder of signed 64-bit numbers.  The least number has none modulo minus one,
where the quotient is out of range. -/
def remainder (n m : Int64) : Except Fault Nat :=
  if n == Int64.minValue && m == -1 then .error .arithmetic
  else .ok (n.toInt.emod m.toInt).toNat

/-- The shard number of a value. -/
def shardIndex (algorithm : ShardingAlgorithm) (value : Cell) : Except Fault Nat :=
  match algorithm with
  | modulo count => do
      let n ← integerOf value
      remainder n count.toInt64
  | hashModulo count =>
      if value.isNull then .error (.routing .nullShardingValue)
      else .ok ((hashBytes (Text.bytes value.display)) % count).toNat

/-- The node of a shard: the first whose table ends in the shard number after an underscore, else
the first whose data source does, else the one at that position. -/
def nodeOfShard? (nodes : List DataNode) (shard : Nat) : Option DataNode :=
  let ending := "_" ++ toString shard
  match nodes.find? fun n => Text.endsWith n.table ending with
  | some n => some n
  | none =>
      match nodes.find? fun n => Text.endsWith n.dataSource ending with
      | some n => some n
      | none => nodes[shard]?

/-- The node that holds a value. -/
def nodeOf (algorithm : ShardingAlgorithm) (nodes : List DataNode) (value : Cell) :
    Except Fault DataNode := do
  let shard ← algorithm.shardIndex value
  match nodeOfShard? nodes shard with
  | some n => .ok n
  | none => .error (.routing (.noNodeForShard value.display shard))

end ShardingAlgorithm

end ShardedSql
