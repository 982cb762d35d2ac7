import ShardedSql.Fault
import ShardedSql.Text.Blank

/-!
# Data nodes

A data node is a table on a data source.  It is written with a dot between the two; the data
source itself may have a dot, so that two or three segments are read.
-/

namespace ShardedSql

/-- A physical table. -/
structure DataNode where
  dataSource : String
  table : String
  deriving DecidableEq, Repr

namespace DataNode

/-- The written form of a data node. -/
def format (n : DataNode) : String :=
  n.dataSource ++ "." ++ n.table

/-- Joins two or three segments to a data node. -/
def ofSegments? : List String → Option DataNode
  | [dataSource, table] => some ⟨dataSource, table⟩
  | [dataSource, schema, table] => some ⟨dataSource ++ "." ++ schema, table⟩
  | _ => none

/-- Reads a data node: two or three segments, none of them blank, and no comma. -/
def parse (text : String) : Except Fault DataNode :=
  let segments := Text.split '.' text
  match ofSegments? segments with
  | some node =>
      if text.toList.contains ',' || segments.any Text.isBlankText then .error (.dataNode text)
      else .ok node
  | none => .error (.dataNode text)

end DataNode

end ShardedSql
