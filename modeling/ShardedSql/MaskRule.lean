import ShardedSql.Algorithm.Mask
import ShardedSql.Rules
import ShardedSql.Statement

/-!
# Mask rule

Result columns that come from a masked column are shown through its mask.  The source of a result
column is found through the projections of the statement.
-/

namespace ShardedSql

/-- A column with its mask; both names are in lower case. -/
structure MaskedColumn where
  table : String
  column : String
  mask : Mask
  deriving DecidableEq, Repr

/-- The mask rule. -/
structure MaskRule where
  columns : List MaskedColumn
  deriving DecidableEq, Repr

/-- Masks by the position of the result column they apply to. -/
abbrev ColumnMasks := List (Nat × Mask)

namespace ColumnMasks

/-- A cell of a result column as it is shown. -/
def apply (masks : ColumnMasks) (column : Nat) (cell : Cell) : Cell :=
  match masks.lookup column with
  | some mask => mask.apply cell
  | none => cell

end ColumnMasks

namespace MaskRule

/-- The rule that masks nothing. -/
def none : MaskRule := ⟨[]⟩

/-- Sets up one masked column. -/
def setUpColumn (masks : Named Mask) (table column name : String) : Except Fault MaskedColumn :=
  match masks.lookup name with
  | some mask => .ok { table := Text.lower table, column := Text.lower column, mask }
  | Option.none => .error (.algorithm (.maskReference name table column))

/-- Sets up the rule. -/
def setUp (spec : MaskSpec) : Except Fault MaskRule := do
  let masks ← setUpAll Mask.setUp spec.algorithms
  let columns ← spec.tables.mapM fun (table, columns) =>
    columns.mapM fun (column, name) => setUpColumn masks table column name
  return ⟨columns.flatten⟩

/-- Whether nothing is masked. -/
def isEmpty (rule : MaskRule) : Bool :=
  rule.columns.isEmpty

/-- Whether a table has a masked column. -/
def coversTable (rule : MaskRule) (table : String) : Bool :=
  rule.columns.any fun c => Text.alike c.table table

/-- The mask of a column. -/
def mask (rule : MaskRule) (table column : String) : Except Fault Mask :=
  let lowerTable := Text.lower table
  let lowerColumn := Text.lower column
  match rule.columns.find? fun c => c.table == lowerTable && c.column == lowerColumn with
  | some c => .ok c.mask
  | Option.none => .error (.columnRule table column)

/-- The table of a projection that names none: the only entry of the table list. -/
def soleTable? (statement : Statement) : Option String :=
  match statement.tables with
  | [table] => some table
  | _ => Option.none

/-- The mask of a projection, if its source is known and masked. -/
def projectionMask? (rule : MaskRule) (statement : Statement) (p : Projection) : Option Mask := do
  let table ← p.table.or (soleTable? statement)
  if rule.coversTable table then (rule.mask table p.column).toOption else Option.none

/-- The masks of the result columns of a statement. -/
def columnMasks (rule : MaskRule) (statement : Statement) : ColumnMasks :=
  statement.projections.zipIdx.filterMap fun (p, index) =>
    (rule.projectionMask? statement p).map fun mask => (index, mask)

end MaskRule

end ShardedSql
