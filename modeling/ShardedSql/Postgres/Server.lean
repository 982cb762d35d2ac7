import ShardedSql.Cursor
import ShardedSql.Execution.Backend
import ShardedSql.Postgres.Value

/-!
# Running units on a server

A text of SQL is parsed by the server, which tells the types of parameters and columns; then the
parameters are bound, and the statement is run.  The server may refuse each of the three steps.
-/

namespace ShardedSql.Postgres

/-- The steps of a statement on a server. -/
inductive ServerStep where
  | parse
  | bind
  | execute
  deriving DecidableEq, Repr

/-- A refusal by a server. -/
structure ServerFault where
  step : ServerStep
  code : String
  message : String
  deriving DecidableEq, Repr

/-- What a server does with one statement. -/
structure Server where
  parameterTypes : List ColumnType
  columns : List (String × ColumnType)
  rows : List (List Wire)
  /-- The tag that ends the answer; its last word may be a row count. -/
  tag : String
  refusal : Option ServerFault
  deriving Repr

/-- Why a unit has no result. -/
inductive UnitFault where
  | server (fault : ServerFault)
  /-- The parameters do not suit the statement. -/
  | parameters
  deriving DecidableEq, Repr

/-- Wording of a refusal. -/
def ServerFault.text (f : ServerFault) : String :=
  "Code: " ++ f.code ++ ", Message: " ++ f.message

/-- What was done on a server for one unit. -/
structure Exchange (α : Type) where
  /-- The parameters the server was sent, if it came to that. -/
  bound : Option (List Wire)
  result : Except UnitFault α
  deriving Repr

section Codec

variable (c : Codec)

/-- The parameters as the server wants them; there must be one for each type. -/
def bindAll? : List ColumnType → List Cell → Option (List Wire)
  | [], [] => some []
  | type :: types, cell :: cells =>
      match encode c type cell with
      | .ok wire => (bindAll? types cells).map (wire :: ·)
      | .error _ => none
  | _, _ => none

/-- The number at the end of a tag; 0 if there is none. -/
def tagCount (tag : String) : UInt64 :=
  match Text.readNat64 ((Text.split ' ' tag).getLast?.getD "") with
  | .ok n => UInt64.ofNat n
  | .error _ => 0

namespace Server

/-- The refusal of a step, if it is refused. -/
def refusalAt (s : Server) (step : ServerStep) : Option ServerFault :=
  s.refusal.filter (·.step = step)

/-- Runs a statement; `answer` is what the server sends when all goes well. -/
def run {α : Type} (s : Server) (parameters : List Cell) (answer : α) : Exchange α :=
  match s.refusalAt .parse with
  | some fault => { bound := none, result := .error (.server fault) }
  | none =>
      match bindAll? c s.parameterTypes parameters with
      | none => { bound := none, result := .error .parameters }
      | some wires =>
          match s.refusal with
          | some fault => { bound := some wires, result := .error (.server fault) }
          | none => { bound := some wires, result := .ok answer }

/-- A row as cells. -/
def row (s : Server) (wires : List Wire) : Row :=
  List.zipWith (fun column wire => decode c column.2 wire) s.columns wires

/-- Runs a statement for its rows. -/
def query (s : Server) (parameters : List Cell) : Exchange ResultCursor :=
  s.run c parameters
    (ResultCursor.ofRows (s.columns.map fun (name, _) => ⟨name, name⟩) (s.rows.map (s.row c)))

/-- Runs a statement for its row count. -/
def update (s : Server) (parameters : List Cell) : Exchange UpdateResult :=
  s.run c parameters { count := tagCount s.tag, generatedKeys := [] }

end Server

end Codec

end ShardedSql.Postgres
