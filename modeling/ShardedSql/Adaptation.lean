import ShardedSql.Execution.Unit
import ShardedSql.Adaptation.Page
import ShardedSql.Route.Unit

/-!
# Adaptation

A statement is adapted to each target: logical tables get their actual names and, where several
results are merged, the page is widened.  A statement that needs neither is left as it is and not
even parsed.
-/

namespace ShardedSql

/-- Adapts a statement to a route unit, with or without the widened page. -/
abbrev Adapter := Statement → RouteUnit → (widened : Bool) → Except Fault BoundSql

/-- Changes the last part of the name of a table, which is the table if it is a word. -/
def Sql.changeTable {Call : Type} (f : Sql.Ident → Sql.Ident) (name : List (Sql.NamePart Call)) :
    List (Sql.NamePart Call) :=
  match name.getLast? with
  | some (.ident i) => name.dropLast ++ [.ident (f i)]
  | _ => name

/-- Changes the last word but one of a dotted name, which is the table of a column. -/
def Sql.changeQualifier (f : Sql.Ident → Sql.Ident) (parts : List Sql.Ident) : List Sql.Ident :=
  if 2 ≤ parts.length then parts.modify (parts.length - 2) f else parts

namespace RouteUnit

/-- The actual name of a table; the quotes are kept. -/
def rename (u : RouteUnit) (i : Sql.Ident) : Sql.Ident :=
  match u.table? i.text with
  | some m => { i with text := m.actual }
  | none => i

/-- A command with actual tables: first where tables are named, then where their columns are. -/
def renameTables (u : RouteUnit) (L : Sql.Library) (c : L.Command) : L.Command :=
  L.visitExpressions (L.onCompound (Sql.changeQualifier u.rename))
    (L.visitRelations (Sql.changeTable u.rename) c)

end RouteUnit

/-- The commands of a text with actual tables. -/
def actualCommands (L : Sql.Library) (statement : Statement) (u : RouteUnit) :
    Except Fault (List L.Command) :=
  match L.parse? statement.sql with
  | none => .error (.adaptation .unparsable)
  | some commands =>
      if u.tables.any (!·.isIdentity) then .ok (commands.map (u.renameTables L))
      else .ok commands

/-- The adapter that uses a library. -/
def adapterFor (L : Sql.Library) : Adapter := fun statement u widened => do
  let renames := u.tables.any (!·.isIdentity)
  match statement.shape.page.filter (fun _ => widened) with
  | none =>
      if renames then
        return { sql := L.renderAll (← actualCommands L statement u)
                 parameters := statement.parameters }
      else return { sql := statement.sql, parameters := statement.parameters }
  | some page =>
      let commands ← actualCommands L statement u
      let (commands, parameters) ← commandsForShard L page statement.parameters commands
      return { sql := L.renderAll commands, parameters }

/-- The execution units of a route, each once. -/
def unitsOfRoute (adapt : Adapter) (statement : Statement) (route : Route) (widened : Bool) :
    Except Fault (List ExecutionUnit) :=
  route.units.foldlM
    (fun units u => do
      let sql ← adapt statement u widened
      return addUnit units { dataSource := u.dataSource.actual, statement := sql })
    []

/-- The execution units of a statement.  The page is widened only if several units are left. -/
def buildUnits (adapt : Adapter) (statement : Statement) (route : Route) :
    Except Fault (List ExecutionUnit) := do
  if route.isEmpty then .error (.emptyUnit "route context has no route units")
  else
    let units ← unitsOfRoute adapt statement route false
    if 1 < units.length && statement.shape.page.isSome then
      unitsOfRoute adapt statement route true
    else return units

end ShardedSql
