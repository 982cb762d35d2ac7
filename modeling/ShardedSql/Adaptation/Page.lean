import ShardedSql.Fault
import ShardedSql.Sql.Library
import ShardedSql.Statement
import ShardedSql.Text.Numeral

/-!
# Pages for shards

When a page is cut from merged rows, every shard has to deliver the rows from the first one up to
the end of the page.  Bounds that are parameters are changed through their values, all others in
the text.
-/

namespace ShardedSql

open Sql

/-- The position of the parameter that a bound refers to, if it is a parameter; such a parameter
has to be numbered. -/
def parameterPosition? : ExprView → Except Fault (Option Nat)
  | .placeholder mark =>
      match mark.toList with
      | '$' :: digits =>
          match Text.readNat64 (String.ofList digits) with
          | .ok (n + 1) => .ok (some n)
          | _ => .error (.adaptation (.unnumberedPlaceholder mark))
      | _ => .error (.adaptation (.unnumberedPlaceholder mark))
  | _ => .ok none

/-- Replaces the value of a parameter. -/
def setParameter (parameters : List Cell) (position : Nat) (value : Cell) :
    Except Fault (List Cell) :=
  if position < parameters.length then .ok (parameters.set position value)
  else .error (.adaptation (.missingParameter (position + 1) parameters.length))

section Library

variable (L : Library)

/-- A number as an expression. -/
def numberExpr (n : Nat) : L.Expr := L.number (toString n)

/-- The clause that keeps a number of rows, or none if all are kept. -/
def plainLimit (count : Option Nat) : Option (PageClause L.Expr) :=
  count.map fun n => .bounds (some (numberExpr L n)) none []

/-- The changed limit of a clause with a parameter among its bounds: a parameter gets the number of
rows as its value, anything else is replaced by the number. -/
def limitForShard (count : Option Nat) (limit : Option L.Expr) (position : Option Nat)
    (parameters : List Cell) : Except Fault (Option L.Expr × List Cell) :=
  match position, count with
  | some i, some n => do
      return (limit, ← setParameter parameters i (.int (Int64.ofNat n)))
  | _, _ => .ok (limit.bind fun _ => count.map (numberExpr L), parameters)

/-- The changed offset of such a clause: a parameter gets zero as its value, anything else is
dropped. -/
def offsetForShard (offset : Option (Offset L.Expr)) (position : Option Nat)
    (parameters : List Cell) : Except Fault (Option (Offset L.Expr) × List Cell) :=
  match position with
  | some i => do return (offset, ← setParameter parameters i (.int 0))
  | none => .ok (none, parameters)

/-- The page clause for a shard, with the changed parameters. -/
def clauseForShard (clause : PageClause L.Expr) (count : Option Nat) (parameters : List Cell) :
    Except Fault (Option (PageClause L.Expr) × List Cell) := do
  match clause with
  | .commaBounds _ _ => return (plainLimit L count, parameters)
  | .bounds limit offset groups =>
      let limitPosition ← match limit with
        | some l => parameterPosition? (L.view l)
        | none => .ok none
      let offsetPosition ← match offset with
        | some o => parameterPosition? (L.view o.value)
        | none => .ok none
      if limitPosition.isNone && offsetPosition.isNone then
        return (plainLimit L count, parameters)
      else
        let (limit, parameters) ← limitForShard L count limit limitPosition parameters
        let (offset, parameters) ← offsetForShard L offset offsetPosition parameters
        return (some (.bounds limit offset groups), parameters)

/-- A command for a shard: only queries with a page clause change. -/
def commandForShard (page : Page) (parameters : List Cell) (command : L.Command) :
    Except Fault (L.Command × List Cell) :=
  match L.page? command with
  | some (some clause) => do
      let (clause, parameters) ← clauseForShard L clause page.pushedDown parameters
      return (L.setPage clause command, parameters)
  | some none | none => .ok (command, parameters)

/-- Several commands for a shard, the parameters being handed on from each one to the next. -/
def commandsForShard (page : Page) : List Cell → List L.Command →
    Except Fault (List L.Command × List Cell)
  | parameters, [] => .ok ([], parameters)
  | parameters, c :: cs => do
      let (c, parameters) ← commandForShard L page parameters c
      let (cs, parameters) ← commandsForShard page parameters cs
      return (c :: cs, parameters)

end Library

end ShardedSql
