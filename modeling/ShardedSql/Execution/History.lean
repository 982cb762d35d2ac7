import ShardedSql.Execution.Unit
import ShardedSql.Fault

/-!
# Histories

Everything an execution does to the world outside, and everything it notes about itself, is an
event.  A history holds the events of a session, the earliest first.
-/

namespace ShardedSql

/-!
## Phases

The execution of a statement goes through phases in a fixed order.  It can fail in every phase in
which work has begun and is not yet finished.
-/

/-- How far the execution of a statement has come. -/
inductive Phase where
  | idle
  | routed
  | prepared
  | executing
  | merging
  | done
  | failed
  deriving DecidableEq, Repr

namespace Phase

/-- Name of a phase. -/
def name : Phase → String
  | idle => "Idle"
  | routed => "Routed"
  | prepared => "Prepared"
  | executing => "Executing"
  | merging => "Merging"
  | done => "Done"
  | failed => "Error"

/-- Whether a phase may come directly after another. -/
def canMove : (current next : Phase) → Bool
  | idle, routed => true
  | routed, prepared => true
  | prepared, executing => true
  | executing, merging => true
  | executing, done => true
  | merging, done => true
  | routed, failed => true
  | prepared, failed => true
  | executing, failed => true
  | merging, failed => true
  | _, _ => false

/-- Moves to another phase. -/
def move (current next : Phase) : Except Fault Phase :=
  if current.canMove next then .ok next
  else .error (.illegalState ("cannot move from " ++ current.name ++ " to " ++ next.name))

end Phase

/-! ## Events -/

/-- A connection is known by the number its pool gives it. -/
abbrev ConnectionId := Nat

/-- Whether the units of a statement share connections. -/
inductive ConnectionMode where
  /-- Every unit has a connection of its own, and results may stay open. -/
  | perUnit
  /-- Units share a connection, and each result is loaded before the next unit runs. -/
  | shared
  deriving DecidableEq, Repr

/-- What a unit is run for. -/
inductive Purpose where
  | query
  | update
  deriving DecidableEq, Repr

/-- A unit handed to a target. -/
structure Call where
  purpose : Purpose
  connection : ConnectionId
  mode : ConnectionMode
  unit : ExecutionUnit
  deriving DecidableEq, Repr

/-- The steps of a transaction. -/
inductive TransactionStep where
  | start
  | commit
  | rollback
  deriving DecidableEq, Repr

/-- What can happen. -/
inductive Event where
  | acquired (dataSource : String) (connection : ConnectionId)
  /-- A connection was asked for in vain. -/
  | denied (dataSource : String)
  | released (dataSource : String) (connection : ConnectionId)
  /-- A unit was run; if it failed, with the reason. -/
  | ran (call : Call) (failure : Option String)
  /-- A transaction step was asked for; if it failed, with the reason. -/
  | controlled (step : TransactionStep) (failure : Option String)
  | warned (text : String)
  | entered (phase : Phase)
  deriving DecidableEq, Repr

/-- The events so far, the earliest first. -/
abbrev History := List Event

namespace History

/-- The phase after one more event. -/
def phaseAfter (phase : Phase) : Event → Phase
  | .entered next => next
  | _ => phase

/-- The phase entered last. -/
def phase (h : History) : Phase :=
  h.foldl phaseAfter .idle

/-- The calls of a history, in order. -/
def calls (h : History) : List Call :=
  h.filterMap fun
    | .ran call _ => some call
    | _ => none

/-- The texts of the warnings of a history, in order. -/
def warnings (h : History) : List String :=
  h.filterMap fun
    | .warned text => some text
    | _ => none

@[simp]
theorem phase_nil : phase [] = .idle := rfl

/-- The last event decides about the phase. -/
@[simp]
theorem phase_append_singleton (h : History) (e : Event) :
    phase (h ++ [e]) = phaseAfter (phase h) e := by
  simp [phase, List.foldl_append]

/-- Calls are kept in the order of events. -/
@[simp]
theorem calls_append (h later : History) : calls (h ++ later) = calls h ++ calls later :=
  List.filterMap_append ..

end History

end ShardedSql
