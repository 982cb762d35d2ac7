import ShardedSql.Cursor
import ShardedSql.Execution.History

/-!
# Backends

A backend is everything outside: connection pools, targets, transaction control, the clock and the
scheduler of the workers.  What it does next depends on what has happened before, so it is a family
of functions of the history.  An action calls the backend, records what it did, and may end with a
fault; the history up to a fault is kept.
-/

namespace ShardedSql

/-- The answer of a pool that is asked for a connection. -/
inductive Grant where
  | granted (connection : ConnectionId)
  | refused (reason : String)
  /-- No answer in time. -/
  | silent
  deriving DecidableEq, Repr

/-- The result of an update. -/
structure UpdateResult where
  count : UInt64
  generatedKeys : List Cell
  deriving DecidableEq, Repr

/-- Everything outside. -/
structure Backend where
  acquire : History → String → Grant
  query : History → Call → Except String ResultCursor
  update : History → Call → Except String UpdateResult
  control : History → TransactionStep → Except String Unit
  inTransaction : History → Bool
  /-- How long the current execution has taken, in nanoseconds. -/
  elapsed : History → Nat
  /-- Which of the lanes that can go on does so next, counted from the one taken up first; the
  number is that of the steps that are left at most. -/
  turn : History → Nat → Nat := fun _ _ => 0

/-- A computation that acts on a backend, records its events and may fail. -/
abbrev Action := ExceptT Fault (StateM History)

/-- A computation that acts on a backend and may fail with a reason in words. -/
abbrev Attempt := ExceptT String (StateM History)

/-- The reason of a failure, if it is one. -/
def failure? {α : Type} : Except String α → Option String
  | .ok _ => none
  | .error reason => some reason

namespace Action

variable {α : Type}

/-- Records an event. -/
def record (e : Event) : StateM History Unit := fun h => ((), h ++ [e])

/-- Records events, one after the other. -/
def recordAll (es : List Event) : StateM History Unit := fun h => ((), h ++ es)

/-- An action that does nothing outside. -/
def ofExcept (x : Except Fault α) : Action α := fun h => (x, h)

/-- An attempt whose failure is turned into a fault. -/
def ofAttempt (fault : String → Fault) (x : Attempt α) : Action α := fun h =>
  ((x h).1.mapError fault, (x h).2)

/-- Hands a unit to its target, which answers. -/
def ask (answer : History → Call → Except String α) (call : Call) : Attempt α := fun h =>
  (answer h call, h ++ [.ran call (failure? (answer h call))])

/-- An action that cleans up when it fails. -/
def onFault (x : Action α) (cleanUp : StateM History Unit) : Action α := fun h =>
  match x h with
  | (.ok a, h) => (.ok a, h)
  | (.error fault, h) => (.error fault, (cleanUp h).2)

/-- Enters a phase. -/
def enter (next : Phase) : Action Unit := fun h =>
  match h.phase.move next with
  | .ok phase => (.ok (), h ++ [.entered phase])
  | .error fault => (.error fault, h)

/-- Marks the execution as failed, unless nothing has begun or all is done. -/
def markFailed : StateM History Unit := fun h =>
  ((), if h.phase.canMove .failed then h ++ [.entered .failed] else h)

end Action

namespace Backend

/-- Asks for a connection; `wait` is how long that may take, in milliseconds. -/
def acquireWithin (b : Backend) (wait : Nat) (dataSource : String) : Action ConnectionId := fun h =>
  match b.acquire h dataSource with
  | .granted connection => (.ok connection, h ++ [.acquired dataSource connection])
  | .refused reason =>
      (.error (.acquisition dataSource (.refused reason)), h ++ [.denied dataSource])
  | .silent => (.error (.acquisition dataSource (.unanswered wait)), h ++ [.denied dataSource])

/-- Takes a transaction step. -/
def take (b : Backend) (step : TransactionStep) : Attempt Unit := fun h =>
  (b.control h step, h ++ [.controlled step (failure? (b.control h step))])

end Backend

end ShardedSql
