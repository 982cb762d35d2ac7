import ShardedSql.Execution.Lane
import ShardedSql.Settings

/-!
# Running lanes

The lanes of a statement are taken up in order, each by a worker that runs its units one after the
other; the lanes under way go on in whatever order the scheduler of the workers chooses.  Failing
fast, the first failure ends the run: no further unit is begun, but all lanes are closed.  Otherwise
every unit is run and all failures are reported together.  The results come in the order of the
units of the statement, whatever lanes they ran on.
-/

namespace ShardedSql

/-- What is known about one execution. -/
structure Report where
  databaseName : String
  /-- How long the execution may take, in milliseconds. -/
  timeout : Option Nat
  deriving DecidableEq, Repr

/-- Whether an execution has taken longer than allowed; the time is in nanoseconds. -/
def Report.isExpired (r : Report) (elapsed : Nat) : Bool :=
  match r.timeout with
  | some milliseconds => milliseconds * 1000000 < elapsed
  | none => false

/-- The work done for one unit of a lane. -/
abbrev UnitWork (υ α : Type) := Lane υ → υ → Attempt α

/-- The call of a unit on its lane. -/
def Lane.call {υ : Type} (lane : Lane υ) (purpose : Purpose) (unit : ExecutionUnit) : Call :=
  { purpose, connection := lane.connection, mode := lane.mode, unit }

/-- Hands units to their targets. -/
def UnitWork.asking {α : Type} (purpose : Purpose) (answer : History → Call → Except String α) :
    UnitWork ExecutionUnit α := fun lane u =>
  Action.ask answer (lane.call purpose u)

/-- Runs units for their rows. -/
def Backend.querying (b : Backend) : UnitWork ExecutionUnit ResultCursor :=
  .asking .query b.query

/-- Runs units for their update counts. -/
def Backend.updating (b : Backend) : UnitWork ExecutionUnit UpdateResult :=
  .asking .update b.update

/-! ## Lanes in the course of a run -/

/-- How far a lane has come. -/
inductive Stage (υ : Type) where
  | waiting
  /-- Its worker is about to look at the units that are left. -/
  | between (left : List (Nat × υ))
  /-- Its worker runs the unit of a place; others are left. -/
  | running (place : Nat) (unit : υ) (left : List (Nat × υ))
  | closed
  deriving Repr

namespace Stage

variable {υ : Type}

/-- Whether a worker has taken the lane up and not yet closed it. -/
def isUnderWay : Stage υ → Bool
  | between _ | running _ _ _ => true
  | waiting | closed => false

/-- Whether no worker has taken the lane up. -/
def isWaiting : Stage υ → Bool
  | waiting => true
  | _ => false

end Stage

/-- A lane in the course of a run, and what its units have come to. -/
structure Course (υ α : Type) where
  lane : Lane υ
  stage : Stage υ := .waiting
  results : List (Nat × α) := []
  faults : List Fault := []
  deriving Repr

namespace Course

variable {υ α : Type}

/-- The number of steps that are left at most: one to take the lane up, two for each unit, and one
to close it. -/
def stepsLeft (c : Course υ α) : Nat :=
  match c.stage with
  | .waiting => 2 * c.lane.units.length + 2
  | .between left => 2 * left.length + 1
  | .running _ _ left => 2 * left.length + 2
  | .closed => 0

/-- Notes what the unit of a place has come to; others are left. -/
def note (c : Course υ α) (place : Nat) (left : List (Nat × υ)) : Except Fault α → Course υ α
  | .ok a => { c with stage := .between left, results := c.results ++ [(place, a)] }
  | .error fault => { c with stage := .between left, faults := c.faults ++ [fault] }

/-- Closes the lane. -/
def close (c : Course υ α) : StateM History (Course υ α) := do
  c.lane.release
  return { c with stage := .closed }

/-- One step of a lane.  When the run is cancelled, no further unit is begun.  A unit is not begun
either when the time is up; this counts as its failure. -/
def step (b : Backend) (report : Report) (work : UnitWork υ α) (isCancelled : Bool)
    (c : Course υ α) : StateM History (Course υ α) := fun h =>
  match c.stage with
  | .waiting =>
      if isCancelled then c.close h else ({ c with stage := .between c.lane.units }, h)
  | .between [] => c.close h
  | .between ((place, u) :: left) =>
      if isCancelled then c.close h
      else if report.isExpired (b.elapsed h) then
        (c.note place left
          (.error (.deadline c.lane.dataSource (report.timeout.getD 0))), h)
      else ({ c with stage := .running place u left }, h)
  | .running place u left =>
      let (result, h) := Action.ofAttempt (.unit c.lane.dataSource) (work c.lane u) h
      (c.note place left result, h)
  | .closed => (c, h)

end Course

/-! ## Runs -/

/-- A run: its lanes in order, and the fault that arose first. -/
structure Progress (υ α : Type) where
  courses : List (Course υ α)
  firstFault : Option Fault := none
  deriving Repr

namespace Progress

variable {υ α : Type}

/-- A run before any lane has been taken up. -/
def start (lanes : List (Lane υ)) : Progress υ α :=
  { courses := lanes.map fun lane => { lane } }

/-- The number of steps that are left at most. -/
def stepsLeft (p : Progress υ α) : Nat :=
  (p.courses.map (·.stepsLeft)).foldr (· + ·) 0

/-- The lanes that can go on, with their positions: those under way, and the one to be taken up next
if a worker is free. -/
def choices (p : Progress υ α) (workers : Nat) : List (Course υ α × Nat) :=
  let underWay := p.courses.zipIdx.filter fun (c, _) => c.stage.isUnderWay
  let waiting := p.courses.zipIdx.filter fun (c, _) => c.stage.isWaiting
  underWay ++ if underWay.length < workers then waiting.take 1 else []

/-- A lane has gone on. -/
def put (p : Progress υ α) (position : Nat) (c : Course υ α) : Progress υ α :=
  { courses := p.courses.set position c, firstFault := p.firstFault.or c.faults.head? }

/-- The results of all units, each with its place. -/
def results (p : Progress υ α) : List (Nat × α) :=
  p.courses.flatMap (·.results)

/-- The faults of all units, lane by lane. -/
def faults (p : Progress υ α) : List Fault :=
  p.courses.flatMap (·.faults)

/-- Whether no further unit is begun. -/
def isCancelled (p : Progress υ α) (policy : FailurePolicy) : Bool :=
  policy = .failFast && p.firstFault.isSome

/-- The result of the unit at a place. -/
def resultAt (p : Progress υ α) (place : Nat) : Except Fault α :=
  match p.results.lookup place with
  | some a => .ok a
  | none => .error (.internal ("execution unit " ++ toString place ++ " produced no result"))

/-- The results of the units at the first `n` places, if no unit has failed. -/
def settle (p : Progress υ α) (policy : FailurePolicy) (n : Nat) : Except Fault (List α) :=
  match p.faults, policy with
  | [], _ => (List.range n).mapM p.resultAt
  | fault :: _, .failFast => .error (p.firstFault.getD fault)
  | faults, .collectAll => .error (.several faults)

end Progress

/-- How units are run. -/
structure Runner where
  workers : Nat
  policy : FailurePolicy
  deriving DecidableEq, Repr

namespace Runner

variable {υ α : Type}

/-- The number of workers: at least one. -/
def workerCount (r : Runner) : Nat := max 1 r.workers

/-- Takes steps, as the scheduler chooses, until no lane can go on; at most `fuel` of them. -/
def advance (r : Runner) (b : Backend) (report : Report) (work : UnitWork υ α) :
    (fuel : Nat) → Progress υ α → StateM History (Progress υ α)
  | 0, p => pure p
  | fuel + 1, p => fun h =>
      let choices := p.choices r.workerCount
      match choices[b.turn h fuel % choices.length]? with
      | some (c, position) =>
          let (c, h) := c.step b report work (p.isCancelled r.policy) h
          r.advance b report work fuel (p.put position c) h
      | none => (p, h)

/-- Runs lanes, closes them, and yields the results in the order of the units of the statement. -/
def run (r : Runner) (b : Backend) (report : Report) (work : UnitWork υ α)
    (lanes : List (Lane υ)) : Action (List α) := do
  let start : Progress υ α := .start lanes
  let done ← r.advance b report work start.stepsLeft start
  Action.ofExcept (done.settle r.policy (Lane.unitCount lanes))

end Runner

end ShardedSql
