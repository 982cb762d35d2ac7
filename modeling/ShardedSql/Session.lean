import ShardedSql.Database

/-!
# Sessions

A session executes statements on a logical database, one after the other.  Each one is routed and
adapted, its lanes are opened, its units are run, and the results are merged or added up.  The
history tells what was done outside and which phases were gone through; whatever goes wrong, the
history up to that point stays.
-/

namespace ShardedSql

/-- What the entries of a batch have in common. -/
structure BatchMode where
  kind : StatementKind
  accumulates : Bool
  deriving DecidableEq, Repr

/-- What is carried from one statement to the next. -/
structure Session where
  /-- The compute instance that redirected statements of a transaction stay with. -/
  keptInstance : Option String := none
  routeTurns : Turns := []
  trafficTurns : Turns := []
  batch : Batch := .empty
  batchMode : Option BatchMode := none
  deriving DecidableEq, Repr

/-- Where a statement goes. -/
inductive Destination where
  | computeInstance (id : String)
  | units (units : List ExecutionUnit)
  deriving DecidableEq, Repr

/-- The data sources of a destination. -/
def Destination.dataSources : Destination → List String
  | computeInstance id => [id]
  | units us => us.map (·.dataSource)

/-- The answer to a request, with the session and the history afterwards. -/
structure Reply (α : Type) where
  answer : Except Fault α
  session : Session
  history : History

/-- The result of a statement of any kind. -/
inductive StatementResult where
  | query (result : MergedResult)
  | update (result : UpdateResult)
  deriving Repr

namespace Database

/-- Opens the lanes of a statement. -/
def openLanes (db : Database) (b : Backend) (statement : Statement) (destination : Destination) :
    Action (List (Lane ExecutionUnit)) := do
  let lanes ← match destination with
    | .computeInstance id =>
        db.limits.openRedirected b id { sql := statement.sql, parameters := statement.parameters }
    | .units us => db.limits.openFor b (·.dataSource) us
  Lane.enterWith .prepared lanes

/-- Runs a routed statement for its rows. -/
def query (db : Database) (b : Backend) (statement : Statement) (destination : Destination) :
    Action MergedResult := do
  let lanes ← db.openLanes b statement destination
  Action.enter .executing
  let results ← db.runner.run b db.report b.querying lanes
  Action.enter .merging
  let merged ← Action.ofExcept (db.merger.merge results statement)
  Action.enter .done
  return merged

/-- The result of a statement from the results of its units.  Keys that were generated for the
statement stand in when no target reports any. -/
def addUp (db : Database) (statement : Statement) (results : List UpdateResult) : UpdateResult :=
  let keys := results.flatMap (·.generatedKeys)
  { count := reportedCount (db.rules.accumulates statement) (results.map (·.count))
    generatedKeys :=
      if keys.isEmpty then (statement.generatedKey.map (·.values)).getD [] else keys }

/-- Runs a routed statement for its update count. -/
def update (db : Database) (b : Backend) (statement : Statement) (destination : Destination) :
    Action UpdateResult := do
  let lanes ← db.openLanes b statement destination
  Action.enter .executing
  let results ← db.runner.run b db.report b.updating lanes
  Action.enter .done
  return db.addUp statement results

/-- Does work that writes to data sources, in a transaction of its own if it needs one. -/
def write {α : Type} (db : Database) (b : Backend) (kind : StatementKind)
    (dataSources : List String) (work : Action α) : Action α := fun h =>
  if needsTransaction db.implicitCommit kind dataSources (b.inTransaction h) then
    Action.inOwnTransaction b work h
  else work h

end Database

namespace Session

/-- Decides where a statement goes.  Outside a transaction the kept instance is forgotten. -/
def route (db : Database) (inTransaction : Bool) (statement : Statement) (s : Session) :
    Except Fault Destination × Session :=
  let kept := if inTransaction then s.keptInstance else none
  match db.traffic.route statement kept s.trafficTurns with
  | (.error fault, turns) => (.error fault, { s with keptInstance := kept, trafficTurns := turns })
  | (.ok (some id), turns) =>
      (.ok (.computeInstance id),
        { s with keptInstance := if inTransaction then some id else none, trafficTurns := turns })
  | (.ok none, trafficTurns) =>
      let (units, routeTurns) := db.unitsFor statement inTransaction s.routeTurns
      (units.map .units, { s with keptInstance := kept, trafficTurns, routeTurns })

/-- Routes a statement and does the work for it.  A fault marks the execution as failed. -/
def request {α : Type} (db : Database) (b : Backend) (statement : Statement)
    (work : Destination → Action α) (s : Session) (h : History) : Reply α :=
  let h := h ++ [.entered .idle]
  let (destination, session) := s.route db (b.inTransaction h) statement
  let action : Action α := do
    let destination ← Action.ofExcept destination
    Action.enter .routed
    work destination
  let (answer, history) := action.onFault Action.markFailed h
  { answer, session, history }

/-- Executes a statement for its rows. -/
def query (db : Database) (b : Backend) (statement : Statement) :
    Session → History → Reply MergedResult :=
  request db b statement (db.query b statement)

/-- Executes a statement for its update count. -/
def update (db : Database) (b : Backend) (statement : Statement) :
    Session → History → Reply UpdateResult :=
  request db b statement fun destination =>
    db.write b statement.kind destination.dataSources (db.update b statement destination)

/-- Executes a statement: a SELECT for its rows, any other for its update count. -/
def execute (db : Database) (b : Backend) (statement : Statement) (s : Session) (h : History) :
    Reply StatementResult :=
  if statement.kind.isSelect then
    let reply := s.query db b statement h
    { reply with answer := reply.answer.map .query }
  else
    let reply := s.update db b statement h
    { reply with answer := reply.answer.map .update }

/-- Adds an entry to the batch.  Nothing is done outside. -/
def addBatch (db : Database) (b : Backend) (statement : Statement) (s : Session) (h : History) :
    Reply Unit :=
  let (units, routeTurns) := db.unitsFor statement (b.inTransaction h) s.routeTurns
  let s := { s with routeTurns }
  match units with
  | .error fault => { answer := .error fault, session := s, history := h }
  | .ok units =>
      let mode := { kind := statement.kind, accumulates := db.rules.accumulates statement }
      { answer := .ok (), history := h
        session := { s with batch := s.batch.add units, batchMode := some mode } }

/-- Executes the batch and yields the update count of each entry.  The batch is taken when its
execution begins. -/
def executeBatch (db : Database) (b : Backend) (s : Session) (h : History) :
    Reply (List UInt64) :=
  match s.batchMode with
  | none => { answer := .ok [], session := { s with batch := .empty }, history := h }
  | some mode =>
      let waiting := { s with batchMode := none }
      let taken := { waiting with batch := .empty }
      let work := s.batch.execute db.limits db.runner b db.report mode.accumulates
      let dataSources := s.batch.units.map (·.dataSource)
      if needsTransaction db.implicitCommit mode.kind dataSources (b.inTransaction h) then
        match Action.startTransaction b h with
        | (.error fault, h) => { answer := .error fault, session := waiting, history := h }
        | (.ok (), h) =>
            let (answer, history) := Action.concludeTransaction b work h
            { answer, session := taken, history }
      else
        let (answer, history) := work h
        { answer, session := taken, history }

end Session

end ShardedSql
