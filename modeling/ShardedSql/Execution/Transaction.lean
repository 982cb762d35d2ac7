import ShardedSql.Execution.Backend
import ShardedSql.Route.Unit
import ShardedSql.Statement

/-!
# Implicit transactions

A write that reaches several data sources outside a transaction gets a transaction of its own.  It
is committed when the work succeeds.  When the work or the commit fails it is rolled back, and the
fault reported is that of the failure, not that of the rollback.
-/

namespace ShardedSql

/-- Whether a statement gets a transaction of its own: it writes to several data sources, and no
transaction is under way. -/
def needsTransaction (implicitCommit : Bool) (kind : StatementKind) (dataSources : List String)
    (inTransaction : Bool) : Bool :=
  implicitCommit && kind.isWrite && !inTransaction && 1 < (distinctly dataSources).length

namespace Action

variable {α : Type}

/-- Starts a transaction. -/
def startTransaction (b : Backend) : Action Unit :=
  ofAttempt (fun reason => .transaction (.start reason)) (b.take .start)

/-- Rolls back after a fault; that this fails is only logged. -/
def rollBack (b : Backend) (fault : Fault) : StateM History Unit := do
  match ← b.take .rollback with
  | .ok () => return ()
  | .error reason =>
      record (.warned ("Rollback after failed statement also failed: " ++ reason ++
        " (original error: " ++ fault.message ++ ")"))

/-- Does the work of a transaction that has been started, and ends the transaction. -/
def concludeTransaction (b : Backend) (work : Action α) : Action α := fun h =>
  let committed : Action α := do
    let a ← work
    ofAttempt (fun reason => .transaction (.commit reason)) (b.take .commit)
    return a
  match committed h with
  | (.ok a, h) => (.ok a, h)
  | (.error fault, h) => (.error fault, (rollBack b fault h).2)

/-- Does the work in a transaction of its own. -/
def inOwnTransaction (b : Backend) (work : Action α) : Action α := do
  startTransaction b
  concludeTransaction b work

end Action

end ShardedSql
