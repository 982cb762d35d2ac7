import ShardedSql.Execution.Backend
import ShardedSql.Route.Unit
import ShardedSql.Text.Blank

/-!
# Lanes

A lane is a connection with the units that run on it, one after the other.  The units of each data
source are dealt out over its lanes in turn.  When a connection is not to be had, all connections
acquired before it are handed back.
-/

namespace ShardedSql

/-- A connection and the units that run on it. -/
structure Lane (υ : Type) where
  dataSource : String
  connection : ConnectionId
  mode : ConnectionMode
  /-- The units, each with its place among all units of the statement. -/
  units : List (Nat × υ)
  deriving Repr

namespace Lane

variable {υ : Type}

/-- Hands the connection back. -/
def release (lane : Lane υ) : StateM History Unit :=
  Action.record (.released lane.dataSource lane.connection)

/-- Hands the connections of several lanes back. -/
def releaseAll (lanes : List (Lane υ)) : StateM History Unit :=
  Action.recordAll (lanes.map fun lane => .released lane.dataSource lane.connection)

/-- The number of units of several lanes. -/
def unitCount (lanes : List (Lane υ)) : Nat :=
  (lanes.map (·.units.length)).foldr (· + ·) 0

/-- Enters a phase with open lanes, which are closed if that fails. -/
def enterWith (next : Phase) (lanes : List (Lane υ)) : Action (List (Lane υ)) :=
  (Action.enter next).onFault (releaseAll lanes) >>= fun _ => pure lanes

end Lane

/-- Deals entries out over `n` hands, in turn. -/
def deal {α : Type} (n : Nat) (entries : List α) : List (List α) :=
  (List.range n).map fun hand =>
    (entries.zipIdx.filter fun (_, place) => place % n == hand).map (·.1)

/-- The entries of each data source with their places, data sources in order of first appearance. -/
def byDataSource {υ : Type} (dataSource : υ → String) (units : List υ) :
    List (String × List (Nat × υ)) :=
  let entries := units.zipIdx.map fun (u, place) => (place, u)
  (distinctly (units.map dataSource)).map fun ds =>
    (ds, entries.filter fun (_, u) => dataSource u == ds)

/-- How many connections a statement may use, and how long they are waited for. -/
structure LaneLimits where
  /-- Most connections to one data source; none counts as one. -/
  maxConnections : Nat
  /-- How long a connection is waited for, in milliseconds. -/
  wait : Nat
  deriving DecidableEq, Repr

namespace LaneLimits

variable {υ : Type}

/-- The number of lanes for `n` units on one data source, and whether units share them. -/
def plan (limits : LaneLimits) (n : Nat) : Nat × ConnectionMode :=
  let most := max 1 limits.maxConnections
  if n ≤ most then (n, .perUnit) else (most, .shared)

/-- Acquires `n` more connections to a data source; on failure the ones at hand are handed back. -/
def acquire (limits : LaneLimits) (b : Backend) (dataSource : String) :
    (n : Nat) → (atHand : List ConnectionId) → Action (List ConnectionId)
  | 0, atHand => pure atHand
  | n + 1, atHand => do
      let connection ← (b.acquireWithin limits.wait dataSource).onFault
        (Action.recordAll (atHand.map (.released dataSource)))
      limits.acquire b dataSource n (atHand ++ [connection])

/-- Opens the lanes of one data source. -/
def openOn (limits : LaneLimits) (b : Backend) (dataSource : String)
    (entries : List (Nat × υ)) : Action (List (Lane υ)) := do
  let (count, mode) := limits.plan entries.length
  let connections ← limits.acquire b dataSource count []
  return (connections.zip (deal count entries)).map fun (connection, units) =>
    { dataSource, connection, mode, units }

/-- Opens the lanes of several data sources; on failure the ones already open are closed. -/
def openEach (limits : LaneLimits) (b : Backend) :
    List (String × List (Nat × υ)) → (opened : List (Lane υ)) → Action (List (Lane υ))
  | [], opened => pure opened
  | (dataSource, entries) :: others, opened => do
      let lanes ← (limits.openOn b dataSource entries).onFault (Lane.releaseAll opened)
      limits.openEach b others (opened ++ lanes)

/-- Opens lanes for units. -/
def openFor (limits : LaneLimits) (b : Backend) (dataSource : υ → String) (units : List υ) :
    Action (List (Lane υ)) :=
  limits.openEach b (byDataSource dataSource units) []

/-- Opens a lane for a statement that is redirected to a compute instance as it is. -/
def openRedirected (limits : LaneLimits) (b : Backend) (instanceId : String)
    (statement : BoundSql) : Action (List (Lane ExecutionUnit)) :=
  if Text.isBlankText instanceId || Text.isBlankText statement.sql then
    throw (.emptyUnit ("traffic to instance '" ++ instanceId ++ "' has no statement to run"))
  else limits.openFor b (·.dataSource) [{ dataSource := instanceId, statement }]

end LaneLimits

end ShardedSql
