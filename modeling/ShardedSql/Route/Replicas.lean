import ShardedSql.Algorithm.Balancer
import ShardedSql.Route.Unit
import ShardedSql.Rules
import ShardedSql.Statement

/-!
# Read/write splitting rule

A replica group stands for a write data source and its read replicas.  Reads outside a transaction
go to one replica, picked by a load balancer once for each group and statement; everything else
goes to the write data source.
-/

namespace ShardedSql

/-- A replica group. -/
structure ReplicaGroup where
  name : String
  writer : String
  readers : List String
  balancer : Balancer
  deriving DecidableEq, Repr

/-- The read/write splitting rule. -/
structure ReplicaRule where
  priority : Int
  groups : List ReplicaGroup
  deriving DecidableEq, Repr

namespace ReplicaGroup

/-- Sets up the group at a position of a configuration. -/
def setUp (policies : Named BalancePolicy) (configuration position : Nat)
    (spec : ReplicaGroupSpec) : Except Fault ReplicaGroup := do
  if Text.isBlankText spec.writer then .error (.configuration (.groupWithoutWriter spec.name))
  else
    let balancer ← match spec.balancer with
      | none => .ok ⟨.own configuration position, .roundRobin⟩
      | some name =>
          match policies.lookup name with
          | some policy => .ok ⟨.named configuration name, policy⟩
          | none => .error (.algorithm (.notRegistered "load balancer" name))
    return { name := spec.name, writer := spec.writer, readers := spec.readers, balancer }

/-- Whether a statement has to go to the write data source. -/
def needsWriter (g : ReplicaGroup) (statement : Statement) (inTransaction : Bool) : Bool :=
  !statement.kind.isSelect || statement.writeOnly || inTransaction || g.readers.isEmpty

/-- The data source a statement goes to. -/
def target (g : ReplicaGroup) (statement : Statement) (inTransaction : Bool) :
    Balancing String :=
  if g.needsWriter statement inTransaction then pure g.writer else g.balancer.choose g.readers

end ReplicaGroup

namespace ReplicaRule

/-- Priority of the rule when none is configured. -/
def defaultPriority : Int := 30

/-- Sets up the rule of a configuration. -/
def setUp (policies : Named BalancePolicy) (configuration : Nat) (spec : ReplicaSpec) :
    Except Fault ReplicaRule := do
  let groups ← spec.groups.zipIdx.mapM fun (g, position) =>
    ReplicaGroup.setUp policies configuration position g
  return { priority := spec.priority.getD defaultPriority, groups }

/-- The group of a name. -/
def group? (rule : ReplicaRule) (name : String) : Option ReplicaGroup :=
  rule.groups.find? (·.name == name)

/-- Candidates for data sources from left to right.  `targets` holds the choices made so far, so
that each group is asked once. -/
def candidates (rule : ReplicaRule) (statement : Statement) (inTransaction : Bool) :
    (targets : Named String) → List RouteUnit → Balancing (List RouteUnit)
  | _, [] => pure []
  | targets, u :: us => do
      let actual := u.dataSource.actual
      match rule.group? actual with
      | none =>
          let rest ← candidates rule statement inTransaction targets us
          return { dataSource := .identity actual, tables := [] } :: rest
      | some g =>
          let target ← match targets.lookup g.name with
            | some t => pure t
            | none => g.target statement inTransaction
          let rest ← candidates rule statement inTransaction ((g.name, target) :: targets) us
          return { dataSource := ⟨actual, target⟩, tables := [] } :: rest

/-- One candidate for each unit so far, or `none` when no unit is on a group. -/
def route (rule : ReplicaRule) (statement : Statement) (route : Route) (inTransaction : Bool) :
    Balancing (Option (List RouteUnit)) := do
  if route.units.any fun u => (rule.group? u.dataSource.actual).isSome then
    return some (← rule.candidates statement inTransaction [] route.units)
  else return none

end ReplicaRule

end ShardedSql
