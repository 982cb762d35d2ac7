import ShardedSql.Algorithm.Shadow
import ShardedSql.Route.Unit
import ShardedSql.Rules

/-!
# Shadow rule

Accesses to shadowed tables are redirected from a production data source to its shadow when an
algorithm recognises them as shadow accesses.  All shadowed tables of a statement that live on one
pair of data sources have to agree.
-/

namespace ShardedSql

/-- A shadowed table. -/
structure ShadowTable where
  pairs : List String
  /-- Algorithms, any of which may recognise a shadow access. -/
  algorithms : List ShadowAlgorithm

/-- The shadow rule. -/
structure ShadowRule where
  priority : Int
  pairs : List ShadowPair
  tables : Named ShadowTable

namespace ShadowRule

/-- Priority of the rule when none is configured. -/
def defaultPriority : Int := 20

/-- Sets up a shadowed table. -/
def setUpTable (algorithms : Named ShadowAlgorithm) (pairs : List ShadowPair) (name : String)
    (spec : ShadowTableSpec) : Except Fault (String × ShadowTable) := do
  match spec.pairs.find? fun p => !pairs.any (·.name == p) with
  | some p => .error (.configuration (.unknownShadowPair name p))
  | none =>
      let found ← spec.algorithms.mapM fun a =>
        match algorithms.lookup a with
        | some algorithm => .ok algorithm
        | none => .error (.algorithm (.notRegistered "shadow" a))
      return (Text.lower name, { pairs := spec.pairs, algorithms := found })

/-- Sets up the rule. -/
def setUp (algorithms : Named ShadowAlgorithm) (spec : ShadowSpec) : Except Fault ShadowRule := do
  let tables ← spec.tables.mapM fun (name, t) => setUpTable algorithms spec.pairs name t
  return { priority := spec.priority.getD defaultPriority, pairs := spec.pairs, tables }

/-- The shadowed table of a name. -/
def table? (rule : ShadowRule) (name : String) : Option ShadowTable :=
  rule.tables.lookup (Text.lower name)

/-- The first pair with the given name or production data source. -/
def pair? (rule : ShadowRule) (dataSource : String) : Option ShadowPair :=
  rule.pairs.find? fun p => p.name == dataSource || p.production == dataSource

/-- The decisions of the shadowed tables of a statement that live on a pair, in order. -/
def decisions (rule : ShadowRule) (pair : ShadowPair) (statement : Statement) (hints : Hints) :
    List (String × Bool) :=
  statement.tables.filterMap fun name =>
    match rule.table? name with
    | some t =>
        if pair.name ∈ t.pairs then some (name, t.algorithms.any (·.isShadow statement name hints))
        else none
    | none => none

/-- Whether a statement is redirected on a pair: the common decision of its tables, `false` if
there is none. -/
def resolve (rule : ShadowRule) (pair : ShadowPair) (statement : Statement) (hints : Hints) :
    Except Fault Bool :=
  match rule.decisions pair statement hints with
  | [] => .ok false
  | (first, decision) :: rest =>
      match rest.find? (·.2 != decision) with
      | some (other, _) => .error (.ambiguous (.shadow first other pair.name))
      | none => .ok decision

/-- Where an actual data source leads. -/
def target (rule : ShadowRule) (statement : Statement) (hints : Hints) (dataSource : String) :
    Except Fault Mapping :=
  match rule.pair? dataSource with
  | none => .ok (.identity dataSource)
  | some pair =>
      (rule.resolve pair statement hints).map fun redirected =>
        ⟨dataSource, if redirected then pair.shadow else pair.production⟩

/-- One candidate for each unit so far, or `none` when the rule does not apply. -/
def route (rule : ShadowRule) (statement : Statement) (route : Route) :
    Except Fault (Option (List RouteUnit)) := do
  if route.isEmpty || !statement.tables.any fun t => (rule.table? t).isSome then return none
  else
    let hints := Hints.ofComments statement.comments
    let units ← route.units.mapM fun u => do
      return { dataSource := ← rule.target statement hints u.dataSource.actual, tables := [] }
    return some units

end ShadowRule

end ShardedSql
