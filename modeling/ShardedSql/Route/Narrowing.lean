import ShardedSql.Fault
import ShardedSql.Route.Unit

/-!
# Narrowing a route

Every rule after the first one narrows the route: its candidates are paired with the units so far,
data sources and tables are merged, and what finds no partner is dropped.
-/

namespace ShardedSql

/-- Merges the data source of a unit with that of a candidate.  The candidate may continue from
the actual name of the unit; otherwise it must add nothing or agree. -/
def mergeDataSources (existing candidate : Mapping) : Except Fault Mapping :=
  if candidate.logical == existing.actual then .ok ⟨existing.logical, candidate.actual⟩
  else if candidate.isIdentity || candidate.actual == existing.actual then .ok existing
  else
    .error (.ambiguous (.dataSource existing.logical existing.actual candidate.actual))

/-- Adds a mapping to a list.  Of two mappings of one logical name an identity gives way; two
others have to be equal. -/
def mergeMapping (m : Mapping) : List Mapping → Option (List Mapping)
  | [] => some [m]
  | c :: cs =>
      if Text.alike c.logical m.logical then
        if c == m || m.isIdentity then some (c :: cs)
        else if c.isIdentity then some (m :: cs)
        else none
      else (mergeMapping m cs).map (c :: ·)

/-- Adds the mappings of a candidate one after the other. -/
def mergeMappings (existing candidate : List Mapping) : Option (List Mapping) :=
  candidate.foldlM (fun merged m => mergeMapping m merged) existing

/-- A candidate pairs with a unit when its logical data source is one of the two names of the
data source of the unit. -/
def RouteUnit.pairsWith (u candidate : RouteUnit) : Bool :=
  candidate.dataSource.logical == u.dataSource.logical ||
    candidate.dataSource.logical == u.dataSource.actual

/-- Adds the merge of a unit with a candidate to a route, unless their tables contradict. -/
def Route.addMerged (route : Route) (u candidate : RouteUnit) : Except Fault Route := do
  let dataSource ← mergeDataSources u.dataSource candidate.dataSource
  match mergeMappings u.tables candidate.tables with
  | some tables => return route.add { dataSource, tables }
  | none => return route

/-- All units with the candidates they pair with, in order. -/
def Route.pairs (route : Route) (candidates : List RouteUnit) : List (RouteUnit × RouteUnit) :=
  route.units.flatMap fun u => (candidates.filter u.pairsWith).map fun c => (u, c)

/-- Narrows a route by the candidates of a rule. -/
def Route.narrow (route : Route) (candidates : List RouteUnit) (rule : String) :
    Except Fault Route := do
  let narrowed ← (route.pairs candidates).foldlM (fun r (u, c) => r.addMerged u c) Route.empty
  if narrowed.isEmpty && !route.isEmpty then
    .error (.routing (.disjointTargets rule route.dataSources))
  else return narrowed

end ShardedSql
