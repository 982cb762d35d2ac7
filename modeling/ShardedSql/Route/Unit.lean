import ShardedSql.Text.Case

/-!
# Route units

A route unit sends a statement to one data source and says which actual table stands for each
logical one.  A route is a list of different units.
-/

namespace ShardedSql

/-- A logical name and the actual name it stands for. -/
structure Mapping where
  logical : String
  actual : String
  deriving DecidableEq, Repr

namespace Mapping

/-- A name that stands for itself. -/
def identity (name : String) : Mapping := ⟨name, name⟩

/-- Whether a name stands for itself. -/
def isIdentity (m : Mapping) : Bool :=
  m.logical == m.actual

end Mapping

/-- The first mapping of a logical name, whose letters may differ in case. -/
def findMapping? (mappings : List Mapping) (logical : String) : Option Mapping :=
  mappings.find? fun m => Text.alike m.logical logical

/-- One target of a statement. -/
structure RouteUnit where
  dataSource : Mapping
  tables : List Mapping
  deriving DecidableEq, Repr

namespace RouteUnit

/-- The mapping of a logical table. -/
def table? (u : RouteUnit) (table : String) : Option Mapping :=
  findMapping? u.tables table

/-- Whether a logical table is mapped. -/
def covers (u : RouteUnit) (table : String) : Bool :=
  (u.table? table).isSome

/-- The actual table of a logical one, which stands for itself when it is not mapped. -/
def actualTable (u : RouteUnit) (table : String) : String :=
  ((u.table? table).map (·.actual)).getD table

end RouteUnit

/-- The targets of a statement, in order. -/
structure Route where
  units : List RouteUnit
  deriving DecidableEq, Repr

/-- Keeps the first of equal elements. -/
def distinctly {α : Type} [DecidableEq α] (xs : List α) : List α :=
  xs.foldl (fun kept x => if x ∈ kept then kept else kept ++ [x]) []

namespace Route

/-- The route without targets. -/
def empty : Route := ⟨[]⟩

/-- Adds a unit at the end unless an equal one is there. -/
def add (r : Route) (u : RouteUnit) : Route :=
  if u ∈ r.units then r else ⟨r.units ++ [u]⟩

/-- The route with the given units, each once. -/
def ofUnits (units : List RouteUnit) : Route :=
  units.foldl add empty

/-- Whether there is no target. -/
def isEmpty (r : Route) : Bool :=
  r.units.isEmpty

/-- The actual data sources, each once, in order of first appearance. -/
def dataSources (r : Route) : List String :=
  distinctly (r.units.map (·.dataSource.actual))

/-- Whether some unit covers a logical table. -/
def covers (r : Route) (table : String) : Bool :=
  r.units.any (·.covers table)

end Route

end ShardedSql
