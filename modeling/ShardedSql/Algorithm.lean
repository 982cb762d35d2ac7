import ShardedSql.Fault
import ShardedSql.Text.Blank

/-!
# Configured algorithms

An algorithm is configured by a type and a list of named properties.
-/

namespace ShardedSql

/-- A configured algorithm, before it is set up. -/
structure AlgorithmSpec where
  /-- Name of its type, in any case. -/
  type : String
  properties : List (String × String)
  deriving DecidableEq, Repr

namespace AlgorithmSpec

/-- A property, if it is set. -/
def property? (spec : AlgorithmSpec) (key : String) : Option String :=
  spec.properties.lookup key

/-- A property that must be set and not blank. -/
def required (spec : AlgorithmSpec) (name key : String) : Except Fault String :=
  match spec.property? key with
  | some value =>
      if Text.isBlankText value then .error (.algorithm (.missingProperty name key))
      else .ok value
  | none => .error (.algorithm (.missingProperty name key))

end AlgorithmSpec

/-- Sets up every algorithm of a list, keeping the names. -/
def setUpAll {α β : Type} (setUp : String → α → Except Fault β) (specs : List (String × α)) :
    Except Fault (List (String × β)) :=
  specs.mapM fun (name, spec) => (setUp name spec).map fun algorithm => (name, algorithm)

end ShardedSql
