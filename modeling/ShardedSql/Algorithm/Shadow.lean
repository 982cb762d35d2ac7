import ShardedSql.Algorithm
import ShardedSql.Statement
import ShardedSql.Statement.Hint

/-!
# Shadow algorithms

A shadow algorithm decides whether an access to a table goes to the shadow data source: because a
column condition matches a pattern or equals a text, or because a comment asks for it.
-/

namespace ShardedSql

/-- A library for text patterns: it reads a pattern, and tells the texts that match it somewhere. -/
abbrev PatternLibrary := String → Option (String → Bool)

/-- The statements a column shadow algorithm applies to. -/
inductive ShadowOperation where
  | insert
  | update
  | delete
  | select
  deriving DecidableEq, Repr

namespace ShadowOperation

/-- The operations by name. -/
def names : List (String × ShadowOperation) :=
  [("insert", insert), ("update", update), ("delete", delete), ("select", select)]

/-- Reads an operation, in any case. -/
def parse (name text : String) : Except Fault ShadowOperation :=
  let text := Text.lower text
  match names.lookup text with
  | some operation => .ok operation
  | none => .error (.algorithm (.unknownOperation name text))

/-- The kind of statement an operation stands for. -/
def kind : ShadowOperation → StatementKind
  | insert => .insert
  | update => .update
  | delete => .delete
  | select => .select

end ShadowOperation

/-- How shadow accesses are recognised. -/
inductive ShadowAlgorithm where
  /-- The text of a value of the column matches the whole pattern. -/
  | patternMatch (column : String) (operation : ShadowOperation) (source : String)
      (test : String → Bool)
  /-- The text of a value of the column is the given one. -/
  | valueMatch (column : String) (operation : ShadowOperation) (value : String)
  /-- A comment says `shadow:true`. -/
  | hint

namespace ShadowAlgorithm

/-- Sets up a shadow algorithm.  The pattern is read before the other properties. -/
def setUp (patterns : PatternLibrary) (name : String) (spec : AlgorithmSpec) :
    Except Fault ShadowAlgorithm := do
  let type := Text.upper spec.type
  if type == "REGEX_MATCH" then
    let source := "^(?:" ++ (← spec.required name "regex") ++ ")$"
    match patterns source with
    | none => .error (.algorithm (.invalidPattern name))
    | some test =>
        let column ← spec.required name "column"
        let operation ← ShadowOperation.parse name (← spec.required name "operation")
        return patternMatch column operation source test
  else if type == "VALUE_MATCH" then
    let column ← spec.required name "column"
    let operation ← ShadowOperation.parse name (← spec.required name "operation")
    return valueMatch column operation (← spec.required name "value")
  else if type == "SQL_HINT" then return hint
  else .error (.algorithm (.unknownType name "shadow algorithm" type))

/-- Whether some value of a conditioned column that is not null passes a test on its text. -/
def someValue (statement : Statement) (table column : String) (test : String → Bool) : Bool :=
  match statement.conditionValues table column with
  | some values => values.any fun v => !v.isNull && test v.display
  | none => false

/-- Whether an access to a table is a shadow access. -/
def isShadow (algorithm : ShadowAlgorithm) (statement : Statement) (table : String)
    (hints : Hints) : Bool :=
  match algorithm with
  | patternMatch column operation _ test =>
      operation.kind == statement.kind && someValue statement table column test
  | valueMatch column operation value =>
      operation.kind == statement.kind && someValue statement table column (· == value)
  | hint => hints.isTrue "shadow"

end ShadowAlgorithm

end ShardedSql
