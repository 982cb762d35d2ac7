import ShardedSql.Cell
import ShardedSql.Text.Pieces

/-!
# Faults

Everything that can go wrong, by cause.  The first layer says in which part of the work a fault
arose, the second why; `Fault.message` gives the wording of both.  Each family keeps a case for
causes that are reported from outside in words.
-/

namespace ShardedSql

/-!
## Quoted names

Messages show a list of names in square brackets, every name between double quotes.  Quotes,
backslashes and the usual control characters have two-character escapes; other characters that
do not print are shown by their code point.
-/

namespace Text

/-- Control, format, separator and combining characters, which have no visible form of their own
inside quotes. -/
def isInvisible (c : Char) : Bool :=
  let n := c.toNat
  n < 0x20 || (0x7F ≤ n && n ≤ 0xA0) || n == 0xAD || (0x300 ≤ n && n ≤ 0x36F) || n == 0x1680 ||
    (0x2000 ≤ n && n ≤ 0x200F) || (0x2028 ≤ n && n ≤ 0x202F) || (0x205F ≤ n && n ≤ 0x206F) ||
    n == 0x3000 || (0xE000 ≤ n && n ≤ 0xF8FF) || n == 0xFEFF

/-- One character as it stands between double quotes. -/
def quotedChar (c : Char) : List Char :=
  if c == '"' then ['\\', '"']
  else if c == '\\' then ['\\', '\\']
  else if c == '\t' then ['\\', 't']
  else if c == '\n' then ['\\', 'n']
  else if c == '\r' then ['\\', 'r']
  else if c.toNat == 0 then ['\\', '0']
  else if isInvisible c then ['\\', 'u', '\x7b'] ++ hexDigits c.toNat ++ ['\x7d']
  else [c]

/-- A text between double quotes. -/
def quoted (s : String) : String :=
  String.ofList ('"' :: s.toList.flatMap quotedChar ++ ['"'])

/-- A list of texts in square brackets, each quoted. -/
def quotedList (names : List String) : String :=
  "[" ++ joined ", " (names.map quoted) ++ "]"

end Text

/-! ## Causes -/

/-- Why a statement has no route. -/
inductive RoutingCause where
  /-- A rule applies but selects nothing. -/
  | noUnits (rule : String)
  /-- No table, and nothing to fall back to. -/
  | noDefaultDataSource
  /-- A table that no rule places anywhere. -/
  | unplacedTable (table : String)
  /-- A single table whose data source takes no part in the route. -/
  | unreachableTable (table dataSource : String) (targets : List String)
  /-- A rule whose candidates share nothing with the route so far. -/
  | disjointTargets (rule : String) (targets : List String)
  | noNode (table : String)
  /-- Sharded tables without a data source in common. -/
  | noSharedDataSource (tables : List String)
  | notAnInteger (text : String)
  /-- A sharding value of a kind that cannot be reduced modulo a count. -/
  | unshardableKind (kind : CellKind)
  | nullShardingValue
  | noNodeForShard (value : String) (shard : Nat)
  | noCandidates
  | fixedTargetMissing (target : String) (candidates : List String)
  /-- A traffic strategy without an eligible instance. -/
  | noInstance (labels : List String) (strategy : String)
  | stated (detail : String)
  deriving DecidableEq, Repr

/-- Why a route is ambiguous. -/
inductive AmbiguityCause where
  /-- A data source with two different targets. -/
  | dataSource (logical first second : String)
  /-- Two tables that disagree about shadowing. -/
  | shadow (first second pair : String)
  | stated (detail : String)
  deriving DecidableEq, Repr

/-- Why no connection was handed out. -/
inductive AcquisitionCause where
  | refused (reason : String)
  | unanswered (milliseconds : Nat)
  | notConfigured
  | noPool
  deriving DecidableEq, Repr

/-- Why a cursor has no current row. -/
inductive PositionCause where
  | notStarted
  | exhausted
  | stated (detail : String)
  deriving DecidableEq, Repr

/-- Why results cannot be merged. -/
inductive MergeCause where
  /-- Cells of kinds that have no common order. -/
  | incomparable (left right : CellKind)
  /-- A comparison with a NaN. -/
  | unordered (left right : String)
  | overflow (addend total : Int)
  | notAddable (addend total : CellKind)
  | averageCount (kind : CellKind)
  | averageSum (kind : CellKind)
  | widthMismatch (first other : Nat)
  | stated (detail : String)
  deriving DecidableEq, Repr

/-- Why a statement cannot be adapted to its target. -/
inductive AdaptationCause where
  | unparsable
  /-- A page bound is a placeholder without a number. -/
  | unnumberedPlaceholder (placeholder : String)
  /-- A page bound has a number without a parameter. -/
  | missingParameter (number bound : Nat)
  | stated (detail : String)
  deriving DecidableEq, Repr

/-- Why an algorithm cannot be set up. -/
inductive AlgorithmCause where
  /-- An unknown type; `family` is the kind of algorithm looked for. -/
  | unknownType (name family type : String)
  | missingProperty (name key : String)
  /-- A sharding count that is no positive number. -/
  | shardingCount (name : String)
  | invalidPattern (name : String)
  /-- An operation that is none of the four. -/
  | unknownOperation (name operation : String)
  | noStatements (name : String)
  | notRegistered (family name : String)
  | strategyReference (strategy family name : String)
  | unknownMaskType (type name : String)
  | maskMarker (name : String)
  /-- A mask whose replacement is not one character. -/
  | maskReplacement (name : String)
  | maskReference (name table column : String)
  | stated (detail : String)
  deriving DecidableEq, Repr

/-- Why a configuration is refused. -/
inductive ConfigurationCause where
  /-- Broadcast tables without a place to live. -/
  | broadcastWithoutDataSources
  | groupWithoutWriter (group : String)
  | tableWithoutNodes (table : String)
  /-- A sharding column without algorithm or the other way round. -/
  | halfShardedTable (table : String)
  | unknownShadowPair (table pair : String)
  | notPositive (setting : String)
  /-- An environment variable that holds no number. -/
  | environment (name : String) (reason : String)
  | loggingStyle (style : String)
  | loggingLevel (level : String)
  | stated (detail : String)
  deriving DecidableEq, Repr

/-- The two moments at which an implicit transaction can fail by itself. -/
inductive TransactionCause where
  | start (reason : String)
  | commit (reason : String)
  | stated (detail : String)
  deriving DecidableEq, Repr

/-- Everything that can go wrong. -/
inductive Fault where
  | routing (cause : RoutingCause)
  | ambiguous (cause : AmbiguityCause)
  | acquisition (dataSource : String) (cause : AcquisitionCause)
  | unit (target reason : String)
  | several (faults : List Fault)
  /-- A unit was reached after the deadline. -/
  | deadline (target : String) (milliseconds : Nat)
  | position (cause : PositionCause)
  | columnRange (index count : Nat)
  /-- There is nothing to execute. -/
  | emptyUnit (detail : String)
  | merge (cause : MergeCause)
  | adaptation (cause : AdaptationCause)
  | dataNode (text : String)
  | algorithm (cause : AlgorithmCause)
  | columnRule (table column : String)
  /-- A move between execution states that is not allowed. -/
  | illegalState (detail : String)
  | transaction (cause : TransactionCause)
  | configuration (cause : ConfigurationCause)
  /-- An integer operation whose result is out of range. -/
  | arithmetic
  | internal (detail : String)
  deriving Repr

/-! ## Wording -/

/-- Wording of a routing cause. -/
def RoutingCause.message : RoutingCause → String
  | noUnits rule => rule ++ " rule produced no route units"
  | noDefaultDataSource =>
      "statement references no table and no default data source is configured"
  | unplacedTable table => "no data source found for table '" ++ table ++ "'"
  | unreachableTable table dataSource targets =>
      "table '" ++ table ++ "' on data source '" ++ dataSource ++
        "' cannot be combined with route targets " ++ Text.quotedList targets
  | disjointTargets rule targets =>
      rule ++ " rule shares no route target with " ++ Text.quotedList targets
  | noNode table => "no data node selected for sharding table '" ++ table ++ "'"
  | noSharedDataSource tables =>
      "sharding tables " ++ Text.quotedList tables ++ " share no data source"
  | notAnInteger text => "MOD sharding value '" ++ text ++ "' is not an integer"
  | unshardableKind kind => "MOD sharding value of type " ++ kind.name ++ " is not supported"
  | nullShardingValue => "HASH_MOD sharding value is NULL"
  | noNodeForShard value shard =>
      "no data node for sharding value '" ++ value ++ "' (shard " ++ toString shard ++ ")"
  | noCandidates => "load balancer has no candidates"
  | fixedTargetMissing target candidates =>
      "fixed load balancer target '" ++ target ++ "' is not among " ++ Text.quotedList candidates
  | noInstance labels strategy =>
      "no compute instance carries the labels " ++ Text.quotedList labels ++
        " of traffic strategy '" ++ strategy ++ "'"
  | stated detail => detail

/-- Wording of an ambiguity. -/
def AmbiguityCause.message : AmbiguityCause → String
  | dataSource logical first second =>
      "data source '" ++ logical ++ "' resolves to both '" ++ first ++ "' and '" ++ second ++ "'"
  | shadow first second pair =>
      "tables '" ++ first ++ "' and '" ++ second ++
        "' resolve to different targets behind shadow data source '" ++ pair ++ "'"
  | stated detail => detail

/-- Wording of a failed acquisition. -/
def AcquisitionCause.message : AcquisitionCause → String
  | refused reason => reason
  | unanswered milliseconds =>
      "no connection available within " ++ toString milliseconds ++ " ms"
  | notConfigured => "data source is not configured"
  | noPool => "failed to create connection pool"

/-- Wording of a position cause. -/
def PositionCause.message : PositionCause → String
  | notStarted => "next() has not been called"
  | exhausted => "result set is exhausted"
  | stated detail => detail

/-- Wording of a merge cause. -/
def MergeCause.message : MergeCause → String
  | incomparable left right => "cannot compare " ++ left.name ++ " with " ++ right.name
  | unordered left right => "cannot order NaN (" ++ left ++ " vs " ++ right ++ ")"
  | overflow addend total =>
      "integer overflow adding " ++ toString addend ++ " to " ++ toString total
  | notAddable addend total => "cannot add " ++ addend.name ++ " to " ++ total.name
  | averageCount kind => "AVG count is " ++ kind.name
  | averageSum kind => "AVG sum is " ++ kind.name
  | widthMismatch first other =>
      "results disagree on column count: " ++ toString first ++ " vs " ++ toString other
  | stated detail => detail

/-- Wording of an adaptation cause. -/
def AdaptationCause.message : AdaptationCause → String
  | unparsable => "Failed to parse SQL"
  | unnumberedPlaceholder placeholder =>
      "pagination placeholder '" ++ placeholder ++
        "' cannot be rewritten, use numbered parameters"
  | missingParameter number bound =>
      "pagination parameter $" ++ toString number ++ " is missing, " ++ toString bound ++
        " parameters bound"
  | stated detail => detail

/-- Wording of an algorithm cause. -/
def AlgorithmCause.message : AlgorithmCause → String
  | unknownType name family type =>
      name ++ ": unknown " ++ family ++ " type '" ++ type ++ "'"
  | missingProperty name key => name ++ ": property '" ++ key ++ "' is required"
  | shardingCount name => name ++ ": sharding-count must be a positive integer"
  | invalidPattern name => name ++ ": invalid regex"
  | unknownOperation name operation =>
      name ++ ": unknown shadow operation '" ++ operation ++ "'"
  | noStatements name => name ++ ": SQL_MATCH requires the 'sql' property"
  | notRegistered family name => family ++ " algorithm '" ++ name ++ "' is not registered"
  | strategyReference strategy family name =>
      "traffic strategy '" ++ strategy ++ "' references unknown " ++ family ++ " '" ++ name ++ "'"
  | unknownMaskType type name =>
      "unknown mask algorithm type '" ++ type ++ "' for '" ++ name ++ "'"
  | maskMarker name => "mask algorithm '" ++ name ++ "' requires special-chars"
  | maskReplacement name => "mask algorithm '" ++ name ++ "' requires a single replace-char"
  | maskReference name table column =>
      "mask algorithm '" ++ name ++ "' of " ++ table ++ "." ++ column ++ " is not defined"
  | stated detail => detail

/-- Wording of a configuration cause. -/
def ConfigurationCause.message : ConfigurationCause → String
  | broadcastWithoutDataSources => "broadcast rule declares tables but no data sources"
  | groupWithoutWriter group =>
      "readwrite-splitting group '" ++ group ++ "' has no write data source"
  | tableWithoutNodes table => "sharding table '" ++ table ++ "' has no actual data nodes"
  | halfShardedTable table =>
      "sharding table '" ++ table ++ "' needs both a sharding column and an algorithm"
  | unknownShadowPair table pair =>
      "shadow table '" ++ table ++ "' references unknown shadow data source '" ++ pair ++ "'"
  | notPositive setting => setting ++ " must be at least 1"
  | environment name reason => name ++ ": " ++ reason
  | loggingStyle style =>
      "logging.style must be auto, always or never, got '" ++ style ++ "'"
  | loggingLevel level => "invalid log level '" ++ level ++ "'"
  | stated detail => detail

/-- Wording of a transaction cause. -/
def TransactionCause.message : TransactionCause → String
  | start reason => "begin failed: " ++ reason
  | commit reason => "commit failed: " ++ reason
  | stated detail => detail

namespace Fault

/-- The data source a fault is attributed to, if any. -/
def target? : Fault → Option String
  | unit target _ => some target
  | deadline target _ => some target
  | acquisition dataSource _ => some dataSource
  | _ => none

mutual

/-- Wording of a fault. -/
def message : Fault → String
  | routing cause => "Routing failure: " ++ cause.message
  | ambiguous cause => "Ambiguous route: " ++ cause.message
  | acquisition dataSource cause =>
      "Connection acquisition failed for data source '" ++ dataSource ++ "': " ++ cause.message
  | unit target reason => "Execution failed on data source '" ++ target ++ "': " ++ reason
  | several faults =>
      toString faults.length ++ " execution units failed: " ++
        Text.joined "; " (attributions faults)
  | deadline target milliseconds =>
      "Execution on data source '" ++ target ++ "' exceeded " ++ toString milliseconds ++ " ms"
  | position cause => "Cursor position error: " ++ cause.message
  | columnRange index count =>
      "Column index " ++ toString index ++ " out of range, result has " ++ toString count ++
        " columns"
  | emptyUnit detail => "Empty execution unit: " ++ detail
  | merge cause => "Merge error: " ++ cause.message
  | adaptation cause => "Rewrite error: " ++ cause.message
  | dataNode text =>
      "Invalid data node '" ++ text ++ "', expected format is data_source.table"
  | algorithm cause => "Algorithm initialization error: " ++ cause.message
  | columnRule table column => "No column rule for '" ++ table ++ "." ++ column ++ "'"
  | illegalState detail => "Illegal execution state: " ++ detail
  | transaction cause => "Transaction error: " ++ cause.message
  | configuration cause => "Configuration error: " ++ cause.message
  | arithmetic => "attempt to calculate the remainder with overflow"
  | internal detail => "Internal error: " ++ detail

/-- Wording of each of several faults, after its data source in brackets if it has one. -/
def attributions : List Fault → List String
  | [] => []
  | fault :: faults =>
      (match fault.target? with
        | some target => "[" ++ target ++ "] " ++ fault.message
        | none => fault.message) :: attributions faults

end

end Fault

end ShardedSql
