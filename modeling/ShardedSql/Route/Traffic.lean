import ShardedSql.Algorithm.Balancer
import ShardedSql.Rules
import ShardedSql.Statement
import ShardedSql.Statement.Hint

/-!
# Traffic rule

Some statements are redirected as they are to a compute instance.  The first strategy that
recognises a statement decides which instances are eligible; within a transaction an instance that
is still eligible is kept.
-/

namespace ShardedSql

/-- Drops semicolons at the end. -/
def dropSemicolons (cs : List Char) : List Char :=
  Text.dropEndWhile (· == ';') cs

/-- The form of a statement that is compared: lower case, single spaces, no semicolon at the end of
the trimmed text. -/
def normalizeSql (sql : String) : String :=
  let body := String.ofList (dropSemicolons (Text.trimChars sql.toList))
  Text.lower (Text.joined " " (Text.words body))

/-- How statements are recognised. -/
inductive TrafficAlgorithm where
  /-- By a flag or a comment. -/
  | hint
  /-- By their normal form. -/
  | statements (normalForms : List String)
  deriving DecidableEq, Repr

namespace TrafficAlgorithm

/-- Sets up a traffic algorithm. -/
def setUp (name : String) (spec : AlgorithmSpec) : Except Fault TrafficAlgorithm :=
  let type := Text.upper spec.type
  if type == "SQL_HINT" then .ok hint
  else if type == "SQL_MATCH" then
    let forms := ((Text.split ';' ((spec.property? "sql").getD "")).map normalizeSql).filter
      (!·.isEmpty)
    if forms.isEmpty then .error (.algorithm (.noStatements name)) else .ok (statements forms)
  else .error (.algorithm (.unknownType name "traffic algorithm" type))

/-- Whether a statement is recognised. -/
def recognises (algorithm : TrafficAlgorithm) (statement : Statement) : Bool :=
  match algorithm with
  | hint => statement.useTraffic || (Hints.ofComments statement.comments).isTrue "use_traffic"
  | statements forms => normalizeSql statement.sql ∈ forms

end TrafficAlgorithm

/-- A traffic strategy. -/
structure TrafficStrategy where
  name : String
  /-- Labels, any of which makes an instance eligible. -/
  labels : List String
  algorithm : TrafficAlgorithm
  balancer : Balancer
  deriving DecidableEq, Repr

/-- The traffic rule. -/
structure TrafficRule where
  strategies : List TrafficStrategy
  instances : List Instance
  deriving DecidableEq, Repr

namespace TrafficRule

/-- The rule that redirects nothing. -/
def none : TrafficRule := ⟨[], []⟩

/-- Sets up a strategy. -/
def setUpStrategy (algorithms : Named TrafficAlgorithm) (policies : Named BalancePolicy)
    (position : Nat) (spec : TrafficStrategySpec) : Except Fault TrafficStrategy := do
  let algorithm ← match algorithms.lookup spec.algorithm with
    | some a => .ok a
    | Option.none =>
        .error (.algorithm (.strategyReference spec.name "algorithm" spec.algorithm))
  let balancer ← match spec.balancer with
    | Option.none => .ok ⟨.own 0 position, .roundRobin⟩
    | some name =>
        match policies.lookup name with
        | some policy => .ok ⟨.named 0 name, policy⟩
        | Option.none => .error (.algorithm (.strategyReference spec.name "load balancer" name))
  return { name := spec.name, labels := spec.labels, algorithm, balancer }

/-- Sets up the rule. -/
def setUp (spec : TrafficSpec) : Except Fault TrafficRule := do
  let algorithms ← setUpAll TrafficAlgorithm.setUp spec.algorithms
  let policies ← setUpAll BalancePolicy.setUp spec.balancers
  let strategies ← spec.strategies.zipIdx.mapM fun (s, position) =>
    setUpStrategy algorithms policies position s
  return { strategies, instances := spec.instances }

/-- Whether there is no strategy. -/
def isEmpty (rule : TrafficRule) : Bool :=
  rule.strategies.isEmpty

/-- The first strategy that recognises a statement. -/
def strategy? (rule : TrafficRule) (statement : Statement) : Option TrafficStrategy :=
  rule.strategies.find? (·.algorithm.recognises statement)

/-- The instances eligible for a strategy: those with one of its labels. -/
def eligible (rule : TrafficRule) (strategy : TrafficStrategy) : List String :=
  (rule.instances.filter fun i => i.labels.any (· ∈ strategy.labels)).map (·.id)

/-- The instance a statement is redirected to, if any.  The instance `kept` from before is taken
again when it is eligible; no load balancer advances then. -/
def route (rule : TrafficRule) (statement : Statement) (kept : Option String) :
    Balancing (Option String) := do
  match rule.strategy? statement with
  | Option.none => return Option.none
  | some strategy =>
      let eligible := rule.eligible strategy
      match kept.filter (· ∈ eligible) with
      | some instanceId => return some instanceId
      | Option.none =>
          some <$> (strategy.balancer.choose eligible).orFault
            (.routing (.noInstance strategy.labels strategy.name))

end TrafficRule

end ShardedSql
