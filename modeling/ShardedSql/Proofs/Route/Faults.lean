import ShardedSql.Proofs.FailsOnly
import ShardedSql.Route.RuleSet
import ShardedSql.Route.Traffic

/-!
# Faults of routing

Whatever rules there are, routing a statement fails only with faults of routing.  A statement that
is to be redirected fails to be routed only when no instance can be chosen.

Main results:

- Theorem `RuleSet.route_failsOnly`: the faults of a rule set.
- Theorem `TrafficRule.route_failsOnly`: the faults of a traffic rule.
-/

namespace ShardedSql

/-- Only faults of routing. -/
abbrev routingOnly (fault : Fault) : Prop := fault.isRouting = true

/-! ## Placing rules -/

/-- Finding the node of a value fails with faults of routing only. -/
theorem ShardingAlgorithm.nodeOf_failsOnly (algorithm : ShardingAlgorithm) (nodes : List DataNode)
    (value : Cell) : FailsOnly routingOnly (algorithm.nodeOf nodes value) := by
  have hinteger : FailsOnly routingOnly (integerOf value) := by
    unfold integerOf
    repeat' split
    all_goals first | exact failsOnly_ok _ | exact failsOnly_error rfl
  have hremainder : ∀ n m, FailsOnly routingOnly (remainder n m) := by
    intro n m
    unfold remainder
    split
    · exact failsOnly_error rfl
    · exact failsOnly_ok _
  have hindex : FailsOnly routingOnly (algorithm.shardIndex value) := by
    unfold shardIndex
    cases algorithm with
    | modulo count => exact hinteger.bind fun n => hremainder n _
    | hashModulo count =>
        dsimp only
        split
        · exact failsOnly_error rfl
        · exact failsOnly_ok _
  unfold nodeOf
  refine hindex.bind fun shard => ?_
  split
  · exact failsOnly_ok _
  · exact failsOnly_error rfl

/-- So does selecting the nodes of a table. -/
theorem ShardedTable.selected_failsOnly (table : ShardedTable) (statement : Statement) :
    FailsOnly routingOnly (table.selected statement) := by
  unfold selected
  split
  · exact failsOnly_ok _
  · split
    · exact failsOnly_ok _
    · exact (FailsOnly.mapM fun value _ => ShardingAlgorithm.nodeOf_failsOnly _ _ value).map _

/-- So does a sharding rule. -/
theorem ShardingRule.route_failsOnly (rule : ShardingRule) (statement : Statement) :
    FailsOnly routingOnly (rule.route statement) := by
  have hadd : ∀ selections name,
      FailsOnly routingOnly (rule.addSelection statement selections name) := by
    intro selections name
    unfold addSelection
    split
    · exact failsOnly_ok _
    · split
      · exact failsOnly_ok _
      · refine (ShardedTable.selected_failsOnly _ statement).bind fun nodes => ?_
        split
        · exact failsOnly_error rfl
        · exact failsOnly_ok _
  unfold route
  refine (FailsOnly.foldlM (fun name _ selections => hadd selections name) _).bind ?_
  intro selections
  dsimp only
  repeat' split
  all_goals first | exact failsOnly_ok _ | exact failsOnly_error rfl

/-! ## Redirecting rules -/

/-- So does a shadow rule. -/
theorem ShadowRule.route_failsOnly (rule : ShadowRule) (statement : Statement) (route : Route) :
    FailsOnly routingOnly (rule.route statement route) := by
  have hresolve : ∀ pair hints, FailsOnly routingOnly (rule.resolve pair statement hints) := by
    intro pair hints
    unfold resolve
    split
    · exact failsOnly_ok _
    · split
      · exact failsOnly_error rfl
      · exact failsOnly_ok _
  have htarget : ∀ hints ds, FailsOnly routingOnly (rule.target statement hints ds) := by
    intro hints ds
    unfold target
    split
    · exact failsOnly_ok _
    · exact (hresolve _ hints).map _
  unfold ShadowRule.route
  split
  · exact failsOnly_ok _
  · refine (FailsOnly.mapM fun u _ => ?_).bind fun units => failsOnly_ok _
    exact (htarget _ _).bind fun dataSource => failsOnly_ok _

/-- A load balancer fails with faults of routing only. -/
theorem Balancer.choose_failsOnly (balancer : Balancer) (candidates : List String) :
    Balancing.FailsOnly routingOnly (balancer.choose candidates) := by
  intro turns
  unfold choose pick BalancePolicy.pick
  dsimp only
  repeat' split
  all_goals first | exact failsOnly_ok _ | exact failsOnly_error rfl

/-- So does a read/write splitting rule. -/
theorem ReplicaRule.candidates_failsOnly (rule : ReplicaRule) (statement : Statement)
    (inTransaction : Bool) (targets : Named String) (units : List RouteUnit) :
    Balancing.FailsOnly routingOnly (rule.candidates statement inTransaction targets units) := by
  induction units generalizing targets with
  | nil => exact Balancing.failsOnly_pure _
  | cons u us ih =>
      unfold candidates
      dsimp only
      split
      · exact (ih targets).bind fun rest => Balancing.failsOnly_pure _
      · rename_i g _
        have htarget : Balancing.FailsOnly routingOnly (g.target statement inTransaction) := by
          unfold ReplicaGroup.target
          split
          · exact Balancing.failsOnly_pure _
          · exact g.balancer.choose_failsOnly g.readers
        split
        · exact (Balancing.failsOnly_pure _).bind fun target =>
            (ih _).bind fun rest => Balancing.failsOnly_pure _
        · exact htarget.bind fun target => (ih _).bind fun rest => Balancing.failsOnly_pure _

/-- So does a rule of any kind. -/
theorem RouteRule.route_failsOnly (rule : RouteRule) (statement : Statement) (route : Route)
    (inTransaction : Bool) :
    Balancing.FailsOnly routingOnly (rule.route statement route inTransaction) := by
  cases rule with
  | sharding r => exact Balancing.failsOnly_ofExcept (r.route_failsOnly statement)
  | broadcast r => exact Balancing.failsOnly_pure _
  | shadow r => exact Balancing.failsOnly_ofExcept (r.route_failsOnly statement route)
  | replicas r =>
      unfold RouteRule.route ReplicaRule.route
      dsimp only
      split
      · exact (r.candidates_failsOnly statement inTransaction _ _).bind fun units =>
          Balancing.failsOnly_pure _
      · exact Balancing.failsOnly_pure _

/-! ## Rule sets -/

/-- Narrowing a route fails with faults of routing only. -/
theorem Route.narrow_failsOnly (route : Route) (candidates : List RouteUnit) (rule : String) :
    FailsOnly routingOnly (route.narrow candidates rule) := by
  have hsources : ∀ existing candidate,
      FailsOnly routingOnly (mergeDataSources existing candidate) := by
    intro existing candidate
    unfold mergeDataSources
    repeat' split
    all_goals first | exact failsOnly_ok _ | exact failsOnly_error rfl
  have hmerged : ∀ (r : Route) u candidate, FailsOnly routingOnly (r.addMerged u candidate) := by
    intro r u candidate
    unfold addMerged
    refine (hsources _ _).bind fun dataSource => ?_
    split <;> exact failsOnly_ok _
  unfold narrow
  refine (FailsOnly.foldlM (fun pair _ r => hmerged r pair.1 pair.2) _).bind fun narrowed => ?_
  split
  · exact failsOnly_error rfl
  · exact failsOnly_ok _

namespace RuleSet

/-- So does applying a rule to a route. -/
theorem applyRule_failsOnly (statement : Statement) (inTransaction : Bool) (route : Route)
    (rule : RouteRule) :
    Balancing.FailsOnly routingOnly (applyRule statement inTransaction route rule) := by
  unfold applyRule
  refine (rule.route_failsOnly statement route inTransaction).bind fun candidates => ?_
  split
  · exact Balancing.failsOnly_pure _
  · exact Balancing.failsOnly_throw rfl
  · split
    · exact Balancing.failsOnly_pure _
    · exact Balancing.failsOnly_ofExcept (route.narrow_failsOnly _ _)

/-- So does finding the single tables. -/
theorem routeSingleTables_failsOnly (rs : RuleSet) (statement : Statement) (route : Route) :
    FailsOnly routingOnly (rs.routeSingleTables statement route) := by
  have hadd : ∀ route table, FailsOnly routingOnly (rs.addSingleTable route table) := by
    intro route table
    unfold addSingleTable
    cases (rs.singleTable? table).or rs.defaultDataSource with
    | none =>
        have hrouting : routingOnly (.routing (.unplacedTable table)) := rfl
        exact failsOnly_error hrouting
    | some dataSource =>
        refine (failsOnly_ok dataSource).bind fun ds => ?_
        dsimp only
        repeat' split
        all_goals first | exact failsOnly_ok _ | exact failsOnly_error rfl
  unfold routeSingleTables
  dsimp only
  split
  · split
    · split
      · exact failsOnly_ok _
      · exact failsOnly_error rfl
    · exact failsOnly_ok _
  · exact FailsOnly.foldlM (fun table _ route => hadd route table) _

/-- A statement that has no route has a fault of routing. -/
theorem route_failsOnly (rs : RuleSet) (statement : Statement) (inTransaction : Bool) :
    Balancing.FailsOnly routingOnly (rs.route statement inTransaction) := by
  have happly := applyRule_failsOnly statement inTransaction
  unfold route
  refine (Balancing.FailsOnly.foldlM happly _ _).bind fun placed => ?_
  refine (Balancing.failsOnly_ofExcept (rs.routeSingleTables_failsOnly statement placed)).bind ?_
  exact fun complete => Balancing.FailsOnly.foldlM happly _ complete

end RuleSet

/-- A statement is redirected or not unless there is no instance for it. -/
theorem TrafficRule.route_failsOnly (rule : TrafficRule) (statement : Statement)
    (kept : Option String) : Balancing.FailsOnly routingOnly (rule.route statement kept) := by
  unfold route
  split
  · exact Balancing.failsOnly_pure _
  · dsimp only
    split
    · exact Balancing.failsOnly_pure _
    · refine Balancing.FailsOnly.map ?_ some
      exact Balancing.failsOnly_orFault _ rfl

end ShardedSql
