import ShardedSql.Proofs.Batch.Counts
import ShardedSql.Proofs.Route.SingleTarget
import ShardedSql.Proofs.Sorting.SortedInputs

/-!
# Summed update counts

The update counts of all units are summed when the leading sharding rule shards a table of the
statement, while every sharding rule takes part in routing.  A table can only be sent to several
places when some sharding rule shards a table of the statement.  With one sharding rule that is the
leading one; with several of them it may be another one, and the counts of all units but the first
are left out.

Main results:

- Theorem `RuleSet.sharding?_ofRules`: which sharding rule leads.
- Theorem `RuleSet.shardsSome_of_splits`: a table in several places is due to a sharding rule.
- Theorem `RuleSet.accumulates_iff_of_splits`: when the counts of such a statement are summed.
- Theorem `RuleSet.not_accumulates_trailingOrders`: a statement whose counts are left out.
-/

namespace ShardedSql

open Std

/-! ## The leading sharding rule -/

/-- The sharding rules among some rules. -/
def shardingRules (rules : List RouteRule) : List ShardingRule :=
  rules.filterMap fun
    | .sharding r => some r
    | _ => none

/-- A sharding rule leads others: it has the least priority number, and comes before others of the
same. -/
def Leads (rules : List RouteRule) (rule : ShardingRule) : Prop :=
  ∃ before after, shardingRules rules = before ++ rule :: after ∧
    (∀ r ∈ before, rule.priority < r.priority) ∧ ∀ r ∈ after, rule.priority ≤ r.priority

/-- The sharding rules of a list are those that are there. -/
theorem mem_shardingRules {rules : List RouteRule} {rule : ShardingRule} :
    rule ∈ shardingRules rules ↔ .sharding rule ∈ rules := by
  rw [shardingRules, List.mem_filterMap]
  constructor
  · rintro ⟨r, hr, hrule⟩
    cases r <;> cases hrule
    exact hr
  · exact fun h => ⟨_, h, rfl⟩

/-- Sharding rules are ordered by their priorities. -/
theorem order_sharding (a b : ShardingRule) :
    RouteRule.order (.sharding a) (.sharding b) = compareOn ShardingRule.priority a b := by
  simp [RouteRule.order, compareLex, compareOn, RouteRule.stage, RouteRule.isPlacing,
    RouteRule.priority]

/-- Sharding rules of one priority keep their order among the others. -/
theorem peers_shardingRules (x : ShardingRule) (rules : List RouteRule) :
    peers (compareOn ShardingRule.priority) x (shardingRules rules) =
      shardingRules (peers RouteRule.order (.sharding x) rules) := by
  induction rules with
  | nil => rfl
  | cons rule rules ih =>
      cases rule with
      | sharding r =>
          have hcons : shardingRules (.sharding r :: rules) = r :: shardingRules rules := rfl
          rw [hcons, peers_cons, peers_cons, order_sharding, ih]
          split <;> rfl
      | broadcast r | shadow r | replicas r =>
          rw [peers_cons]
          split <;> exact ih

/-- Rules that are put in order have their sharding rules in order of priority. -/
theorem shardingRules_stableSort (rules : List RouteRule) :
    shardingRules (stableSort RouteRule.order rules) =
      stableSort (compareOn ShardingRule.priority) (shardingRules rules) := by
  apply eq_stableSort
  · refine (stableSort_pairwise rules).filterMap _ fun rule rule' hle r hr r' hr' => ?_
    cases rule <;> cases hr
    cases rule' <;> cases hr'
    rwa [order_sharding] at hle
  · intro x
    rw [peers_shardingRules, peers_stableSort, peers_shardingRules]

namespace RuleSet

/-- The leading sharding rule is the one that decides whether counts are summed. -/
theorem sharding?_ofRules {rules : List RouteRule} {singles : Named String}
    {default : Option String} {rule : ShardingRule} :
    (ofRules rules singles default).sharding? = some rule ↔ Leads rules rule := by
  have hhead : (ofRules rules singles default).sharding? =
      (stableSort (compareOn ShardingRule.priority) (shardingRules rules)).head? := by
    rw [← shardingRules_stableSort, ← rules_ofRules rules singles default, shardingRules,
      List.head?_filterMap]
    rfl
  rw [hhead, head?_stableSort]
  simp only [Leads, compareOn, compare_lt_iff_lt, isLE_compare]

/-- The counts of a statement are summed when the leading sharding rule shards one of its tables. -/
theorem accumulates_ofRules {rules : List RouteRule} {singles : Named String}
    {default : Option String} {statement : Statement} :
    (ofRules rules singles default).accumulates statement = true ↔
      ∃ rule, Leads rules rule ∧ ∃ t ∈ statement.tables, rule.isSharded t = true := by
  unfold accumulates
  cases hrule : (ofRules rules singles default).sharding? with
  | none =>
      refine ⟨fun h => absurd h Bool.false_ne_true, ?_⟩
      rintro ⟨rule, hleads, -⟩
      rw [sharding?_ofRules.mpr hleads] at hrule
      cases hrule
  | some rule =>
      simp only [List.any_eq_true]
      refine ⟨fun h => ⟨rule, sharding?_ofRules.mp hrule, h⟩, ?_⟩
      rintro ⟨leading, hleads, h⟩
      rw [sharding?_ofRules.mpr hleads] at hrule
      cases hrule
      exact h

end RuleSet

/-! ## Tables in several places -/

/-- Where a unit finds a table: the data source and the actual table. -/
def RouteUnit.place (u : RouteUnit) (t : String) : String × String :=
  (u.dataSource.actual, u.actualTable t)

/-- A route sends a table to several places. -/
def Route.Splits (r : Route) (t : String) : Prop :=
  ∃ u ∈ r.units, ∃ v ∈ r.units, u.place t ≠ v.place t

namespace RuleSet

variable {rs : RuleSet} {statement : Statement} {inTransaction : Bool} {turns : Turns}
  {route : Route} {t : String}

/-- A statement with a table in several places that is not broadcast has a sharded table. -/
theorem shardsSome_of_splits (h : (rs.route statement inTransaction turns).1 = .ok route)
    (ht : t ∈ statement.tables) (hbroadcast : ¬ rs.BroadcastsTo t) (hsplits : route.Splits t) :
    rs.ShardsSome statement := by
  by_contra hsharded
  rcases single_of_route hsharded ht hbroadcast h with ⟨w, hw, -⟩
  rcases hsplits with ⟨u, hu, v, hv, hplaces⟩
  rw [hw, List.mem_singleton] at hu hv
  exact hplaces (by rw [hu, hv])

/-- The update counts of a statement with a table in several places are summed exactly when the
leading sharding rule shards a table of the statement, in particular when there is no other sharding
rule.  Otherwise the count of the first unit is reported. -/
theorem accumulates_iff_of_splits {rules : List RouteRule} {singles : Named String}
    {default : Option String}
    (h : ((ofRules rules singles default).route statement inTransaction turns).1 = .ok route)
    (ht : t ∈ statement.tables)
    (hbroadcast : ∀ rule, .broadcast rule ∈ rules → rule.isBroadcast t = false)
    (hsplits : route.Splits t) :
    ((ofRules rules singles default).accumulates statement = true ↔
      ∃ rule, Leads rules rule ∧ ∃ t ∈ statement.tables, rule.isSharded t = true) ∧
    ((shardingRules rules).length ≤ 1 →
      (ofRules rules singles default).accumulates statement = true) ∧
    ∀ (db : Database) (b : Backend) (count : ExecutionUnit → UInt64) (s : Session)
      (history : History) (units : List ExecutionUnit),
      db.rules = ofRules rules singles default → b.CountsBy count →
      (s.route db (b.inTransaction (history ++ [.entered .idle])) statement).1 =
        .ok (.units units) →
      (b.Steady db.report → ∃ result, (s.update db b statement history).answer = .ok result) ∧
      ∀ result, (s.update db b statement history).answer = .ok result →
        result.count =
          if db.rules.accumulates statement then (units.map count).foldr (· + ·) 0
          else (units.map count).head?.getD 0 := by
  have hmem : ∀ rule, rule ∈ (ofRules rules singles default).rules ↔ rule ∈ rules := by
    intro rule
    rw [rules_ofRules, mem_stableSort]
  refine ⟨accumulates_ofRules, fun hone => accumulates_ofRules.mpr ?_, ?_⟩
  · have hnot : ¬ (ofRules rules singles default).BroadcastsTo t := by
      rintro ⟨rule, hrule, hyes⟩
      rw [hbroadcast rule ((hmem _).mp hrule)] at hyes
      cases hyes
    rcases shardsSome_of_splits h ht hnot hsplits with ⟨rule, hrule, hshards⟩
    have honly : shardingRules rules = [rule] := by
      have hrule := mem_shardingRules.mpr ((hmem _).mp hrule)
      cases hrules : shardingRules rules with
      | nil =>
          rw [hrules] at hrule
          cases hrule
      | cons first later =>
          rw [hrules] at hrule hone
          have hlater : later = [] := List.length_eq_zero_iff.mp (by simpa using hone)
          rw [hlater, List.mem_singleton] at hrule
          rw [hlater, hrule]
    exact ⟨rule, ⟨[], [], honly, by simp, by simp⟩, hshards⟩
  · intro db b count s history units hdb hcount hroute
    refine ⟨fun hsteady => Session.update_succeeds hsteady hroute, fun result hresult => ?_⟩
    show result.count = Addition.alone ⟨statement, units⟩ db count
    exact Session.update_count hcount hroute hresult

/-! ### Counts that are left out -/

/-- Users on two data sources. -/
def usersRule : ShardingRule :=
  { priority := 0
    tables := [
      { name := "t_user", nodes := [⟨"ds_0", "t_user_0"⟩, ⟨"ds_1", "t_user_1"⟩]
        placement := none }] }

/-- Orders on two data sources. -/
def ordersRule : ShardingRule :=
  { priority := 0
    tables := [
      { name := "t_order", nodes := [⟨"ds_0", "t_order_0"⟩, ⟨"ds_1", "t_order_1"⟩]
        placement := none }] }

/-- A database with two sharding rules. -/
def shardedBy (first second : ShardingRule) : Database :=
  { orderDatabase with rules := ofRules [.sharding first, .sharding second] [] none }

/-- Both parts of the orders. -/
def purgeRoute : Route :=
  ⟨[⟨.identity "ds_0", [⟨"t_order", "t_order_0"⟩]⟩, ⟨.identity "ds_1", [⟨"t_order", "t_order_1"⟩]⟩]⟩

/-- The route of the purge splits the table of orders. -/
theorem splits_purgeRoute : purgeRoute.Splits "t_order" :=
  ⟨_, List.mem_cons_self, _, List.mem_cons_of_mem _ List.mem_cons_self, by decide⟩

/-- Rules of one priority stay in their order. -/
theorem ofRules_pair {first second : ShardingRule} (h : first.priority ≤ second.priority) :
    ofRules [.sharding first, .sharding second] [] none =
      { rules := [.sharding first, .sharding second], singleTables := []
        defaultDataSource := none } := by
  have hordered : [RouteRule.sharding first, .sharding second].mergeSort RouteRule.mayPrecede =
      [.sharding first, .sharding second] := by
    have hprecedes : (RouteRule.sharding first).mayPrecede (.sharding second) = true :=
      decide_eq_true h
    exact List.mergeSort_of_pairwise (by simpa using hprecedes)
  unfold ofRules
  rw [hordered]
  rfl

/-- The counts of `orderPurge` are summed when the rule of the orders leads. -/
theorem accumulates_iff_of_splits_leadingOrders :
    ((ofRules [.sharding ordersRule, .sharding usersRule] [] none).route orderPurge false []).1 =
      .ok purgeRoute ∧
    "t_order" ∈ orderPurge.tables ∧
    (∀ rule, .broadcast rule ∈ [RouteRule.sharding ordersRule, .sharding usersRule] →
      rule.isBroadcast "t_order" = false) ∧
    purgeRoute.Splits "t_order" ∧
    (ofRules [.sharding ordersRule, .sharding usersRule] [] none).accumulates orderPurge =
      true := by
  have hroute : ((ofRules [.sharding ordersRule, .sharding usersRule] [] none).route orderPurge
      false []).1 = .ok purgeRoute := by
    rw [ofRules_pair (by decide)]
    rfl
  have hbroadcast : ∀ rule, .broadcast rule ∈ [RouteRule.sharding ordersRule, .sharding usersRule] →
      rule.isBroadcast "t_order" = false := by
    simp
  have htable : "t_order" ∈ orderPurge.tables := by decide
  refine ⟨hroute, htable, hbroadcast, splits_purgeRoute, ?_⟩
  refine (accumulates_iff_of_splits hroute htable hbroadcast splits_purgeRoute).1.mpr ?_
  exact ⟨ordersRule, ⟨[], [usersRule], rfl, by simp, by decide⟩, "t_order", htable, by decide⟩

/-- When the rule of the users leads, the count of the second part is left out. -/
theorem not_accumulates_trailingOrders :
    ((ofRules [.sharding usersRule, .sharding ordersRule] [] none).route orderPurge false []).1 =
      .ok purgeRoute ∧
    purgeRoute.Splits "t_order" ∧
    (ofRules [.sharding usersRule, .sharding ordersRule] [] none).accumulates orderPurge = false ∧
    Backend.untroubled.CountsBy (fun _ => 1) ∧
    (Session.update (shardedBy ordersRule usersRule) .untroubled orderPurge {}
      []).answer.toOption.map (·.count) = some 2 ∧
    (Session.update (shardedBy usersRule ordersRule) .untroubled orderPurge {}
      []).answer.toOption.map (·.count) = some 1 := by
  unfold shardedBy
  rw [ofRules_pair (by decide), ofRules_pair (by decide)]
  exact ⟨rfl, splits_purgeRoute, rfl, fun _ _ => ⟨[], rfl⟩, by decide +kernel, by decide +kernel⟩

end RuleSet

end ShardedSql
