import ShardedSql.Proofs.Route.Coverage
import ShardedSql.Proofs.Sorting.Stable

/-!
# Stages of routing

A statement is placed first: the placing rules and the single tables give it units on data sources
that stand for themselves.  The redirecting rules come afterwards.  Of one configuration there are
at most two of them, a shadow rule and a read/write splitting rule, and what is placed does not
depend on either.

Main results:

- Theorem `RuleSet.route_eq_ok`: a route is what the redirecting rules make of the placed one.
- Theorem `RuleSet.placed_spec`: placed units are all different, and none of them is renamed.
- Theorem `RuleSet.redirectingRules_of_setUp`: the redirecting rules of a configuration, in order.
- Theorem `RuleSet.setUp_placingOnly`: without its redirecting rules a configuration places
  statements as before.
-/

namespace ShardedSql

open Std Route

/-! ## The order of rules -/

namespace RouteRule

/-- Placing rules come before redirecting ones. -/
def stage (rule : RouteRule) : Nat :=
  if rule.isPlacing then 0 else 1

/-- Rules are ordered by their stage, then by their priority. -/
def order : RouteRule → RouteRule → Ordering :=
  compareLex (compareOn stage) (compareOn priority)

instance : TransCmp order :=
  inferInstanceAs (TransCmp (compareLex (compareOn stage) (compareOn priority)))

/-- A rule may precede another one if it is not greater. -/
theorem mayPrecede_eq_isLE (a b : RouteRule) : a.mayPrecede b = (order a b).isLE := by
  have hpriority : (compare a.priority b.priority).isLE = decide (a.priority ≤ b.priority) := by
    rw [Bool.eq_iff_iff, Std.isLE_compare, decide_eq_true_eq]
  have hbefore : compare 0 1 = Ordering.lt := by decide
  have hafter : compare 1 0 = Ordering.gt := by decide
  cases ha : a.isPlacing <;> cases hb : b.isPlacing <;>
    simp [mayPrecede, order, compareLex, compareOn, stage, ha, hb, hpriority, hbefore, hafter]

end RouteRule

namespace Balancing

variable {α β : Type} {f : β → α → Balancing β} {turns : Turns} {b b' : β}

theorem foldlM_single_eq_ok {x : α} :
    ([x].foldlM f b turns).1 = .ok b' ↔ (f b x turns).1 = .ok b' := by
  rw [List.foldlM_cons, bind_eq_ok]
  constructor
  · rintro ⟨next, hnext, hrest⟩
    cases hrest
    exact hnext
  · exact fun h => ⟨b', h, rfl⟩

/-- Two rules are applied one after the other. -/
theorem foldlM_pair_eq_ok {x y : α} :
    ([x, y].foldlM f b turns).1 = .ok b' ↔
      ∃ halfway, (f b x turns).1 = .ok halfway ∧ (f halfway y (f b x turns).2).1 = .ok b' := by
  rw [List.foldlM_cons, bind_eq_ok]
  simp only [foldlM_single_eq_ok]

end Balancing

namespace RuleSet

/-- The placing rules, in order. -/
def placingRules (rs : RuleSet) : List RouteRule :=
  rs.rules.filter (·.isPlacing)

/-- The redirecting rules, in order. -/
def redirectingRules (rs : RuleSet) : List RouteRule :=
  rs.rules.filter (!·.isPlacing)

/-- Rules are kept in order of priority. -/
theorem rules_ofRules (rules : List RouteRule) (singleTables : Named String)
    (default : Option String) :
    (ofRules rules singleTables default).rules = stableSort RouteRule.order rules := by
  show rules.mergeSort RouteRule.mayPrecede = _
  exact mergeSort_congr fun a _ b _ => RouteRule.mayPrecede_eq_isLE a b

/-- Rules that are set up in order stay in order. -/
theorem setUp_eq_ok {patterns : PatternLibrary} {rules : Rules}
    {default : Option String} {all : List RouteRule}
    (h : setUpRules patterns 0 rules = .ok all)
    (hordered : all.Pairwise fun a b => a.mayPrecede b) :
    setUp patterns rules default = .ok
      { rules := all
        singleTables := rules.singleTables.map fun (table, ds) => (Text.lower table, ds)
        defaultDataSource := default } := by
  unfold setUp
  rw [h]
  show Except.ok (ofRules all _ _) = _
  unfold ofRules
  rw [List.mergeSort_of_pairwise hordered]

/-- A shadow rule and a read/write splitting rule, if they are there. -/
def redirecting (shadow : Option ShadowRule) (replicas : Option ReplicaRule) : List RouteRule :=
  (shadow.map .shadow).toList ++ (replicas.map .replicas).toList

/-- A rule that redirects does not place tables. -/
theorem isPlacing_of_mem_redirecting {shadow : Option ShadowRule} {replicas : Option ReplicaRule} :
    ∀ rule ∈ redirecting shadow replicas, rule.isPlacing = false := by
  cases shadow <;> cases replicas <;> simp [redirecting, RouteRule.isPlacing]

/-- The rules of a configuration: some that place tables, at most one shadow rule and at most one
read/write splitting rule.  Without the latter two the placing ones are left. -/
theorem exists_of_setUp {patterns : PatternLibrary} {rules : Rules}
    {default : Option String} {rs : RuleSet}
    (h : setUp patterns rules default = .ok rs) :
    ∃ placing shadow replicas, (∀ rule ∈ placing, rule.isPlacing = true) ∧
      rs = ofRules (placing ++ redirecting shadow replicas) rules.singleTables default ∧
      setUp patterns { rules with shadow := none, replicas := none } default =
        .ok (ofRules placing rules.singleTables default) := by
  rcases Except.bind_eq_ok.mp h with ⟨all, hall, hrs⟩
  unfold setUpRules AlgorithmRegistry.setUp at hall
  simp only [Except.bind_eq_ok] at hall
  rcases hall with ⟨registry, ⟨shardingAlgorithms, halgorithms, shadowAlgorithms, -, policies, -,
    hregistry⟩, sharding, hsharding, broadcast, hbroadcast, shadow, -, replicas, -, hall⟩
  cases hregistry
  cases hall
  cases hrs
  refine ⟨(sharding.map .sharding).toList ++ (broadcast.map .broadcast).toList,
    shadow, replicas, ?_, ?_, ?_⟩
  · cases sharding <;> cases broadcast <;> simp [RouteRule.isPlacing]
  · rw [redirecting, List.append_assoc, List.append_assoc]
  · apply Except.bind_eq_ok.mpr
    refine ⟨_, Except.bind_eq_ok.mpr ⟨⟨shardingAlgorithms, [], []⟩, ?_, ?_⟩, rfl⟩
    · exact Except.bind_eq_ok.mpr ⟨shardingAlgorithms, halgorithms, rfl⟩
    · refine Except.bind_eq_ok.mpr ⟨sharding, hsharding, ?_⟩
      refine Except.bind_eq_ok.mpr ⟨broadcast, hbroadcast, ?_⟩
      show Except.ok _ = Except.ok _
      simp

/-- The redirecting rules of a configuration, in order. -/
theorem redirectingRules_of_setUp {patterns : PatternLibrary} {rules : Rules}
    {default : Option String} {rs : RuleSet}
    (h : setUp patterns rules default = .ok rs) :
    ∃ shadow replicas,
      rs.redirectingRules = stableSort RouteRule.order (redirecting shadow replicas) := by
  rcases exists_of_setUp h with ⟨placing, shadow, replicas, hplacing, rfl, -⟩
  refine ⟨shadow, replicas, ?_⟩
  have hnone : placing.filter (!·.isPlacing) = [] := by
    rw [List.filter_eq_nil_iff]
    intro rule hrule
    simp [hplacing rule hrule]
  have hall : (redirecting shadow replicas).filter (!·.isPlacing) =
      redirecting shadow replicas := by
    rw [List.filter_eq_self]
    intro rule hrule
    simp [isPlacing_of_mem_redirecting rule hrule]
  rw [redirectingRules, rules_ofRules, filter_stableSort, List.filter_append, hnone, hall,
    List.nil_append]

/-- Without its redirecting rules a configuration has the same placing rules. -/
theorem setUp_placingOnly {patterns : PatternLibrary} {rules : Rules}
    {default : Option String} {rs : RuleSet}
    (h : setUp patterns rules default = .ok rs) :
    setUp patterns { rules with shadow := none, replicas := none } default =
      .ok { rs with rules := rs.placingRules } := by
  rcases exists_of_setUp h with ⟨placing, shadow, replicas, hplacing, rfl, hsetUp⟩
  rw [hsetUp]
  have hall : placing.filter (·.isPlacing) = placing := List.filter_eq_self.mpr hplacing
  have hnone : (redirecting shadow replicas).filter (·.isPlacing) = [] := by
    rw [List.filter_eq_nil_iff]
    intro rule hrule
    simp [isPlacing_of_mem_redirecting rule hrule]
  have hrules : (ofRules (placing ++ redirecting shadow replicas) rules.singleTables
      default).placingRules = (ofRules placing rules.singleTables default).rules := by
    rw [placingRules, rules_ofRules, rules_ofRules, filter_stableSort, List.filter_append, hall,
      hnone, List.append_nil]
  rw [hrules]
  rfl

end RuleSet

/-! ## Placed units -/

namespace Route

/-- Every data source stands for itself. -/
def Unrenamed (r : Route) : Prop :=
  ∀ u ∈ r.units, u.dataSource.actual = u.dataSource.logical

theorem unrenamed_empty : Unrenamed empty := by simp [Unrenamed, empty]

/-- An unrenamed route stays one when such a unit is added. -/
theorem Unrenamed.add {r : Route} (h : r.Unrenamed) {u : RouteUnit}
    (hu : u.dataSource.actual = u.dataSource.logical) : (r.add u).Unrenamed := by
  intro v hv
  rcases mem_add.mp hv with hv | rfl
  · exact h v hv
  · exact hu

/-- A route of units on their own data sources is unrenamed. -/
theorem unrenamed_ofUnits {us : List RouteUnit}
    (h : ∀ u ∈ us, u.dataSource.actual = u.dataSource.logical) : (ofUnits us).Unrenamed :=
  fun u hu => h u (mem_ofUnits.mp hu)

/-- Narrowing by such units keeps it so. -/
theorem Unrenamed.narrow {r narrowed : Route} (hr : r.Unrenamed) {candidates : List RouteUnit}
    (hcandidates : ∀ c ∈ candidates, c.dataSource.actual = c.dataSource.logical) {rule : String}
    (h : r.narrow candidates rule = .ok narrowed) : narrowed.Unrenamed := by
  intro m hm
  rcases (narrow_spec h).2.2 m hm with ⟨u, hu, c, hc, harises⟩
  have hsame : c.dataSource.logical = u.dataSource.actual := by
    have hpairs := harises.pairs
    rw [RouteUnit.pairsWith, ← hr u hu, Bool.or_self] at hpairs
    exact beq_iff_eq.mp hpairs
  have hmerged := harises.dataSource
  rw [mergeDataSources, if_pos (beq_iff_eq.mpr hsame)] at hmerged
  rw [← Except.ok.inj hmerged]
  show c.dataSource.actual = u.dataSource.logical
  rw [hcandidates c hc, hsame, hr u hu]

/-- So does refining. -/
theorem Unrenamed.refine {r next : Route} (hr : r.Unrenamed) {found : Option (List RouteUnit)}
    (hfound : ∀ us, found = some us → ∀ u ∈ us, u.dataSource.actual = u.dataSource.logical)
    {rule : String} (h : r.refine rule found = .ok next) : next.Unrenamed := by
  cases found with
  | none =>
      cases h
      exact hr
  | some us =>
      cases us with
      | nil => cases h
      | cons u us =>
          rw [Route.refine] at h
          split at h
          · cases h
            exact unrenamed_ofUnits (hfound _ rfl)
          · exact hr.narrow (hfound _ rfl) h

end Route

/-- The units of a sharding rule are on their own data sources. -/
theorem ShardingRule.unrenamed_of_route {rule : ShardingRule} {statement : Statement}
    {us : List RouteUnit} (h : rule.route statement = .ok (some us)) :
    ∀ u ∈ us, u.dataSource.actual = u.dataSource.logical := by
  rcases Except.bind_eq_ok.mp h with ⟨selections, -, h⟩
  dsimp only at h
  split at h
  · cases h
  · split at h
    · cases h
    · cases h
      intro u hu
      rcases List.mem_flatMap.mp hu with ⟨ds, -, hu⟩
      rcases List.mem_map.mp hu with ⟨tables, -, rfl⟩
      rfl

/-- So are those of a broadcast rule. -/
theorem BroadcastRule.unrenamed_of_route {rule : BroadcastRule} {statement : Statement}
    {route : Route} {us : List RouteUnit} (h : rule.route statement route = some us) :
    ∀ u ∈ us, u.dataSource.actual = u.dataSource.logical := by
  rw [BroadcastRule.route_eq] at h
  split at h
  · cases h
  · cases h
    intro u hu
    rcases List.mem_map.mp hu with ⟨ds, -, rfl⟩
    rfl

namespace RuleSet

/-- A rule that places tables renames no data source. -/
theorem unrenamed_place {statement : Statement} {r next : Route} (hr : r.Unrenamed)
    {rule : RouteRule} (h : place statement r rule = .ok next) : next.Unrenamed := by
  cases rule with
  | sharding rule =>
      rcases Except.bind_eq_ok.mp h with ⟨found, hfound, hnext⟩
      exact hr.refine (fun us hus => rule.unrenamed_of_route (hus ▸ hfound)) hnext
  | broadcast rule => exact hr.refine (fun us hus => rule.unrenamed_of_route hus) h
  | shadow rule | replicas rule =>
      cases h
      exact hr

/-- Nor does placing a single table. -/
theorem unrenamed_addSingleTable {rs : RuleSet} {r next : Route} (hr : r.Unrenamed) {t : String}
    (h : rs.addSingleTable r t = .ok next) : next.Unrenamed := by
  by_cases hnil : r.units = []
  · have hempty : r = empty := congrArg Route.mk hnil
    subst hempty
    rw [addSingleTable_empty] at h
    split at h
    · cases h
    · cases h
      intro u hu
      rw [List.mem_singleton.mp hu]
      rfl
  · rw [addSingleTable_eq hnil] at h
    split at h
    · cases h
    · split at h
      · cases h
      · cases h
        apply unrenamed_ofUnits
        intro m hm
        rcases List.mem_map.mp hm with ⟨u, hu, rfl⟩
        exact hr u (List.mem_filter.mp hu).1

/-- Nor does placing all of them. -/
theorem unrenamed_routeSingleTables {rs : RuleSet} {statement : Statement} {r next : Route}
    (hr : r.Unrenamed) (h : rs.routeSingleTables statement r = .ok next) : next.Unrenamed := by
  unfold routeSingleTables at h
  dsimp only at h
  split at h
  · split at h
    · split at h
      · cases h
        exact hr.add rfl
      · cases h
    · cases h
      exact hr
  · exact foldlM_preserves (fun t _ r next hr hnext => unrenamed_addSingleTable hr hnext) hr h

/-- What the placing rules and the single tables make of a statement. -/
def placed (rs : RuleSet) (statement : Statement) : Except Fault Route :=
  rs.placingRules.foldlM (place statement) Route.empty >>= rs.routeSingleTables statement

section Route

variable {rs : RuleSet} {statement : Statement} {inTransaction : Bool} {turns : Turns}

/-- A route is what the redirecting rules make of the placed one. -/
theorem route_eq_ok {route : Route} :
    (rs.route statement inTransaction turns).1 = .ok route ↔
      ∃ base, rs.placed statement = .ok base ∧
        (rs.redirectingRules.foldlM (applyRule statement inTransaction) base turns).1 =
          .ok route := by
  have hplacing : ∀ rule ∈ rs.placingRules, rule.isPlacing = true :=
    fun rule hrule => (List.mem_filter.mp hrule).2
  have hpartition : rs.rules.partition (·.isPlacing) = (rs.placingRules, rs.redirectingRules) :=
    List.partition_eq_filter_filter
  unfold RuleSet.route placed
  rw [hpartition]
  simp only [foldlM_applyRule hplacing, Except.bind_eq_ok]
  constructor
  · intro h
    rcases Balancing.bind_eq_ok.mp h with ⟨placed, hplaced, hrest⟩
    rcases Balancing.bind_eq_ok.mp hrest with ⟨base, hbase, hroute⟩
    exact ⟨base, ⟨placed, hplaced, hbase⟩, hroute⟩
  · rintro ⟨base, ⟨placed, hplaced, hbase⟩, hroute⟩
    exact Balancing.bind_eq_ok.mpr ⟨placed, hplaced, Balancing.bind_eq_ok.mpr ⟨base, hbase, hroute⟩⟩

/-- The broadcast rule is a placing rule. -/
theorem broadcast?_placingOnly (rs : RuleSet) :
    broadcast? { rs with rules := rs.placingRules } = rs.broadcast? := by
  unfold broadcast? placingRules
  induction rs.rules with
  | nil => rfl
  | cons rule rules ih => cases rule <;> simp_all [RouteRule.isPlacing]

/-- Without redirecting rules a statement is routed to its placed units. -/
theorem route_placingOnly {base : Route} :
    (route { rs with rules := rs.placingRules } statement inTransaction turns).1 = .ok base ↔
      rs.placed statement = .ok base := by
  have hplacing : placingRules { rs with rules := rs.placingRules } = rs.placingRules := by
    simp [placingRules]
  have hredirecting : redirectingRules { rs with rules := rs.placingRules } = [] := by
    simp [redirectingRules, placingRules]
  have hsingle : routeSingleTables { rs with rules := rs.placingRules } =
      rs.routeSingleTables := by
    unfold routeSingleTables fallback?
    rw [broadcast?_placingOnly]
    rfl
  have hplaced : placed { rs with rules := rs.placingRules } statement = rs.placed statement := by
    rw [placed, placed, hplacing, hsingle]
  rw [route_eq_ok, hplaced, hredirecting]
  constructor
  · rintro ⟨complete, hcomplete, hbase⟩
    cases hbase
    exact hcomplete
  · intro h
    exact ⟨base, h, rfl⟩

/-- Placed units are all different, there is one at least, and none of them is renamed. -/
theorem placed_spec {base : Route} (h : rs.placed statement = .ok base) :
    base.units ≠ [] ∧ base.units.Nodup ∧ base.Unrenamed := by
  rcases covers_of_route ((@route_placingOnly rs statement false [] base).mpr h) with
    ⟨hnonempty, hnodup, -⟩
  refine ⟨hnonempty, hnodup, ?_⟩
  rcases Except.bind_eq_ok.mp h with ⟨placed, hplaced, hbase⟩
  apply unrenamed_routeSingleTables _ hbase
  exact foldlM_preserves (fun rule _ r next hr hnext => unrenamed_place hr hnext) unrenamed_empty
    hplaced

end Route

end RuleSet

end ShardedSql
