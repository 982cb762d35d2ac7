import ShardedSql.Pattern.Reader
import ShardedSql.Proofs.Route.Renaming

/-!
# Shares of redirected units

Redirecting rules are meant to rename data sources, and nothing else: the units of a statement stay
as many as they are, in their order, and keep their shares.  One rule alone does that.  Of two rules
the second one may find units that the first one has moved to the data sources of others; such a
unit is there twice when its new data source is renamed as well.

Main results:

- Theorem `Route.RenamedBy.share_iff`: when renaming keeps the shares of a route.
- Theorem `RuleSet.share_iff_of_applyRules`: of two rules the second one decides.
- Theorem `RuleSet.share_iff_of_setUp`: when the redirecting rules of a configuration keep them.
- Theorem `RuleSet.share_ne_chainedOrders`: a unit that is there twice.
-/

namespace ShardedSql

open Route RouteUnit

namespace Route

/-- A route whose units have different shares. -/
def Apart (r : Route) : Prop := (r.units.map share).Nodup

/-- Placed units have different shares. -/
theorem Unrenamed.apart {r : Route} (h : r.Unrenamed) (hnodup : r.units.Nodup) : r.Apart := by
  apply hnodup.map_on
  rintro ⟨⟨logical, actual⟩, tables⟩ hu ⟨⟨logical', actual'⟩, tables'⟩ hv hshare
  cases hshare
  have hactual : actual = logical := h _ hu
  have hactual' : actual' = logical := h _ hv
  rw [hactual, hactual']

/-- Units that are not renamed meet no others. -/
theorem Unrenamed.not_meets {r : Route} (h : r.Unrenamed) {u : RouteUnit} (hu : u ∈ r.units) :
    ¬ r.Meets u :=
  fun hmeets => hmeets.1 (h u hu).symm

/-- Renaming keeps the shares of units exactly when no unit that meets another is renamed. -/
theorem RenamedBy.share_iff {r next : Route} {f : String → String} (h : r.RenamedBy f next)
    (hr : r.Apart) :
    next.units.map share = r.units.map share ↔
      ∀ u ∈ r.units, r.Meets u → f u.dataSource.actual = u.dataSource.actual := by
  have hshares : (r.units.map (renamed f)).map share = r.units.map share := by
    rw [List.map_map]
    rfl
  constructor
  · intro hsame u hu hmeets
    -- The unit is there renamed and as it was; both have one share.
    have hrenamed : u.renamed f ∈ next.units := (h.mem_iff _).mpr ⟨u, hu, .inl rfl⟩
    have hkept : u ∈ next.units := (h.mem_iff _).mpr ⟨u, hu, .inr ⟨rfl, hmeets⟩⟩
    have hnodup : (next.units.map share).Nodup := by
      rw [hsame]
      exact hr
    have hequal := List.inj_on_of_nodup_map hnodup hrenamed hkept (share_renamed f u)
    exact congrArg (·.dataSource.actual) hequal
  · intro hkept
    have hnodup : (r.units.map (renamed f)).Nodup := by
      apply List.Nodup.of_map share
      rw [hshares]
      exact hr
    rw [h.eq_map hkept hnodup, hshares]

end Route

/-- A rule divides a unit of a route: it renames one that meets another. -/
def RouteRule.Divides (rule : RouteRule) (statement : Statement) (r : Route)
    (inTransaction : Bool) (turns : Turns) : Prop :=
  ∃ candidates, (rule.route statement r inTransaction turns).1 = .ok (some candidates) ∧
    ∃ u ∈ r.units, r.Meets u ∧ ∃ c ∈ candidates,
      c.dataSource.logical = u.dataSource.actual ∧ c.dataSource.actual ≠ u.dataSource.actual

namespace RuleSet

variable {statement : Statement} {inTransaction : Bool} {turns : Turns}

/-- One redirecting rule keeps the shares of units exactly when it divides none of them. -/
theorem share_iff_of_applyRule {rule : RouteRule} (hrule : rule.isPlacing = false)
    {r next : Route} (hsome : r.units ≠ []) (hr : r.Apart)
    (h : (applyRule statement inTransaction r rule turns).1 = .ok next) :
    next.units.map share = r.units.map share ↔
      ¬ rule.Divides statement r inTransaction turns := by
  rcases renamedBy_of_applyRule hrule hsome h with ⟨hnone, rfl⟩ | ⟨f, hfound, hrenamed⟩
  · refine ⟨?_, fun _ => rfl⟩
    rintro - ⟨candidates, hcandidates, -⟩
    rw [hnone] at hcandidates
    cases hcandidates
  · rw [hrenamed.share_iff hr]
    constructor
    · rintro hkept ⟨candidates, hcandidates, u, hu, hmeets, c, hc, hlogical, hactual⟩
      rw [hfound] at hcandidates
      cases hcandidates
      rcases mem_redirections.mp hc with ⟨v, -, rfl⟩
      have hsame : v.dataSource.actual = u.dataSource.actual := hlogical
      apply hactual
      show f v.dataSource.actual = u.dataSource.actual
      rw [hsame, hkept u hu hmeets]
    · intro hdivides u hu hmeets
      by_contra hrenames
      exact hdivides ⟨_, hfound, u, hu, hmeets, u.redirection f,
        mem_redirections.mpr ⟨u, hu, rfl⟩, rfl, hrenames⟩

/-- The first redirecting rule keeps the shares of placed units. -/
theorem share_of_applyRule {rule : RouteRule} (hrule : rule.isPlacing = false) {base next : Route}
    (hsome : base.units ≠ []) (hapart : base.Apart) (hunrenamed : base.Unrenamed)
    (h : (applyRule statement inTransaction base rule turns).1 = .ok next) :
    next.units.map share = base.units.map share := by
  rw [share_iff_of_applyRule hrule hsome hapart h]
  rintro ⟨-, -, u, hu, hmeets, -⟩
  exact hunrenamed.not_meets hu hmeets

/-- Of two redirecting rules the second one keeps the shares of placed units exactly when it divides
none of those that the first one has moved. -/
theorem share_iff_of_applyRules {first second : RouteRule} (hfirst : first.isPlacing = false)
    (hsecond : second.isPlacing = false) {base halfway next : Route} (hsome : base.units ≠ [])
    (hapart : base.Apart) (hunrenamed : base.Unrenamed) {later : Turns}
    (hhalfway : (applyRule statement inTransaction base first turns).1 = .ok halfway)
    (hnext : (applyRule statement inTransaction halfway second later).1 = .ok next) :
    next.units.map share = base.units.map share ↔
      ¬ second.Divides statement halfway inTransaction later := by
  have hshares := share_of_applyRule hfirst hsome hapart hunrenamed hhalfway
  have hhalfwaySome : halfway.units ≠ [] := by
    intro hnil
    rw [hnil] at hshares
    exact hsome (List.map_eq_nil_iff.mp hshares.symm)
  have hhalfwayApart : halfway.Apart := by
    rw [Apart, hshares]
    exact hapart
  rw [← hshares, share_iff_of_applyRule hsecond hhalfwaySome hhalfwayApart hnext]

/-- Two redirecting rules cross on a route: the first one moves a unit away and another unit to its
data source, and the second one divides the unit. -/
def Crosses (rs : RuleSet) (statement : Statement) (inTransaction : Bool) (turns : Turns)
    (base : Route) : Prop :=
  ∃ first second halfway, rs.redirectingRules = [first, second] ∧
    (applyRule statement inTransaction base first turns).1 = .ok halfway ∧
    second.Divides statement halfway inTransaction
      (applyRule statement inTransaction base first turns).2

/-- Fewer than two rules do not cross. -/
theorem not_crosses {rs : RuleSet} (h : rs.redirectingRules.length < 2) (base : Route) :
    ¬ rs.Crosses statement inTransaction turns base := by
  rintro ⟨first, second, -, hrules, -⟩
  rw [hrules] at h
  exact absurd h (by simp)

/-- Two rules cross when the second one divides a unit. -/
theorem crosses_iff {rs : RuleSet} {first second : RouteRule} {base halfway : Route}
    (hrules : rs.redirectingRules = [first, second])
    (hhalfway : (applyRule statement inTransaction base first turns).1 = .ok halfway) :
    rs.Crosses statement inTransaction turns base ↔ second.Divides statement halfway inTransaction
      (applyRule statement inTransaction base first turns).2 := by
  refine ⟨?_, fun hdivides => ⟨first, second, halfway, hrules, hhalfway, hdivides⟩⟩
  rintro ⟨first', second', halfway', hrules', hhalfway', hdivides⟩
  rw [hrules] at hrules'
  cases hrules'
  cases hhalfway.symm.trans hhalfway'
  exact hdivides

/-- The redirecting rules of a configuration are at most two. -/
theorem redirectingRules_cases {patterns : PatternLibrary} {rules : Rules}
    {default : Option String} {rs : RuleSet}
    (h : setUp patterns rules default = .ok rs) :
    rs.redirectingRules = [] ∨ (∃ rule, rs.redirectingRules = [rule]) ∨
      ∃ first second, rs.redirectingRules = [first, second] := by
  rcases redirectingRules_of_setUp h with ⟨shadow, replicas, hrules⟩
  have hlength : rs.redirectingRules.length ≤ 2 := by
    rw [hrules, stableSort, List.length_mergeSort]
    cases shadow <;> cases replicas <;> simp [redirecting]
  rcases hlist : rs.redirectingRules with _ | ⟨first, _ | ⟨second, _ | ⟨third, rest⟩⟩⟩
  · exact .inl rfl
  · exact .inr (.inl ⟨first, rfl⟩)
  · exact .inr (.inr ⟨first, second, rfl⟩)
  · rw [hlist] at hlength
    exact absurd hlength (by simp)

/-- With its redirecting rules a configuration routes a statement to as many units as without them,
in the same order and with the same shares, exactly unless two rules cross. -/
theorem share_iff_of_setUp {patterns : PatternLibrary} {rules : Rules}
    {default : Option String} {rs plain : RuleSet}
    (hsetUp : setUp patterns rules default = .ok rs)
    (hplain : setUp patterns { rules with shadow := none, replicas := none } default = .ok plain)
    {statement : Statement} {inTransaction : Bool} {turns plainTurns : Turns} {route base : Route}
    (hroute : (rs.route statement inTransaction turns).1 = .ok route)
    (hbase : (plain.route statement inTransaction plainTurns).1 = .ok base) :
    route.units.map share = base.units.map share ↔
      ¬ rs.Crosses statement inTransaction turns base := by
  have hsame : plain = { rs with rules := rs.placingRules } :=
    Except.ok.inj (hplain.symm.trans (setUp_placingOnly hsetUp))
  rw [hsame] at hbase
  have hplaced : rs.placed statement = .ok base := route_placingOnly.mp hbase
  rcases placed_spec hplaced with ⟨hsome, hnodup, hunrenamed⟩
  have hapart := hunrenamed.apart hnodup
  rcases route_eq_ok.mp hroute with ⟨base', hplaced', hredirected⟩
  cases hplaced.symm.trans hplaced'
  have hredirecting : ∀ rule ∈ rs.redirectingRules, rule.isPlacing = false := by
    intro rule hrule
    simpa using (List.mem_filter.mp hrule).2
  rcases redirectingRules_cases hsetUp with hrules | ⟨rule, hrules⟩ | ⟨first, second, hrules⟩
  · rw [hrules] at hredirected
    cases hredirected
    exact iff_of_true rfl (not_crosses (by simp [hrules]) _)
  · rw [hrules, Balancing.foldlM_single_eq_ok] at hredirected
    have hkept := share_of_applyRule (hredirecting rule (by simp [hrules])) hsome hapart hunrenamed
      hredirected
    exact iff_of_true hkept (not_crosses (by simp [hrules]) _)
  · rw [hrules, Balancing.foldlM_pair_eq_ok] at hredirected
    rcases hredirected with ⟨halfway, hhalfway, hnext⟩
    rw [crosses_iff hrules hhalfway]
    exact share_iff_of_applyRules (hredirecting first (by simp [hrules]))
      (hredirecting second (by simp [hrules])) hsome hapart hunrenamed hhalfway hnext

/-- Orders on two data sources.  The shadow of the first is the second, whose shadow is given; the
third data source is a group of a writer and a reader. -/
def chainedRules (last : String) : Rules :=
  { sharding := some
      { tables := [("t_order", { nodes := ["ds_0.t_order_0", "ds_1.t_order_1"] })] }
    shadow := some
      { pairs := [
          { name := "pair_0", production := "ds_0", shadow := "ds_1" },
          { name := "pair_1", production := "ds_1", shadow := last }]
        tables := [("t_order", { pairs := ["pair_0", "pair_1"], algorithms := ["comment"] })]
        algorithms := [("comment", { type := "SQL_HINT", properties := [] })] }
    replicas := some
      { groups := [{ name := "ds_2", writer := "ds_2_writer", readers := ["ds_2_reader"] }] } }

/-- The sharding rule of `chainedRules`. -/
def chainedSharding : ShardingRule :=
  { priority := 0
    tables := [
      { name := "t_order"
        nodes := [⟨"ds_0", "t_order_0"⟩, ⟨"ds_1", "t_order_1"⟩]
        placement := none }] }

/-- The rule set of `chainedRules`. -/
def chainedRuleSet (last : String) : RuleSet :=
  { rules :=
      [.sharding chainedSharding,
        .shadow
          { priority := 20
            pairs := [
              { name := "pair_0", production := "ds_0", shadow := "ds_1" },
              { name := "pair_1", production := "ds_1", shadow := last }]
            tables := [("t_order", { pairs := ["pair_0", "pair_1"], algorithms := [.hint] })] },
        .replicas
          { priority := 30
            groups := [
              { name := "ds_2", writer := "ds_2_writer", readers := ["ds_2_reader"]
                balancer := { key := .own 0 0, policy := .roundRobin } }] }]
    singleTables := []
    defaultDataSource := none }

/-- The chained rules make up `chainedRuleSet`. -/
theorem setUp_chainedRules (last : String) :
    setUp Pattern.library (chainedRules last) none = .ok (chainedRuleSet last) := by
  have hregistry : AlgorithmRegistry.setUp Pattern.library (chainedRules last) =
      .ok { sharding := [], shadow := [("comment", .hint)], balancers := [] } := by
    rfl
  have htable : ShardedTable.setUp [] "t_order"
      { nodes := ["ds_0.t_order_0", "ds_1.t_order_1"] } =
        .ok { name := "t_order"
              nodes := [⟨"ds_0", "t_order_0"⟩, ⟨"ds_1", "t_order_1"⟩]
              placement := none } := by
    rfl
  have hsharding : (chainedRules last).sharding.mapM (ShardingRule.setUp []) =
      .ok (some chainedSharding) := by
    simp [chainedRules, chainedSharding, ShardingRule.setUp, htable, bind, Except.bind, pure,
      Except.pure, ShardingRule.defaultPriority]
  have hrules : setUpRules Pattern.library 0 (chainedRules last) =
      .ok (chainedRuleSet last).rules := by
    unfold setUpRules
    rw [hregistry]
    simp only [bind, Except.bind, hsharding]
    rfl
  apply setUp_eq_ok hrules
  simp [chainedRuleSet, RouteRule.mayPrecede, RouteRule.isPlacing, RouteRule.priority]

/-- A statement on all orders with a comment that asks for the shadows. -/
def shadowOrders : Statement :=
  { sql := "/* shadow:true */ SELECT * FROM t_order"
    tables := ["t_order"]
    comments := ["/* shadow:true */"] }

/-- All orders on their data sources. -/
def placedOrders : Route :=
  ⟨[{ dataSource := .identity "ds_0", tables := [⟨"t_order", "t_order_0"⟩] },
    { dataSource := .identity "ds_1", tables := [⟨"t_order", "t_order_1"⟩] }]⟩

/-- A shadow that is not a group leaves the shares of all orders as they are. -/
theorem share_iff_of_setUp_shadowOrders :
    ∃ plain route, setUp Pattern.library (chainedRules "ds_3") none = .ok (chainedRuleSet "ds_3") ∧
      setUp Pattern.library { chainedRules "ds_3" with shadow := none, replicas := none } none =
        .ok plain ∧
      ((chainedRuleSet "ds_3").route shadowOrders false []).1 = .ok route ∧
      (plain.route shadowOrders false []).1 = .ok placedOrders ∧
      route.units.map share = placedOrders.units.map share ∧
      ¬ (chainedRuleSet "ds_3").Crosses shadowOrders false [] placedOrders := by
  have hplain := setUp_placingOnly (setUp_chainedRules "ds_3")
  have hroute : ((chainedRuleSet "ds_3").route shadowOrders false []).1 =
      .ok ⟨[{ dataSource := ⟨"ds_0", "ds_1"⟩, tables := [⟨"t_order", "t_order_0"⟩] },
        { dataSource := ⟨"ds_1", "ds_3"⟩, tables := [⟨"t_order", "t_order_1"⟩] }]⟩ := by
    rfl
  have hbase : (route { chainedRuleSet "ds_3" with rules := (chainedRuleSet "ds_3").placingRules }
      shadowOrders false []).1 = .ok placedOrders := by
    rfl
  refine ⟨_, _, setUp_chainedRules "ds_3", hplain, hroute, hbase, rfl, ?_⟩
  exact (share_iff_of_setUp (setUp_chainedRules "ds_3") hplain hroute hbase).mp rfl

/-- When the shadow of the second data source is the group, its orders are read twice: from the
reader of the group, and from the data source that the group stands for. -/
theorem share_ne_chainedOrders :
    ∃ plain route, setUp Pattern.library (chainedRules "ds_2") none = .ok (chainedRuleSet "ds_2") ∧
      setUp Pattern.library { chainedRules "ds_2" with shadow := none, replicas := none } none =
        .ok plain ∧
      ((chainedRuleSet "ds_2").route shadowOrders false []).1 = .ok route ∧
      (plain.route shadowOrders false []).1 = .ok placedOrders ∧
      route.units.map (·.dataSource) =
        [⟨"ds_0", "ds_1"⟩, ⟨"ds_1", "ds_2"⟩, ⟨"ds_1", "ds_2_reader"⟩] ∧
      route.units.map share ≠ placedOrders.units.map share := by
  have hplain := setUp_placingOnly (setUp_chainedRules "ds_2")
  have hroute : ((chainedRuleSet "ds_2").route shadowOrders false []).1 =
      .ok ⟨[{ dataSource := ⟨"ds_0", "ds_1"⟩, tables := [⟨"t_order", "t_order_0"⟩] },
        { dataSource := ⟨"ds_1", "ds_2"⟩, tables := [⟨"t_order", "t_order_1"⟩] },
        { dataSource := ⟨"ds_1", "ds_2_reader"⟩, tables := [⟨"t_order", "t_order_1"⟩] }]⟩ := by
    rfl
  exact ⟨_, _, setUp_chainedRules "ds_2", hplain, hroute, rfl, rfl, by decide⟩

end RuleSet

end ShardedSql
