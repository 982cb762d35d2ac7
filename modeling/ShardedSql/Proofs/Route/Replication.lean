import ShardedSql.Pattern.Reader
import ShardedSql.Proofs.Route.SingleTarget

/-!
# Statements on replicated tables

A broadcast table is on every data source of its rule, so that a change of it has to reach all of
them.  Inserts, updates and deletes do.  Definition and administration statements are taken for
reads and reach the first data source only; a statement without tables goes to one data source too.

Main results:

- Theorem `Route.replicates_copies`: copies on some data sources.
- Theorem `RuleSet.placed_broadcast`: the units of a statement whose tables are all broadcast.
- Theorem `RuleSet.replicates_iff`: when the units are one on each data source.
-/

namespace ShardedSql

open Route RouteUnit

/-! ## One unit on each data source -/

/-- There is exactly one unit on each of some data sources, and all units cover some tables. -/
structure Route.Replicates (r : Route) (sources tables : List String) : Prop where
  once : (r.units.map (·.dataSource)).Nodup
  onAll : ∀ m, m ∈ r.units.map (·.dataSource) ↔ ∃ ds ∈ sources, m = .identity ds
  covering : ∀ u ∈ r.units, ∀ t ∈ tables, u.covers t = true

namespace Route

/-- Names that stand for themselves are told apart by their mappings. -/
theorem identity_inj {a b : String} (h : Mapping.identity a = .identity b) : a = b :=
  (Mapping.mk.inj h).1

/-- The route of copies has each data source once. -/
theorem units_ofUnits_copies (sources names : List String) :
    (ofUnits (copies sources names)).units = copies (distinctly sources) names := by
  rw [units_ofUnits, copies, distinctly_map]
  · rfl
  · intro a b hab
    exact identity_inj (RouteUnit.mk.inj hab).1

/-- A unit covers the tables that it maps to themselves. -/
theorem covers_of_mem_identities {names : List String} {u : RouteUnit} {t : String}
    (hu : u.tables = identities names) (ht : t ∈ names) : u.covers t = true := by
  rw [covers_iff, hu]
  exact ⟨.identity t, mem_identities.mpr ⟨t, ht, rfl⟩, Text.alike_iff.mpr rfl⟩

/-- Copies on some data sources are one on each of others when these are the same. -/
theorem replicates_copies (copied sources tables : List String) :
    (ofUnits (copies copied (distinctly tables))).Replicates sources tables ↔
      ∀ ds, ds ∈ sources ↔ ds ∈ copied := by
  have hsources : (ofUnits (copies copied (distinctly tables))).units.map (·.dataSource) =
      (distinctly copied).map .identity := by
    rw [units_ofUnits_copies, copies, List.map_map]
    rfl
  constructor
  · intro h ds
    have hds := h.onAll (.identity ds)
    rw [hsources] at hds
    constructor
    · intro hmem
      rcases List.mem_map.mp (hds.mpr ⟨ds, hmem, rfl⟩) with ⟨ds', hds', hsame⟩
      exact identity_inj hsame ▸ mem_distinctly.mp hds'
    · intro hmem
      rcases hds.mp (List.mem_map_of_mem (mem_distinctly.mpr hmem)) with ⟨ds', hds', hsame⟩
      exact identity_inj hsame ▸ hds'
  · intro hsame
    refine ⟨?_, ?_, ?_⟩
    · rw [hsources]
      exact (nodup_distinctly copied).map fun _ _ => identity_inj
    · intro m
      rw [hsources]
      simp only [List.mem_map, mem_distinctly, hsame, eq_comm]
    · intro u hu t ht
      rw [units_ofUnits_copies] at hu
      rcases List.mem_map.mp hu with ⟨ds, -, rfl⟩
      exact covers_of_mem_identities rfl (mem_distinctly.mpr ht)

end Route

namespace RuleSet

variable {patterns : PatternLibrary} {rules : Rules}
  {default : Option String} {rs : RuleSet} {statement : Statement}
  {inTransaction : Bool} {turns : Turns}

/-! ## Placing broadcast tables alone -/

/-- Rules that neither shadow nor split only place tables. -/
theorem placingOnly_of_setUp (hsetUp : setUp patterns rules default = .ok rs)
    (hshadow : rules.shadow = none)
    (hreplicas : rules.replicas = none) : rs = { rs with rules := rs.placingRules } := by
  have hsame := setUp_placingOnly hsetUp
  have hrules : { rules with shadow := none, replicas := none } = rules := by
    rw [← hshadow, ← hreplicas]
  rw [hrules, hsetUp] at hsame
  exact Except.ok.inj hsame

/-- Without redirecting rules a statement goes where it is placed. -/
theorem route_of_setUp (hsetUp : setUp patterns rules default = .ok rs)
    (hshadow : rules.shadow = none)
    (hreplicas : rules.replicas = none) {route : Route} :
    (rs.route statement inTransaction turns).1 = .ok route ↔
      rs.placed statement = .ok route := by
  have hroute := @route_placingOnly rs statement inTransaction turns route
  rwa [← placingOnly_of_setUp hsetUp hshadow hreplicas] at hroute

/-- Without redirecting rules a configuration has at most a sharding rule and a broadcast rule, in
either order. -/
theorem placingRules_of_setUp (hsetUp : setUp patterns rules default = .ok rs)
    (hshadow : rules.shadow = none)
    (hreplicas : rules.replicas = none) :
    (rs.placingRules = (rs.sharding?.map RouteRule.sharding).toList ++
        (rs.broadcast?.map RouteRule.broadcast).toList ∨
      rs.placingRules = (rs.broadcast?.map RouteRule.broadcast).toList ++
        (rs.sharding?.map RouteRule.sharding).toList) ∧
      ∀ rule ∈ rs.broadcast?, rule.tables ≠ [] → rule.dataSources ≠ [] := by
  rcases rules_of_setUp hsetUp hshadow hreplicas with ⟨sharding, broadcast, hperm, hsources⟩
  have hrules : rs.placingRules = rs.rules :=
    (congrArg RuleSet.rules (placingOnly_of_setUp hsetUp hshadow hreplicas)).symm
  rw [hrules]
  unfold sharding? broadcast?
  cases sharding with
  | none =>
      cases broadcast with
      | none =>
          have hnil : rs.rules = [] := List.perm_nil.mp hperm
          simp [hnil]
      | some rule =>
          have hone : rs.rules = [.broadcast rule] := List.perm_singleton.mp hperm
          simpa [hone] using hsources
  | some sharding =>
      cases broadcast with
      | none =>
          have hone : rs.rules = [.sharding sharding] := List.perm_singleton.mp hperm
          simp [hone]
      | some rule =>
          rcases List.perm_pair.mp hperm with htwo | htwo <;> simpa [htwo] using hsources

/-- Without sharded tables the broadcast rule alone places a statement. -/
theorem place_unsharded (hsetUp : setUp patterns rules default = .ok rs)
    (hshadow : rules.shadow = none)
    (hreplicas : rules.replicas = none)
    (hunsharded : ∀ t ∈ statement.tables, rs.shardedTable? t = none) :
    rs.placingRules.foldlM (place statement) Route.empty =
      Route.empty.refine "broadcast" (rs.broadcast?.bind (·.route statement Route.empty)) := by
  have hskips : ∀ rule ∈ rs.sharding?, ∀ r, place statement r (.sharding rule) = .ok r := by
    intro rule hrule r
    have hnone : ∀ t ∈ statement.tables, rule.isSharded t = false := by
      intro t ht
      have htable := hunsharded t ht
      rw [shardedTable?_eq hrule] at htable
      rw [ShardingRule.isSharded, htable]
      rfl
    rw [place, ShardingRule.route_of_unsharded hnone]
    rfl
  have hsharding : ∀ r, (rs.sharding?.map RouteRule.sharding).toList.foldlM (place statement) r =
      .ok r := by
    intro r
    cases hrule : rs.sharding? with
    | none => rfl
    | some rule => simp [hskips rule hrule]
  have hbroadcast : (rs.broadcast?.map RouteRule.broadcast).toList.foldlM (place statement)
      Route.empty =
        Route.empty.refine "broadcast" (rs.broadcast?.bind (·.route statement Route.empty)) := by
    cases rs.broadcast? with
    | none => rfl
    | some rule => simp [place]
  rcases (placingRules_of_setUp hsetUp hshadow hreplicas).1 with hrules | hrules
  · rw [hrules, List.foldlM_append, hsharding]
    exact hbroadcast
  · rw [hrules, List.foldlM_append, hbroadcast]
    simp only [hsharding]
    exact bind_pure _

/-- Covered tables leave a route as it is. -/
theorem routeSingleTables_of_covers {route : Route} (hroute : route.units ≠ [])
    (hcovers : ∀ t ∈ statement.tables, route.covers t = true) :
    rs.routeSingleTables statement route = .ok route := by
  have huncovered : distinctly (statement.tables.filter fun t => !route.covers t) = [] := by
    rw [distinctly_eq_nil, List.filter_eq_nil_iff]
    intro t ht
    simp [hcovers t ht]
  have hempty : ¬ route.isEmpty = true := fun h => hroute (isEmpty_iff.mp h)
  unfold routeSingleTables
  simp only [huncovered, List.isEmpty_nil, if_true, if_neg hempty]
  rfl

/-- The data sources that a statement goes to whose tables are all broadcast: all of them if it
changes rows, and else the first one. -/
def copiedTo (rs : RuleSet) (statement : Statement) : List String :=
  if statement.kind.isWrite then broadcastSources rs.broadcast?
  else (broadcastSources rs.broadcast?).take 1

/-- A statement whose tables are all broadcast is copied. -/
theorem placed_broadcast (hsetUp : setUp patterns rules default = .ok rs)
    (hshadow : rules.shadow = none)
    (hreplicas : rules.replicas = none) (htables : statement.tables ≠ [])
    (hbroadcast : ∀ t ∈ statement.tables, rs.isBroadcast t = true)
    (hunsharded : ∀ t ∈ statement.tables, rs.shardedTable? t = none) :
    broadcastSources rs.broadcast? ≠ [] ∧
      rs.placed statement =
        .ok (ofUnits (copies (rs.copiedTo statement) (distinctly statement.tables))) := by
  obtain ⟨t, ht⟩ := List.exists_mem_of_ne_nil _ htables
  obtain ⟨rule, hrule, hfirst⟩ : ∃ rule, rs.broadcast? = some rule ∧ rule.isBroadcast t = true := by
    have hsome := hbroadcast t ht
    rwa [isBroadcast, Option.any_eq_true] at hsome
  have hall : ∀ t ∈ statement.tables, rule.isBroadcast t = true := by
    intro t ht
    have hsome := hbroadcast t ht
    rwa [isBroadcast, hrule] at hsome
  have hsources : rule.dataSources ≠ [] := by
    apply (placingRules_of_setUp hsetUp hshadow hreplicas).2 rule hrule
    rcases List.any_eq_true.mp hfirst with ⟨name, hname, -⟩
    exact List.ne_nil_of_mem hname
  have hcopied : rule.replicas statement Route.empty = rs.copiedTo statement := by
    have hallBroadcast : rule.isAllBroadcast statement = true := by
      simpa [BroadcastRule.isAllBroadcast, htables] using hall
    rw [copiedTo, hrule]
    cases hwrite : statement.kind.isWrite <;>
      simp [BroadcastRule.replicas, broadcastSources, hallBroadcast, hwrite, Route.empty,
        Route.isEmpty]
  have hcopies : copies (rs.copiedTo statement) (distinctly statement.tables) ≠ [] := by
    rw [copies, Ne, List.map_eq_nil_iff, copiedTo, hrule]
    split
    · exact hsources
    · simpa [broadcastSources] using hsources
  refine ⟨by rw [hrule]; exact hsources, ?_⟩
  have htablesOf : rule.tablesOf statement = statement.tables := List.filter_eq_self.mpr hall
  rw [placed, place_unsharded hsetUp hshadow hreplicas hunsharded, hrule, Option.bind_some,
    rule.route_eq, htablesOf, if_neg htables, hcopied, Route.refine_empty hcopies]
  refine routeSingleTables_of_covers ?_ ?_
  · rw [units_ofUnits, Ne, distinctly_eq_nil]
    exact hcopies
  · intro t ht
    obtain ⟨u, hu⟩ := List.exists_mem_of_ne_nil _ hcopies
    rw [Route.covers, List.any_eq_true]
    refine ⟨u, mem_ofUnits.mpr hu, ?_⟩
    rcases List.mem_map.mp hu with ⟨ds, -, rfl⟩
    exact covers_of_mem_identities rfl (mem_distinctly.mpr ht)

/-- A statement without tables goes to the fallback, if there is one. -/
theorem placed_noTables (hsetUp : setUp patterns rules default = .ok rs)
    (hshadow : rules.shadow = none)
    (hreplicas : rules.replicas = none) (htables : statement.tables = []) {route : Route} :
    rs.placed statement = .ok route ↔
      ∃ ds, rs.fallback? = some ds ∧
        route = ofUnits (copies [ds] (distinctly statement.tables)) := by
  have hnone : rs.broadcast?.bind (·.route statement Route.empty) = none := by
    cases rs.broadcast? with
    | none => rfl
    | some rule =>
        rw [Option.bind_some, rule.route_eq, if_pos (by simp [BroadcastRule.tablesOf, htables])]
  rw [placed, place_unsharded hsetUp hshadow hreplicas (by simp [htables]), hnone]
  have hroute : Route.empty.refine "broadcast" none >>= rs.routeSingleTables statement =
      rs.routeSingleTables statement Route.empty := rfl
  rw [hroute]
  have hnothing : distinctly ([] : List String) = [] := rfl
  simp only [routeSingleTables, htables, List.filter_nil, hnothing, List.isEmpty_nil, if_true]
  cases rs.fallback? with
  | none => simp [Route.isEmpty, Route.empty]
  | some ds =>
      show Except.ok (ofUnits (copies [ds] [])) = Except.ok route ↔ _
      simp [eq_comm]

/-- A statement whose tables are all broadcast has one unit on each data source of the broadcast
rule if it has tables and changes rows, or if there is only one data source; and in no other
case. -/
theorem replicates_iff (hsetUp : setUp patterns rules default = .ok rs)
    (hshadow : rules.shadow = none)
    (hreplicas : rules.replicas = none)
    (hbroadcast : ∀ t ∈ statement.tables, rs.isBroadcast t = true)
    (hunsharded : ∀ t ∈ statement.tables, rs.shardedTable? t = none)
    (inTransaction : Bool) (turns : Turns) :
    (∃ route, (rs.route statement inTransaction turns).1 = .ok route ∧
      route.Replicates (broadcastSources rs.broadcast?) statement.tables) ↔
    statement.tables ≠ [] ∧ statement.kind.isWrite = true ∨
      ∃ ds, (∀ ds', ds' ∈ broadcastSources rs.broadcast? ↔ ds' = ds) ∧
        (statement.tables = [] → rs.fallback? = some ds) := by
  simp only [route_of_setUp hsetUp hshadow hreplicas]
  by_cases htables : statement.tables = []
  · constructor
    · rintro ⟨route, hplaced, hreplicates⟩
      rcases (placed_noTables hsetUp hshadow hreplicas htables).mp hplaced with
        ⟨ds, hfallback, rfl⟩
      refine .inr ⟨ds, fun ds' => ?_, fun _ => hfallback⟩
      rw [(replicates_copies _ _ _).mp hreplicates ds', List.mem_singleton]
    · rintro (⟨hsome, -⟩ | ⟨ds, hsources, hfallback⟩)
      · exact absurd htables hsome
      · refine ⟨_, (placed_noTables hsetUp hshadow hreplicas htables).mpr
          ⟨ds, hfallback htables, rfl⟩, ?_⟩
        simpa only [replicates_copies, List.mem_singleton] using hsources
  · rcases placed_broadcast hsetUp hshadow hreplicas htables hbroadcast hunsharded with
      ⟨hsources, hplaced⟩
    have hroute : (∃ route, rs.placed statement = .ok route ∧
        route.Replicates (broadcastSources rs.broadcast?) statement.tables) ↔
          ∀ ds, ds ∈ broadcastSources rs.broadcast? ↔ ds ∈ rs.copiedTo statement := by
      simp [hplaced, replicates_copies]
    rw [hroute]
    cases hwrite : statement.kind.isWrite with
    | true => simp [copiedTo, hwrite, htables]
    | false =>
        obtain ⟨first, others, hall⟩ := List.exists_cons_of_ne_nil hsources
        have hfirst : rs.copiedTo statement = [first] := by
          simp [copiedTo, hwrite, hall]
        simp only [hfirst, List.mem_singleton, htables, Bool.false_eq_true, and_false, false_or,
          false_implies, and_true]
        constructor
        · exact fun h => ⟨first, h⟩
        · rintro ⟨ds, hds⟩
          have hsame : first = ds := (hds first).mp (hall ▸ List.mem_cons_self)
          exact hsame ▸ hds

/-- One broadcast table on two data sources. -/
def dictRules : Rules :=
  { broadcast := some { tables := ["t_dict"], dataSources := ["ds_0", "ds_1"] } }

/-- The rule set of `dictRules`. -/
def dictRuleSet : RuleSet :=
  { rules := [.broadcast { priority := 10, tables := ["t_dict"], dataSources := ["ds_0", "ds_1"] }]
    singleTables := []
    defaultDataSource := none }

/-- The broadcast rule makes up `dictRuleSet`. -/
theorem setUp_dictRules : setUp Pattern.library dictRules none = .ok dictRuleSet :=
  setUp_eq_ok rfl (List.pairwise_singleton _ _)

/-- An insert into the broadcast table. -/
def dictInsert : Statement :=
  { sql := "INSERT INTO t_dict VALUES (1)", kind := .insert, tables := ["t_dict"] }

/-- A statement that empties the broadcast table. -/
def dictTruncate : Statement :=
  { sql := "TRUNCATE TABLE t_dict", kind := .other, tables := ["t_dict"] }

/-- The insert is on both data sources. -/
theorem replicates_iff_insert :
    setUp Pattern.library dictRules none = .ok dictRuleSet ∧ dictRules.shadow = none ∧
    dictRules.replicas = none ∧
    (∀ t ∈ dictInsert.tables, dictRuleSet.isBroadcast t = true) ∧
    (∀ t ∈ dictInsert.tables, dictRuleSet.shardedTable? t = none) ∧
    ∃ route, (dictRuleSet.route dictInsert false []).1 = .ok route ∧
      route.Replicates ["ds_0", "ds_1"] ["t_dict"] := by
  have hbroadcast : ∀ t ∈ dictInsert.tables, dictRuleSet.isBroadcast t = true := by decide
  have hunsharded : ∀ t ∈ dictInsert.tables, dictRuleSet.shardedTable? t = none := fun _ _ => rfl
  exact ⟨setUp_dictRules, rfl, rfl, hbroadcast, hunsharded,
    (replicates_iff setUp_dictRules rfl rfl hbroadcast hunsharded false []).mpr
      (.inl ⟨by decide, rfl⟩)⟩

/-- The table is emptied on the first data source only. -/
theorem not_replicates_truncate :
    setUp Pattern.library dictRules none = .ok dictRuleSet ∧ dictRules.shadow = none ∧
    dictRules.replicas = none ∧
    dictTruncate.kind ≠ .select ∧
    (∀ t ∈ dictTruncate.tables, dictRuleSet.isBroadcast t = true) ∧
    (∀ t ∈ dictTruncate.tables, dictRuleSet.shardedTable? t = none) ∧
    (dictRuleSet.route dictTruncate false []).1 =
      .ok ⟨[{ dataSource := .identity "ds_0", tables := [.identity "t_dict"] }]⟩ ∧
    ¬ Route.Replicates ⟨[{ dataSource := .identity "ds_0", tables := [.identity "t_dict"] }]⟩
      (broadcastSources dictRuleSet.broadcast?) dictTruncate.tables := by
  refine ⟨setUp_dictRules, rfl, rfl, by decide, by decide, fun _ _ => rfl, rfl, fun h => ?_⟩
  have hmissing := (h.onAll (.identity "ds_1")).mpr ⟨"ds_1", by decide, rfl⟩
  revert hmissing
  decide

end RuleSet

end ShardedSql
