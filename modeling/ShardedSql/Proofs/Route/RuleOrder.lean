import Mathlib.Data.List.Permutation
import ShardedSql.Proofs.Route.Placing
import ShardedSql.Route.RuleSet

/-!
# Placing rules in any order

A statement with a sharded table is placed by the sharding rule and, if there is one, the broadcast
rule.  Whichever of the two has the smaller priority number starts the route and the other one
narrows it; the units are the same.

Main results:

- Theorem `RuleSet.applyRule_eq`: one rule refines the route by its candidates.
- Theorem `RuleSet.place_cases`: the units both rules leave, and when they leave none.
- Theorem `RuleSet.rules_of_setUp`: the rules of a configuration without redirecting ones.
-/

namespace ShardedSql

open ShardingRule Route

/-! ## Candidates of broadcast tables -/

namespace BroadcastRule

/-- Broadcast tables are set up with data sources. -/
theorem dataSources_of_setUp {spec : BroadcastSpec} {rule : BroadcastRule}
    (h : setUp spec = .ok rule) (htables : rule.tables ≠ []) : rule.dataSources ≠ [] := by
  unfold setUp at h
  split at h
  · cases h
  · rename_i hsources
    cases h
    rintro hnil
    dsimp only at hnil htables
    rw [Ne, List.map_eq_nil_iff] at htables
    simp [hnil, htables] at hsources

/-- The broadcast tables of a statement. -/
def tablesOf (rule : BroadcastRule) (statement : Statement) : List String :=
  statement.tables.filter rule.isBroadcast

/-- Every broadcast table of a statement is on every replica. -/
theorem route_eq (rule : BroadcastRule) (statement : Statement) (route : Route) :
    rule.route statement route =
      if rule.tablesOf statement = [] then none
      else some (copies (rule.replicas statement route)
        (distinctly (rule.tablesOf statement))) := by
  have htables : distinctly ((statement.tables.filter rule.isBroadcast).map Mapping.identity) =
      identities (distinctly (rule.tablesOf statement)) := by
    rw [distinctly_map]
    · rfl
    · intro a b h
      exact (Mapping.mk.inj h).1
  unfold BroadcastRule.route
  simp only [htables]
  by_cases hnil : rule.tablesOf statement = []
  · rw [if_pos hnil, if_pos]
    rw [hnil]
    rfl
  · rw [if_neg hnil, if_neg]
    · rfl
    · rw [List.isEmpty_iff, identities, List.map_eq_nil_iff, distinctly_eq_nil]
      exact hnil

/-- With a table that is not broadcast all replicas are taken. -/
theorem replicas_eq {rule : BroadcastRule} {statement : Statement}
    (h : ∃ t ∈ statement.tables, rule.isBroadcast t = false) (route : Route) :
    rule.replicas statement route = rule.dataSources := by
  have hnot : rule.isAllBroadcast statement = false := by
    rcases h with ⟨t, ht, hbroadcast⟩
    rw [isAllBroadcast, Bool.and_eq_false_iff]
    exact .inr (List.all_eq_false.mpr ⟨t, ht, by simp [hbroadcast]⟩)
  simp [replicas, hnot]

/-- Alike names are broadcast alike. -/
theorem isBroadcast_congr (rule : BroadcastRule) {a b : String} (h : Text.alike a b = true) :
    rule.isBroadcast a = rule.isBroadcast b := by
  unfold isBroadcast
  congr 1
  funext t
  exact Text.alike_congr_right h t

end BroadcastRule

/-! ## Applying a rule -/

/-- The first candidates start a route, later ones narrow it. -/
def Route.refine (route : Route) (rule : String) : Option (List RouteUnit) → Except Fault Route
  | none => .ok route
  | some [] => .error (.routing (.noUnits rule))
  | some (u :: us) =>
      if route.isEmpty then .ok (ofUnits (u :: us)) else route.narrow (u :: us) rule

/-- Steps that do not balance can be taken together. -/
theorem Balancing.ofExcept_bind {α β : Type} (x : Except Fault α) (f : α → Except Fault β) :
    (ofExcept x >>= fun a => ofExcept (f a)) = ofExcept (x >>= f) := by
  funext turns
  cases x <;> rfl

namespace RuleSet

/-- One rule refines the route by its candidates. -/
theorem applyRule_eq {rule : RouteRule} {statement : Statement} {route : Route}
    {inTransaction : Bool} {candidates : Except Fault (Option (List RouteUnit))}
    (h : rule.route statement route inTransaction = .ofExcept candidates) :
    applyRule statement inTransaction route rule =
      .ofExcept (candidates >>= route.refine rule.name) := by
  unfold applyRule
  rw [h]
  funext turns
  cases candidates with
  | error e => rfl
  | ok found =>
      cases found with
      | none => rfl
      | some units =>
          cases units with
          | nil => rfl
          | cons u us =>
              cases hempty : route.isEmpty with
              | true =>
                  simp [Route.refine, hempty, bind, Except.bind, ExceptT.bind, ExceptT.mk,
                    ExceptT.bindCont, StateT.bind, Balancing.ofExcept]
                  rfl
              | false => simp [Route.refine, hempty, bind, Except.bind, ExceptT.bind, ExceptT.mk,
                  ExceptT.bindCont, StateT.bind, Balancing.ofExcept]

/-- What one placing rule makes of a route. -/
def place (statement : Statement) (route : Route) : RouteRule → Except Fault Route
  | .sharding r => r.route statement >>= route.refine "sharding"
  | .broadcast r => route.refine "broadcast" (r.route statement route)
  | .shadow _ | .replicas _ => .ok route

/-- Placing rules advance no load balancer. -/
theorem foldlM_applyRule {rules : List RouteRule} (h : ∀ rule ∈ rules, rule.isPlacing = true)
    (statement : Statement) (inTransaction : Bool) (route : Route) :
    rules.foldlM (applyRule statement inTransaction) route =
      .ofExcept (rules.foldlM (place statement) route) := by
  induction rules generalizing route with
  | nil => rfl
  | cons rule rules ih =>
      have hrest := fun route => ih (fun r hr => h r (List.mem_cons_of_mem _ hr)) route
      have hrule : applyRule statement inTransaction route rule =
          .ofExcept (place statement route rule) := by
        have hplacing := h rule List.mem_cons_self
        cases rule with
        | sharding r => exact applyRule_eq rfl
        | broadcast r =>
            have hcandidates : (RouteRule.broadcast r).route statement route inTransaction =
                .ofExcept (.ok (r.route statement route)) := rfl
            exact applyRule_eq hcandidates
        | shadow r => cases hplacing
        | replicas r => cases hplacing
      rw [List.foldlM_cons, List.foldlM_cons, hrule, ← Balancing.ofExcept_bind]
      congr 1
      funext next
      exact hrest next

end RuleSet

/-! ## Both rules -/

/-- The first rule that applies makes the route. -/
theorem Route.refine_empty {units : List RouteUnit} (h : units ≠ []) (rule : String) :
    Route.empty.refine rule (some units) = .ok (ofUnits units) := by
  cases units with
  | nil => exact absurd rfl h
  | cons u us => rfl

/-- Each later rule that applies narrows the route. -/
theorem Route.refine_some {route : Route} (hroute : route.units ≠ []) {units : List RouteUnit}
    (h : units ≠ []) (rule : String) :
    route.refine rule (some units) = route.narrow units rule := by
  cases units with
  | nil => exact absurd rfl h
  | cons u us =>
      have hempty : route.isEmpty = false := by
        cases hisEmpty : route.isEmpty with
        | false => rfl
        | true => exact absurd (isEmpty_iff.mp hisEmpty) hroute
      simp [Route.refine, hempty]

/-- The broadcast tables of a statement, if there is a broadcast rule. -/
def broadcastTables (broadcast : Option BroadcastRule) (statement : Statement) : List String :=
  (broadcast.map (·.tablesOf statement)).getD []

/-- The data sources that hold all broadcast tables. -/
def broadcastSources (broadcast : Option BroadcastRule) : List String :=
  (broadcast.map (·.dataSources)).getD []

/-- A data source holds the broadcast tables of a statement. -/
def HoldsBroadcast (broadcast : Option BroadcastRule) (statement : Statement) (ds : String) :
    Prop :=
  broadcastTables broadcast statement ≠ [] → ds ∈ broadcastSources broadcast

/-- What the placing rules leave of a statement. -/
structure Placement (sharding : ShardingRule) (broadcast : Option BroadcastRule)
    (statement : Statement) (route : Route) (selections : List Selection)
    (before after : List Mapping) : Prop where
  selected : sharding.Selected statement statement.tables selections
  offers : route.Offers selections before after (HoldsBroadcast broadcast statement)
  reachable : Reachable selections (HoldsBroadcast broadcast statement)
  /-- The broadcast tables stand for themselves. -/
  names : ∀ t, findMapping? (before ++ after) t =
    ((broadcastTables broadcast statement).find? (Text.alike · t)).map .identity

/-- A statement can be placed: its values have nodes, and nodes can be chosen on a data source that
holds its broadcast tables. -/
def Placeable (sharding : ShardingRule) (broadcast : Option BroadcastRule)
    (statement : Statement) : Prop :=
  sharding.Shardable statement ∧ ∃ ds choice, HoldsBroadcast broadcast statement ds ∧
    sharding.Picks statement ds choice

/-- A route offers the choices on any data sources that are the same. -/
theorem Route.Offers.congr {route : Route} {selections : List Selection}
    {before after : List Mapping} {allowed allowed' : String → Prop}
    (h : route.Offers selections before after allowed) (hsame : ∀ ds, allowed ds ↔ allowed' ds) :
    route.Offers selections before after allowed' := by
  refine ⟨h.nodup, ?_⟩
  intro u
  simp only [h.mem_iff, hsame]

section RouteOutcome

variable {sharding : ShardingRule} {broadcast : Option BroadcastRule} {statement : Statement}

/-- The placing rules leave units, or they fail on a statement that cannot be placed. -/
def RouteOutcome (sharding : ShardingRule) (broadcast : Option BroadcastRule)
    (statement : Statement) (outcome : Except Fault Route) : Prop :=
  (∃ route selections before after, outcome = .ok route ∧
    Placement sharding broadcast statement route selections before after) ∨
  Disjoint outcome ∧ ¬ Placeable sharding broadcast statement

/-- A statement can be placed exactly if a choice of its selections is reachable. -/
theorem ShardingRule.Selected.placeable_iff {selections : List Selection}
    (h : sharding.Selected statement statement.tables selections) :
    Placeable sharding broadcast statement ↔
      Reachable selections (HoldsBroadcast broadcast statement) := by
  unfold Placeable Reachable
  simp only [h.shardable, true_and, h.chooses_iff]

/-- A statement that cannot be sharded has a fault of routing as its outcome. -/
theorem RouteOutcome.of_unshardable {cause : RoutingCause}
    (h : ¬ (sharding.Shardable statement ∧ ∃ ds choice, sharding.Picks statement ds choice)) :
    RouteOutcome sharding broadcast statement (.error (.routing cause)) := by
  refine .inr ⟨⟨cause, rfl⟩, ?_⟩
  rintro ⟨hshardable, ds, choice, -, hpicks⟩
  exact h ⟨hshardable, ds, choice, hpicks⟩

/-- Without broadcast tables the units are those of the sharded tables. -/
theorem RouteOutcome.of_noBroadcast (hnone : broadcastTables broadcast statement = [])
    {selections : List Selection}
    (h : sharding.Selected statement statement.tables selections) (hsome : selections ≠ [])
    (hunits : unitsOf selections ≠ []) :
    RouteOutcome sharding broadcast statement (.ok (ofUnits (unitsOf selections))) := by
  have hall : ∀ ds, True ↔ HoldsBroadcast broadcast statement ds := by
    intro ds
    simp [HoldsBroadcast, hnone]
  have hoffers := (offers_unitsOf h.apart hsome).congr hall
  have hreachable : Reachable selections (HoldsBroadcast broadcast statement) := by
    apply hoffers.units_ne_nil_iff.mp
    rw [units_ofUnits, Ne, distinctly_eq_nil]
    exact hunits
  refine .inl ⟨_, selections, [], [], rfl, h, hoffers, hreachable, ?_⟩
  intro t
  rw [hnone]
  rfl

/-- Names of broadcast tables are not those of sharded ones. -/
theorem fresh_broadcastTables {rule : BroadcastRule}
    (hdisjoint : ∀ t ∈ statement.tables, sharding.isSharded t = true →
      rule.isBroadcast t = false)
    {selections : List Selection}
    (h : sharding.Selected statement statement.tables selections) :
    Fresh selections (distinctly (rule.tablesOf statement)) := by
  intro name hname s hs
  rcases List.mem_filter.mp (mem_distinctly.mp hname) with ⟨htable, hbroadcast⟩
  rw [Bool.eq_false_iff]
  intro halike
  rcases h.named s hs with ⟨n, -, hn⟩
  have hsharded : sharding.isSharded name = true := by
    have hsame : Text.alike n name = true := by
      rw [← Text.alike_congr_left (alike_of_table? hn)]
      exact halike
    rw [isSharded, ← sharding.table?_congr hsame, hn]
    rfl
  rw [hdisjoint name htable hsharded] at hbroadcast
  cases hbroadcast

/-- The sharding rule alone. -/
theorem outcome_sharding (hcounts : sharding.CountsInRange)
    (hsharded : ∃ t ∈ statement.tables, sharding.isSharded t = true)
    (hnone : broadcastTables broadcast statement = []) :
    RouteOutcome sharding broadcast statement
      (RuleSet.place statement Route.empty (.sharding sharding)) := by
  rw [RuleSet.place]
  rcases sharding.route_cases hcounts hsharded with
    ⟨selections, h, hsome, hunits, hroute⟩ | ⟨⟨cause, hroute⟩, hnot⟩
  · rw [hroute]
    show RouteOutcome _ _ _ (Route.empty.refine "sharding" (some (unitsOf selections)))
    rw [Route.refine_empty hunits]
    exact RouteOutcome.of_noBroadcast hnone h hsome hunits
  · rw [hroute]
    exact RouteOutcome.of_unshardable hnot

theorem broadcastTables_some (rule : BroadcastRule) :
    broadcastTables (some rule) statement = rule.tablesOf statement := rfl

/-- Data sources that hold broadcast tables, of which there are some. -/
theorem holdsBroadcast_iff {rule : BroadcastRule} (h : rule.tablesOf statement ≠ []) (ds : String) :
    HoldsBroadcast (some rule) statement ds ↔ ds ∈ rule.dataSources := by
  refine ⟨fun hholds => hholds h, fun hmem _ => hmem⟩

/-- Broadcast tables stand for themselves, by the name they have first. -/
theorem find?_broadcast (rule : BroadcastRule) (t : String) :
    findMapping? (identities (distinctly (rule.tablesOf statement))) t =
      ((broadcastTables (some rule) statement).find? (Text.alike · t)).map .identity := by
  rw [findMapping?_identities, find?_distinctly, broadcastTables_some]

section Both

variable {rule : BroadcastRule} (hcounts : sharding.CountsInRange)
  (hsharded : ∃ t ∈ statement.tables, sharding.isSharded t = true)
  (hdisjoint : ∀ t ∈ statement.tables, sharding.isSharded t = true → rule.isBroadcast t = false)

include hsharded hdisjoint in
/-- What the broadcast rule offers a statement with a sharded table. -/
theorem route_broadcast (route : Route) :
    rule.route statement route =
      if rule.tablesOf statement = [] then none
      else some (copies rule.dataSources (distinctly (rule.tablesOf statement))) := by
  rcases hsharded with ⟨t, ht, hisSharded⟩
  rw [rule.route_eq, BroadcastRule.replicas_eq ⟨t, ht, hdisjoint t ht hisSharded⟩]

include hcounts hsharded hdisjoint in
/-- The sharding rule before the broadcast rule. -/
theorem outcome_sharding_broadcast :
    RouteOutcome sharding (some rule) statement
      (RuleSet.place statement Route.empty (.sharding sharding) >>= fun route =>
        RuleSet.place statement route (.broadcast rule)) := by
  by_cases hnone : rule.tablesOf statement = []
  · have hskip : (fun route => RuleSet.place statement route (.broadcast rule)) =
        fun route => (.ok route : Except Fault Route) := by
      funext route
      rw [RuleSet.place, route_broadcast hsharded hdisjoint, if_pos hnone]
      rfl
    have hsame : (RuleSet.place statement Route.empty (.sharding sharding) >>= fun route =>
        (.ok route : Except Fault Route)) =
        RuleSet.place statement Route.empty (.sharding sharding) := bind_pure _
    have hnames : broadcastTables (some rule) statement = [] := hnone
    rw [hskip, hsame]
    exact outcome_sharding hcounts hsharded hnames
  · rw [RuleSet.place]
    rcases sharding.route_cases hcounts hsharded with
      ⟨selections, h, hsome, hunits, hroute⟩ | ⟨⟨cause, hroute⟩, hnot⟩
    · have hoffers := offers_unitsOf h.apart hsome
      have hstarted : (ofUnits (unitsOf selections)).units ≠ [] := by
        rw [units_ofUnits, Ne, distinctly_eq_nil]
        exact hunits
      rw [hroute]
      show RouteOutcome _ _ _ (Route.empty.refine "sharding" (some (unitsOf selections)) >>= _)
      rw [Route.refine_empty hunits]
      show RouteOutcome _ _ _
        (RuleSet.place statement (ofUnits (unitsOf selections)) (.broadcast rule))
      rw [RuleSet.place, route_broadcast hsharded hdisjoint, if_neg hnone]
      by_cases hsources : rule.dataSources = []
      · refine .inr ⟨⟨_, by rw [hsources]; rfl⟩, ?_⟩
        rintro ⟨-, ds, -, hholds, -⟩
        have hmem := (holdsBroadcast_iff hnone ds).mp hholds
        rw [hsources] at hmem
        cases hmem
      · have hcopies : copies rule.dataSources (distinctly (rule.tablesOf statement)) ≠ [] := by
          rw [copies, Ne, List.map_eq_nil_iff]
          exact hsources
        rw [Route.refine_some hstarted hcopies]
        have hholds : ∀ ds, ds ∈ rule.dataSources ↔ HoldsBroadcast (some rule) statement ds :=
          fun ds => (holdsBroadcast_iff hnone ds).symm
        rcases hoffers.narrow_broadcast rule.dataSources hstarted
            (fresh_broadcastTables hdisjoint h) "broadcast" with
          ⟨narrowed, hnarrowed, hoffered, hreachable⟩ | ⟨hfail, hunreachable⟩
        · have hoffered := hoffered.congr hholds
          refine .inl ⟨narrowed, selections, [], _, hnarrowed, h, hoffered, ?_, ?_⟩
          · simpa only [hholds] using hreachable
          · intro t
            rw [List.nil_append, ← find?_broadcast]
            exact findMapping?_newNames [] _ t
        · refine .inr ⟨hfail, ?_⟩
          rw [h.placeable_iff]
          simpa only [hholds] using hunreachable
    · rw [hroute]
      exact RouteOutcome.of_unshardable hnot

include hcounts hsharded hdisjoint in
/-- The broadcast rule before the sharding rule. -/
theorem outcome_broadcast_sharding :
    RouteOutcome sharding (some rule) statement
      (RuleSet.place statement Route.empty (.broadcast rule) >>= fun route =>
        RuleSet.place statement route (.sharding sharding)) := by
  rw [RuleSet.place, route_broadcast hsharded hdisjoint]
  by_cases hnone : rule.tablesOf statement = []
  · have hnames : broadcastTables (some rule) statement = [] := hnone
    rw [if_pos hnone]
    exact outcome_sharding hcounts hsharded hnames
  · rw [if_neg hnone]
    have hholds : ∀ ds, ds ∈ rule.dataSources ↔ HoldsBroadcast (some rule) statement ds :=
      fun ds => (holdsBroadcast_iff hnone ds).symm
    by_cases hsources : rule.dataSources = []
    · refine .inr ⟨⟨_, by rw [hsources]; rfl⟩, ?_⟩
      rintro ⟨-, ds, -, hds, -⟩
      have hmem := (hholds ds).mpr hds
      rw [hsources] at hmem
      cases hmem
    · have hcopies : copies rule.dataSources (distinctly (rule.tablesOf statement)) ≠ [] := by
        rw [copies, Ne, List.map_eq_nil_iff]
        exact hsources
      rw [Route.refine_empty hcopies]
      show RouteOutcome _ _ _ (RuleSet.place statement (ofUnits _) (.sharding sharding))
      rw [RuleSet.place]
      rcases sharding.route_cases hcounts hsharded with
        ⟨selections, h, hsome, hunits, hroute⟩ | ⟨⟨cause, hroute⟩, hnot⟩
      · have hstarted : (ofUnits (copies rule.dataSources
            (distinctly (rule.tablesOf statement)))).units ≠ [] := by
          rw [units_ofUnits, Ne, distinctly_eq_nil]
          exact hcopies
        rw [hroute]
        show RouteOutcome _ _ _ (Route.refine _ "sharding" (some (unitsOf selections)))
        rw [Route.refine_some hstarted hunits]
        rcases narrow_sharded h.apart hsome (fresh_broadcastTables hdisjoint h) hsources
            "sharding" with
          ⟨narrowed, hnarrowed, hoffered, hreachable⟩ | ⟨hfail, hunreachable⟩
        · have hoffered := hoffered.congr hholds
          refine .inl ⟨narrowed, selections, _, [], hnarrowed, h, hoffered, ?_, ?_⟩
          · simpa only [hholds] using hreachable
          · intro t
            rw [List.append_nil, find?_broadcast]
        · refine .inr ⟨hfail, ?_⟩
          rw [h.placeable_iff]
          simpa only [hholds] using hunreachable
      · rw [hroute]
        exact RouteOutcome.of_unshardable hnot

end Both

end RouteOutcome

/-! ## Rules of a configuration -/

namespace RuleSet

/-- The rules of a configuration, in some order. -/
def PlacesBy (rs : RuleSet) (sharding : ShardingRule) (broadcast : Option BroadcastRule) : Prop :=
  rs.rules.Perm (.sharding sharding :: (broadcast.map RouteRule.broadcast).toList)

/-- A configuration without redirecting rules has at most a sharding rule and a broadcast rule, and
broadcast tables have data sources. -/
theorem rules_of_setUp {patterns : PatternLibrary} {rules : Rules}
    {default : Option String} {rs : RuleSet}
    (hsetUp : setUp patterns rules default = .ok rs) (hshadow : rules.shadow = none)
    (hreplicas : rules.replicas = none) :
    ∃ (sharding : Option ShardingRule) (broadcast : Option BroadcastRule),
      rs.rules.Perm ((sharding.map RouteRule.sharding).toList ++
        (broadcast.map RouteRule.broadcast).toList) ∧
      ∀ rule ∈ broadcast, rule.tables ≠ [] → rule.dataSources ≠ [] := by
  unfold setUp setUpRules at hsetUp
  simp only [bind, Except.bind, hshadow, hreplicas, Option.mapM_none] at hsetUp
  cases hregistry : AlgorithmRegistry.setUp patterns rules with
  | error e => simp [hregistry] at hsetUp
  | ok registry =>
      simp only [hregistry] at hsetUp
      cases hsharding : rules.sharding.mapM (ShardingRule.setUp registry.sharding) with
      | error e => simp [hsharding] at hsetUp
      | ok sharding =>
          simp only [hsharding] at hsetUp
          cases hbroadcast : rules.broadcast.mapM BroadcastRule.setUp with
          | error e => simp [hbroadcast] at hsetUp
          | ok broadcast =>
              simp only [hbroadcast, pure, Except.pure] at hsetUp
              cases hsetUp
              refine ⟨sharding, broadcast, ?_, ?_⟩
              · have hperm := List.mergeSort_perm ((sharding.map RouteRule.sharding).toList ++
                  (broadcast.map RouteRule.broadcast).toList) RouteRule.mayPrecede
                simpa [ofRules] using hperm
              · rintro rule rfl
                cases hspec : rules.broadcast with
                | none =>
                    rw [hspec] at hbroadcast
                    cases hbroadcast
                | some spec =>
                    rw [hspec, Option.mapM_some] at hbroadcast
                    rcases Except.bind_eq_ok.mp hbroadcast with ⟨found, hfound, hsame⟩
                    cases hsame
                    exact BroadcastRule.dataSources_of_setUp hfound

/-- With a sharding rule these are the rules. -/
theorem placesBy_of_setUp {patterns : PatternLibrary} {rules : Rules}
    {default : Option String} {rs : RuleSet}
    (hsetUp : setUp patterns rules default = .ok rs) (hshadow : rules.shadow = none)
    (hreplicas : rules.replicas = none) {sharding : ShardingRule}
    (hsharding : rs.sharding? = some sharding) :
    rs.PlacesBy sharding rs.broadcast? := by
  rcases rules_of_setUp hsetUp hshadow hreplicas with ⟨found, broadcast, hperm, -⟩
  unfold PlacesBy
  cases found with
  | none =>
      cases broadcast with
      | none =>
          have hnil : rs.rules = [] := List.perm_nil.mp hperm
          simp [sharding?, hnil] at hsharding
      | some rule =>
          have hone : rs.rules = [.broadcast rule] := List.perm_singleton.mp hperm
          simp [sharding?, hone] at hsharding
  | some found =>
      cases broadcast with
      | none =>
          have hone : rs.rules = [.sharding found] := List.perm_singleton.mp hperm
          have hsame : found = sharding := by simpa [sharding?, hone] using hsharding
          have hbroadcast : rs.broadcast? = none := by simp [broadcast?, hone]
          rw [hbroadcast, ← hsame]
          exact hperm
      | some rule =>
          have htwo := List.perm_pair.mp hperm
          have hsame : found = sharding := by
            rcases htwo with htwo | htwo <;> simpa [sharding?, htwo] using hsharding
          have hbroadcast : rs.broadcast? = some rule := by
            rcases htwo with htwo | htwo <;> simp [broadcast?, htwo]
          rw [hbroadcast, ← hsame]
          exact hperm

/-- The placing rules, in the order of their priorities. -/
theorem place_cases {rs : RuleSet} {sharding : ShardingRule} {broadcast : Option BroadcastRule}
    (hrules : rs.PlacesBy sharding broadcast) (hcounts : sharding.CountsInRange)
    {statement : Statement} (hsharded : ∃ t ∈ statement.tables, sharding.isSharded t = true)
    (hdisjoint : ∀ t ∈ statement.tables, sharding.isSharded t = true →
      ∀ rule ∈ broadcast, rule.isBroadcast t = false) :
    RouteOutcome sharding broadcast statement (rs.rules.foldlM (place statement) Route.empty) := by
  have hfold : ∀ a b : RouteRule, [a, b].foldlM (place statement) Route.empty =
      place statement Route.empty a >>= fun route => place statement route b := by
    intro a b
    simp
  cases broadcast with
  | none =>
      have hone : rs.rules = [.sharding sharding] := List.perm_singleton.mp hrules
      have hfirst : [RouteRule.sharding sharding].foldlM (place statement) Route.empty =
          place statement Route.empty (.sharding sharding) := by
        simp
      rw [hone, hfirst]
      exact outcome_sharding hcounts hsharded rfl
  | some rule =>
      have hdisjoint := fun t ht h => hdisjoint t ht h rule rfl
      rcases List.perm_pair.mp hrules with htwo | htwo
      · rw [htwo, hfold]
        exact outcome_sharding_broadcast hcounts hsharded hdisjoint
      · rw [htwo, hfold]
        exact outcome_broadcast_sharding hcounts hsharded hdisjoint

end RuleSet

end ShardedSql
