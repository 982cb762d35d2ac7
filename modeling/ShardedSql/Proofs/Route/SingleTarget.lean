import ShardedSql.Proofs.Route.Renaming

/-!
# Statements with one target

A table that no rule shards or broadcasts is on one data source.  Without sharded tables all units
of a route map the same tables, to themselves, and differ in their data sources only; the table
leaves the one unit on its data source, and redirecting rules keep it the only one.

Main results:

- Theorem `Route.Uniform.refine`: broadcast tables keep the units of a route alike.
- Theorem `Route.Uniform.addSingleTable`: a single table leaves one unit.
- Theorem `RuleSet.single_of_route`: the one unit of a statement without sharded tables.
-/

namespace ShardedSql

open Route RouteUnit

/-- A statement without sharded tables has no sharded units. -/
theorem ShardingRule.route_of_unsharded {rule : ShardingRule} {statement : Statement}
    (h : ∀ t ∈ statement.tables, rule.isSharded t = false) : rule.route statement = .ok none := by
  have hnone : ∀ names : List String, (∀ t ∈ names, rule.isSharded t = false) →
      names.foldlM (rule.addSelection statement) [] = .ok [] := by
    intro names
    induction names with
    | nil => exact fun _ => rfl
    | cons name names ih =>
        intro hnames
        have htable : rule.table? name = none := by
          have hname := hnames name List.mem_cons_self
          rwa [isSharded, Option.isSome_eq_false_iff, Option.isNone_iff_eq_none] at hname
        have hstep : rule.addSelection statement [] name = .ok [] := by
          unfold addSelection
          rw [htable]
        rw [List.foldlM_cons, hstep]
        exact ih fun t ht => hnames t (List.mem_cons_of_mem _ ht)
  have hselections : rule.selections statement = .ok [] := hnone statement.tables h
  unfold ShardingRule.route
  rw [hselections]
  rfl

namespace Route

/-- All units are different and map the same tables to themselves, on data sources that stand for
themselves. -/
structure Uniform (names : List String) (r : Route) : Prop where
  nodup : r.units.Nodup
  form : ∀ u ∈ r.units, ∃ ds, u = { dataSource := .identity ds, tables := identities names }

/-- The only unit of a route, whose tables stand for themselves. -/
def Single (r : Route) : Prop :=
  ∃ u, r.units = [u] ∧ ∀ m ∈ u.tables, m.isIdentity = true

theorem uniform_empty (names : List String) : Uniform names empty :=
  ⟨List.nodup_nil, by simp [empty]⟩

/-- Copies on several data sources are uniform. -/
theorem uniform_copies (dataSources names : List String) :
    Uniform names (ofUnits (copies dataSources names)) := by
  refine ⟨nodup_ofUnits _, fun u hu => ?_⟩
  rcases List.mem_map.mp (mem_ofUnits.mp hu) with ⟨ds, -, rfl⟩
  exact ⟨ds, rfl⟩

/-- Names that stand for themselves are identities. -/
theorem isIdentity_of_mem_identities {names : List String} :
    ∀ m ∈ identities names, m.isIdentity = true := by
  intro m hm
  rcases mem_identities.mp hm with ⟨name, -, rfl⟩
  simp [Mapping.identity, Mapping.isIdentity]

variable {names : List String} {r next : Route}

/-- Names are added to those of all units. -/
theorem Uniform.narrow (h : r.Uniform names) (hr : r.units ≠ []) {dataSources added : List String}
    {rule : String} (hnarrow : r.narrow (copies dataSources added) rule = .ok next) :
    next.Uniform (names ++ newNames (identities names) added) := by
  have hpairs : ∀ pair ∈ r.pairs (copies dataSources added), ∃ ds,
      pair.1 = { dataSource := .identity ds, tables := identities names } ∧
      pair.2 = { dataSource := .identity ds, tables := identities added } := by
    intro pair hpair
    rcases mem_pairs.mp hpair with ⟨hu, hc, hmatch⟩
    rcases h.form _ hu with ⟨ds, hds⟩
    rcases List.mem_map.mp hc with ⟨ds', -, hds'⟩
    have hsame : ds' = ds := by
      have hu' : pair.1.dataSource = .identity ds := by rw [hds]
      have hc' : pair.2.dataSource = .identity ds' := by rw [← hds']
      exact (pairsWith_identity hu' hc').1.mp hmatch
    exact ⟨ds, hds, by rw [← hds', hsame]⟩
  rw [@narrow_eq _ _ (fun pair => { pair.1 with
    tables := pair.1.tables ++ identities (newNames (identities names) added) }) hr] at hnarrow
  · split at hnarrow
    · cases hnarrow
    · cases hnarrow
      refine ⟨nodup_ofUnits _, fun u hu => ?_⟩
      rcases List.mem_map.mp (mem_ofUnits.mp hu) with ⟨pair, hpair, rfl⟩
      rcases hpairs pair hpair with ⟨ds, hds, -⟩
      exact ⟨ds, by simp [hds, identities]⟩
  · intro pair hpair
    rcases hpairs pair hpair with ⟨ds, hfirst, hsecond⟩
    rw [hfirst, hsecond, mergeMappings_identities]
    exact ⟨(pairsWith_identity rfl rfl).2 rfl, rfl⟩

/-- The new names are some of the names. -/
theorem newNames_subset (ms : List Mapping) (names : List String) : newNames ms names ⊆ names := by
  induction names generalizing ms with
  | nil => exact List.Subset.refl []
  | cons name names ih =>
      rw [newNames]
      split
      · exact List.subset_cons_of_subset _ (ih ms)
      · exact List.cons_subset_cons _ (ih _)

/-- Broadcast tables keep the units of a route alike, and add no other names. -/
theorem Uniform.refine (h : r.Uniform names) {rule : BroadcastRule} {statement : Statement}
    (hrefine : r.refine "broadcast" (rule.route statement r) = .ok next) :
    ∃ later, next.Uniform later ∧ ∀ name ∈ later, name ∈ names ∨ rule.isBroadcast name = true := by
  rw [BroadcastRule.route_eq] at hrefine
  split at hrefine
  · cases hrefine
    exact ⟨names, h, fun name hname => .inl hname⟩
  · have hadded : ∀ name ∈ distinctly (rule.tablesOf statement), rule.isBroadcast name = true :=
      fun name hname => (List.mem_filter.mp (mem_distinctly.mp hname)).2
    cases hcandidates : copies (rule.replicas statement r)
        (distinctly (rule.tablesOf statement)) with
    | nil =>
        rw [hcandidates] at hrefine
        cases hrefine
    | cons c cs =>
        rw [hcandidates, Route.refine, ← hcandidates] at hrefine
        split at hrefine
        · cases hrefine
          exact ⟨_, uniform_copies _ _, fun name hname => .inr (hadded name hname)⟩
        · rename_i hempty
          have hr : r.units ≠ [] := fun hnil => hempty (isEmpty_iff.mpr hnil)
          refine ⟨_, h.narrow hr hrefine, fun name hname => ?_⟩
          rcases List.mem_append.mp hname with hname | hname
          · exact .inl hname
          · exact .inr (hadded name (newNames_subset _ _ hname))

/-- A single table leaves the unit on its data source. -/
theorem Uniform.addSingleTable (h : r.Uniform names) {rs : RuleSet} {t : String}
    (hadd : rs.addSingleTable r t = .ok next) : ∃ later, next.Uniform later ∧ next.Single := by
  by_cases hnil : r.units = []
  · have hempty : r = empty := congrArg Route.mk hnil
    subst hempty
    rw [RuleSet.addSingleTable_empty] at hadd
    split at hadd
    · cases hadd
    · rename_i ds hhome
      cases hadd
      refine ⟨[t], ⟨List.nodup_singleton _, fun u hu => ?_⟩, _, rfl, ?_⟩
      · exact ⟨ds, List.mem_singleton.mp hu⟩
      · exact (isIdentity_of_mem_identities : ∀ m ∈ identities [t], m.isIdentity = true)
  · rw [RuleSet.addSingleTable_eq hnil] at hadd
    split at hadd
    · cases hadd
    · rename_i ds hhome
      split at hadd
      · cases hadd
      · rename_i hattached
        cases hadd
        -- Of units that differ in their data sources only, one is on the data source of the table.
        have hone : ∀ u ∈ (ofUnits (RuleSet.attached r t ds)).units,
            u = { dataSource := .identity ds, tables := identities (names ++ [t]) } := by
          intro u hu
          rcases List.mem_map.mp (mem_ofUnits.mp hu) with ⟨v, hv, rfl⟩
          rcases List.mem_filter.mp hv with ⟨hv, hsource⟩
          rcases h.form v hv with ⟨ds', rfl⟩
          have hsame : ds' = ds := by simpa [Mapping.identity] using hsource
          simp [hsame, identities]
        have hnodup := nodup_ofUnits (RuleSet.attached r t ds)
        refine ⟨names ++ [t], ⟨hnodup, fun u hu => ⟨ds, hone u hu⟩⟩, ?_⟩
        refine ⟨{ dataSource := .identity ds, tables := identities (names ++ [t]) }, ?_,
          isIdentity_of_mem_identities⟩
        by_contra hne
        rcases (hnodup.ne_singleton_iff _).mp hne with hnone | ⟨u, hu, hother⟩
        · rw [units_ofUnits, distinctly_eq_nil] at hnone
          exact hattached hnone
        · exact hother (hone u hu)

/-- Renaming keeps a single unit. -/
theorem Single.renamedBy (h : r.Single) {f : String → String} (hrenamed : r.RenamedBy f next) :
    next.Single := by
  rcases h with ⟨u, hu, hidentity⟩
  refine ⟨u.renamed f, ?_, hidentity⟩
  rw [hrenamed.eq_map _ (by simp [hu]), hu, List.map_singleton]
  -- A unit does not meet itself.
  rintro v hv ⟨hnames, w, hw, hmeets⟩
  rw [hu, List.mem_singleton] at hv hw
  subst hv hw
  exact absurd hmeets.symm hnames

end Route

namespace RuleSet

variable {rs : RuleSet} {statement : Statement} {inTransaction : Bool} {turns : Turns}

/-- Whether some rule shards a table. -/
def ShardsSome (rs : RuleSet) (statement : Statement) : Prop :=
  ∃ rule, .sharding rule ∈ rs.rules ∧ ∃ t ∈ statement.tables, rule.isSharded t = true

/-- Whether some rule broadcasts a table. -/
def BroadcastsTo (rs : RuleSet) (t : String) : Prop :=
  ∃ rule, .broadcast rule ∈ rs.rules ∧ rule.isBroadcast t = true

/-- Without sharded tables the placing rules leave units of broadcast tables. -/
theorem uniform_placed (hsharded : ¬ rs.ShardsSome statement) {placed : Route}
    (h : rs.placingRules.foldlM (place statement) Route.empty = .ok placed) :
    ∃ names, placed.Uniform names ∧ ∀ name ∈ names, rs.BroadcastsTo name := by
  refine foldlM_preserves (P := fun r => ∃ names, r.Uniform names ∧
    ∀ name ∈ names, rs.BroadcastsTo name) ?_ ⟨[], uniform_empty [], by simp⟩ h
  rintro rule hrule r next ⟨names, hr, hnames⟩ hnext
  have hmem : rule ∈ rs.rules := (List.mem_filter.mp hrule).1
  cases rule with
  | sharding rule =>
      have hunsharded : ∀ t ∈ statement.tables, rule.isSharded t = false := by
        intro t ht
        rw [← Bool.not_eq_true]
        exact fun hshards => hsharded ⟨rule, hmem, t, ht, hshards⟩
      rw [place, ShardingRule.route_of_unsharded hunsharded] at hnext
      cases hnext
      exact ⟨names, hr, hnames⟩
  | broadcast rule =>
      rcases hr.refine hnext with ⟨later, hlater, hadded⟩
      refine ⟨later, hlater, fun name hname => ?_⟩
      exact (hadded name hname).elim (hnames name) fun hbroadcast => ⟨rule, hmem, hbroadcast⟩
  | shadow rule | replicas rule =>
      cases hnext
      exact ⟨names, hr, hnames⟩

/-- Single tables leave one unit. -/
theorem single_addSingleTables {names uncovered : List String} {r next : Route}
    (hr : r.Uniform names) (hsome : uncovered ≠ [])
    (h : uncovered.foldlM rs.addSingleTable r = .ok next) : next.Single := by
  cases uncovered with
  | nil => exact absurd rfl hsome
  | cons t uncovered =>
      rw [List.foldlM_cons] at h
      rcases Except.bind_eq_ok.mp h with ⟨first, hfirst, hrest⟩
      have hstep : ∀ t ∈ uncovered, ∀ r next : Route, ((∃ names, r.Uniform names) ∧ r.Single) →
          rs.addSingleTable r t = .ok next → (∃ names, next.Uniform names) ∧ next.Single := by
        rintro t - r next ⟨⟨names, hr⟩, -⟩ hnext
        rcases hr.addSingleTable hnext with ⟨later, hlater, hsingle⟩
        exact ⟨⟨later, hlater⟩, hsingle⟩
      rcases hr.addSingleTable hfirst with ⟨later, hlater, hsingle⟩
      exact (foldlM_preserves hstep ⟨⟨later, hlater⟩, hsingle⟩ hrest).2

/-- A statement without sharded tables that has a table which is not broadcast either has one unit,
and all of its tables stand for themselves. -/
theorem single_of_route (hsharded : ¬ rs.ShardsSome statement) {t : String}
    (ht : t ∈ statement.tables) (hbroadcast : ¬ rs.BroadcastsTo t) {route : Route}
    (h : (rs.route statement inTransaction turns).1 = .ok route) : route.Single := by
  rcases route_eq_ok.mp h with ⟨base, hbase, hredirected⟩
  rcases Except.bind_eq_ok.mp hbase with ⟨placed, hplaced, hcomplete⟩
  rcases uniform_placed hsharded hplaced with ⟨names, huniform, hnames⟩
  have huncovered : placed.covers t = false := by
    rw [Route.covers, List.any_eq_false]
    intro u hu hcovers
    rcases huniform.form u hu with ⟨ds, rfl⟩
    rcases covers_iff.mp hcovers with ⟨m, hm, halike⟩
    rcases mem_identities.mp hm with ⟨name, hname, rfl⟩
    rcases hnames name hname with ⟨rule, hrule, hbroadcasts⟩
    exact hbroadcast ⟨rule, hrule, (rule.isBroadcast_congr halike).symm.trans hbroadcasts⟩
  have hbaseSingle : base.Single := by
    have hsome : distinctly (statement.tables.filter fun t => !placed.covers t) ≠ [] := by
      rw [Ne, distinctly_eq_nil]
      exact List.ne_nil_of_mem (List.mem_filter.mpr ⟨ht, by simp [huncovered]⟩)
    unfold routeSingleTables at hcomplete
    dsimp only at hcomplete
    rw [if_neg (by rwa [List.isEmpty_iff])] at hcomplete
    exact single_addSingleTables huniform hsome hcomplete
  refine Balancing.foldlM_preserves (P := Route.Single) ?_ hbaseSingle hredirected
  intro rule hrule r turns next hr hnext
  have hplacing : rule.isPlacing = false := by
    simpa using (List.mem_filter.mp hrule).2
  have hne : r.units ≠ [] := by
    rcases hr with ⟨u, hu, -⟩
    simp [hu]
  rcases renamedBy_of_applyRule hplacing hne hnext with ⟨-, rfl⟩ | ⟨f, -, hrenamed⟩
  · exact hr
  · exact hr.renamedBy hrenamed

end RuleSet

end ShardedSql
