import ShardedSql.Proofs.Route.Targets
import ShardedSql.Proofs.Traversal

/-!
# Coverage of routes

A statement runs as a whole on every unit of its route, so that every unit has to map every table.
Each rule maps the same tables on all of its candidates.  This is kept when units are paired with
candidates and when a single table is added, so that a table is mapped by all units or by none.

Main results:

- Theorem `RouteRule.agree_of_route`: the candidates of every rule map the same tables.
- Theorems `Route.Even.narrow` and `Route.Complete.narrow`: what narrowing keeps.
- Theorem `RuleSet.covers_of_route`: every unit of a route covers every table of the statement.
-/

namespace ShardedSql

/-! ## Tables of merged mappings -/

/-- Merging adds the names of a mapping to those that are there. -/
theorem maps_of_mergeMapping {m : Mapping} {ms merged : List Mapping}
    (h : mergeMapping m ms = some merged) (t : String) :
    Maps merged t ↔ Maps ms t ∨ Text.alike m.logical t = true := by
  induction ms generalizing merged with
  | nil =>
      cases h
      simp [Maps]
  | cons c cs ih =>
      have hcons : ∀ x xs, Maps (x :: xs) t ↔ Text.alike x.logical t = true ∨ Maps xs t := by
        simp [Maps]
      rw [mergeMapping] at h
      by_cases halike : Text.alike c.logical m.logical = true
      · -- The mapping that stays in place, `c` or `m`, has the same name.
        have hname := Text.alike_congr_left halike t
        rw [if_pos halike] at h
        split at h
        · cases h
          rw [hcons, hname, or_right_comm, or_self]
        · split at h
          · cases h
            rw [hcons, hcons, hname, or_right_comm, or_self]
          · cases h
      · rw [if_neg halike] at h
        rcases Option.map_eq_some_iff.mp h with ⟨rest, hrest, rfl⟩
        rw [hcons, hcons, ih hrest, or_assoc]

/-- A merged list maps what either list maps. -/
theorem maps_of_mergeMappings {ms ns merged : List Mapping}
    (h : mergeMappings ms ns = some merged) (t : String) :
    Maps merged t ↔ Maps ms t ∨ Maps ns t := by
  unfold mergeMappings at h
  induction ns generalizing ms with
  | nil =>
      cases h
      simp [Maps]
  | cons n ns ih =>
      rw [List.foldlM_cons] at h
      rcases Option.bind_eq_some_iff.mp h with ⟨next, hnext, hrest⟩
      rw [ih hrest, maps_of_mergeMapping hnext]
      simp [Maps, or_assoc]

namespace RouteUnit

/-- A unit covers a table exactly if its tables map it. -/
theorem covers_iff {u : RouteUnit} {t : String} : u.covers t = true ↔ Maps u.tables t :=
  findMapping?_isSome

/-- Units that map the same tables. -/
def Agree (us : List RouteUnit) : Prop :=
  ∀ u ∈ us, ∀ v ∈ us, ∀ t, u.covers t = v.covers t

/-- Units whose mappings have the same logical names map the same tables. -/
theorem agree_of_logical {us : List RouteUnit} (names : List String)
    (h : ∀ u ∈ us, u.tables.map (·.logical) = names) : Agree us := by
  have hcovers : ∀ u ∈ us, ∀ t, u.covers t = names.any (Text.alike · t) := by
    intro u hu t
    rw [Bool.eq_iff_iff, covers_iff, ← h u hu]
    simp [Maps]
  intro u hu v hv t
  rw [hcovers u hu, hcovers v hv]

end RouteUnit

open RouteUnit

/-! ## Candidates of a rule -/

namespace ShardingRule

/-- Every choice of nodes has a mapping for each selected table. -/
theorem logical_of_mem_choices {ds : String} {selections : List Selection} {ms : List Mapping}
    (h : ms ∈ choices ds selections) :
    ms.map (·.logical) = selections.map (·.1.name) := by
  induction selections generalizing ms with
  | nil =>
      rw [choices, List.mem_singleton] at h
      rw [h]
      rfl
  | cons first rest ih =>
      rcases first with ⟨table, nodes⟩
      rw [choices, List.mem_flatMap] at h
      rcases h with ⟨node, -, h⟩
      rcases List.mem_map.mp h with ⟨others, hothers, rfl⟩
      simp [ih hothers]

/-- The units of a choice of nodes map the same names. -/
theorem agree_unitsOf (selections : List Selection) : Agree (unitsOf selections) := by
  apply agree_of_logical (selections.map (·.1.name))
  intro u hu
  rw [unitsOf, List.mem_flatMap] at hu
  rcases hu with ⟨ds, -, hu⟩
  rcases List.mem_map.mp hu with ⟨ms, hms, rfl⟩
  exact logical_of_mem_choices hms

/-- So do the units of a sharding rule. -/
theorem agree_of_route {rule : ShardingRule} {statement : Statement} {us : List RouteUnit}
    (h : rule.route statement = .ok (some us)) : Agree us := by
  unfold route at h
  cases hselections : rule.selections statement with
  | error e => simp [hselections, bind, Except.bind] at h
  | ok selections =>
      simp only [hselections, bind, Except.bind] at h
      split at h
      · cases h
      · split at h
        · cases h
        · cases h
          exact agree_unitsOf selections

end ShardingRule

/-- So do those of a broadcast rule. -/
theorem BroadcastRule.agree_of_route {rule : BroadcastRule} {statement : Statement}
    {route : Route} {us : List RouteUnit} (h : rule.route statement route = some us) :
    Agree us := by
  rw [BroadcastRule.route_eq] at h
  split at h
  · cases h
  · cases h
    apply agree_of_logical (distinctly (rule.tablesOf statement))
    intro u hu
    rcases List.mem_map.mp hu with ⟨ds, -, rfl⟩
    simp [identities, Mapping.identity, Function.comp_def]

/-! Redirecting rules only rename data sources. -/

/-- Units without tables map the same names, since they map none. -/
theorem RouteUnit.agree_of_noTables {us : List RouteUnit} (h : ∀ u ∈ us, u.tables = []) :
    Agree us :=
  agree_of_logical [] fun u hu => by rw [h u hu, List.map_nil]

/-- The units of a shadow rule have no tables. -/
theorem ShadowRule.noTables_of_route {rule : ShadowRule} {statement : Statement} {route : Route}
    {us : List RouteUnit} (h : rule.route statement route = .ok (some us)) :
    ∀ u ∈ us, u.tables = [] := by
  unfold ShadowRule.route at h
  split at h
  · cases h
  · rcases Except.bind_eq_ok.mp h with ⟨all, hall, hsome⟩
    cases hsome
    intro u hu
    rcases mem_of_mapM hall u hu with ⟨v, -, hv⟩
    rcases Except.bind_eq_ok.mp hv with ⟨target, -, htarget⟩
    cases htarget
    rfl

namespace Balancing

/-- A sequence succeeds when both of its parts do. -/
theorem bind_eq_ok {α β : Type} {x : Balancing α} {f : α → Balancing β} {turns : Turns} {b : β} :
    ((x >>= f) turns).1 = .ok b ↔
      ∃ a, (x turns).1 = .ok a ∧ (f a (x turns).2).1 = .ok b := by
  rw [bind_apply]
  rcases x turns with ⟨e | a, later⟩ <;> simp

/-- What every step preserves is true of the outcome of a fold. -/
theorem foldlM_preserves {α β : Type} {f : β → α → Balancing β} {P : β → Prop} {xs : List α}
    (hstep : ∀ x ∈ xs, ∀ b turns b', P b → (f b x turns).1 = .ok b' → P b') {b b' : β}
    {turns : Turns} (h : P b) (hfold : (xs.foldlM f b turns).1 = .ok b') : P b' := by
  induction xs generalizing b turns with
  | nil =>
      cases hfold
      exact h
  | cons x xs ih =>
      rw [List.foldlM_cons] at hfold
      rcases bind_eq_ok.mp hfold with ⟨next, hnext, hrest⟩
      apply ih (fun y hy => hstep y (List.mem_cons_of_mem _ hy)) _ hrest
      exact hstep x List.mem_cons_self b turns next h hnext

end Balancing

/-- The candidates of a read/write splitting rule have no tables. -/
theorem ReplicaRule.noTables_of_candidates {rule : ReplicaRule} {statement : Statement}
    {inTransaction : Bool} {us cs : List RouteUnit} {targets : Named String} {turns : Turns}
    (h : (rule.candidates statement inTransaction targets us turns).1 = .ok cs) :
    ∀ c ∈ cs, c.tables = [] := by
  induction us generalizing targets turns cs with
  | nil =>
      cases h
      simp
  | cons u us ih =>
      have hcons : ∀ {c : RouteUnit} {rest : List RouteUnit}, c.tables = [] →
          (∀ c ∈ rest, c.tables = []) → ∀ d ∈ c :: rest, d.tables = [] := by
        intro c rest hc hrest d hd
        rcases List.mem_cons.mp hd with rfl | hd
        · exact hc
        · exact hrest d hd
      rw [candidates] at h
      cases hgroup : rule.group? u.dataSource.actual with
      | none =>
          simp only [hgroup] at h
          rcases Balancing.bind_eq_ok.mp h with ⟨rest, hrest, hcs⟩
          cases hcs
          exact hcons rfl (ih hrest)
      | some g =>
          simp only [hgroup] at h
          cases hknown : targets.lookup g.name with
          | some target =>
              simp only [hknown, pure_bind] at h
              rcases Balancing.bind_eq_ok.mp h with ⟨rest, hrest, hcs⟩
              cases hcs
              exact hcons rfl (ih hrest)
          | none =>
              simp only [hknown] at h
              rcases Balancing.bind_eq_ok.mp h with ⟨target, -, hafter⟩
              rcases Balancing.bind_eq_ok.mp hafter with ⟨rest, hrest, hcs⟩
              cases hcs
              exact hcons rfl (ih hrest)

/-- Nor have the units of the rule. -/
theorem ReplicaRule.noTables_of_route {rule : ReplicaRule} {statement : Statement} {route : Route}
    {inTransaction : Bool} {us : List RouteUnit} {turns : Turns}
    (h : (rule.route statement route inTransaction turns).1 = .ok (some us)) :
    ∀ u ∈ us, u.tables = [] := by
  unfold ReplicaRule.route at h
  split at h
  · rcases Balancing.bind_eq_ok.mp h with ⟨cs, hcs, hsome⟩
    cases hsome
    exact noTables_of_candidates hcs
  · cases h

/-- The candidates of every rule map the same tables. -/
theorem RouteRule.agree_of_route {rule : RouteRule} {statement : Statement} {route : Route}
    {inTransaction : Bool} {us : List RouteUnit} {turns : Turns}
    (h : (rule.route statement route inTransaction turns).1 = .ok (some us)) : Agree us := by
  cases rule with
  | sharding r => exact ShardingRule.agree_of_route h
  | broadcast r => exact BroadcastRule.agree_of_route (Except.ok.inj h)
  | shadow r => exact agree_of_noTables (ShadowRule.noTables_of_route h)
  | replicas r => exact agree_of_noTables (ReplicaRule.noTables_of_route h)

/-! ## Narrowing -/

namespace Route

/-- A unit that is there is not added again. -/
theorem nodup_add {r : Route} (h : r.units.Nodup) (u : RouteUnit) : (r.add u).units.Nodup := by
  rw [units_add]
  exact nodup_keep h

/-- After a unit is added, it is there beside the others. -/
theorem mem_add {r : Route} {u v : RouteUnit} :
    v ∈ (r.add u).units ↔ v ∈ r.units ∨ v = u := by
  rw [units_add]
  exact mem_keep

/-- A unit that comes from a unit and a candidate maps the tables of both. -/
def Merges (u c merged : RouteUnit) : Prop :=
  ∀ t, merged.covers t = (u.covers t || c.covers t)

/-- A unit that comes from a unit and a candidate they pair with. -/
structure Arises (u c merged : RouteUnit) : Prop where
  pairs : u.pairsWith c = true
  dataSource : mergeDataSources u.dataSource c.dataSource = .ok merged.dataSource
  merges : Merges u c merged

/-- The units of a narrowed route come from units and candidates, each is there once, and the route
is not empty unless it was so before. -/
theorem narrow_spec {r narrowed : Route} {candidates : List RouteUnit} {rule : String}
    (h : r.narrow candidates rule = .ok narrowed) :
    narrowed.units.Nodup ∧ (r.units ≠ [] → narrowed.units ≠ []) ∧
      ∀ m ∈ narrowed.units, ∃ u ∈ r.units, ∃ c ∈ candidates, Arises u c m := by
  unfold narrow at h
  rcases Except.bind_eq_ok.mp h with ⟨all, hall, hnarrowed⟩
  have hstep : ∀ pair ∈ r.pairs candidates, ∀ before after : Route,
      (before.units.Nodup ∧
        ∀ m ∈ before.units, ∃ u ∈ r.units, ∃ c ∈ candidates, Arises u c m) →
      before.addMerged pair.1 pair.2 = .ok after →
      (after.units.Nodup ∧
        ∀ m ∈ after.units, ∃ u ∈ r.units, ∃ c ∈ candidates, Arises u c m) := by
    rintro ⟨u, c⟩ hpair before after ⟨hnodup, harises⟩ hadd
    rcases Except.bind_eq_ok.mp hadd with ⟨dataSource, hdataSource, hadd⟩
    split at hadd
    · rename_i tables htables
      cases hadd
      refine ⟨nodup_add hnodup _, ?_⟩
      intro m hm
      rcases mem_add.mp hm with hm | rfl
      · exact harises m hm
      · rw [mem_pairs] at hpair
        refine ⟨u, hpair.1, c, hpair.2.1, hpair.2.2, hdataSource, ?_⟩
        intro t
        rw [Bool.eq_iff_iff, Bool.or_eq_true, covers_iff, covers_iff, covers_iff]
        exact maps_of_mergeMappings htables t
    · cases hadd
      exact ⟨hnodup, harises⟩
  rcases foldlM_preserves hstep ⟨List.nodup_nil, by simp⟩ hall with ⟨hnodup, harises⟩
  split at hnarrowed
  · cases hnarrowed
  · rename_i hempty
    cases hnarrowed
    refine ⟨hnodup, ?_, harises⟩
    intro hr hnil
    simp [isEmpty, hr, hnil] at hempty

/-- All units of a route are different and map the same tables. -/
structure Even (r : Route) : Prop where
  nodup : r.units.Nodup
  agree : Agree r.units

theorem even_empty : Even empty := ⟨List.nodup_nil, by simp [Agree, empty]⟩

/-- A route of units that map the same names is even. -/
theorem even_ofUnits {us : List RouteUnit} (h : Agree us) : Even (ofUnits us) := by
  refine ⟨nodup_ofUnits us, ?_⟩
  intro u hu v hv
  exact h u (mem_ofUnits.mp hu) v (mem_ofUnits.mp hv)

/-- A table is mapped by all units or by none. -/
theorem Even.covers_eq {r : Route} (h : r.Even) {u : RouteUnit} (hu : u ∈ r.units)
    (name : String) : u.covers name = r.covers name := by
  rw [Bool.eq_iff_iff, Route.covers, List.any_eq_true]
  refine ⟨fun hcovers => ⟨u, hu, hcovers⟩, ?_⟩
  rintro ⟨v, hv, hcovers⟩
  rw [h.agree u hu v hv, hcovers]

/-- Narrowing keeps a route even. -/
theorem Even.narrow {r narrowed : Route} (hr : r.Even) {candidates : List RouteUnit}
    (hcandidates : Agree candidates) {rule : String}
    (h : r.narrow candidates rule = .ok narrowed) : narrowed.Even := by
  rcases narrow_spec h with ⟨hnodup, -, harises⟩
  refine ⟨hnodup, ?_⟩
  intro m hm n hn t
  rcases harises m hm with ⟨u, hu, c, hc, hm⟩
  rcases harises n hn with ⟨v, hv, d, hd, hn⟩
  rw [hm.merges, hn.merges, hr.agree u hu v hv, hcandidates c hc d hd]

/-- A route that some table list can be sent on: there are units, all different, and each of them
covers every table. -/
structure Complete (r : Route) (tables : List String) : Prop where
  nonempty : r.units ≠ []
  nodup : r.units.Nodup
  covers : ∀ u ∈ r.units, ∀ t ∈ tables, u.covers t = true

/-- Narrowing keeps all tables covered. -/
theorem Complete.narrow {r narrowed : Route} {tables : List String} (hr : r.Complete tables)
    {candidates : List RouteUnit} {rule : String}
    (h : r.narrow candidates rule = .ok narrowed) : narrowed.Complete tables := by
  rcases narrow_spec h with ⟨hnodup, hnonempty, harises⟩
  refine ⟨hnonempty hr.nonempty, hnodup, ?_⟩
  intro m hm t ht
  rcases harises m hm with ⟨u, hu, c, -, hm⟩
  rw [hm.merges, hr.covers u hu t ht, Bool.true_or]

end Route

open Route

/-! ## Routing -/

namespace RuleSet

variable {rs : RuleSet} {statement : Statement} {inTransaction : Bool} {turns : Turns}

/-- A rule leaves a route as it is, starts it with its candidates, or narrows it. -/
theorem applyRule_cases {rule : RouteRule} {r next : Route}
    (h : (applyRule statement inTransaction r rule turns).1 = .ok next) :
    (rule.route statement r inTransaction turns).1 = .ok none ∧ next = r ∨
    ∃ candidates, (rule.route statement r inTransaction turns).1 = .ok (some candidates) ∧
      (r.units = [] ∧ next = ofUnits candidates ∨
        r.units ≠ [] ∧ r.narrow candidates rule.name = .ok next) := by
  unfold applyRule at h
  rcases Balancing.bind_eq_ok.mp h with ⟨found, hfound, hnext⟩
  split at hnext
  · cases hnext
    exact .inl ⟨hfound, rfl⟩
  · cases hnext
  · refine .inr ⟨_, hfound, ?_⟩
    split at hnext
    · rename_i hempty
      cases hnext
      exact .inl ⟨isEmpty_iff.mp hempty, rfl⟩
    · rename_i hempty
      exact .inr ⟨fun hnil => hempty (isEmpty_iff.mpr hnil), hnext⟩

/-- Every rule keeps a route even. -/
theorem even_applyRule {rule : RouteRule} {r next : Route} (hr : r.Even)
    (h : (applyRule statement inTransaction r rule turns).1 = .ok next) : next.Even := by
  rcases applyRule_cases h with ⟨-, rfl⟩ | ⟨candidates, hfound, ⟨-, rfl⟩ | ⟨-, hnarrow⟩⟩
  · exact hr
  · exact even_ofUnits (RouteRule.agree_of_route hfound)
  · exact hr.narrow (RouteRule.agree_of_route hfound) hnarrow

/-- Every rule keeps all tables covered. -/
theorem complete_applyRule {rule : RouteRule} {r next : Route} {tables : List String}
    (hr : r.Complete tables)
    (h : (applyRule statement inTransaction r rule turns).1 = .ok next) :
    next.Complete tables := by
  rcases applyRule_cases h with ⟨-, rfl⟩ | ⟨candidates, -, ⟨hnil, -⟩ | ⟨-, hnarrow⟩⟩
  · exact hr
  · exact absurd hnil hr.nonempty
  · exact hr.narrow hnarrow

/-- A unit with a single table maps that table besides its own. -/
theorem covers_attached {r : Route} {t ds : String} {m : RouteUnit} (hm : m ∈ attached r t ds) :
    ∃ u ∈ r.units, ∀ name, m.covers name = (u.covers name || Text.alike t name) := by
  rcases List.mem_map.mp hm with ⟨u, hu, rfl⟩
  refine ⟨u, (List.mem_filter.mp hu).1, ?_⟩
  intro name
  rw [Bool.eq_iff_iff, Bool.or_eq_true, covers_iff, covers_iff]
  simp [Maps, or_and_right, exists_or, Mapping.identity]

/-- A single table starts an empty route. -/
theorem addSingleTable_empty (rs : RuleSet) (t : String) :
    rs.addSingleTable empty t =
      match rs.home? t with
      | none => .error (.routing (.unplacedTable t))
      | some ds => .ok ⟨[{ dataSource := .identity ds, tables := [.identity t] }]⟩ := by
  unfold addSingleTable home?
  cases (rs.singleTable? t).or rs.defaultDataSource <;> rfl

/-- A single table is added to all units that are kept. -/
theorem addSingleTable_spec {r next : Route} {t : String} (hr : r.Even)
    (h : rs.addSingleTable r t = .ok next) :
    next.Even ∧ next.units ≠ [] ∧
      ∀ m ∈ next.units, ∀ name, m.covers name = (r.covers name || Text.alike t name) := by
  by_cases hnil : r.units = []
  · have hempty : r = empty := congrArg Route.mk hnil
    subst hempty
    rw [addSingleTable_empty] at h
    cases hhome : rs.home? t with
    | none => simp [hhome] at h
    | some ds =>
        simp only [hhome, Except.ok.injEq] at h
        subst h
        refine ⟨⟨List.nodup_singleton _, by simp [Agree]⟩, by simp, ?_⟩
        intro m hm name
        rw [List.mem_singleton.mp hm, Bool.eq_iff_iff, covers_iff]
        simp [Maps, Mapping.identity, Route.covers, empty]
  · rw [addSingleTable_eq hnil] at h
    cases hhome : rs.home? t with
    | none => simp [hhome] at h
    | some ds =>
        simp only [hhome] at h
        split at h
        · cases h
        · rename_i hattached
          cases h
          have hcovers : ∀ m ∈ attached r t ds, ∀ name,
              m.covers name = (r.covers name || Text.alike t name) := by
            intro m hm name
            rcases covers_attached hm with ⟨u, hu, hname⟩
            rw [hname, hr.covers_eq hu]
          refine ⟨even_ofUnits ?_, ?_, ?_⟩
          · intro m hm n hn name
            rw [hcovers m hm, hcovers n hn]
          · rw [units_ofUnits, Ne, distinctly_eq_nil]
            exact hattached
          · intro m hm
            exact hcovers m (mem_ofUnits.mp hm)

/-- Single tables are added one after the other. -/
theorem addSingleTables_spec (names : List String) {r next : Route} (hr : r.Even)
    (h : names.foldlM rs.addSingleTable r = .ok next) :
    next.Even ∧ (r.units ≠ [] ∨ names ≠ [] → next.units ≠ []) ∧
      ∀ m ∈ next.units, ∀ name,
        m.covers name = (r.covers name || names.any (Text.alike · name)) := by
  induction names generalizing r with
  | nil =>
      cases h
      refine ⟨hr, by simp, ?_⟩
      intro m hm name
      rw [← hr.covers_eq hm]
      simp
  | cons t names ih =>
      rw [List.foldlM_cons] at h
      rcases Except.bind_eq_ok.mp h with ⟨middle, hmiddle, hrest⟩
      rcases addSingleTable_spec hr hmiddle with ⟨heven, hsome, hadded⟩
      rcases ih heven hrest with ⟨hnext, hnonempty, hcovers⟩
      refine ⟨hnext, fun _ => hnonempty (.inl hsome), ?_⟩
      intro m hm name
      rcases List.exists_mem_of_ne_nil _ hsome with ⟨u, hu⟩
      rw [hcovers m hm, ← heven.covers_eq hu, hadded u hu, List.any_cons, Bool.or_assoc]

/-- After the single tables every unit covers every table. -/
theorem complete_routeSingleTables {r next : Route} (hr : r.Even)
    (h : rs.routeSingleTables statement r = .ok next) : next.Complete statement.tables := by
  unfold routeSingleTables at h
  simp only [List.isEmpty_iff, distinctly_eq_nil, List.filter_eq_nil_iff] at h
  split at h
  · rename_i hcovered
    have hall : ∀ t ∈ statement.tables, r.covers t = true := by simpa using hcovered
    split at h
    · rename_i hempty
      -- An empty route covers no table, so that the statement has none.
      have hnone : statement.tables = [] := by
        rw [List.eq_nil_iff_forall_not_mem]
        intro t ht
        have := hall t ht
        simp [Route.covers, isEmpty_iff.mp hempty] at this
      split at h
      · cases h
        refine ⟨?_, ?_, by simp [hnone]⟩
        · simp [units_add, isEmpty_iff.mp hempty]
        · exact nodup_add hr.nodup _
      · cases h
    · rename_i hempty
      cases h
      refine ⟨fun hnil => hempty (isEmpty_iff.mpr hnil), hr.nodup, ?_⟩
      intro u hu t ht
      rw [hr.covers_eq hu, hall t ht]
  · rename_i hcovered
    rcases addSingleTables_spec _ hr h with ⟨heven, hnonempty, hcovers⟩
    have hsome : distinctly (statement.tables.filter fun t => !r.covers t) ≠ [] := by
      simpa [distinctly_eq_nil] using hcovered
    refine ⟨hnonempty (.inr hsome), heven.nodup, ?_⟩
    intro u hu t ht
    rw [hcovers u hu]
    cases hcover : r.covers t with
    | true => rfl
    | false =>
        rw [Bool.false_or, List.any_eq_true]
        refine ⟨t, ?_, Text.alike_refl t⟩
        rw [mem_distinctly, List.mem_filter]
        exact ⟨ht, by simp [hcover]⟩

/-- A statement that is routed has a unit, its units are all different, and every one of them covers
every table of the statement. -/
theorem covers_of_route {route : Route}
    (h : (rs.route statement inTransaction turns).1 = .ok route) :
    route.units ≠ [] ∧ route.units.Nodup ∧
      ∀ u ∈ route.units, ∀ t ∈ statement.tables, u.covers t = true := by
  unfold RuleSet.route at h
  rcases Balancing.bind_eq_ok.mp h with ⟨placed, hplaced, hrest⟩
  rcases Balancing.bind_eq_ok.mp hrest with ⟨complete, hcomplete, hredirected⟩
  have heven : placed.Even :=
    Balancing.foldlM_preserves (fun _ _ _ _ _ hr hnext => even_applyRule hr hnext) even_empty
      hplaced
  have hroute : route.Complete statement.tables :=
    Balancing.foldlM_preserves (fun _ _ _ _ _ hr hnext => complete_applyRule hr hnext)
      (complete_routeSingleTables heven hcomplete) hredirected
  exact ⟨hroute.nonempty, hroute.nodup, hroute.covers⟩

/-- Orders on two nodes with a dictionary beside them; the first data source has a shadow, the
second one a replica. -/
def redirectingRuleSet : RuleSet :=
  { rules :=
      [.sharding
        { priority := 0
          tables := [
            { name := "t_order"
              nodes := [⟨"ds_0", "t_order_0"⟩, ⟨"ds_1", "t_order_1"⟩]
              placement := none }] },
        .broadcast { priority := 10, tables := ["t_dict"], dataSources := ["ds_0", "ds_1"] },
        .shadow
          { priority := 20
            pairs := [{ name := "pair", production := "ds_0", shadow := "ds_0_shadow" }]
            tables := [("t_order", { pairs := ["pair"], algorithms := [.hint] })] },
        .replicas
          { priority := 30
            groups := [
              { name := "ds_1", writer := "ds_1_writer", readers := ["ds_1_reader"]
                balancer := { key := .own 0 0, policy := .roundRobin } }] }]
    singleTables := []
    defaultDataSource := none }

/-- A statement that names its tables in several spellings. -/
def respelledStatement : Statement :=
  { sql := "SELECT * FROM T_Order JOIN t_dict JOIN T_DICT JOIN t_order"
    tables := ["T_Order", "t_dict", "T_DICT", "t_order"]
    comments := ["/* shadow:true */"] }

/-- The route of `respelledStatement`. -/
def redirectedRoute : Route :=
  ⟨[{ dataSource := ⟨"ds_0", "ds_0_shadow"⟩
      tables := [⟨"t_order", "t_order_0"⟩, .identity "t_dict"] },
    { dataSource := ⟨"ds_1", "ds_1_reader"⟩
      tables := [⟨"t_order", "t_order_1"⟩, .identity "t_dict"] }]⟩

/-- Tables are covered in any spelling, and each unit is listed once. -/
theorem covers_of_route_respelled :
    (redirectingRuleSet.route respelledStatement false []).1 = .ok redirectedRoute ∧
    redirectedRoute.units ≠ [] ∧ redirectedRoute.units.Nodup ∧
    ∀ u ∈ redirectedRoute.units, ∀ t ∈ ["T_Order", "t_dict", "T_DICT", "t_order"],
      u.covers t = true := by
  have hroute : (redirectingRuleSet.route respelledStatement false []).1 =
      .ok redirectedRoute := by
    rfl
  exact ⟨hroute, covers_of_route hroute⟩

end RuleSet

end ShardedSql
