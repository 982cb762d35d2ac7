import ShardedSql.Pattern.Reader
import ShardedSql.Proofs.Route.Renaming

/-!
# Shadow accesses

A statement that is taken for a shadow access on a data source is to run on its shadow, or on a
member of the group that the shadow names.  The shadow rule looks at the actual data source of a
unit.  A group that stands for the data source hides it when the read/write splitting rule comes
first: the rule then sees a member of the group, and that is where the unit stays unless the member
leads to the shadow itself.

Main results:

- Theorem `ShadowRule.Recognises.target_eq`: where a shadow access leads.
- Theorem `RuleSet.shadows_of_route`: where the units of a data source run.
- Theorem `RuleSet.not_shadows_groupedUsers`: a shadow access that reaches production.
-/

namespace ShardedSql

open Route RouteUnit Std

/-! ## Decisions -/

namespace ShadowRule

/-- A statement is a shadow access on a data source: the data source belongs to one pair only, a
table of the statement lives on the pair, and all of those that do are recognised. -/
structure Recognises (rule : ShadowRule) (statement : Statement) (pair : ShadowPair)
    (dataSource : String) : Prop where
  only : rule.pairs.filter (fun p => p.name == dataSource || p.production == dataSource) = [pair]
  lives : ∃ t ∈ statement.tables, ∃ table, rule.table? t = some table ∧ pair.name ∈ table.pairs
  recognised : ∀ t ∈ statement.tables, ∀ table, rule.table? t = some table →
    pair.name ∈ table.pairs → table.algorithms.any
      (·.isShadow statement t (Hints.ofComments statement.comments)) = true

variable {rule : ShadowRule} {statement : Statement} {pair : ShadowPair} {dataSource : String}

/-- The decisions on a pair are those of the tables that live on it. -/
theorem mem_decisions {hints : Hints} {decision : String × Bool} :
    decision ∈ rule.decisions pair statement hints ↔ ∃ t ∈ statement.tables, ∃ table,
      rule.table? t = some table ∧ pair.name ∈ table.pairs ∧
        decision = (t, table.algorithms.any (·.isShadow statement t hints)) := by
  unfold decisions
  rw [List.mem_filterMap]
  constructor
  · rintro ⟨t, ht, hdecision⟩
    split at hdecision
    · rename_i table htable
      split at hdecision
      · rename_i hlives
        exact ⟨t, ht, table, htable, hlives, (Option.some.inj hdecision).symm⟩
      · cases hdecision
    · cases hdecision
  · rintro ⟨t, ht, table, htable, hlives, rfl⟩
    exact ⟨t, ht, by simp [htable, hlives]⟩

/-- Decisions that agree are the common one. -/
theorem resolve_eq {hints : Hints} {b : Bool} (hsome : rule.decisions pair statement hints ≠ [])
    (h : ∀ decision ∈ rule.decisions pair statement hints, decision.2 = b) :
    rule.resolve pair statement hints = .ok b := by
  unfold resolve
  cases hlist : rule.decisions pair statement hints with
  | nil => exact absurd hlist hsome
  | cons first rest =>
      rw [hlist] at h
      have hfirst : first.2 = b := h first List.mem_cons_self
      have hnone : rest.find? (·.2 != first.2) = none := by
        rw [List.find?_eq_none]
        intro decision hdecision
        simp [h decision (List.mem_cons_of_mem _ hdecision), hfirst]
      rw [hfirst] at hnone
      simp [hfirst, hnone]

/-- A shadow access leads from the data source to its shadow. -/
theorem Recognises.target_eq (h : rule.Recognises statement pair dataSource) :
    rule.target statement (Hints.ofComments statement.comments) dataSource =
      .ok ⟨dataSource, pair.shadow⟩ := by
  have hpair : rule.pair? dataSource = some pair := by
    rw [pair?, ← List.head?_filter, h.only]
    rfl
  have hresolve : rule.resolve pair statement (Hints.ofComments statement.comments) =
      .ok true := by
    apply resolve_eq
    · rcases h.lives with ⟨t, ht, table, htable, hlives⟩
      exact List.ne_nil_of_mem (mem_decisions.mpr ⟨t, ht, table, htable, hlives, rfl⟩)
    · intro decision hdecision
      rcases mem_decisions.mp hdecision with ⟨t, ht, table, htable, hlives, rfl⟩
      exact h.recognised t ht table htable hlives
  rw [target, hpair]
  simp only [hresolve]
  rfl

/-- A recognised statement has a shadowed table. -/
theorem Recognises.exists_table (h : rule.Recognises statement pair dataSource) :
    ∃ t ∈ statement.tables, (rule.table? t).isSome = true := by
  rcases h.lives with ⟨t, ht, table, htable, -⟩
  exact ⟨t, ht, by simp [htable]⟩

end ShadowRule

/-! ## Groups before and after the shadow rule -/

/-- The group of a name, if the rule is a read/write splitting rule that has it. -/
def RouteRule.group? (name : String) : RouteRule → Option ReplicaGroup
  | .replicas rule => rule.group? name
  | _ => none

/-- Whether a rule is a shadow rule. -/
def RouteRule.isShadow : RouteRule → Bool
  | .shadow _ => true
  | _ => false

namespace RuleSet

/-- The group of a name. -/
def group? (rs : RuleSet) (name : String) : Option ReplicaGroup :=
  rs.redirectingRules.findSome? (·.group? name)

/-- The group of a name, if a rule before the shadow rule has it. -/
def groupBefore? (rs : RuleSet) (name : String) : Option ReplicaGroup :=
  (rs.redirectingRules.takeWhile (!·.isShadow)).findSome? (·.group? name)

/-- Where shadow accesses may run: on the shadow of a pair, or on a member of the group that the
shadow names. -/
def Shadows (rs : RuleSet) (pair : ShadowPair) (dataSource : String) : Prop :=
  dataSource = pair.shadow ∨ ∃ g, rs.group? pair.shadow = some g ∧ dataSource ∈ g.members

/-- A shadow rule has the redirecting rules to itself, or shares them with a read/write splitting
rule before or after it. -/
theorem redirectingRules_of_shadow {patterns : PatternLibrary} {rules : Rules}
    {default : Option String} {rs : RuleSet}
    (h : setUp patterns rules default = .ok rs) {shadow : ShadowRule}
    (hshadow : RouteRule.shadow shadow ∈ rs.rules) :
    rs.redirectingRules = [.shadow shadow] ∨ ∃ replicas,
      rs.redirectingRules = [.shadow shadow, .replicas replicas] ∨
      rs.redirectingRules = [.replicas replicas, .shadow shadow] := by
  rcases redirectingRules_of_setUp h with ⟨found, replicas, hrules⟩
  have hperm : rs.redirectingRules.Perm (redirecting found replicas) := by
    rw [hrules]
    exact List.mergeSort_perm _ _
  have hmem : RouteRule.shadow shadow ∈ redirecting found replicas :=
    hperm.mem_iff.mp (List.mem_filter.mpr ⟨hshadow, rfl⟩)
  cases found with
  | none => cases replicas <;> simp [redirecting] at hmem
  | some found =>
      have hfound : found = shadow := by
        cases replicas <;> simpa [redirecting, eq_comm] using hmem
      subst hfound
      cases replicas with
      | none => exact .inl (List.perm_singleton.mp hperm)
      | some rule => exact .inr ⟨rule, List.perm_pair.mp hperm⟩

variable {rs : RuleSet} {statement : Statement} {inTransaction : Bool} {turns : Turns}
  {shadow : ShadowRule} {pair : ShadowPair} {dataSource : String}

/-- The shadow rule takes the units of a data source, all of them in one place, where the place
leads; a unit that has been moved may stay if the shadow of the data source is there. -/
theorem actual_of_applyShadow (h : shadow.Recognises statement pair dataSource)
    {r next : Route} (hr : r.units ≠ [])
    (hnext : (applyRule statement inTransaction r (.shadow shadow) turns).1 = .ok next)
    {place : String}
    (hplace : ∀ u ∈ r.units, u.dataSource.logical = dataSource → u.dataSource.actual = place) :
    ∀ u ∈ next.units, u.dataSource.logical = dataSource →
      shadow.target statement (Hints.ofComments statement.comments) place =
        .ok ⟨place, u.dataSource.actual⟩ ∨
      u.dataSource.actual = place ∧ place ≠ dataSource ∧
        (pair.shadow = dataSource ∨ pair.shadow = place) := by
  rcases renamedBy_of_applyShadow hr h.exists_table hnext with ⟨f, hrenamed, htarget⟩
  intro u hu hlogical
  rcases hrenamed.tracks hplace u hu hlogical with
    ⟨⟨v, hv, hactual⟩, hmoved | ⟨hkept, hne, ⟨w, hw, hother⟩, hagrees⟩⟩
  · left
    rw [hmoved, ← hactual]
    exact htarget v hv
  · right
    have hshadow : f dataSource = pair.shadow := by
      have hleads := htarget w hw
      rw [hother, h.target_eq] at hleads
      exact (congrArg (·.actual) (Except.ok.inj hleads)).symm
    rw [hshadow] at hagrees
    exact ⟨hkept, hne, hagrees⟩

/-- Units that have not been moved are taken to the shadow. -/
theorem shadow_of_applyShadow (h : shadow.Recognises statement pair dataSource)
    {r next : Route} (hr : r.units ≠ [])
    (hnext : (applyRule statement inTransaction r (.shadow shadow) turns).1 = .ok next)
    (hplace : ∀ u ∈ r.units, u.dataSource.logical = dataSource →
      u.dataSource.actual = dataSource) :
    ∀ u ∈ next.units, u.dataSource.logical = dataSource → u.dataSource.actual = pair.shadow := by
  intro u hu hlogical
  rcases actual_of_applyShadow h hr hnext hplace u hu hlogical with htarget | ⟨-, hne, -⟩
  · rw [h.target_eq] at htarget
    exact (congrArg (·.actual) (Except.ok.inj htarget)).symm
  · exact absurd rfl hne

/-- A read/write splitting rule after the shadow rule takes units from the shadow to a member of its
group, if there is one. -/
theorem shadows_of_applyReplicas (h : shadow.Recognises statement pair dataSource)
    {replicas : ReplicaRule} (hgroup : rs.group? pair.shadow = replicas.group? pair.shadow)
    {base halfway next : Route} (hsome : base.units ≠ [])
    (hbase : ∀ u ∈ base.units, u.dataSource.logical = dataSource →
      u.dataSource.actual = dataSource)
    (hhalfway : (applyRule statement inTransaction base (.shadow shadow) turns).1 = .ok halfway)
    {later : Turns}
    (hnext : (applyRule statement inTransaction halfway (.replicas replicas) later).1 =
      .ok next) :
    ∀ u ∈ next.units, u.dataSource.logical = dataSource → rs.Shadows pair u.dataSource.actual := by
  have hshadowed := shadow_of_applyShadow h hsome hhalfway hbase
  rcases renamedBy_of_applyShadow hsome h.exists_table hhalfway with ⟨_, hfirst, -⟩
  rcases renamedBy_of_applyReplicas (hfirst.nonempty hsome) hnext with ⟨f, hsecond, hleads⟩
  intro u hu hlogical
  rcases (hsecond.tracks hshadowed u hu hlogical).2 with hmoved | ⟨hkept, -⟩
  · rcases hleads pair.shadow with ⟨-, hsame⟩ | ⟨g, hg, hmember⟩
    · exact .inl (hmoved.trans hsame)
    · exact .inr ⟨g, hgroup.trans hg, hmoved ▸ hmember⟩
  · exact .inl hkept

/-- A read/write splitting rule before the shadow rule takes units to a member of the group of their
data source, if there is one, and the shadow rule takes them where the member leads, unless they are
on the shadow or on a member of its group. -/
theorem actual_of_applyReplicas (h : shadow.Recognises statement pair dataSource)
    {replicas : ReplicaRule} (hgroup : rs.group? pair.shadow = replicas.group? pair.shadow)
    {base halfway next : Route} (hsome : base.units ≠ [])
    (hbase : ∀ u ∈ base.units, u.dataSource.logical = dataSource →
      u.dataSource.actual = dataSource)
    (hhalfway : (applyRule statement inTransaction base (.replicas replicas) turns).1 =
      .ok halfway) {later : Turns}
    (hnext : (applyRule statement inTransaction halfway (.shadow shadow) later).1 = .ok next) :
    (replicas.group? dataSource = none → ∀ u ∈ next.units, u.dataSource.logical = dataSource →
      rs.Shadows pair u.dataSource.actual) ∧
    ∀ g, replicas.group? dataSource = some g → ∃ member ∈ g.members, ∀ u ∈ next.units,
      u.dataSource.logical = dataSource → rs.Shadows pair u.dataSource.actual ∨
        shadow.target statement (Hints.ofComments statement.comments) member =
          .ok ⟨member, u.dataSource.actual⟩ := by
  rcases renamedBy_of_applyReplicas hsome hhalfway with ⟨f, hfirst, hleads⟩
  have hplace : ∀ u ∈ halfway.units, u.dataSource.logical = dataSource →
      u.dataSource.actual = f dataSource := by
    intro u hu hlogical
    rcases (hfirst.tracks hbase u hu hlogical).2 with hmoved | ⟨-, hne, -⟩
    · exact hmoved
    · exact absurd rfl hne
  have hhalfwaySome := hfirst.nonempty hsome
  rcases hleads dataSource with ⟨hnone, hsame⟩ | ⟨g, hg, hmember⟩
  · refine ⟨fun _ u hu hlogical => ?_, fun g hg => by simp [hnone] at hg⟩
    rw [hsame] at hplace
    exact .inl (shadow_of_applyShadow h hhalfwaySome hnext hplace u hu hlogical)
  · refine ⟨fun hnone => by simp [hnone] at hg, fun g' hg' => ?_⟩
    cases hg.symm.trans hg'
    refine ⟨f dataSource, hmember, fun u hu hlogical => ?_⟩
    rcases actual_of_applyShadow h hhalfwaySome hnext hplace u hu hlogical with
      htarget | ⟨hkept, -, hshadow | hshadow⟩
    · exact .inr htarget
    · refine .inl (.inr ⟨g, ?_, hkept ▸ hmember⟩)
      rw [hgroup, hshadow, hg]
    · exact .inl (.inl (hkept.trans hshadow.symm))

/-- A statement that is a shadow access on a data source runs its units on the shadow or on a member
of the group that the shadow names, if no group of the name of the data source comes before the
shadow rule.  After such a group they run where its member leads, unless that is the shadow. -/
theorem shadows_of_route {patterns : PatternLibrary} {rules : Rules} {default : Option String}
    (hsetUp : setUp patterns rules default = .ok rs) (hshadow : RouteRule.shadow shadow ∈ rs.rules)
    (h : shadow.Recognises statement pair dataSource) {route : Route}
    (hroute : (rs.route statement inTransaction turns).1 = .ok route) :
    (rs.groupBefore? dataSource = none → ∀ u ∈ route.units,
      u.dataSource.logical = dataSource → rs.Shadows pair u.dataSource.actual) ∧
    ∀ g, rs.groupBefore? dataSource = some g → ∃ member ∈ g.members, ∀ u ∈ route.units,
      u.dataSource.logical = dataSource → rs.Shadows pair u.dataSource.actual ∨
        shadow.target statement (Hints.ofComments statement.comments) member =
          .ok ⟨member, u.dataSource.actual⟩ := by
  rcases route_eq_ok.mp hroute with ⟨base, hplaced, hredirected⟩
  rcases placed_spec hplaced with ⟨hsome, -, hunrenamed⟩
  have hbase : ∀ u ∈ base.units, u.dataSource.logical = dataSource →
      u.dataSource.actual = dataSource := by
    intro u hu hlogical
    rw [hunrenamed u hu, hlogical]
  rcases redirectingRules_of_shadow hsetUp hshadow with hrules | ⟨replicas, hrules | hrules⟩
  · -- The shadow rule alone.
    rw [hrules, Balancing.foldlM_single_eq_ok] at hredirected
    have hshadowed := shadow_of_applyShadow h hsome hredirected hbase
    refine ⟨fun _ u hu hlogical => .inl (hshadowed u hu hlogical), ?_⟩
    intro g hg
    simp [groupBefore?, hrules, RouteRule.isShadow] at hg
  · -- A group of the name of the shadow may take over.
    rw [hrules, Balancing.foldlM_pair_eq_ok] at hredirected
    rcases hredirected with ⟨halfway, hhalfway, hnext⟩
    have hgroup : rs.group? pair.shadow = replicas.group? pair.shadow := by
      simp [group?, hrules, RouteRule.group?]
    refine ⟨fun _ => shadows_of_applyReplicas h hgroup hsome hbase hhalfway hnext, ?_⟩
    intro g hg
    simp [groupBefore?, hrules, RouteRule.isShadow] at hg
  · -- A group of the name of the data source may stand before the shadow rule.
    rw [hrules, Balancing.foldlM_pair_eq_ok] at hredirected
    rcases hredirected with ⟨halfway, hhalfway, hnext⟩
    have hbefore : rs.groupBefore? dataSource = replicas.group? dataSource := by
      simp [groupBefore?, hrules, RouteRule.group?, RouteRule.isShadow]
    have hgroup : rs.group? pair.shadow = replicas.group? pair.shadow := by
      rw [group?, hrules]
      cases hfound : replicas.group? pair.shadow <;>
        simp [RouteRule.group?, hfound]
    rw [hbefore]
    exact actual_of_applyReplicas h hgroup hsome hbase hhalfway hnext

/-! ### A group before the shadow rule -/

/-- Users on a data source with a shadow.  The data source and its shadow are groups of a read/write
splitting rule with the given priority. -/
def groupedRules (priority : Option Int) : Rules :=
  { singleTables := [("t_user", "ds_0")]
    shadow := some
      { pairs := [{ name := "pair", production := "ds_0", shadow := "ds_0_shadow" }]
        tables := [("t_user", { pairs := ["pair"], algorithms := ["comment"] })]
        algorithms := [("comment", { type := "SQL_HINT", properties := [] })] }
    replicas := some
      { priority := priority
        groups := [
          { name := "ds_0", writer := "ds_0_writer", readers := ["ds_0_reader"] },
          { name := "ds_0_shadow", writer := "shadow_writer", readers := ["shadow_reader"] }] } }

/-- The shadow rule of `groupedRules`. -/
def groupedShadow : ShadowRule :=
  { priority := 20
    pairs := [{ name := "pair", production := "ds_0", shadow := "ds_0_shadow" }]
    tables := [("t_user", { pairs := ["pair"], algorithms := [.hint] })] }

/-- The read/write splitting rule of `groupedRules`. -/
def groupedReplicas (priority : Int) : ReplicaRule :=
  { priority := priority
    groups := [
      { name := "ds_0", writer := "ds_0_writer", readers := ["ds_0_reader"]
        balancer := { key := .own 0 0, policy := .roundRobin } },
      { name := "ds_0_shadow", writer := "shadow_writer", readers := ["shadow_reader"]
        balancer := { key := .own 0 1, policy := .roundRobin } }] }

/-- The rule set of `groupedRules`, given its rules in order. -/
def groupedRuleSet (rules : List RouteRule) : RuleSet :=
  { rules := rules, singleTables := [("t_user", "ds_0")], defaultDataSource := none }

/-- The rules are set up with the priority of the groups. -/
theorem setUpRules_groupedRules (priority : Option Int) :
    setUpRules Pattern.library 0 (groupedRules priority) = .ok [.shadow groupedShadow,
      .replicas (groupedReplicas (priority.getD ReplicaRule.defaultPriority))] := by
  rfl

/-- With the priorities that rules have by default the shadow rule comes first. -/
theorem setUp_groupedRules : setUp Pattern.library (groupedRules none) none =
    .ok (groupedRuleSet [.shadow groupedShadow, .replicas (groupedReplicas 30)]) := by
  rw [setUp_eq_ok (setUpRules_groupedRules none) (by decide)]
  rfl

/-- With a lower priority the read/write splitting rule comes first. -/
theorem setUp_groupedRules_first : setUp Pattern.library (groupedRules (some 10)) none =
    .ok (groupedRuleSet [.replicas (groupedReplicas 10), .shadow groupedShadow]) := by
  have hordered : stableSort RouteRule.order
      [.shadow groupedShadow, .replicas (groupedReplicas 10)] =
      [.replicas (groupedReplicas 10), .shadow groupedShadow] :=
    stableSort_pair (by decide)
  unfold setUp
  rw [setUpRules_groupedRules]
  show Except.ok (ofRules [.shadow groupedShadow, .replicas (groupedReplicas 10)] _ _) = _
  rw [groupedRuleSet, ← hordered, ← rules_ofRules _ [("t_user", "ds_0")] none]
  rfl

/-- A statement on users with a comment that asks for the shadow. -/
def shadowUsers : Statement :=
  { sql := "/* shadow:true */ SELECT * FROM t_user"
    tables := ["t_user"]
    comments := ["/* shadow:true */"] }

/-- The statement with the hint is recognised. -/
theorem recognises_shadowUsers : groupedShadow.Recognises shadowUsers
    { name := "pair", production := "ds_0", shadow := "ds_0_shadow" } "ds_0" := by
  have htable : groupedShadow.table? "t_user" =
      some { pairs := ["pair"], algorithms := [.hint] } := by
    rfl
  refine ⟨by decide, ⟨"t_user", by decide, _, htable, by decide⟩, ?_⟩
  intro t ht table hfound _
  rw [List.mem_singleton.mp ht, htable] at hfound
  cases hfound
  rfl

/-- The users are read from the reader of the shadow. -/
theorem shadows_of_route_shadowUsers :
    ∃ rs, setUp Pattern.library (groupedRules none) none = .ok rs ∧
      RouteRule.shadow groupedShadow ∈ rs.rules ∧
      groupedShadow.Recognises shadowUsers
        { name := "pair", production := "ds_0", shadow := "ds_0_shadow" } "ds_0" ∧
      rs.groupBefore? "ds_0" = none ∧
      (rs.route shadowUsers false []).1 = .ok
        ⟨[{ dataSource := ⟨"ds_0", "shadow_reader"⟩, tables := [.identity "t_user"] }]⟩ ∧
      rs.Shadows { name := "pair", production := "ds_0", shadow := "ds_0_shadow" }
        "shadow_reader" := by
  have hroute : ((groupedRuleSet [.shadow groupedShadow, .replicas (groupedReplicas 30)]).route
      shadowUsers false []).1 = .ok
        ⟨[{ dataSource := ⟨"ds_0", "shadow_reader"⟩, tables := [.identity "t_user"] }]⟩ := by
    rfl
  have hshadow : RouteRule.shadow groupedShadow ∈
      (groupedRuleSet [.shadow groupedShadow, .replicas (groupedReplicas 30)]).rules :=
    List.mem_cons_self
  refine ⟨_, setUp_groupedRules, hshadow, recognises_shadowUsers, by rfl, hroute, ?_⟩
  exact (shadows_of_route setUp_groupedRules hshadow recognises_shadowUsers hroute).1 (by rfl) _
    (List.mem_singleton_self _) rfl

/-- When the read/write splitting rule comes first, the users are read from production. -/
theorem not_shadows_groupedUsers :
    ∃ rs, setUp Pattern.library (groupedRules (some 10)) none = .ok rs ∧
      RouteRule.shadow groupedShadow ∈ rs.rules ∧
      groupedShadow.Recognises shadowUsers
        { name := "pair", production := "ds_0", shadow := "ds_0_shadow" } "ds_0" ∧
      (rs.route shadowUsers false []).1 = .ok
        ⟨[{ dataSource := ⟨"ds_0", "ds_0_reader"⟩, tables := [.identity "t_user"] }]⟩ ∧
      ¬ rs.Shadows { name := "pair", production := "ds_0", shadow := "ds_0_shadow" }
        "ds_0_reader" := by
  refine ⟨_, setUp_groupedRules_first, List.mem_cons_of_mem _ List.mem_cons_self,
    recognises_shadowUsers, by rfl, ?_⟩
  rintro (hshadow | ⟨g, hg, hmember⟩)
  · exact absurd hshadow (by decide)
  · have hgroup : (groupedRuleSet [.replicas (groupedReplicas 10), .shadow groupedShadow]).group?
        "ds_0_shadow" = some
          { name := "ds_0_shadow", writer := "shadow_writer", readers := ["shadow_reader"]
            balancer := { key := .own 0 1, policy := .roundRobin } } := by
      rfl
    cases hgroup.symm.trans hg
    exact absurd hmember (by decide)

end RuleSet

end ShardedSql
