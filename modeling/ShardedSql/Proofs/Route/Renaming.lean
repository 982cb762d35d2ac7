import ShardedSql.Proofs.Route.Stages

/-!
# Renamed data sources

A redirecting rule has one candidate for each unit: it renames the actual data source of the unit
and maps no tables.  A unit pairs with its own candidate.  A unit that has been renamed before also
pairs with the candidates for its logical data source, if another unit has come to stand there;
these it outlives only as it is.

Main results:

- Theorems `ShadowRule.exists_redirections` and `ReplicaRule.exists_redirections`: the candidates of
  a redirecting rule rename data sources.
- Theorem `Route.renamedBy_of_narrow`: the units that are left when a route is narrowed by such
  candidates.
- Theorem `RuleSet.renamedBy_of_applyRule`: one redirecting rule.
-/

namespace ShardedSql

open Route

/-! ## Renaming -/

namespace RouteUnit

/-- A unit whose actual data source is renamed. -/
def renamed (f : String → String) (u : RouteUnit) : RouteUnit :=
  { u with dataSource := ⟨u.dataSource.logical, f u.dataSource.actual⟩ }

/-- The candidate that renames the actual data source of a unit. -/
def redirection (f : String → String) (u : RouteUnit) : RouteUnit :=
  { dataSource := ⟨u.dataSource.actual, f u.dataSource.actual⟩, tables := [] }

/-- The share of a unit in a statement: its logical data source and its tables, wherever the data
source leads. -/
def share (u : RouteUnit) : String × List Mapping := (u.dataSource.logical, u.tables)

@[simp]
theorem renamed_logical (f : String → String) (u : RouteUnit) :
    (u.renamed f).dataSource.logical = u.dataSource.logical := rfl

/-- A renamed unit is on the renamed data source. -/
@[simp]
theorem renamed_actual (f : String → String) (u : RouteUnit) :
    (u.renamed f).dataSource.actual = f u.dataSource.actual := rfl

/-- Renaming the data source does not change the share of a unit. -/
@[simp]
theorem share_renamed (f : String → String) (u : RouteUnit) : (u.renamed f).share = u.share := rfl

/-- A renaming that keeps the data source of a unit keeps the unit. -/
theorem renamed_eq_self {f : String → String} {u : RouteUnit}
    (h : f u.dataSource.actual = u.dataSource.actual) : u.renamed f = u := by
  rcases u with ⟨⟨logical, actual⟩, tables⟩
  rw [renamed]
  exact congrArg (fun name => RouteUnit.mk ⟨logical, name⟩ tables) h

end RouteUnit

open RouteUnit

/-- The candidates that rename the data sources of a route. -/
def redirections (f : String → String) (r : Route) : List RouteUnit :=
  r.units.map (redirection f)

/-- The candidates are the redirections of the units. -/
theorem mem_redirections {f : String → String} {r : Route} {c : RouteUnit} :
    c ∈ redirections f r ↔ ∃ v ∈ r.units, c = v.redirection f := by
  simp [redirections, eq_comm]

/-! ## Candidates of the redirecting rules -/

namespace ShadowRule

/-- A shadow rule keeps the logical name. -/
theorem target_logical {rule : ShadowRule} {statement : Statement} {hints : Hints} {n : String}
    {m : Mapping} (h : rule.target statement hints n = .ok m) : m = ⟨n, m.actual⟩ := by
  unfold target at h
  split at h
  · cases h
    rfl
  · rename_i pair hpair
    cases hresolve : rule.resolve pair statement hints with
    | error e =>
        rw [hresolve] at h
        cases h
    | ok redirected =>
        rw [hresolve] at h
        cases h
        rfl

/-- Where the shadow rule leads a data source, if it does. -/
def leadOf (rule : ShadowRule) (statement : Statement) (n : String) : String :=
  ((rule.target statement (Hints.ofComments statement.comments) n).toOption.map (·.actual)).getD n

/-- A shadow rule leads a data source to the one it names. -/
theorem target_eq_leadOf {rule : ShadowRule} {statement : Statement} {n : String} {m : Mapping}
    (h : rule.target statement (Hints.ofComments statement.comments) n = .ok m) :
    m = ⟨n, rule.leadOf statement n⟩ := by
  have hlead : rule.leadOf statement n = m.actual := by simp [leadOf, h, Except.toOption]
  rw [hlead]
  exact target_logical h

/-- The candidates of the shadow rule rename data sources to their targets. -/
theorem exists_redirections {rule : ShadowRule} {statement : Statement} {r : Route}
    {cs : List RouteUnit} (h : rule.route statement r = .ok (some cs)) :
    ∃ f, cs = redirections f r ∧ ∀ u ∈ r.units,
      rule.target statement (Hints.ofComments statement.comments) u.dataSource.actual =
        .ok ⟨u.dataSource.actual, f u.dataSource.actual⟩ := by
  unfold ShadowRule.route at h
  split at h
  · cases h
  · rcases Except.bind_eq_ok.mp h with ⟨all, hall, hsome⟩
    cases hsome
    have hcandidates : List.Forall₂ (fun u c =>
        rule.target statement (Hints.ofComments statement.comments) u.dataSource.actual =
          .ok ⟨u.dataSource.actual, rule.leadOf statement u.dataSource.actual⟩ ∧
        u.redirection (rule.leadOf statement) = c) r.units cs := by
      apply (mapM_eq_ok_iff.mp hall).imp
      intro u c hc
      rcases Except.bind_eq_ok.mp hc with ⟨m, hm, hc⟩
      cases hc
      rw [redirection, ← target_eq_leadOf hm]
      exact ⟨hm, rfl⟩
    rcases (List.forall₂_and_left _ _).mp hcandidates with ⟨htargets, hequal⟩
    rw [← List.forall₂_map_left_iff, List.forall₂_eq_eq_eq] at hequal
    exact ⟨rule.leadOf statement, hequal.symm, htargets⟩

/-- The shadow rule applies to statements with a shadowed table. -/
theorem route_ne_none (rule : ShadowRule) {statement : Statement} {r : Route} (hr : r.units ≠ [])
    (h : ∃ t ∈ statement.tables, (rule.table? t).isSome = true) :
    rule.route statement r ≠ .ok none := by
  intro hroute
  unfold ShadowRule.route at hroute
  split at hroute
  · rename_i hnot
    rw [Bool.or_eq_true, Bool.not_eq_true', Bool.eq_false_iff, Ne, List.any_eq_true] at hnot
    exact hnot.elim (fun hempty => hr (isEmpty_iff.mp hempty)) fun hnone => hnone h
  · rcases Except.bind_eq_ok.mp hroute with ⟨cs, -, hsome⟩
    cases hsome

end ShadowRule

/-- The data sources of a replica group. -/
def ReplicaGroup.members (g : ReplicaGroup) : List String := g.writer :: g.readers

/-- Whatever a policy picks is one of the candidates. -/
theorem BalancePolicy.mem_of_pick {policy : BalancePolicy} {turn : UInt64}
    {candidates : List String} {m : String} (h : (policy.pick turn candidates).1 = .ok m) :
    m ∈ candidates := by
  cases policy with
  | roundRobin =>
      unfold pick at h
      dsimp only at h
      split at h
      · rename_i c hc
        cases h
        exact List.mem_of_getElem? hc
      · cases h
  | fixed target =>
      unfold pick at h
      dsimp only at h
      split at h
      · cases h
      · split at h
        · rename_i hmem
          cases h
          exact hmem
        · cases h

/-- A statement that goes to a group goes to one of its members. -/
theorem ReplicaGroup.mem_members_of_target {g : ReplicaGroup} {statement : Statement}
    {inTransaction : Bool} {turns : Turns} {m : String}
    (h : (g.target statement inTransaction turns).1 = .ok m) : m ∈ g.members := by
  unfold target at h
  split at h
  · cases h
    exact List.mem_cons_self
  · exact List.mem_cons_of_mem _ (BalancePolicy.mem_of_pick h)

namespace ReplicaRule

/-- Where the read/write splitting rule leads a data source: to a member of the group of that name,
or nowhere else. -/
def Leads (rule : ReplicaRule) (n m : String) : Prop :=
  (rule.group? n = none ∧ m = n) ∨ ∃ g, rule.group? n = some g ∧ m ∈ g.members

/-- A group is found by its name. -/
theorem name_of_group? {rule : ReplicaRule} {n : String} {g : ReplicaGroup}
    (h : rule.group? n = some g) : g.name = n := by
  have hname := List.find?_some h
  exact beq_iff_eq.mp hname

/-- The targets that have been chosen for groups are their members. -/
def ChoosesMembers (rule : ReplicaRule) (targets : Named String) : Prop :=
  ∀ n t g, targets.lookup n = some t → rule.group? n = some g → t ∈ g.members

/-- Groups are led to the targets that have been chosen for them. -/
def Keeps (rule : ReplicaRule) (targets : Named String) (f : String → String) : Prop :=
  ∀ n t g, targets.lookup n = some t → rule.group? n = some g → f n = t

/-- Where data sources are led: groups to the targets chosen for them, or else to their writers. -/
def leadOf (rule : ReplicaRule) (targets : Named String) (n : String) : String :=
  ((rule.group? n).map fun g => (targets.lookup n).getD g.writer).getD n

section Chosen

variable {rule : ReplicaRule} {targets : Named String}

/-- Leading by the targets keeps them. -/
theorem keeps_leadOf : rule.Keeps targets (rule.leadOf targets) := by
  intro n t g hknown hgroup
  simp [leadOf, hgroup, hknown]

/-- Targets that are members lead each group to one of them. -/
theorem ChoosesMembers.leads_leadOf (h : rule.ChoosesMembers targets) (n : String) :
    rule.Leads n (rule.leadOf targets n) := by
  cases hgroup : rule.group? n with
  | none => exact .inl ⟨hgroup, by simp [leadOf, hgroup]⟩
  | some g =>
      refine .inr ⟨g, hgroup, ?_⟩
      cases hknown : targets.lookup n with
      | none => simp [leadOf, hgroup, hknown, ReplicaGroup.members]
      | some t =>
          have ht := h n t g hknown hgroup
          simpa [leadOf, hgroup, hknown] using ht

/-- What is true of all targets that have been chosen stays true with one more. -/
theorem forall_lookup_cons {P : String → String → Prop} {name t : String} (ht : P name t)
    (h : ∀ n t', targets.lookup n = some t' → P n t') :
    ∀ n t', ((name, t) :: targets).lookup n = some t' → P n t' := by
  intro n t' hlookup
  rw [List.lookup_cons] at hlookup
  split at hlookup
  · rename_i hn
    cases hlookup
    exact beq_iff_eq.mp hn ▸ ht
  · exact h n t' hlookup

/-- A further target keeps this so if it is a member of its group. -/
theorem ChoosesMembers.cons (h : rule.ChoosesMembers targets) {g : ReplicaGroup}
    (hgroup : rule.group? g.name = some g) {t : String} (ht : t ∈ g.members) :
    rule.ChoosesMembers ((g.name, t) :: targets) := by
  intro n t' g' hlookup
  refine forall_lookup_cons (P := fun n t => ∀ g, rule.group? n = some g → t ∈ g.members) ?_
    (fun n t hn g hg => h n t g hn hg) n t' hlookup g'
  intro g' hgroup'
  cases hgroup.symm.trans hgroup'
  exact ht

/-- What keeps all targets keeps fewer of them. -/
theorem Keeps.of_cons {f : String → String} {g : ReplicaGroup} {t : String}
    (h : rule.Keeps ((g.name, t) :: targets) f)
    (hsame : ∀ t', targets.lookup g.name = some t' → t' = t) : rule.Keeps targets f := by
  intro n t' g' hlookup hgroup'
  by_cases hn : n = g.name
  · subst hn
    rw [h g.name t g' (by simp) hgroup', hsame t' hlookup]
  · apply h n t' g' _ hgroup'
    rw [List.lookup_cons, beq_false_of_ne hn]
    exact hlookup

variable {statement : Statement} {inTransaction : Bool}

/-- A group has been asked before, or it is asked for the first unit on it; either way its choice is
kept. -/
theorem candidates_cons {u : RouteUnit} {us cs : List RouteUnit} {turns later : Turns}
    {g : ReplicaGroup} (hgroup : rule.group? u.dataSource.actual = some g)
    (h : rule.candidates statement inTransaction targets (u :: us) turns = (.ok cs, later)) :
    ∃ (t : String) (rest : List RouteUnit) (next : Turns),
      (targets.lookup g.name = some t ∧ next = turns ∨
        targets.lookup g.name = none ∧ g.target statement inTransaction turns = (.ok t, next)) ∧
      (∀ t', targets.lookup g.name = some t' → t' = t) ∧
      rule.candidates statement inTransaction ((g.name, t) :: targets) us next =
        (.ok rest, later) ∧
      cs = { dataSource := ⟨u.dataSource.actual, t⟩, tables := [] } :: rest := by
  rw [candidates] at h
  simp only [hgroup] at h
  cases hlookup : targets.lookup g.name with
  | some t =>
      simp only [hlookup, pure_bind] at h
      rcases bind_apply_eq_ok.mp h with ⟨rest, _, hrest, hcs⟩
      cases hcs
      exact ⟨t, rest, turns, .inl ⟨rfl, rfl⟩, by simp, hrest, rfl⟩
  | none =>
      simp only [hlookup] at h
      rcases bind_apply_eq_ok.mp h with ⟨t, next, ht, hafter⟩
      rcases bind_apply_eq_ok.mp hafter with ⟨rest, _, hrest, hcs⟩
      cases hcs
      exact ⟨t, rest, next, .inr ⟨rfl, ht⟩, by simp, hrest, rfl⟩

/-- The candidates of the read/write splitting rule, whose choices agree with those that have been
made before. -/
theorem exists_redirections_of_candidates {us cs : List RouteUnit} {turns later : Turns}
    (hmembers : rule.ChoosesMembers targets)
    (h : rule.candidates statement inTransaction targets us turns = (.ok cs, later)) :
    ∃ f : String → String, (∀ n, rule.Leads n (f n)) ∧ rule.Keeps targets f ∧
      cs = us.map (redirection f) := by
  induction us generalizing targets turns cs with
  | nil =>
      cases h
      exact ⟨rule.leadOf targets, hmembers.leads_leadOf, keeps_leadOf, rfl⟩
  | cons u us ih =>
      cases hgroup : rule.group? u.dataSource.actual with
      | none =>
          rw [candidates] at h
          simp only [hgroup] at h
          rcases bind_apply_eq_ok.mp h with ⟨rest, _, hrest, hcs⟩
          cases hcs
          rcases ih hmembers hrest with ⟨f, hleads, hkeeps, rfl⟩
          refine ⟨f, hleads, hkeeps, ?_⟩
          rcases hleads u.dataSource.actual with ⟨-, hsame⟩ | ⟨g, hg, -⟩
          · rw [List.map_cons, redirection, hsame]
            rfl
          · rw [hgroup] at hg
            cases hg
      | some g =>
          have hname : g.name = u.dataSource.actual := name_of_group? hgroup
          have hgroup' : rule.group? g.name = some g := hname ▸ hgroup
          rcases candidates_cons hgroup h with ⟨t, rest, next, hchoice, hsame, hrest, rfl⟩
          have ht : t ∈ g.members := by
            rcases hchoice with ⟨hknown, -⟩ | ⟨-, htarget⟩
            · exact hmembers g.name t g hknown hgroup'
            · exact ReplicaGroup.mem_members_of_target (congrArg Prod.fst htarget)
          rcases ih (hmembers.cons hgroup' ht) hrest with ⟨f, hleads, hkeeps, rfl⟩
          refine ⟨f, hleads, hkeeps.of_cons hsame, ?_⟩
          rw [List.map_cons, redirection, ← hname, hkeeps g.name t g (by simp) hgroup']

end Chosen

/-- The candidates of the read/write splitting rule rename data sources to members of their
groups. -/
theorem exists_redirections {rule : ReplicaRule} {statement : Statement} {r : Route}
    {inTransaction : Bool} {cs : List RouteUnit} {turns : Turns}
    (h : (rule.route statement r inTransaction turns).1 = .ok (some cs)) :
    ∃ f, cs = redirections f r ∧ ∀ n, rule.Leads n (f n) := by
  unfold ReplicaRule.route at h
  split at h
  · rcases Balancing.bind_eq_ok.mp h with ⟨all, hall, hsome⟩
    cases hsome
    have hnothing : rule.ChoosesMembers [] := fun _ _ _ hnone => by cases hnone
    rcases exists_redirections_of_candidates hnothing (Prod.ext hall rfl) with ⟨f, hleads, -, hcs⟩
    exact ⟨f, hcs, hleads⟩
  · cases h

/-- Where the read/write splitting rule does not apply no data source is a group. -/
theorem group?_eq_none_of_route (rule : ReplicaRule) {statement : Statement} {r : Route}
    {inTransaction : Bool} {turns : Turns}
    (h : (rule.route statement r inTransaction turns).1 = .ok none) :
    ∀ u ∈ r.units, rule.group? u.dataSource.actual = none := by
  unfold ReplicaRule.route at h
  split at h
  · rcases Balancing.bind_eq_ok.mp h with ⟨cs, -, hsome⟩
    cases hsome
  · rename_i hnot
    intro u hu
    rw [← Option.not_isSome_iff_eq_none]
    exact fun hsome => hnot (List.any_eq_true.mpr ⟨u, hu, hsome⟩)

end ReplicaRule

/-! ## Narrowing by redirections -/

/-- A candidate of the actual name renames the data source. -/
theorem mergeDataSources_own (existing : Mapping) (name : String) :
    mergeDataSources existing ⟨existing.actual, name⟩ = .ok ⟨existing.logical, name⟩ := by
  simp [mergeDataSources]

/-- A data source outlives the candidate of another one as it is, if at all. -/
theorem mergeDataSources_other {existing candidate merged : Mapping}
    (hother : candidate.logical ≠ existing.actual)
    (h : mergeDataSources existing candidate = .ok merged) :
    merged = existing ∧
      (candidate.actual = candidate.logical ∨ candidate.actual = existing.actual) := by
  rw [mergeDataSources, if_neg (by simpa using hother)] at h
  split at h
  · rename_i hkept
    rw [Bool.or_eq_true, Mapping.isIdentity, beq_iff_eq, beq_iff_eq] at hkept
    exact ⟨(Except.ok.inj h).symm, hkept.imp Eq.symm id⟩
  · cases h

namespace Route

/-- A unit meets another one: its data source has been renamed, and the other unit stands where
its data source has been. -/
def Meets (r : Route) (u : RouteUnit) : Prop :=
  u.dataSource.logical ≠ u.dataSource.actual ∧
    ∃ v ∈ r.units, v.dataSource.actual = u.dataSource.logical

/-- The units of a route after data sources have been renamed. -/
structure RenamedBy (r : Route) (f : String → String) (next : Route) : Prop where
  mem_iff : ∀ m, m ∈ next.units ↔ ∃ u ∈ r.units, m = u.renamed f ∨ m = u ∧ r.Meets u
  /-- A unit meets only what stays where it is, or comes to stand with it. -/
  agrees : ∀ u ∈ r.units, r.Meets u →
    f u.dataSource.logical = u.dataSource.logical ∨ f u.dataSource.logical = u.dataSource.actual
  /-- If those that meet others are not renamed, the units are renamed one by one. -/
  eq_map : (∀ u ∈ r.units, r.Meets u → f u.dataSource.actual = u.dataSource.actual) →
    (r.units.map (renamed f)).Nodup → next.units = r.units.map (renamed f)

/-- A route whose data sources are all kept stays as it is. -/
theorem renamedBy_of_fixed {r : Route} {f : String → String}
    (h : ∀ u ∈ r.units, f u.dataSource.actual = u.dataSource.actual) : r.RenamedBy f r := by
  have hfixed : ∀ u ∈ r.units, u.renamed f = u := fun u hu => renamed_eq_self (h u hu)
  refine ⟨?_, ?_, ?_⟩
  · intro m
    refine ⟨fun hm => ⟨m, hm, .inl (hfixed m hm).symm⟩, ?_⟩
    rintro ⟨u, hu, rfl | ⟨rfl, -⟩⟩
    · rw [hfixed u hu]
      exact hu
    · exact hu
  · rintro u hu ⟨-, v, hv, hlogical⟩
    left
    rw [← hlogical]
    exact h v hv
  · intro _ _
    rw [List.map_congr_left hfixed, List.map_id']

/-- A renamed route has units if it had some. -/
theorem RenamedBy.nonempty {r next : Route} {f : String → String} (h : r.RenamedBy f next)
    (hr : r.units ≠ []) : next.units ≠ [] := by
  rcases List.exists_mem_of_ne_nil _ hr with ⟨u, hu⟩
  exact List.ne_nil_of_mem ((h.mem_iff _).mpr ⟨u, hu, .inl rfl⟩)

/-- Where renaming takes the units of a data source that all stand in one place. -/
theorem RenamedBy.tracks {r next : Route} {f : String → String} (h : r.RenamedBy f next)
    {d m : String} (hr : ∀ u ∈ r.units, u.dataSource.logical = d → u.dataSource.actual = m) :
    ∀ u ∈ next.units, u.dataSource.logical = d → (∃ v ∈ r.units, v.dataSource.actual = m) ∧
      (u.dataSource.actual = f m ∨
        u.dataSource.actual = m ∧ m ≠ d ∧ (∃ v ∈ r.units, v.dataSource.actual = d) ∧
          (f d = d ∨ f d = m)) := by
  intro u hu hlogical
  rcases (h.mem_iff u).mp hu with ⟨v, hv, rfl | ⟨rfl, hmeets⟩⟩
  · have hactual := hr v hv hlogical
    exact ⟨⟨v, hv, hactual⟩, .inl (congrArg f hactual)⟩
  · have hactual := hr u hv hlogical
    have hagrees := h.agrees u hv hmeets
    rcases hmeets with ⟨hmoved, hother⟩
    rw [hlogical, hactual] at hagrees hmoved
    rw [hlogical] at hother
    exact ⟨⟨u, hv, hactual⟩, .inr ⟨hactual, hmoved.symm, hother, hagrees⟩⟩

/-- Pairs of units and redirections: a unit pairs with those of its two names. -/
theorem mem_pairs_redirections {f : String → String} {r : Route} {u c : RouteUnit} :
    (u, c) ∈ r.pairs (redirections f r) ↔ u ∈ r.units ∧ ∃ v ∈ r.units, c = v.redirection f ∧
      (v.dataSource.actual = u.dataSource.logical ∨
        v.dataSource.actual = u.dataSource.actual) := by
  rw [mem_pairs, mem_redirections]
  constructor
  · rintro ⟨hu, ⟨v, hv, rfl⟩, hpairs⟩
    exact ⟨hu, v, hv, rfl, by simpa [pairsWith, redirection] using hpairs⟩
  · rintro ⟨hu, v, hv, rfl, hpairs⟩
    exact ⟨hu, ⟨v, hv, rfl⟩, by simpa [pairsWith, redirection] using hpairs⟩

/-- Every unit pairs with its own renaming. -/
theorem own_mem_pairs {f : String → String} {r : Route} {u : RouteUnit} (hu : u ∈ r.units) :
    (u, u.redirection f) ∈ r.pairs (redirections f r) :=
  mem_pairs_redirections.mpr ⟨hu, u, hu, rfl, .inr rfl⟩

/-- A unit that meets another pairs with the renaming of the other. -/
theorem exists_mem_pairs {r : Route} {u : RouteUnit} (f : String → String) (hu : u ∈ r.units)
    (h : r.Meets u) : ∃ v : RouteUnit, (u, v.redirection f) ∈ r.pairs (redirections f r) ∧
      v.dataSource.actual = u.dataSource.logical ∧
      v.dataSource.actual ≠ u.dataSource.actual := by
  rcases h with ⟨hrenamed, v, hv, hlogical⟩
  refine ⟨v, mem_pairs_redirections.mpr ⟨hu, v, hv, rfl, .inl hlogical⟩, hlogical, ?_⟩
  rw [hlogical]
  exact hrenamed

/-- A unit pairs with redirections of its own data source, and with others only where it meets a
unit. -/
theorem own_or_meets {f : String → String} {r : Route} {u c : RouteUnit}
    (h : (u, c) ∈ r.pairs (redirections f r)) :
    c.dataSource.logical = u.dataSource.actual ∨
      c.dataSource.logical ≠ u.dataSource.actual ∧ r.Meets u := by
  rcases mem_pairs_redirections.mp h with ⟨-, v, hv, rfl, hnames⟩
  by_cases hown : v.dataSource.actual = u.dataSource.actual
  · exact .inl hown
  · have hlogical := hnames.resolve_right hown
    exact .inr ⟨hown, fun hsame => hown (hlogical.trans hsame), v, hv, hlogical⟩

/-- What is left of a pair: the unit takes its own renaming, and stays as it is beside another. -/
def settle (f : String → String) (pair : RouteUnit × RouteUnit) : RouteUnit :=
  if pair.2.dataSource.logical = pair.1.dataSource.actual then pair.1.renamed f else pair.1

/-- A unit that is met by its own candidate is renamed. -/
theorem settle_own {f : String → String} {u c : RouteUnit}
    (h : c.dataSource.logical = u.dataSource.actual) : settle f (u, c) = u.renamed f := if_pos h

/-- A unit that is met by another candidate stays as it is. -/
theorem settle_other {f : String → String} {u c : RouteUnit}
    (h : c.dataSource.logical ≠ u.dataSource.actual) : settle f (u, c) = u := if_neg h

/-- A pair whose data sources can be merged is settled that way. -/
theorem merge_eq_settle {f : String → String} {r : Route} {u c : RouteUnit}
    (hpair : (u, c) ∈ r.pairs (redirections f r)) {merged : Mapping}
    (h : mergeDataSources u.dataSource c.dataSource = .ok merged) :
    merged = (settle f (u, c)).dataSource ∧
      mergeMappings u.tables c.tables = some (settle f (u, c)).tables := by
  rcases mem_pairs_redirections.mp hpair with ⟨-, v, -, rfl, -⟩
  by_cases hown : v.dataSource.actual = u.dataSource.actual
  · rw [settle_own hown]
    refine ⟨?_, rfl⟩
    rw [redirection, hown, mergeDataSources_own] at h
    exact (Except.ok.inj h).symm
  · rw [settle_other hown]
    exact ⟨(mergeDataSources_other hown h).1, rfl⟩

/-- Narrowing by redirections settles every pair. -/
theorem narrow_redirections {r next : Route} {f : String → String} {rule : String}
    (hr : r.units ≠ []) (h : r.narrow (redirections f r) rule = .ok next) :
    next = ofUnits ((r.pairs (redirections f r)).map (settle f)) ∧
      ∀ u c, (u, c) ∈ r.pairs (redirections f r) →
        mergeDataSources u.dataSource c.dataSource = .ok (settle f (u, c)).dataSource := by
  have hmerges : ∀ pair ∈ r.pairs (redirections f r),
      mergeDataSources pair.1.dataSource pair.2.dataSource = .ok (settle f pair).dataSource ∧
      mergeMappings pair.1.tables pair.2.tables = some (settle f pair).tables := by
    rintro ⟨u, c⟩ hpair
    rcases Except.bind_eq_ok.mp h with ⟨all, hall, -⟩
    rcases step_of_foldlM hall (u, c) hpair with ⟨before, after, hstep⟩
    rcases Except.bind_eq_ok.mp hstep with ⟨merged, hmerged, -⟩
    rcases merge_eq_settle hpair hmerged with ⟨rfl, htables⟩
    exact ⟨hmerged, htables⟩
  refine ⟨?_, fun u c hpair => (hmerges (u, c) hpair).1⟩
  rw [narrow_eq hr hmerges rule] at h
  split at h
  · cases h
  · exact (Except.ok.inj h).symm

/-- The units that are left when a route is narrowed by redirections. -/
theorem renamedBy_of_narrow {r next : Route} {f : String → String} {rule : String}
    (hr : r.units ≠ []) (h : r.narrow (redirections f r) rule = .ok next) : r.RenamedBy f next := by
  rcases narrow_redirections hr h with ⟨rfl, hmerges⟩
  refine ⟨?_, ?_, ?_⟩
  · intro m
    rw [mem_ofUnits, List.mem_map]
    constructor
    · rintro ⟨⟨u, c⟩, hpair, rfl⟩
      refine ⟨u, (mem_pairs.mp hpair).1, ?_⟩
      rcases own_or_meets hpair with hown | ⟨hother, hmeets⟩
      · exact .inl (settle_own hown)
      · exact .inr ⟨settle_other hother, hmeets⟩
    · rintro ⟨u, hu, rfl | ⟨rfl, hmeets⟩⟩
      · exact ⟨_, own_mem_pairs hu, settle_own rfl⟩
      · rcases exists_mem_pairs f hu hmeets with ⟨v, hpair, -, hother⟩
        exact ⟨_, hpair, settle_other hother⟩
  · intro u hu hmeets
    rcases exists_mem_pairs f hu hmeets with ⟨v, hpair, hlogical, hother⟩
    have hagrees : f v.dataSource.actual = v.dataSource.actual ∨
        f v.dataSource.actual = u.dataSource.actual :=
      (mergeDataSources_other hother (hmerges u _ hpair)).2
    rwa [hlogical] at hagrees
  · intro hkept hnodup
    have hblocks : (r.pairs (redirections f r)).map (settle f) = r.units.flatMap fun u =>
        ((redirections f r).filter u.pairsWith).map fun c => settle f (u, c) := by
      simp [Route.pairs, List.map_flatMap, Function.comp_def]
    rw [units_ofUnits, hblocks]
    apply distinctly_flatMap _ _ hnodup
    · intro u hu hnil
      rcases mem_pairs.mp (own_mem_pairs (f := f) hu) with ⟨-, hmem, hpairs⟩
      rw [List.map_eq_nil_iff, List.filter_eq_nil_iff] at hnil
      exact hnil _ hmem hpairs
    · intro u hu x hx
      rcases List.mem_map.mp hx with ⟨c, hc, rfl⟩
      rcases List.mem_filter.mp hc with ⟨hmem, hpairs⟩
      rcases own_or_meets (mem_pairs.mpr ⟨hu, hmem, hpairs⟩) with hown | ⟨hother, hmeets⟩
      · exact settle_own hown
      · rw [settle_other hother, renamed_eq_self (hkept u hu hmeets)]

end Route

/-! ## Redirecting rules -/

namespace RuleSet

variable {statement : Statement} {inTransaction : Bool} {turns : Turns}

/-- A redirecting rule renames the data sources of a route, if it applies. -/
theorem renamedBy_of_applyRule {rule : RouteRule} (hrule : rule.isPlacing = false)
    {r next : Route} (hr : r.units ≠ [])
    (h : (applyRule statement inTransaction r rule turns).1 = .ok next) :
    (rule.route statement r inTransaction turns).1 = .ok none ∧ next = r ∨
    ∃ f, (rule.route statement r inTransaction turns).1 = .ok (some (redirections f r)) ∧
      r.RenamedBy f next := by
  rcases applyRule_cases h with hnone | ⟨candidates, hfound, ⟨hnil, -⟩ | ⟨-, hnarrow⟩⟩
  · exact .inl hnone
  · exact absurd hnil hr
  · refine .inr ?_
    cases rule with
    | sharding _ | broadcast _ => cases hrule
    | shadow rule =>
        rcases ShadowRule.exists_redirections hfound with ⟨f, rfl, -⟩
        exact ⟨f, hfound, renamedBy_of_narrow hr hnarrow⟩
    | replicas rule =>
        rcases ReplicaRule.exists_redirections hfound with ⟨f, rfl, -⟩
        exact ⟨f, hfound, renamedBy_of_narrow hr hnarrow⟩

/-- The shadow rule renames every data source to its target when the statement has a shadowed
table. -/
theorem renamedBy_of_applyShadow {rule : ShadowRule} {r next : Route} (hr : r.units ≠ [])
    (htable : ∃ t ∈ statement.tables, (rule.table? t).isSome = true)
    (h : (applyRule statement inTransaction r (.shadow rule) turns).1 = .ok next) :
    ∃ f, r.RenamedBy f next ∧ ∀ u ∈ r.units,
      rule.target statement (Hints.ofComments statement.comments) u.dataSource.actual =
        .ok ⟨u.dataSource.actual, f u.dataSource.actual⟩ := by
  rcases applyRule_cases h with ⟨hnone, -⟩ | ⟨candidates, hfound, ⟨hnil, -⟩ | ⟨-, hnarrow⟩⟩
  · exact absurd hnone (rule.route_ne_none hr htable)
  · exact absurd hnil hr
  · rcases ShadowRule.exists_redirections hfound with ⟨f, rfl, htarget⟩
    exact ⟨f, renamedBy_of_narrow hr hnarrow, htarget⟩

/-- The read/write splitting rule renames data sources to members of their groups. -/
theorem renamedBy_of_applyReplicas {rule : ReplicaRule} {r next : Route} (hr : r.units ≠ [])
    (h : (applyRule statement inTransaction r (.replicas rule) turns).1 = .ok next) :
    ∃ f, r.RenamedBy f next ∧ ∀ n, rule.Leads n (f n) := by
  rcases applyRule_cases h with ⟨hnone, rfl⟩ | ⟨candidates, hfound, ⟨hnil, -⟩ | ⟨-, hnarrow⟩⟩
  · let f : String → String := fun n => ((rule.group? n).map (·.writer)).getD n
    refine ⟨f, renamedBy_of_fixed ?_, ?_⟩
    · intro u hu
      simp [f, rule.group?_eq_none_of_route hnone u hu]
    · intro n
      cases hgroup : rule.group? n with
      | none => exact .inl ⟨hgroup, by simp [f, hgroup]⟩
      | some g => exact .inr ⟨g, hgroup, by simp [f, hgroup, ReplicaGroup.members]⟩
  · exact absurd hnil hr
  · rcases ReplicaRule.exists_redirections hfound with ⟨f, rfl, hleads⟩
    exact ⟨f, renamedBy_of_narrow hr hnarrow, hleads⟩

end RuleSet

end ShardedSql
