import ShardedSql.Proofs.Route.Renaming

/-!
# One target for each replica group

All units of a statement on one replica group go to the same data source.  A read asks the load
balancer of each group once, for the first unit on it, and looks the answer up for the others; a
write asks none.

Main results:

- Theorem `ReplicaRule.candidates_targets`: the units from left to right, some groups having been
  asked before.
- Theorems `ReplicaRule.exists_targets_of_route` and `ReplicaRule.targets_of_route`: a route as a
  whole.
-/

namespace ShardedSql

open RouteUnit

/-! ## Which groups are asked -/

/-- A read that may leave the write data source: outside a transaction and without the hint. -/
def Statement.MayRead (statement : Statement) (inTransaction : Bool) : Prop :=
  statement.kind = .select ∧ statement.writeOnly = false ∧ inTransaction = false

/-- A group does without its writer exactly if the statement may read and there are readers. -/
theorem ReplicaGroup.needsWriter_eq_false_iff {g : ReplicaGroup} {statement : Statement}
    {inTransaction : Bool} :
    g.needsWriter statement inTransaction = false ↔
      statement.MayRead inTransaction ∧ g.readers ≠ [] := by
  simp [needsWriter, Statement.MayRead, StatementKind.isSelect, and_assoc]

/-- Asks the load balancers of groups one after the other. -/
def askEach (groups : List ReplicaGroup) : Balancing (List String) :=
  groups.mapM fun g => g.balancer.choose g.readers

/-- Groups are asked one after the other, with the turns that the earlier ones leave. -/
theorem askEach_cons_eq_ok {g : ReplicaGroup} {groups : List ReplicaGroup} {t : String}
    {ts : List String} {turns next later : Turns}
    (hfirst : g.balancer.choose g.readers turns = (.ok t, next))
    (hrest : askEach groups next = (.ok ts, later)) :
    askEach (g :: groups) turns = (.ok (t :: ts), later) := by
  unfold askEach
  rw [List.mapM_cons]
  exact bind_apply_eq_ok.mpr ⟨t, next, hfirst, bind_apply_eq_ok.mpr ⟨ts, later, hrest, rfl⟩⟩

namespace ReplicaRule

/-- The group that a statement reads for a unit, if it does not go to a writer. -/
def readGroup? (rule : ReplicaRule) (statement : Statement) (inTransaction : Bool)
    (u : RouteUnit) : Option ReplicaGroup :=
  (rule.group? u.dataSource.actual).filter fun g => !g.needsWriter statement inTransaction

/-- The groups that a statement reads, in the order in which units come to them. -/
def readGroups (rule : ReplicaRule) (statement : Statement) (inTransaction : Bool)
    (us : List RouteUnit) : List ReplicaGroup :=
  distinctly (us.filterMap (rule.readGroup? statement inTransaction))

variable {rule : ReplicaRule} {statement : Statement} {inTransaction : Bool}

/-- The groups that are read are those of the units, if they have readers. -/
theorem mem_readGroups {us : List RouteUnit} {g : ReplicaGroup} :
    g ∈ rule.readGroups statement inTransaction us ↔
      (statement.MayRead inTransaction ∧ g.readers ≠ []) ∧
        ∃ u ∈ us, rule.group? u.dataSource.actual = some g := by
  rw [readGroups, mem_distinctly, List.mem_filterMap]
  simp only [readGroup?, Option.filter_eq_some_iff, Bool.not_eq_true',
    ReplicaGroup.needsWriter_eq_false_iff]
  constructor
  · rintro ⟨u, hu, hgroup, hreads⟩
    exact ⟨hreads, u, hu, hgroup⟩
  · rintro ⟨hreads, u, hu, hgroup⟩
    exact ⟨u, hu, hgroup, hreads⟩

/-- A group that is read is the one of its name. -/
theorem eq_of_mem_readGroups {us : List RouteUnit} {g g' : ReplicaGroup}
    (hg : g ∈ rule.readGroups statement inTransaction us) (hgroup' : rule.group? g.name = some g') :
    g = g' := by
  rcases (mem_readGroups.mp hg).2 with ⟨u, -, hgroup⟩
  rw [← name_of_group? hgroup, hgroup'] at hgroup
  exact (Option.some.inj hgroup).symm

/-- No two of them have the same name. -/
theorem nodup_names_readGroups (us : List RouteUnit) :
    ((rule.readGroups statement inTransaction us).map (·.name)).Nodup := by
  refine List.Nodup.map_on ?_ (nodup_distinctly _)
  intro g hg g' hg' hname
  rcases (mem_readGroups.mp hg').2 with ⟨u, -, hgroup'⟩
  rw [← name_of_group? hgroup', ← hname] at hgroup'
  exact eq_of_mem_readGroups hg hgroup'

/-- A unit that reads no group adds none. -/
theorem readGroups_cons_none {u : RouteUnit}
    (hnone : rule.readGroup? statement inTransaction u = none) (us : List RouteUnit) :
    rule.readGroups statement inTransaction (u :: us) =
      rule.readGroups statement inTransaction us := by
  rw [readGroups, List.filterMap_cons_none hnone, readGroups]

/-- The group of the first unit comes first. -/
theorem readGroups_cons_some {u : RouteUnit} {g : ReplicaGroup}
    (hsome : rule.readGroup? statement inTransaction u = some g) (us : List RouteUnit) :
    rule.readGroups statement inTransaction (u :: us) =
      g :: (rule.readGroups statement inTransaction us).filter (· ≠ g) := by
  rw [readGroups, List.filterMap_cons_some hsome, distinctly_cons, readGroups]

/-- The groups that a statement reads and that have not been asked before. -/
def groupsToAsk (rule : ReplicaRule) (statement : Statement) (inTransaction : Bool)
    (targets : Named String) (us : List RouteUnit) : List ReplicaGroup :=
  (rule.readGroups statement inTransaction us).filter fun g => (targets.lookup g.name).isNone

theorem groupsToAsk_nil (us : List RouteUnit) :
    rule.groupsToAsk statement inTransaction [] us = rule.readGroups statement inTransaction us :=
  List.filter_eq_self.mpr fun _ _ => rfl

/-- Unit by unit: a group is asked for its first unit if it is read and has not been asked before,
and has been asked after that. -/
theorem groupsToAsk_cons {targets : Named String} {u : RouteUnit} {g : ReplicaGroup}
    (hgroup : rule.group? u.dataSource.actual = some g) (t : String) (us : List RouteUnit) :
    rule.groupsToAsk statement inTransaction targets (u :: us) =
      (if g.needsWriter statement inTransaction = false ∧ targets.lookup g.name = none
        then [g] else []) ++
      rule.groupsToAsk statement inTransaction ((g.name, t) :: targets) us := by
  unfold groupsToAsk
  have hname : g.name = u.dataSource.actual := name_of_group? hgroup
  have hothers : ∀ g' ∈ rule.readGroups statement inTransaction us,
      (((g.name, t) :: targets).lookup g'.name).isNone =
        ((targets.lookup g'.name).isNone && decide (g' ≠ g)) := by
    intro g' hg'
    by_cases hsame : g'.name = g.name
    · have heq : g' = g := eq_of_mem_readGroups hg' (by rw [hsame, hname, hgroup])
      simp [heq]
    · have hne : g' ≠ g := fun heq => hsame (heq ▸ rfl)
      simp [List.lookup_cons, beq_false_of_ne hsame, hne]
  rw [List.filter_congr hothers]
  cases hwriter : g.needsWriter statement inTransaction with
  | true =>
      -- The group needs its writer, so that it is not among those read for later units either.
      rw [readGroups_cons_none (by simp [readGroup?, hgroup, hwriter]), if_neg (by simp),
        List.nil_append]
      refine List.filter_congr fun g' hg' => ?_
      have hne : g' ≠ g := by
        rintro rfl
        have hreads := (mem_readGroups.mp hg').1
        rw [← ReplicaGroup.needsWriter_eq_false_iff, hwriter] at hreads
        cases hreads
      simp [hne]
  | false =>
      rw [readGroups_cons_some (g := g) (by simp [readGroup?, hgroup, hwriter]), List.filter_cons,
        List.filter_filter]
      by_cases hnew : targets.lookup g.name = none
      · simp [hnew]
      · simp [hnew]

/-! ## Where units go -/

/-- Where a statement goes that comes to a data source. -/
structure Directs (rule : ReplicaRule) (statement : Statement) (inTransaction : Bool)
    (n target : String) : Prop where
  elsewhere : rule.group? n = none → target = n
  /-- To the writer of a group when it is no read, has to go there or is in a transaction, or when
  the group has no readers. -/
  writes : ∀ g, rule.group? n = some g →
    statement.kind ≠ .select ∨ statement.writeOnly = true ∨ inTransaction = true ∨
      g.readers = [] → target = g.writer
  /-- To a reader of a group otherwise. -/
  reads : ∀ g, rule.group? n = some g → statement.kind = .select → statement.writeOnly = false →
    inTransaction = false → g.readers ≠ [] → target ∈ g.readers

/-- What is no group goes where it is. -/
theorem directs_none {n : String} (hgroup : rule.group? n = none) :
    rule.Directs statement inTransaction n n := by
  constructor
  · exact fun _ => rfl
  · simp [hgroup]
  · simp [hgroup]

/-- A group that needs its writer leads there and asks nobody. -/
theorem target_writer {g : ReplicaGroup} (h : g.needsWriter statement inTransaction = true)
    (turns : Turns) : g.target statement inTransaction turns = (.ok g.writer, turns) := by
  rw [ReplicaGroup.target, if_pos h]
  rfl

/-- Another group asks its load balancer. -/
theorem target_reader {g : ReplicaGroup} (h : g.needsWriter statement inTransaction = false)
    (turns : Turns) :
    g.target statement inTransaction turns = g.balancer.choose g.readers turns := by
  rw [ReplicaGroup.target, if_neg (by simp [h])]

/-- The target of a group is the one the rule directs to. -/
theorem directs_of_target {n t : String} {g : ReplicaGroup} {turns next : Turns}
    (hgroup : rule.group? n = some g)
    (h : g.target statement inTransaction turns = (.ok t, next)) :
    rule.Directs statement inTransaction n t := by
  cases hwriter : g.needsWriter statement inTransaction with
  | true =>
      cases (target_writer hwriter turns).symm.trans h
      refine ⟨by simp [hgroup], by simp [hgroup], ?_⟩
      intro g' hg' hkind hhint htransaction hreaders
      cases hgroup.symm.trans hg'
      have hreads := ReplicaGroup.needsWriter_eq_false_iff.mpr
        ⟨⟨hkind, hhint, htransaction⟩, hreaders⟩
      rw [hwriter] at hreads
      cases hreads
  | false =>
      rcases ReplicaGroup.needsWriter_eq_false_iff.mp hwriter with
        ⟨⟨hkind, hhint, htransaction⟩, hreaders⟩
      have hmem : t ∈ g.readers := by
        rw [target_reader hwriter] at h
        exact BalancePolicy.mem_of_pick (congrArg Prod.fst h)
      refine ⟨by simp [hgroup], ?_, ?_⟩
      · intro g' hg' hwrites
        cases hgroup.symm.trans hg'
        simp [hkind, hhint, htransaction, hreaders] at hwrites
      · intro g' hg' _ _ _ _
        cases hgroup.symm.trans hg'
        exact hmem

/-- What has been chosen for groups before was chosen the way it is now. -/
def Remembers (rule : ReplicaRule) (statement : Statement) (inTransaction : Bool)
    (targets : Named String) : Prop :=
  ∀ n t, targets.lookup n = some t → rule.Directs statement inTransaction n t

/-- The units from left to right: those on one group share a target, and the groups that are read
and have not been asked before are asked once each. -/
theorem candidates_targets {targets : Named String} {us cs : List RouteUnit} {turns later : Turns}
    (hremembers : rule.Remembers statement inTransaction targets)
    (h : rule.candidates statement inTransaction targets us turns = (.ok cs, later)) :
    ∃ target : String → String, cs = us.map (redirection target) ∧ rule.Keeps targets target ∧
      (∀ n, rule.group? n = none → target n = n) ∧
      (∀ u ∈ us, rule.Directs statement inTransaction u.dataSource.actual
        (target u.dataSource.actual)) ∧
      askEach (rule.groupsToAsk statement inTransaction targets us) turns =
        (.ok ((rule.groupsToAsk statement inTransaction targets us).map fun g => target g.name),
          later) := by
  induction us generalizing targets turns cs with
  | nil =>
      cases h
      exact ⟨rule.leadOf targets, rfl, keeps_leadOf, fun n hn => by simp [leadOf, hn], by simp, rfl⟩
  | cons u us ih =>
      cases hgroup : rule.group? u.dataSource.actual with
      | none =>
          rw [candidates] at h
          simp only [hgroup] at h
          rcases bind_apply_eq_ok.mp h with ⟨rest, _, hrest, hcs⟩
          cases hcs
          rcases ih hremembers hrest with ⟨f, rfl, hkeeps, helsewhere, hunits, hasks⟩
          have hself : f u.dataSource.actual = u.dataSource.actual := helsewhere _ hgroup
          have hskip : rule.groupsToAsk statement inTransaction targets (u :: us) =
              rule.groupsToAsk statement inTransaction targets us := by
            rw [groupsToAsk, readGroups_cons_none (by simp [readGroup?, hgroup]), groupsToAsk]
          refine ⟨f, ?_, hkeeps, helsewhere, ?_, ?_⟩
          · rw [List.map_cons, redirection, hself]
            rfl
          · rw [List.forall_mem_cons, hself]
            exact ⟨directs_none hgroup, hunits⟩
          · rw [hskip]
            exact hasks
      | some g =>
          have hname : g.name = u.dataSource.actual := name_of_group? hgroup
          have hgroup' : rule.group? g.name = some g := hname ▸ hgroup
          rcases candidates_cons hgroup h with ⟨t, rest, next, hchoice, hsame, hrest, rfl⟩
          have hdirects : rule.Directs statement inTransaction g.name t := by
            rcases hchoice with ⟨hknown, -⟩ | ⟨-, htarget⟩
            · exact hremembers g.name t hknown
            · exact directs_of_target hgroup' htarget
          rcases ih (forall_lookup_cons hdirects hremembers) hrest with
            ⟨f, rfl, hkeeps, helsewhere, hunits, hasks⟩
          have hf : f g.name = t := hkeeps g.name t g (by simp) hgroup'
          refine ⟨f, ?_, hkeeps.of_cons hsame, helsewhere, ?_, ?_⟩
          · rw [List.map_cons, redirection, ← hname, hf]
          · rw [List.forall_mem_cons, ← hname, hf]
            exact ⟨hdirects, hunits⟩
          · rw [groupsToAsk_cons hgroup t us]
            rcases hchoice with ⟨hknown, rfl⟩ | ⟨hnew, htarget⟩
            · rw [if_neg (by simp [hknown])]
              exact hasks
            · cases hwriter : g.needsWriter statement inTransaction with
              | true =>
                  cases (target_writer hwriter turns).symm.trans htarget
                  rw [if_neg (by simp)]
                  exact hasks
              | false =>
                  rw [target_reader hwriter] at htarget
                  rw [if_pos ⟨rfl, hnew⟩, List.singleton_append, List.map_cons, hf]
                  exact askEach_cons_eq_ok htarget hasks

/-- The candidates of a route lead every unit where its group does, and the groups that are read are
asked once each. -/
theorem exists_targets_of_route {route : Route} {candidates : List RouteUnit} {turns later : Turns}
    (h : rule.route statement route inTransaction turns = (.ok (some candidates), later)) :
    ∃ target : String → String, candidates = redirections target route ∧
      (∀ u ∈ route.units, rule.Directs statement inTransaction u.dataSource.actual
        (target u.dataSource.actual)) ∧
      askEach (rule.readGroups statement inTransaction route.units) turns =
        (.ok ((rule.readGroups statement inTransaction route.units).map fun g => target g.name),
          later) := by
  unfold ReplicaRule.route at h
  split at h
  · rcases bind_apply_eq_ok.mp h with ⟨all, _, hall, hsome⟩
    cases hsome
    have hnothing : rule.Remembers statement inTransaction [] := fun _ _ hnone => by cases hnone
    rcases candidates_targets hnothing hall with ⟨target, hcs, -, -, hdirects, hasks⟩
    rw [groupsToAsk_nil] at hasks
    exact ⟨target, hcs, hdirects, hasks⟩
  · cases h

/-- All units on one replica group go to one data source: to the writer when the statement is no
read, must go there or is in a transaction, or when the group has no readers, and otherwise to a
reader.  The load balancers are asked once for each group that is read, and not at all by the
others. -/
theorem targets_of_route {route : Route} {candidates : List RouteUnit} {turns later : Turns}
    (h : rule.route statement route inTransaction turns = (.ok (some candidates), later)) :
    ∃ target : String → String, candidates = redirections target route ∧
      (∀ u ∈ route.units, rule.Directs statement inTransaction u.dataSource.actual
        (target u.dataSource.actual)) ∧
      ∃ groups : List ReplicaGroup, (groups.map (·.name)).Nodup ∧
        (∀ g, g ∈ groups ↔ (statement.MayRead inTransaction ∧ g.readers ≠ []) ∧
          ∃ u ∈ route.units, rule.group? u.dataSource.actual = some g) ∧
        askEach groups turns = (.ok (groups.map fun g => target g.name), later) := by
  rcases exists_targets_of_route h with ⟨target, hcs, hdirects, hasks⟩
  exact ⟨target, hcs, hdirects, _, nodup_names_readGroups _, fun g => mem_readGroups, hasks⟩

/-- A group with two readers. -/
def pairGroup (name : String) (key : BalancerKey) : ReplicaGroup :=
  { name, writer := name ++ "_w", readers := [name ++ "_a", name ++ "_b"]
    balancer := ⟨key, .roundRobin⟩ }

/-- Two groups with two readers each. -/
def pairRule (key key' : BalancerKey) : ReplicaRule :=
  { priority := ReplicaRule.defaultPriority
    groups := [pairGroup "rw_0" key, pairGroup "rw_1" key'] }

/-- The two groups with one load balancer. -/
def sharingRule : ReplicaRule :=
  pairRule (.named 0 "shared") (.named 0 "shared")

/-- Four units, three of them on groups. -/
def pairUnits : List RouteUnit :=
  ["rw_1", "ds_0", "rw_0", "rw_1"].map fun ds => { dataSource := .identity ds, tables := [] }

/-- A read over two groups, one of them twice. -/
theorem targets_of_route_twice :
    ∃ candidates later,
      sharingRule.route { sql := "SELECT * FROM t_order" } ⟨pairUnits⟩ false [] =
        (.ok (some candidates), later) ∧
      ∃ target : String → String, candidates = redirections target ⟨pairUnits⟩ ∧
        (∀ u ∈ pairUnits, sharingRule.Directs { sql := "SELECT * FROM t_order" } false
          u.dataSource.actual (target u.dataSource.actual)) ∧
        ∃ groups : List ReplicaGroup, (groups.map (·.name)).Nodup ∧
          (∀ g, g ∈ groups ↔
            (Statement.MayRead { sql := "SELECT * FROM t_order" } false ∧ g.readers ≠ []) ∧
              ∃ u ∈ pairUnits, sharingRule.group? u.dataSource.actual = some g) ∧
          askEach groups [] = (.ok (groups.map fun g => target g.name), later) :=
  ⟨[⟨⟨"rw_1", "rw_1_a"⟩, []⟩, ⟨.identity "ds_0", []⟩, ⟨⟨"rw_0", "rw_0_b"⟩, []⟩,
      ⟨⟨"rw_1", "rw_1_a"⟩, []⟩],
    [(.named 0 "shared", 2)], rfl, targets_of_route rfl⟩

end ReplicaRule

end ShardedSql
