import ShardedSql.Proofs.Route.Units
import ShardedSql.Proofs.Traversal
import ShardedSql.Route.Sharding

/-!
# Selected nodes

A statement selects nodes of every sharded table it refers to, and its units are the ways to choose
one selected node of each table such that all of them are on one data source.

Main results:

- Theorem `ShardedTable.selected_cases`: which nodes of a table are selected, and when selecting
  fails.
- Theorem `ShardingRule.selections_cases`: the sharded tables a statement refers to, each with its
  nodes.
- Theorem `ShardingRule.mem_unitsOf`: the units of some selections are the choices of nodes.
- Theorem `ShardingRule.route_cases`: when a statement has units.
-/

namespace ShardedSql

/-! ## Nodes of values -/

namespace ShardingAlgorithm

/-- The sharding count is a positive signed number as well. -/
def CountInRange : ShardingAlgorithm → Prop
  | modulo count => count.toNat < Nat.pow 2 63
  | hashModulo count => count.toNat < Nat.pow 2 63

/-- A value that stands for no integer is a fault of routing. -/
theorem integerOf_eq_error {value : Cell} {e : Fault} (h : integerOf value = .error e) :
    ∃ cause, e = .routing cause := by
  unfold integerOf at h
  split at h
  · cases h
  · split at h
    · cases h
    · cases h
      exact ⟨_, rfl⟩
  · cases h
    exact ⟨_, rfl⟩

/-- A count in the range of signed integers is not minus one there. -/
theorem toInt64_ne_neg_one {count : UInt64} (h : count.toNat < Nat.pow 2 63) :
    count.toInt64 ≠ -1 := by
  intro heq
  have hback : count = (-1 : Int64).toUInt64 := by
    rw [← heq]
    rfl
  have hvalue : (-1 : Int64).toUInt64.toNat = Nat.pow 2 64 - 1 := by decide
  rw [hback, hvalue] at h
  exact absurd h (by decide)

/-- A value that no shard is found for is a fault of routing. -/
theorem shardIndex_eq_error {algorithm : ShardingAlgorithm} (hcount : algorithm.CountInRange)
    {value : Cell} {e : Fault} (h : algorithm.shardIndex value = .error e) :
    ∃ cause, e = .routing cause := by
  cases algorithm with
  | modulo count =>
      have hremainder : ∀ n, ∃ k, remainder n count.toInt64 = .ok k := by
        intro n
        refine ⟨(n.toInt.emod count.toInt64.toInt).toNat, ?_⟩
        rw [remainder, if_neg]
        simp [toInt64_ne_neg_one hcount]
      simp only [shardIndex, bind, Except.bind] at h
      cases hn : integerOf value with
      | error e' =>
          rw [hn] at h
          cases h
          exact integerOf_eq_error hn
      | ok n =>
          rcases hremainder n with ⟨k, hk⟩
          simp [hn, hk] at h
  | hashModulo count =>
      simp only [shardIndex] at h
      split at h
      · cases h
        exact ⟨_, rfl⟩
      · cases h

/-- A value that no node is found for is a fault of routing. -/
theorem nodeOf_eq_error {algorithm : ShardingAlgorithm} (hcount : algorithm.CountInRange)
    {nodes : List DataNode} {value : Cell} {e : Fault}
    (h : algorithm.nodeOf nodes value = .error e) :
    ∃ cause, e = .routing cause := by
  simp only [nodeOf, bind, Except.bind] at h
  cases hshard : algorithm.shardIndex value with
  | error e' =>
      rw [hshard] at h
      cases h
      exact shardIndex_eq_error hcount hshard
  | ok shard =>
      simp only [hshard] at h
      split at h
      · cases h
      · cases h
        exact ⟨_, rfl⟩

end ShardingAlgorithm

namespace ShardedTable

/-- The nodes a statement selects: those of the condition values, or all of them when the sharding
column is not restricted. -/
def Selects (table : ShardedTable) (statement : Statement) (node : DataNode) : Prop :=
  match table.placement with
  | none => node ∈ table.nodes
  | some (column, algorithm) =>
      match statement.conditionValues table.name column with
      | none => node ∈ table.nodes
      | some values => ∃ value ∈ values, algorithm.nodeOf table.nodes value = .ok node

/-- Every value the sharding column is restricted to has a node. -/
def Shardable (table : ShardedTable) (statement : Statement) : Prop :=
  ∀ column algorithm, table.placement = some (column, algorithm) →
    ∀ values, statement.conditionValues table.name column = some values →
      ∀ value ∈ values, ∃ node, algorithm.nodeOf table.nodes value = .ok node

/-- The sharding count of a table, if it has one, is in range. -/
def CountInRange (table : ShardedTable) : Prop :=
  ∀ column algorithm, table.placement = some (column, algorithm) → algorithm.CountInRange

/-- What selecting nodes of a table comes to. -/
theorem selected_cases (table : ShardedTable) (statement : Statement) :
    (∃ nodes, table.selected statement = .ok nodes ∧ table.Shardable statement ∧
      ∀ node, node ∈ nodes ↔ table.Selects statement node) ∨
    ∃ e, table.selected statement = .error e ∧ ¬ table.Shardable statement ∧
      (table.CountInRange → ∃ cause, e = .routing cause) := by
  unfold selected Selects Shardable
  cases hplacement : table.placement with
  | none => exact .inl ⟨table.nodes, rfl, by simp, by simp⟩
  | some placed =>
      rcases placed with ⟨column, algorithm⟩
      cases hvalues : statement.conditionValues table.name column with
      | none =>
          refine .inl ⟨table.nodes, by simp [hvalues], ?_, by simp [hvalues]⟩
          intro column' algorithm' hsame values hsome
          cases hsame
          rw [hvalues] at hsome
          cases hsome
      | some values =>
          rcases mapM_cases (algorithm.nodeOf table.nodes) values with
            ⟨nodes, hnodes, hall, hmem⟩ | ⟨value, hvalue, e, he, herror⟩
          · refine .inl ⟨distinctly nodes, by simp [hvalues, hnodes, Except.map], ?_, ?_⟩
            · intro column' algorithm' hsame values' hsome
              cases hsame
              rw [hvalues] at hsome
              cases hsome
              exact hall
            · intro node
              simp only [mem_distinctly, hmem, hvalues]
          · refine .inr ⟨e, by simp [hvalues, herror, Except.map], ?_, ?_⟩
            · intro h
              rcases h column algorithm rfl values hvalues value hvalue with ⟨node, hnode⟩
              rw [he] at hnode
              cases hnode
            · intro hcount
              exact ShardingAlgorithm.nodeOf_eq_error (hcount column algorithm hplacement) he

end ShardedTable

namespace ShardingRule

/-- Tables of alike names are the same. -/
theorem table?_congr (rule : ShardingRule) {a b : String} (h : Text.alike a b = true) :
    rule.table? a = rule.table? b := by
  have hsame : (fun t : ShardedTable => Text.alike t.name a) =
      fun t : ShardedTable => Text.alike t.name b := by
    funext t
    exact Text.alike_congr_right h t.name
  unfold table?
  rw [hsame]

/-- A table is found by an alike name. -/
theorem alike_of_table? {rule : ShardingRule} {name : String} {table : ShardedTable}
    (h : rule.table? name = some table) : Text.alike table.name name = true := by
  unfold table? at h
  simpa using List.find?_some h

/-- Tables of alike names are the same. -/
theorem table?_unique {rule : ShardingRule} {a b : String} {s t : ShardedTable}
    (hs : rule.table? a = some s) (ht : rule.table? b = some t)
    (h : Text.alike s.name t.name = true) : s = t := by
  have ha : rule.table? s.name = some s := by
    rw [rule.table?_congr (alike_of_table? hs), hs]
  have hb : rule.table? t.name = some t := by
    rw [rule.table?_congr (alike_of_table? ht), ht]
  rw [rule.table?_congr h, hb] at ha
  exact (Option.some.inj ha).symm

/-- No two selections are those of tables of alike names. -/
abbrev Apart (selections : List Selection) : Prop :=
  selections.Pairwise fun a b => Text.alike a.1.name b.1.name = false

/-- The selections made for some names of a statement. -/
structure Selected (rule : ShardingRule) (statement : Statement) (names : List String)
    (selections : List Selection) : Prop where
  named : ∀ s ∈ selections, ∃ name ∈ names, rule.table? name = some s.1
  /-- Each table the names refer to has its selection. -/
  covered : ∀ name ∈ names, ∀ table, rule.table? name = some table →
    ∃ s ∈ selections, s.1 = table
  nodes : ∀ s ∈ selections, s.1.selected statement = .ok s.2 ∧ s.2 ≠ []
  apart : Apart selections

section Step

variable {rule : ShardingRule} {statement : Statement} {names : List String}
  {selections : List Selection}

/-- A name whose table, if it has one, has been met adds no selection. -/
theorem Selected.met (h : rule.Selected statement names selections) {name : String}
    (hmet : ∀ table, rule.table? name = some table → ∃ s ∈ selections, s.1 = table) :
    rule.Selected statement (names ++ [name]) selections := by
  refine ⟨?_, ?_, h.nodes, h.apart⟩
  · intro s hs
    rcases h.named s hs with ⟨n, hn, htable⟩
    exact ⟨n, List.mem_append_left _ hn, htable⟩
  · intro n hn table htable
    rcases List.mem_append.mp hn with hn | hn
    · exact h.covered n hn table htable
    · rw [List.mem_singleton.mp hn] at htable
      exact hmet table htable

/-- A table that has not been met adds its selection. -/
theorem Selected.unmet (h : rule.Selected statement names selections) {name : String}
    {table : ShardedTable} (htable : rule.table? name = some table)
    (hunmet : ∀ s ∈ selections, s.1 ≠ table) {nodes : List DataNode}
    (hnodes : table.selected statement = .ok nodes) (hsome : nodes ≠ []) :
    rule.Selected statement (names ++ [name]) (selections ++ [(table, nodes)]) := by
  refine ⟨?_, ?_, ?_, ?_⟩
  · intro s hs
    rcases List.mem_append.mp hs with hs | hs
    · rcases h.named s hs with ⟨n, hn, ht⟩
      exact ⟨n, List.mem_append_left _ hn, ht⟩
    · rw [List.mem_singleton.mp hs]
      exact ⟨name, by simp, htable⟩
  · intro n hn t ht
    rcases List.mem_append.mp hn with hn | hn
    · rcases h.covered n hn t ht with ⟨s, hs, heq⟩
      exact ⟨s, List.mem_append_left _ hs, heq⟩
    · rw [List.mem_singleton.mp hn, htable] at ht
      exact ⟨(table, nodes), by simp, Option.some.inj ht⟩
  · intro s hs
    rcases List.mem_append.mp hs with hs | hs
    · exact h.nodes s hs
    · rw [List.mem_singleton.mp hs]
      exact ⟨hnodes, hsome⟩
  · rw [Apart, List.pairwise_append]
    refine ⟨h.apart, List.pairwise_singleton _ _, ?_⟩
    intro s hs t ht
    rw [List.mem_singleton.mp ht, Bool.eq_false_iff]
    -- Tables of alike names are equal, and this one has not been met.
    intro halike
    rcases h.named s hs with ⟨m, _, hm⟩
    exact hunmet s hs (table?_unique hm htable halike)

/-- One step of selecting: the table of one more name is met. -/
theorem addSelection_cases (h : rule.Selected statement names selections) (name : String) :
    (∃ later, rule.addSelection statement selections name = .ok later ∧
      rule.Selected statement (names ++ [name]) later) ∨
    ∃ table, rule.table? name = some table ∧ ∃ e,
      rule.addSelection statement selections name = .error e ∧
      (table.selected statement = .error e ∨
        table.selected statement = .ok [] ∧ e = .routing (.noNode table.name)) := by
  unfold addSelection
  cases htable : rule.table? name with
  | none => exact .inl ⟨selections, rfl, h.met fun t ht => by rw [htable] at ht; cases ht⟩
  | some table =>
      by_cases hmet : selections.any (·.1.name == table.name) = true
      · refine .inl ⟨selections, by simp only [if_pos hmet], h.met ?_⟩
        intro t ht
        rcases List.any_eq_true.mp hmet with ⟨s, hs, hname⟩
        rcases h.named s hs with ⟨m, _, hm⟩
        refine ⟨s, hs, table?_unique hm ht ?_⟩
        rw [htable, Option.some.injEq] at ht
        rw [eq_of_beq hname, ht]
        exact Text.alike_refl _
      · simp only [if_neg hmet, bind, Except.bind]
        have hunmet : ∀ s ∈ selections, s.1 ≠ table := by
          intro s hs heq
          exact hmet (List.any_eq_true.mpr ⟨s, hs, by simp [heq]⟩)
        cases hselected : table.selected statement with
        | error e => exact .inr ⟨table, rfl, e, rfl, .inl hselected⟩
        | ok nodes =>
            cases nodes with
            | nil => exact .inr ⟨table, rfl, _, rfl, .inr ⟨hselected, rfl⟩⟩
            | cons node nodes =>
                exact .inl ⟨selections ++ [(table, node :: nodes)], rfl,
                  h.unmet htable hunmet hselected (List.cons_ne_nil _ _)⟩

end Step

/-- What selecting nodes of all sharded tables of a statement comes to. -/
theorem selections_cases (rule : ShardingRule) (statement : Statement) :
    (∃ selections, rule.selections statement = .ok selections ∧
      rule.Selected statement statement.tables selections) ∨
    ∃ name ∈ statement.tables, ∃ table, rule.table? name = some table ∧ ∃ e,
      rule.selections statement = .error e ∧
      (table.selected statement = .error e ∨
        table.selected statement = .ok [] ∧ e = .routing (.noNode table.name)) := by
  have hfold : ∀ (later names : List String) (done : List Selection),
      rule.Selected statement names done →
      (∃ selections, later.foldlM (rule.addSelection statement) done = .ok selections ∧
        rule.Selected statement (names ++ later) selections) ∨
      ∃ name ∈ later, ∃ table, rule.table? name = some table ∧ ∃ e,
        later.foldlM (rule.addSelection statement) done = .error e ∧
        (table.selected statement = .error e ∨
          table.selected statement = .ok [] ∧ e = .routing (.noNode table.name)) := by
    intro later
    induction later with
    | nil =>
        intro names done h
        exact .inl ⟨done, rfl, by simpa using h⟩
    | cons name later ih =>
        intro names done h
        simp only [List.foldlM_cons, bind, Except.bind]
        rcases addSelection_cases h name with
          ⟨next, hnext, hselected⟩ | ⟨table, htable, e, he, hcause⟩
        · rw [hnext]
          rcases ih (names ++ [name]) next hselected with ⟨all, hall, hdone⟩ | ⟨n, hn, hfail⟩
          · exact .inl ⟨all, hall, by simpa using hdone⟩
          · exact .inr ⟨n, List.mem_cons_of_mem _ hn, hfail⟩
        · rw [he]
          exact .inr ⟨name, List.mem_cons_self, table, htable, e, rfl, hcause⟩
  have hnone : rule.Selected statement [] [] := ⟨by simp, by simp, by simp, List.Pairwise.nil⟩
  exact hfold statement.tables [] [] hnone

/-! ## Choices of nodes -/

/-- A choice of one selected node on a data source for each table. -/
def Chooses (selections : List Selection) (dataSource : String)
    (choice : ShardedTable → DataNode) : Prop :=
  ∀ s ∈ selections, choice s.1 ∈ s.2 ∧ (choice s.1).dataSource = dataSource

/-- The mappings of a choice. -/
def chosen (selections : List Selection) (choice : ShardedTable → DataNode) : List Mapping :=
  selections.map fun s => ⟨s.1.name, (choice s.1).table⟩

/-- The choices on a data source take a node of each selection there. -/
theorem mem_choices {selections : List Selection} (hapart : Apart selections)
    {dataSource : String} {ms : List Mapping} :
    ms ∈ choices dataSource selections ↔
      ∃ choice, Chooses selections dataSource choice ∧ ms = chosen selections choice := by
  induction selections generalizing ms with
  | nil =>
      rw [choices, List.mem_singleton]
      refine ⟨fun h => ⟨fun _ => ⟨"", ""⟩, by simp [Chooses], h⟩, ?_⟩
      rintro ⟨_, _, h⟩
      exact h
  | cons s selections ih =>
      rcases s with ⟨table, nodes⟩
      rw [Apart, List.pairwise_cons] at hapart
      have hrest := @ih hapart.2
      simp only [choices, List.mem_flatMap, List.mem_filter, List.mem_map, hrest, beq_iff_eq]
      constructor
      · rintro ⟨node, ⟨hnode, hsource⟩, _, ⟨choice, hchoice, rfl⟩, rfl⟩
        let extended : ShardedTable → DataNode := fun t => if t = table then node else choice t
        -- The new table is none of the others.
        have hother : ∀ s ∈ selections, extended s.1 = choice s.1 := by
          intro s hs
          apply if_neg
          intro heq
          have halike := hapart.1 s hs
          rw [heq, Text.alike_refl] at halike
          cases halike
        have hthis : extended table = node := if_pos rfl
        refine ⟨extended, ?_, ?_⟩
        · intro s hs
          rcases List.mem_cons.mp hs with rfl | hs
          · rw [hthis]
            exact ⟨hnode, hsource⟩
          · rw [hother s hs]
            exact hchoice s hs
        · have hlater : chosen selections extended = chosen selections choice :=
            List.map_congr_left fun s hs => by rw [hother s hs]
          show _ = ⟨table.name, (extended table).table⟩ :: chosen selections extended
          rw [hthis, hlater]
      · rintro ⟨choice, hchoice, rfl⟩
        have hthis := hchoice _ List.mem_cons_self
        refine ⟨choice table, ⟨hthis.1, hthis.2⟩, chosen selections choice, ?_, rfl⟩
        exact ⟨choice, fun s hs => hchoice s (List.mem_cons_of_mem _ hs), rfl⟩

/-- The units of some selections are the choices of nodes on one data source. -/
theorem mem_unitsOf {selections : List Selection} (hapart : Apart selections)
    (hsome : selections ≠ []) {u : RouteUnit} :
    u ∈ unitsOf selections ↔ ∃ dataSource choice, Chooses selections dataSource choice ∧
      u = { dataSource := .identity dataSource, tables := chosen selections choice } := by
  simp only [unitsOf, List.mem_flatMap, List.mem_map, mem_choices hapart]
  constructor
  · rintro ⟨dataSource, -, _, ⟨choice, hchoice, rfl⟩, rfl⟩
    exact ⟨dataSource, choice, hchoice, rfl⟩
  · rintro ⟨dataSource, choice, hchoice, rfl⟩
    refine ⟨dataSource, ?_, _, ⟨choice, hchoice, rfl⟩, rfl⟩
    have hholds : ∀ s ∈ selections, holds dataSource s = true := by
      intro s hs
      rcases hchoice s hs with ⟨hnode, hsource⟩
      exact List.any_eq_true.mpr ⟨choice s.1, hnode, by simp [hsource]⟩
    cases selections with
    | nil => exact absurd rfl hsome
    | cons first rest =>
        rw [sharedDataSources, List.mem_filter, mem_distinctly, List.mem_map]
        rcases hchoice first List.mem_cons_self with ⟨hnode, hsource⟩
        exact ⟨⟨choice first.1, hnode, hsource⟩, List.all_eq_true.mpr hholds⟩

/-! ## Units of a statement -/

/-- A choice of one node on a data source for each sharded table a statement refers to, among the
nodes the statement selects. -/
def Picks (rule : ShardingRule) (statement : Statement) (dataSource : String)
    (choice : ShardedTable → DataNode) : Prop :=
  ∀ name ∈ statement.tables, ∀ table, rule.table? name = some table →
    table.Selects statement (choice table) ∧ (choice table).dataSource = dataSource

/-- All values that the sharding columns of a statement are restricted to have nodes. -/
def Shardable (rule : ShardingRule) (statement : Statement) : Prop :=
  ∀ name ∈ statement.tables, ∀ table, rule.table? name = some table → table.Shardable statement

/-- The sharding counts of all tables are in range. -/
def CountsInRange (rule : ShardingRule) : Prop :=
  ∀ table ∈ rule.tables, table.CountInRange

/-- A table that is found is one of the rule. -/
theorem mem_tables_of_table? {rule : ShardingRule} {name : String} {table : ShardedTable}
    (h : rule.table? name = some table) : table ∈ rule.tables :=
  List.mem_of_find?_eq_some h

section Selected

variable {rule : ShardingRule} {statement : Statement} {selections : List Selection}

/-- The nodes of a selection are those that the statement selects. -/
theorem Selected.selects (h : rule.Selected statement statement.tables selections) {s : Selection}
    (hs : s ∈ selections) :
    s.1.Shardable statement ∧ ∀ node, node ∈ s.2 ↔ s.1.Selects statement node := by
  have hselected := (h.nodes s hs).1
  rcases s.1.selected_cases statement with ⟨nodes, hnodes, hshardable, hmem⟩ | ⟨e, he, -, -⟩
  · rw [hselected] at hnodes
    cases hnodes
    exact ⟨hshardable, hmem⟩
  · rw [hselected] at he
    cases he

/-- A statement with selections can be sharded. -/
theorem Selected.shardable (h : rule.Selected statement statement.tables selections) :
    rule.Shardable statement := by
  intro name hname table htable
  rcases h.covered name hname table htable with ⟨s, hs, rfl⟩
  exact (h.selects hs).1

/-- Choices of selected nodes are choices among the nodes the statement selects. -/
theorem Selected.chooses_iff (h : rule.Selected statement statement.tables selections)
    (dataSource : String) (choice : ShardedTable → DataNode) :
    Chooses selections dataSource choice ↔ rule.Picks statement dataSource choice := by
  refine ⟨?_, ?_⟩
  · intro hchooses name hname table htable
    rcases h.covered name hname table htable with ⟨s, hs, rfl⟩
    exact ⟨((h.selects hs).2 _).mp (hchooses s hs).1, (hchooses s hs).2⟩
  · intro hpicks s hs
    rcases h.named s hs with ⟨name, hname, htable⟩
    rcases hpicks name hname s.1 htable with ⟨hselects, hsource⟩
    exact ⟨((h.selects hs).2 _).mpr hselects, hsource⟩

end Selected

/-- The units of a statement with a sharded table: there are some exactly when all values have
nodes and nodes can be chosen on one data source. -/
theorem route_cases {rule : ShardingRule} (hcounts : rule.CountsInRange) {statement : Statement}
    (hsharded : ∃ name ∈ statement.tables, rule.isSharded name = true) :
    (∃ selections, rule.Selected statement statement.tables selections ∧ selections ≠ [] ∧
      unitsOf selections ≠ [] ∧ rule.route statement = .ok (some (unitsOf selections))) ∨
    (∃ cause, rule.route statement = .error (.routing cause)) ∧
      ¬ (rule.Shardable statement ∧ ∃ dataSource choice,
        rule.Picks statement dataSource choice) := by
  unfold route
  rcases rule.selections_cases statement with
    ⟨selections, hselections, h⟩ | ⟨name, hname, table, htable, e, he, hcause⟩
  · have hsome : selections ≠ [] := by
      rintro rfl
      rcases hsharded with ⟨name, hname, hname'⟩
      rcases Option.isSome_iff_exists.mp hname' with ⟨table, htable⟩
      rcases h.covered name hname table htable with ⟨s, hs, -⟩
      cases hs
    have hisEmpty : selections.isEmpty = false := by
      simpa using hsome
    simp only [hselections, bind, Except.bind, hisEmpty, Bool.false_eq_true, if_false]
    by_cases hunits : unitsOf selections = []
    · refine .inr ⟨⟨_, by rw [hunits]; rfl⟩, ?_⟩
      rintro ⟨-, dataSource, choice, hpicks⟩
      have hmem := (mem_unitsOf h.apart hsome).mpr
        ⟨dataSource, choice, (h.chooses_iff dataSource choice).mpr hpicks, rfl⟩
      rw [hunits] at hmem
      cases hmem
    · refine .inl ⟨selections, h, hsome, hunits, ?_⟩
      rw [if_neg (by simpa using hunits)]
      rfl
  · simp only [he, bind, Except.bind]
    refine .inr ?_
    rcases hcause with hfault | ⟨hempty, rfl⟩
    · rcases table.selected_cases statement with ⟨nodes, hnodes, -, -⟩ | ⟨e', he', hnot, hrouting⟩
      · rw [hfault] at hnodes
        cases hnodes
      · rw [hfault] at he'
        cases he'
        rcases hrouting (hcounts table (mem_tables_of_table? htable)) with ⟨cause, rfl⟩
        exact ⟨⟨cause, rfl⟩, fun hall => hnot (hall.1 name hname table htable)⟩
    · refine ⟨⟨_, rfl⟩, ?_⟩
      rintro ⟨-, dataSource, choice, hpicks⟩
      have hselects := (hpicks name hname table htable).1
      rcases table.selected_cases statement with ⟨nodes, hnodes, -, hmem⟩ | ⟨e', he', -, -⟩
      · rw [hempty] at hnodes
        cases hnodes
        exact absurd ((hmem _).mpr hselects) List.not_mem_nil
      · rw [hempty] at he'
        cases he'

end ShardingRule

end ShardedSql
