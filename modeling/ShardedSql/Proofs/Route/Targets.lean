import ShardedSql.Pattern.Reader
import ShardedSql.Proofs.Route.RuleOrder

/-!
# Targets of a statement

A statement with a sharded table is sent to every data source and every choice of one selected node
on it for each sharded table, as long as the data source holds the broadcast tables and is the one
of each other table.  Rule priorities and the order of the tables do not matter.

Main results:

- Theorem `RuleSet.addSingleTables_cases`: single tables keep the units on their data sources.
- Theorem `RuleSet.findMapping?_placed`: what a unit that is placed maps a name to.
- Theorem `RuleSet.route_targets`: when a statement is routed, and to which targets.
-/

namespace ShardedSql

open ShardingRule Route

/-- Where a unit sends a statement: its data source and the actual table of each logical one. -/
structure Target where
  dataSource : String
  actual : String → Option String

/-- The target of a unit. -/
def RouteUnit.target (u : RouteUnit) : Target :=
  { dataSource := u.dataSource.actual, actual := fun t => (u.table? t).map (·.actual) }

namespace RuleSet

/-! ## What a statement is sent to -/

/-- The sharded table of a name. -/
def shardedTable? (rs : RuleSet) (name : String) : Option ShardedTable :=
  rs.sharding?.bind (·.table? name)

/-- Whether a table is broadcast. -/
def isBroadcast (rs : RuleSet) (name : String) : Bool :=
  rs.broadcast?.any (·.isBroadcast name)

/-- The data source of a table that is neither sharded nor broadcast. -/
def home? (rs : RuleSet) (name : String) : Option String :=
  (rs.singleTable? name).or rs.defaultDataSource

/-- A data source and a choice of nodes that a statement has to be sent to. -/
structure Expects (rs : RuleSet) (statement : Statement) (ds : String)
    (choice : ShardedTable → DataNode) : Prop where
  /-- For each sharded table the choice is a selected node on the data source. -/
  sharded : ∀ t ∈ statement.tables, ∀ table, rs.shardedTable? t = some table →
    table.Selects statement (choice table) ∧ (choice table).dataSource = ds
  /-- If there is a broadcast table, the data source holds it. -/
  broadcast : ∀ t ∈ statement.tables, rs.isBroadcast t = true →
    ds ∈ broadcastSources rs.broadcast?
  /-- Every other table is on the data source. -/
  single : ∀ t ∈ statement.tables, rs.shardedTable? t = none → rs.isBroadcast t = false →
    rs.home? t = some ds

/-- The target of a data source and a choice of nodes: sharded tables are renamed, other tables
stand for themselves, in the spelling that comes first. -/
def targetOf (rs : RuleSet) (statement : Statement) (ds : String)
    (choice : ShardedTable → DataNode) : Target :=
  { dataSource := ds
    actual := fun t => (statement.tables.find? (Text.alike · t)).map fun name =>
      match rs.shardedTable? name with
      | some table => (choice table).table
      | none => name }

/-- All values that the sharding columns of a statement are restricted to have nodes. -/
def Shardable (rs : RuleSet) (statement : Statement) : Prop :=
  ∀ t ∈ statement.tables, ∀ table, rs.shardedTable? t = some table → table.Shardable statement

/-- Every table that is neither sharded nor broadcast has a data source. -/
def Homed (rs : RuleSet) (statement : Statement) : Prop :=
  ∀ t ∈ statement.tables, rs.shardedTable? t = none → rs.isBroadcast t = false →
    ∃ ds, rs.home? t = some ds

/-! ## Single tables -/

section Single

variable {rs : RuleSet} {selections : List Selection} {before after : List Mapping}

/-- The units of a route on a data source, with a single table. -/
def attached (route : Route) (t ds : String) : List RouteUnit :=
  (route.units.filter fun u => u.dataSource.logical == ds || u.dataSource.actual == ds).map
    fun u => { u with tables := u.tables ++ [.identity t] }

/-- A single table is attached to the units on its data source. -/
theorem addSingleTable_eq {route : Route} (hroute : route.units ≠ []) (t : String) :
    rs.addSingleTable route t =
      match rs.home? t with
      | none => .error (.routing (.unplacedTable t))
      | some ds =>
          if attached route t ds = [] then
            .error (.routing (.unreachableTable t ds route.dataSources))
          else .ok (ofUnits (attached route t ds)) := by
  have hempty : route.isEmpty = false := by
    cases hisEmpty : route.isEmpty with
    | false => rfl
    | true => exact absurd (isEmpty_iff.mp hisEmpty) hroute
  unfold addSingleTable home?
  cases (rs.singleTable? t).or rs.defaultDataSource with
  | none => rfl
  | some ds =>
      simp only [bind, Except.bind, hempty, Bool.false_eq_true, if_false, List.isEmpty_iff]
      rfl

variable (rs) in
/-- A single table keeps the units on its data source. -/
theorem addSingleTable_cases {route : Route} {allowed : String → Prop}
    (h : route.Offers selections before after allowed) (hreachable : Reachable selections allowed)
    (t : String) :
    (∃ kept, rs.addSingleTable route t = .ok kept ∧
      kept.Offers selections before (after ++ identities [t])
        (fun ds => allowed ds ∧ rs.home? t = some ds) ∧
      Reachable selections fun ds => allowed ds ∧ rs.home? t = some ds) ∨
    Disjoint (rs.addSingleTable route t) ∧
      ¬ Reachable selections fun ds => allowed ds ∧ rs.home? t = some ds := by
  rw [addSingleTable_eq (h.units_ne_nil_iff.mpr hreachable)]
  cases hhome : rs.home? t with
  | none =>
      refine .inr ⟨⟨_, rfl⟩, ?_⟩
      rintro ⟨ds, choice, ⟨-, hds⟩, -⟩
      cases hds
  | some home =>
      have hmem : ∀ u, u ∈ attached route t home ↔ ∃ ds choice,
          (allowed ds ∧ some home = some ds) ∧ Chooses selections ds choice ∧
          u = { dataSource := .identity ds
                tables := before ++ chosen selections choice ++ (after ++ identities [t]) } := by
        intro u
        simp only [attached, List.mem_map, List.mem_filter, h.mem_iff]
        constructor
        · rintro ⟨_, ⟨⟨ds, choice, hallowed, hchooses, rfl⟩, hsource⟩, rfl⟩
          have hds : ds = home := by
            simpa [Mapping.identity] using hsource
          exact ⟨ds, choice, ⟨hallowed, by rw [hds]⟩, hchooses, by simp [identities]⟩
        · rintro ⟨ds, choice, ⟨hallowed, hds⟩, hchooses, rfl⟩
          refine ⟨_, ⟨⟨ds, choice, hallowed, hchooses, rfl⟩, ?_⟩, by simp [identities]⟩
          simp [Mapping.identity, Option.some.inj hds]
      have hoffers : (ofUnits (attached route t home)).Offers selections before
          (after ++ identities [t]) (fun ds => allowed ds ∧ some home = some ds) := by
        refine ⟨nodup_ofUnits _, ?_⟩
        intro u
        rw [mem_ofUnits]
        exact hmem u
      have hunits : (ofUnits (attached route t home)).units ≠ [] ↔ attached route t home ≠ [] := by
        rw [units_ofUnits, Ne, distinctly_eq_nil]
      by_cases hnil : attached route t home = []
      · simp only [if_pos hnil]
        refine .inr ⟨⟨_, rfl⟩, ?_⟩
        rw [← hoffers.units_ne_nil_iff, hunits]
        exact fun hne => hne hnil
      · simp only [if_neg hnil]
        exact .inl ⟨_, rfl, hoffers, hoffers.units_ne_nil_iff.mp (hunits.mpr hnil)⟩

variable (rs) in
/-- Single tables keep the units on the data source of all of them. -/
theorem addSingleTables_cases (names : List String) {route : Route} {allowed : String → Prop}
    (h : route.Offers selections before after allowed)
    (hreachable : Reachable selections allowed) :
    (∃ kept, names.foldlM rs.addSingleTable route = .ok kept ∧
      kept.Offers selections before (after ++ identities names)
        (fun ds => allowed ds ∧ ∀ t ∈ names, rs.home? t = some ds) ∧
      Reachable selections fun ds => allowed ds ∧ ∀ t ∈ names, rs.home? t = some ds) ∨
    Disjoint (names.foldlM rs.addSingleTable route) ∧
      ¬ Reachable selections fun ds => allowed ds ∧ ∀ t ∈ names, rs.home? t = some ds := by
  induction names generalizing route after allowed with
  | nil =>
      refine .inl ⟨route, rfl, ?_, ?_⟩
      · have hsame : route.Offers selections before after
            fun ds => allowed ds ∧ ∀ t ∈ [], rs.home? t = some ds := h.congr (by simp)
        simpa [identities] using hsame
      · simpa using hreachable
  | cons t names ih =>
      have hallowed : ∀ ds, (allowed ds ∧ rs.home? t = some ds) ∧
          (∀ n ∈ names, rs.home? n = some ds) ↔
          allowed ds ∧ ∀ n ∈ t :: names, rs.home? n = some ds := by
        intro ds
        simp [and_assoc]
      simp only [List.foldlM_cons, bind, Except.bind]
      rcases rs.addSingleTable_cases h hreachable t with
        ⟨kept, hkept, hoffers, hstill⟩ | ⟨⟨cause, hcause⟩, hnot⟩
      · rw [hkept]
        rcases ih hoffers hstill with ⟨last, hlast, hlastOffers, hlastReachable⟩ | ⟨hfail, hnot⟩
        · refine .inl ⟨last, hlast, ?_, ?_⟩
          · have hlastOffers := hlastOffers.congr hallowed
            simpa [identities] using hlastOffers
          · simpa only [hallowed] using hlastReachable
        · refine .inr ⟨hfail, ?_⟩
          simpa only [hallowed] using hnot
      · rw [hcause]
        refine .inr ⟨⟨cause, rfl⟩, ?_⟩
        rintro ⟨ds, choice, ⟨hds, hall⟩, hchooses⟩
        exact hnot ⟨ds, choice, ⟨hds, hall t List.mem_cons_self⟩, hchooses⟩

end Single

/-! ## Names in a unit -/

/-- Among the names with a property that does not depend on the case of letters, the first alike one
is that of all names. -/
theorem find?_filter_alike {p : String → Bool}
    (hp : ∀ a b, Text.alike a b = true → p a = p b) (names : List String) (t : String) :
    (names.filter p).find? (Text.alike · t) =
      if p t = true then names.find? (Text.alike · t) else none := by
  have hsame : (fun a => decide (p a = true ∧ Text.alike a t = true)) =
      fun a => p t && Text.alike a t := by
    funext a
    cases halike : Text.alike a t with
    | false => simp
    | true => simp [hp a t halike]
  rw [List.find?_filter, hsame]
  cases p t with
  | false => simp
  | true => simp

section Statement

variable {rs : RuleSet} {sharding : ShardingRule} {statement : Statement}

/-- A sharded table is one of the sharding rule. -/
theorem shardedTable?_eq (hsharding : rs.sharding? = some sharding) (name : String) :
    rs.shardedTable? name = sharding.table? name := by
  simp [shardedTable?, hsharding]

/-- Alike names are broadcast alike. -/
theorem isBroadcast_congr (rs : RuleSet) {a b : String} (h : Text.alike a b = true) :
    rs.isBroadcast a = rs.isBroadcast b := by
  unfold isBroadcast
  cases rs.broadcast? with
  | none => rfl
  | some rule => exact rule.isBroadcast_congr h

/-- The broadcast tables of a statement are those of its tables that are broadcast. -/
theorem broadcastTables_eq (rs : RuleSet) (statement : Statement) :
    broadcastTables rs.broadcast? statement = statement.tables.filter rs.isBroadcast := by
  unfold broadcastTables isBroadcast
  cases rs.broadcast? with
  | none => simp
  | some rule => rfl

/-- The tables of a statement that are neither sharded nor broadcast. -/
def isSingle (rs : RuleSet) (name : String) : Bool :=
  (rs.shardedTable? name).isNone && !rs.isBroadcast name

/-- Alike names are single alike. -/
theorem isSingle_congr (hsharding : rs.sharding? = some sharding) {a b : String}
    (h : Text.alike a b = true) : rs.isSingle a = rs.isSingle b := by
  unfold isSingle
  rw [shardedTable?_eq hsharding, shardedTable?_eq hsharding, sharding.table?_congr h,
    rs.isBroadcast_congr h]

/-- What a name stands for: a sharded table for its chosen node, another name for itself. -/
def standsFor (rs : RuleSet) (choice : ShardedTable → DataNode) (name : String) : Mapping :=
  match rs.shardedTable? name with
  | some table => ⟨table.name, (choice table).table⟩
  | none => .identity name

variable {route : Route} {selections : List Selection} {before after : List Mapping}

/-- The table of a selection is sharded and named in the statement. -/
theorem sharded_of_selected (h : sharding.Selected statement statement.tables selections)
    {s : Selection} (hs : s ∈ selections) {t : String} (ht : Text.alike s.1.name t = true) :
    sharding.table? t = some s.1 ∧ ∃ n ∈ statement.tables, Text.alike n t = true := by
  rcases h.named s hs with ⟨n, hn, htable⟩
  have hsame : Text.alike n t = true := by
    rw [← Text.alike_congr_left (alike_of_table? htable)]
    exact ht
  exact ⟨by rw [← sharding.table?_congr hsame, htable], n, hn, hsame⟩

/-- What the units that the placing rules leave map a name to. -/
theorem findMapping?_placed (hsharding : rs.sharding? = some sharding)
    (hdisjoint : ∀ t, (rs.shardedTable? t).isSome = true → rs.isBroadcast t = false)
    (h : Placement sharding rs.broadcast? statement route selections before after)
    (choice : ShardedTable → DataNode) (t : String) :
    findMapping? (before ++ chosen selections choice ++ after) t =
      if rs.isSingle t = true then none
      else (statement.tables.find? (Text.alike · t)).map (rs.standsFor choice) := by
  have hnames : (findMapping? before t).or (findMapping? after t) =
      if rs.isBroadcast t = true then
        (statement.tables.find? (Text.alike · t)).map Mapping.identity
      else none := by
    rw [← findMapping?_append, h.names, broadcastTables_eq,
      find?_filter_alike fun a b => rs.isBroadcast_congr]
    cases rs.isBroadcast t <;> rfl
  rw [findMapping?_append, findMapping?_append]
  cases htable : rs.shardedTable? t with
  | some table =>
      have hbroadcast := hdisjoint t (by rw [htable]; rfl)
      have hsingle : rs.isSingle t = false := by simp [isSingle, htable]
      rw [hbroadcast] at hnames
      have hbefore : findMapping? before t = none := (Option.or_eq_none_iff.mp hnames).1
      have hafter : findMapping? after t = none := (Option.or_eq_none_iff.mp hnames).2
      rw [hbefore, hafter, hsingle, Option.none_or, Option.or_none]
      rw [shardedTable?_eq hsharding] at htable
      simp only [Bool.false_eq_true, if_false]
      cases hfind : statement.tables.find? (Text.alike · t) with
      | none =>
          -- No selection is that of a table the statement does not name.
          rw [findMapping?_eq_none.mpr]
          · rfl
          · rw [maps_chosen]
            rintro ⟨s, hs, halike⟩
            rcases (sharded_of_selected h.selected hs halike).2 with ⟨n, hn, hsame⟩
            exact absurd hsame (List.find?_eq_none.mp hfind n hn)
      | some name =>
          have hname : Text.alike name t = true := by simpa using List.find?_some hfind
          have hnamed : sharding.table? name = some table := by
            rw [sharding.table?_congr hname, htable]
          rcases h.selected.covered name (List.mem_of_find?_eq_some hfind) table hnamed with
            ⟨s, hs, rfl⟩
          have halike : Text.alike s.1.name t = true := alike_of_table? htable
          rw [findMapping?_chosen h.selected.apart choice hs halike]
          simp [standsFor, shardedTable?_eq hsharding, hnamed]
  | none =>
      have hchosen : findMapping? (chosen selections choice) t = none := by
        rw [findMapping?_eq_none, maps_chosen]
        rintro ⟨s, hs, halike⟩
        rw [shardedTable?_eq hsharding, (sharded_of_selected h.selected hs halike).1] at htable
        cases htable
      have hsingle : rs.isSingle t = !rs.isBroadcast t := by simp [isSingle, htable]
      rw [hchosen, Option.or_none, hnames, hsingle]
      cases hbroadcast : rs.isBroadcast t with
      | false => simp
      | true =>
          simp only [if_true, Bool.not_true, Bool.false_eq_true, if_false]
          cases hfind : statement.tables.find? (Text.alike · t) with
          | none => rfl
          | some name =>
              have hname : Text.alike name t = true := by simpa using List.find?_some hfind
              have hnone : rs.shardedTable? name = none := by
                rw [shardedTable?_eq hsharding, sharding.table?_congr hname,
                  ← shardedTable?_eq hsharding, htable]
              simp [standsFor, hnone]

/-- The tables that no placing rule covers are the single ones. -/
theorem uncovered_eq (hsharding : rs.sharding? = some sharding)
    (hdisjoint : ∀ t, (rs.shardedTable? t).isSome = true → rs.isBroadcast t = false)
    (h : Placement sharding rs.broadcast? statement route selections before after) :
    statement.tables.filter (fun t => !route.covers t) = statement.tables.filter rs.isSingle := by
  apply List.filter_congr
  intro t ht
  have hcovers : ∀ choice,
      (findMapping? (before ++ chosen selections choice ++ after) t).isSome = !rs.isSingle t := by
    intro choice
    rw [findMapping?_placed hsharding hdisjoint h]
    cases rs.isSingle t with
    | true => rfl
    | false =>
        have hfound : (statement.tables.find? (Text.alike · t)).isSome = true := by
          rw [List.find?_isSome]
          exact ⟨t, ht, Text.alike_refl t⟩
        simpa using hfound
  have hroute : route.covers t = !rs.isSingle t := by
    rw [Bool.eq_iff_iff]
    refine ⟨?_, ?_⟩
    · intro hcovered
      rcases List.any_eq_true.mp hcovered with ⟨u, hu, hcovered⟩
      rcases (h.offers.mem_iff u).mp hu with ⟨ds, choice, -, -, rfl⟩
      rw [← hcovers choice]
      exact hcovered
    · intro hnot
      rcases h.reachable with ⟨ds, choice, hallowed, hchooses⟩
      apply List.any_eq_true.mpr
      refine ⟨_, (h.offers.mem_iff _).mpr ⟨ds, choice, hallowed, hchooses, rfl⟩, ?_⟩
      rw [← hcovers choice] at hnot
      exact hnot
  rw [hroute, Bool.not_not]

/-- The single tables of a statement, each once. -/
def singleNames (rs : RuleSet) (statement : Statement) : List String :=
  distinctly (statement.tables.filter rs.isSingle)

/-- Single tables are routed one after the other. -/
theorem routeSingleTables_eq (hsharding : rs.sharding? = some sharding)
    (hdisjoint : ∀ t, (rs.shardedTable? t).isSome = true → rs.isBroadcast t = false)
    (h : Placement sharding rs.broadcast? statement route selections before after) :
    rs.routeSingleTables statement route =
      (rs.singleNames statement).foldlM rs.addSingleTable route := by
  have hempty : route.isEmpty = false := by
    cases hisEmpty : route.isEmpty with
    | false => rfl
    | true =>
        exact absurd (isEmpty_iff.mp hisEmpty) (h.offers.units_ne_nil_iff.mpr h.reachable)
  unfold routeSingleTables
  simp only [uncovered_eq hsharding hdisjoint h, hempty, Bool.false_eq_true, if_false]
  show (if (rs.singleNames statement).isEmpty = true then pure route
    else (rs.singleNames statement).foldlM rs.addSingleTable route) = _
  cases hnames : rs.singleNames statement with
  | nil => rfl
  | cons name names => rfl

/-- The target of a unit is that of its data source and its choice. -/
theorem target_eq (hsharding : rs.sharding? = some sharding)
    (hdisjoint : ∀ t, (rs.shardedTable? t).isSome = true → rs.isBroadcast t = false)
    (h : Placement sharding rs.broadcast? statement route selections before after)
    (ds : String) (choice : ShardedTable → DataNode) :
    RouteUnit.target { dataSource := .identity ds
                       tables := before ++ chosen selections choice ++
                         (after ++ identities (rs.singleNames statement)) } =
      rs.targetOf statement ds choice := by
  have hmapping : ∀ t, findMapping? (before ++ chosen selections choice ++
      (after ++ identities (rs.singleNames statement))) t =
      (statement.tables.find? (Text.alike · t)).map (rs.standsFor choice) := by
    intro t
    rw [← List.append_assoc, findMapping?_append, findMapping?_placed hsharding hdisjoint h,
      findMapping?_identities, singleNames, find?_distinctly,
      find?_filter_alike fun a b => isSingle_congr hsharding]
    cases hsingle : rs.isSingle t with
    | false => simp
    | true =>
        simp only [if_true, Option.none_or]
        cases hfind : statement.tables.find? (Text.alike · t) with
        | none => rfl
        | some name =>
            have hname : Text.alike name t = true := by simpa using List.find?_some hfind
            have hnamed : rs.isSingle name = true := by
              rw [isSingle_congr hsharding hname, hsingle]
            have hnone : rs.shardedTable? name = none := by
              simp only [isSingle, Bool.and_eq_true, Option.isNone_iff_eq_none] at hnamed
              exact hnamed.1
            simp [standsFor, hnone]
  unfold RouteUnit.target targetOf
  congr 1
  funext t
  show (findMapping? _ t).map _ = _
  rw [hmapping t, Option.map_map]
  congr 1
  funext name
  show (rs.standsFor choice name).actual = _
  unfold standsFor
  cases rs.shardedTable? name <;> rfl

/-- Targets of different choices of nodes differ. -/
theorem chosen_eq_of_targetOf (hsharding : rs.sharding? = some sharding)
    (h : sharding.Selected statement statement.tables selections) {a b : String}
    {choice choice' : ShardedTable → DataNode}
    (heq : rs.targetOf statement a choice = rs.targetOf statement b choice') :
    a = b ∧ chosen selections choice = chosen selections choice' := by
  refine ⟨congrArg Target.dataSource heq, ?_⟩
  apply List.map_congr_left
  intro s hs
  have hactual : ∀ c, (rs.targetOf statement a c).actual s.1.name = some (c s.1).table := by
    intro c
    rcases sharded_of_selected h hs (Text.alike_refl s.1.name) with ⟨htable, n, hn, hsame⟩
    have hfound : (statement.tables.find? (Text.alike · s.1.name)).isSome = true := by
      rw [List.find?_isSome]
      exact ⟨n, hn, hsame⟩
    rcases Option.isSome_iff_exists.mp hfound with ⟨name, hname⟩
    have halike : Text.alike name s.1.name = true := by simpa using List.find?_some hname
    have hnamed : rs.shardedTable? name = some s.1 := by
      rw [shardedTable?_eq hsharding, sharding.table?_congr halike, htable]
    simp [targetOf, hname, hnamed]
  have hsame := congrArg (fun x => Target.actual x s.1.name) heq
  have hright := hactual choice'
  simp only [hactual choice] at hsame
  rw [Option.some.inj (hsame.trans hright)]

/-! ## The route -/

/-- Expected choices of nodes are those on allowed data sources that are the homes of the single
tables. -/
theorem expects_iff (hsharding : rs.sharding? = some sharding) (ds : String)
    (choice : ShardedTable → DataNode) :
    rs.Expects statement ds choice ↔
      (HoldsBroadcast rs.broadcast? statement ds ∧
        ∀ t ∈ rs.singleNames statement, rs.home? t = some ds) ∧
      sharding.Picks statement ds choice := by
  have hholds : HoldsBroadcast rs.broadcast? statement ds ↔
      ∀ t ∈ statement.tables, rs.isBroadcast t = true → ds ∈ broadcastSources rs.broadcast? := by
    rw [HoldsBroadcast, broadcastTables_eq]
    refine ⟨?_, ?_⟩
    · intro h t ht hbroadcast
      apply h
      intro hnil
      have hmem := List.mem_filter.mpr ⟨ht, hbroadcast⟩
      rw [hnil] at hmem
      cases hmem
    · intro h hne
      rcases List.exists_mem_of_ne_nil _ hne with ⟨t, ht⟩
      exact h t (List.mem_filter.mp ht).1 (List.mem_filter.mp ht).2
  have hsingle : (∀ t ∈ rs.singleNames statement, rs.home? t = some ds) ↔
      ∀ t ∈ statement.tables, rs.shardedTable? t = none → rs.isBroadcast t = false →
        rs.home? t = some ds := by
    simp [singleNames, mem_distinctly, isSingle]
  have hpicks : sharding.Picks statement ds choice ↔
      ∀ t ∈ statement.tables, ∀ table, rs.shardedTable? t = some table →
        table.Selects statement (choice table) ∧ (choice table).dataSource = ds := by
    simp only [Picks, shardedTable?_eq hsharding]
  rw [hholds, hsingle, hpicks]
  exact ⟨fun h => ⟨⟨h.broadcast, h.single⟩, h.sharded⟩, fun h => ⟨h.2, h.1.1, h.1.2⟩⟩

/-- The targets of a route are the expected ones, each once. -/
structure Reaches (rs : RuleSet) (statement : Statement) (route : Route) : Prop where
  nodup : (route.units.map RouteUnit.target).Nodup
  mem_iff : ∀ x, x ∈ route.units.map RouteUnit.target ↔
    ∃ ds choice, rs.Expects statement ds choice ∧ x = rs.targetOf statement ds choice

/-- A statement that is placed goes to the expected targets, unless there are none. -/
theorem routeSingleTables_cases (hsharding : rs.sharding? = some sharding)
    (hdisjoint : ∀ t, (rs.shardedTable? t).isSome = true → rs.isBroadcast t = false)
    (h : Placement sharding rs.broadcast? statement route selections before after) :
    (∃ complete, rs.routeSingleTables statement route = .ok complete ∧
      rs.Reaches statement complete ∧ ∃ ds choice, rs.Expects statement ds choice) ∨
    Disjoint (rs.routeSingleTables statement route) ∧
      ¬ ∃ ds choice, rs.Expects statement ds choice := by
  have hexpects : ∀ ds choice, ((HoldsBroadcast rs.broadcast? statement ds ∧
      ∀ t ∈ rs.singleNames statement, rs.home? t = some ds) ∧ Chooses selections ds choice) ↔
      rs.Expects statement ds choice := by
    intro ds choice
    rw [expects_iff hsharding, h.selected.chooses_iff]
  rw [routeSingleTables_eq hsharding hdisjoint h]
  rcases rs.addSingleTables_cases (rs.singleNames statement) h.offers h.reachable with
    ⟨complete, hcomplete, hoffers, hreachable⟩ | ⟨hfail, hnot⟩
  · refine .inl ⟨complete, hcomplete, ⟨?_, ?_⟩, ?_⟩
    · rw [List.Nodup, List.pairwise_map]
      apply hoffers.nodup.imp_of_mem
      intro u v hu hv hne heq
      rcases (hoffers.mem_iff u).mp hu with ⟨a, choice, -, -, rfl⟩
      rcases (hoffers.mem_iff v).mp hv with ⟨b, choice', -, -, rfl⟩
      rw [target_eq hsharding hdisjoint h, target_eq hsharding hdisjoint h] at heq
      rcases chosen_eq_of_targetOf hsharding h.selected heq with ⟨rfl, hchosen⟩
      rw [hchosen] at hne
      exact hne rfl
    · intro x
      rw [List.mem_map]
      constructor
      · rintro ⟨u, hu, rfl⟩
        rcases (hoffers.mem_iff u).mp hu with ⟨ds, choice, hallowed, hchooses, rfl⟩
        exact ⟨ds, choice, (hexpects ds choice).mp ⟨hallowed, hchooses⟩,
          target_eq hsharding hdisjoint h ds choice⟩
      · rintro ⟨ds, choice, hds, rfl⟩
        rcases (hexpects ds choice).mpr hds with ⟨hallowed, hchooses⟩
        exact ⟨_, (hoffers.mem_iff _).mpr ⟨ds, choice, hallowed, hchooses, rfl⟩,
          target_eq hsharding hdisjoint h ds choice⟩
    · rcases hreachable with ⟨ds, choice, hallowed, hchooses⟩
      exact ⟨ds, choice, (hexpects ds choice).mp ⟨hallowed, hchooses⟩⟩
  · refine .inr ⟨hfail, ?_⟩
    rintro ⟨ds, choice, hds⟩
    rcases (hexpects ds choice).mpr hds with ⟨hallowed, hchooses⟩
    exact hnot ⟨ds, choice, hallowed, hchooses⟩

/-- The sharding counts of a rule set are in range. -/
def CountsInRange (rs : RuleSet) : Prop :=
  ∀ sharding ∈ rs.sharding?, sharding.CountsInRange

/-- No table is sharded and broadcast. -/
def Separate (rs : RuleSet) : Prop :=
  ∀ t, (rs.shardedTable? t).isSome = true → rs.isBroadcast t = false

/-- The rules of a configuration without redirecting rules all place tables. -/
theorem PlacesBy.route_eq {broadcast : Option BroadcastRule} (h : rs.PlacesBy sharding broadcast)
    (statement : Statement) (inTransaction : Bool) :
    rs.route statement inTransaction =
      .ofExcept (rs.rules.foldlM (place statement) Route.empty >>=
        rs.routeSingleTables statement) := by
  have hplacing : ∀ rule ∈ rs.rules, rule.isPlacing = true := by
    intro rule hrule
    have hmem := h.mem_iff.mp hrule
    cases broadcast with
    | none => simpa [RouteRule.isPlacing] using List.mem_singleton.mp hmem ▸ rfl
    | some r =>
        rcases List.mem_cons.mp hmem with rfl | hmem
        · rfl
        · rw [List.mem_singleton.mp hmem]
          rfl
  have hpartition : rs.rules.partition (·.isPlacing) = (rs.rules, []) := by
    rw [List.partition_eq_filter_filter]
    congr 1
    · exact List.filter_eq_self.mpr hplacing
    · rw [List.filter_eq_nil_iff]
      intro rule hrule
      simp [hplacing rule hrule]
  unfold RuleSet.route
  rw [hpartition]
  simp only [foldlM_applyRule hplacing, List.foldlM_nil]
  rw [← Balancing.ofExcept_bind]
  congr 1
  funext placed
  exact bind_pure _

/-- A statement with a sharded table reaches the expected targets, or it fails and there are none or
a value has no node. -/
theorem PlacesBy.reaches_cases (hrules : rs.PlacesBy sharding rs.broadcast?)
    (hsharding : rs.sharding? = some sharding) (hcounts : sharding.CountsInRange)
    (hseparate : rs.Separate)
    (hsharded : ∃ t ∈ statement.tables, (rs.shardedTable? t).isSome = true)
    (inTransaction : Bool) (turns : Turns) :
    (∃ route, (rs.route statement inTransaction turns).1 = .ok route ∧
      rs.Reaches statement route ∧ (∃ ds choice, rs.Expects statement ds choice) ∧
      rs.Shardable statement) ∨
    Disjoint (rs.route statement inTransaction turns).1 ∧
      ¬ ((∃ ds choice, rs.Expects statement ds choice) ∧ rs.Shardable statement) := by
  have hisSharded : ∀ t, (rs.shardedTable? t).isSome = sharding.isSharded t := by
    intro t
    rw [shardedTable?_eq hsharding, ShardingRule.isSharded]
  simp only [hisSharded] at hsharded
  have hdisjoint : ∀ t ∈ statement.tables, sharding.isSharded t = true →
      ∀ rule ∈ rs.broadcast?, rule.isBroadcast t = false := by
    intro t _ hsharded rule hrule
    have hnot := hseparate t (by rw [hisSharded, hsharded])
    rw [isBroadcast, Option.mem_def.mp hrule] at hnot
    exact hnot
  have hshardable : rs.Shardable statement ↔ sharding.Shardable statement := by
    simp only [Shardable, ShardingRule.Shardable, shardedTable?_eq hsharding]
  rw [hrules.route_eq]
  rcases place_cases hrules hcounts hsharded hdisjoint with
    ⟨placed, selections, before, after, hplaced, h⟩ | ⟨⟨cause, hcause⟩, hnot⟩
  · rw [hplaced]
    rcases routeSingleTables_cases hsharding hseparate h with
      ⟨complete, hcomplete, hreaches, hexpects⟩ | ⟨hfail, hnone⟩
    · exact .inl ⟨complete, hcomplete, hreaches, hexpects, hshardable.mpr h.selected.shardable⟩
    · exact .inr ⟨hfail, fun hall => hnone hall.1⟩
  · rw [hcause]
    refine .inr ⟨⟨cause, rfl⟩, ?_⟩
    rintro ⟨⟨ds, choice, hexpects⟩, hall⟩
    rcases (expects_iff hsharding ds choice).mp hexpects with ⟨⟨hholds, -⟩, hpicks⟩
    exact hnot ⟨hshardable.mp hall, ds, choice, hholds, hpicks⟩

end Statement

/-- When a statement with a sharded table is routed, and to which targets: to every data source and
every choice of one selected node on it for each sharded table, provided the data source holds the
broadcast tables and is that of each other table. -/
theorem route_targets {patterns : PatternLibrary} {rules : Rules}
    {default : Option String} {rs : RuleSet}
    (hsetUp : setUp patterns rules default = .ok rs) (hshadow : rules.shadow = none)
    (hreplicas : rules.replicas = none) (hcounts : rs.CountsInRange) (hseparate : rs.Separate)
    {statement : Statement}
    (hsharded : ∃ t ∈ statement.tables, (rs.shardedTable? t).isSome = true)
    (inTransaction : Bool) (turns : Turns) :
    ((∃ route, (rs.route statement inTransaction turns).1 = .ok route) ↔
      (∃ ds choice, rs.Expects statement ds choice) ∧ rs.Shardable statement ∧
        rs.Homed statement) ∧
    (∀ route, (rs.route statement inTransaction turns).1 = .ok route →
      rs.Reaches statement route) ∧
    (∀ e, (rs.route statement inTransaction turns).1 = .error e → ∃ cause, e = .routing cause) := by
  cases hsharding : rs.sharding? with
  | none =>
      rcases hsharded with ⟨t, -, htable⟩
      simp [shardedTable?, hsharding] at htable
  | some sharding =>
      have hrules := placesBy_of_setUp hsetUp hshadow hreplicas hsharding
      have hhomed : (∃ ds choice, rs.Expects statement ds choice) → rs.Homed statement := by
        rintro ⟨ds, choice, hexpects⟩ name hname hnot hbroadcast
        exact ⟨ds, hexpects.single name hname hnot hbroadcast⟩
      rcases hrules.reaches_cases hsharding (hcounts sharding hsharding) hseparate hsharded
          inTransaction turns with
        ⟨route, hroute, hreaches, hexpects, hall⟩ | ⟨⟨cause, hcause⟩, hnot⟩
      · rw [hroute]
        refine ⟨⟨fun _ => ⟨hexpects, hall, hhomed hexpects⟩, fun _ => ⟨route, rfl⟩⟩, ?_, ?_⟩
        · intro other hother
          cases hother
          exact hreaches
        · intro e he
          cases he
      · rw [hcause]
        refine ⟨⟨?_, fun h => absurd ⟨h.1, h.2.1⟩ hnot⟩, ?_, ?_⟩
        · rintro ⟨route, hroute⟩
          cases hroute
        · intro route hroute
          cases hroute
        · intro e he
          cases he
          exact ⟨cause, rfl⟩

/-- Orders on two nodes, a dictionary on both of their data sources, and users on the second. -/
def orderRules : Rules :=
  { singleTables := [("t_user", "ds_1")]
    sharding := some
      { tables := [("t_order",
          { nodes := ["ds_0.t_order_0", "ds_1.t_order_1"]
            column := some "user_id"
            algorithm := some "order_mod" })]
        algorithms := [("order_mod", { type := "MOD", properties := [("sharding-count", "2")] })] }
    broadcast := some { tables := ["t_dict"], dataSources := ["ds_0", "ds_1"] } }

/-- The rule set of `orderRules`. -/
def orderRuleSet : RuleSet :=
  { rules :=
      [.sharding
        { priority := 0
          tables := [
            { name := "t_order"
              nodes := [⟨"ds_0", "t_order_0"⟩, ⟨"ds_1", "t_order_1"⟩]
              placement := some ("user_id", .modulo 2) }] },
        .broadcast { priority := 10, tables := ["t_dict"], dataSources := ["ds_0", "ds_1"] }]
    singleTables := [("t_user", "ds_1")]
    defaultDataSource := none }

/-- The rules for orders make up `orderRuleSet`. -/
theorem setUp_orderRules : setUp Pattern.library orderRules none = .ok orderRuleSet := by
  have hregistry : AlgorithmRegistry.setUp Pattern.library orderRules =
      .ok { sharding := [("order_mod", .modulo 2)], shadow := [], balancers := [] } := by
    rfl
  have hsharding : orderRules.sharding.mapM (ShardingRule.setUp [("order_mod", .modulo 2)]) =
      .ok (some
        { priority := 0
          tables := [
            { name := "t_order"
              nodes := [⟨"ds_0", "t_order_0"⟩, ⟨"ds_1", "t_order_1"⟩]
              placement := some ("user_id", .modulo 2) }] }) := by
    have htable : ShardedTable.setUp [("order_mod", .modulo 2)] "t_order"
        { nodes := ["ds_0.t_order_0", "ds_1.t_order_1"]
          column := some "user_id"
          algorithm := some "order_mod" } =
        .ok
          { name := "t_order"
            nodes := [⟨"ds_0", "t_order_0"⟩, ⟨"ds_1", "t_order_1"⟩]
            placement := some ("user_id", .modulo 2) } := by
      rfl
    simp [orderRules, ShardingRule.setUp, htable, bind, Except.bind, pure, Except.pure,
      ShardingRule.defaultPriority]
  have hrules : setUpRules Pattern.library 0 orderRules = .ok orderRuleSet.rules := by
    unfold setUpRules
    rw [hregistry]
    simp only [bind, Except.bind, hsharding]
    rfl
  have hordered : orderRuleSet.rules.mergeSort RouteRule.mayPrecede = orderRuleSet.rules :=
    List.mergeSort_of_pairwise (by decide)
  unfold setUp
  rw [hrules]
  show Except.ok (ofRules orderRuleSet.rules _ _) = _
  unfold ofRules
  rw [hordered]
  rfl

/-- The statement that joins the tables of `orderRules` for one user. -/
def orderStatement : Statement :=
  { sql := "SELECT * FROM T_Order JOIN t_user JOIN t_dict WHERE t_order.user_id = 3"
    tables := ["T_Order", "t_user", "t_dict"]
    conditions := [{ table := "t_order", column := "user_id", values := [.int 3] }] }

/-- The targets of `orderStatement`: the one node of the user's orders, which is on the data source
of the users. -/
theorem route_targets_orderStatement :
    setUp Pattern.library orderRules none = .ok orderRuleSet ∧ orderRules.shadow = none ∧
    orderRules.replicas = none ∧ orderRuleSet.CountsInRange ∧ orderRuleSet.Separate ∧
    (∃ t ∈ orderStatement.tables, (orderRuleSet.shardedTable? t).isSome = true) ∧
    orderRuleSet.Reaches orderStatement
      ⟨[{ dataSource := .identity "ds_1"
          tables := [⟨"t_order", "t_order_1"⟩, .identity "t_dict", .identity "t_user"] }]⟩ := by
  have hcounts : orderRuleSet.CountsInRange := by
    intro sharding hsharding table htable column algorithm hplacement
    cases hsharding
    rw [List.mem_singleton.mp htable] at hplacement
    cases hplacement
    show (2 : UInt64).toNat < Nat.pow 2 63
    decide
  have hseparate : orderRuleSet.Separate := by
    intro t ht
    have horder : Text.alike "t_order" t = true := by
      rcases Option.isSome_iff_exists.mp ht with ⟨table, htable⟩
      have halike := ShardingRule.alike_of_table? htable
      rw [List.mem_singleton.mp (ShardingRule.mem_tables_of_table? htable)] at halike
      exact halike
    show List.any ["t_dict"] (Text.alike · t) = false
    rw [List.any_cons, List.any_nil, Bool.or_false, Text.alike_comm, ← Text.alike_congr_left horder]
    decide
  have hsharded : ∃ t ∈ orderStatement.tables,
      (orderRuleSet.shardedTable? t).isSome = true :=
    ⟨"T_Order", by decide, by rfl⟩
  refine ⟨setUp_orderRules, rfl, rfl, hcounts, hseparate, hsharded, ?_⟩
  exact (route_targets setUp_orderRules rfl rfl hcounts hseparate hsharded false []).2.1 _ (by rfl)

end RuleSet

end ShardedSql
