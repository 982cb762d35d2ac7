import ShardedSql.Proofs.Route.Selections
import ShardedSql.Route.Broadcast

/-!
# Placed units

The rules that place tables leave units of one form: a choice of nodes on a data source, between
fixed mappings of names that stand for themselves.  Broadcast tables restrict the data sources, in
whatever order the two rules are applied.

Main results:

- Theorem `Route.Offers.narrow_broadcast`: broadcast tables narrow the units of sharded ones.
- Theorem `Route.narrow_sharded`: sharded tables narrow the units of broadcast ones.
-/

namespace ShardedSql

open ShardingRule

section Chosen

variable {selections : List Selection}

/-- A choice maps the selected tables. -/
theorem maps_chosen {choice : ShardedTable → DataNode} {t : String} :
    Maps (chosen selections choice) t ↔ ∃ s ∈ selections, Text.alike s.1.name t = true := by
  constructor
  · rintro ⟨m, hm, halike⟩
    rcases List.mem_map.mp hm with ⟨s, hs, rfl⟩
    exact ⟨s, hs, halike⟩
  · rintro ⟨s, hs, halike⟩
    exact ⟨_, List.mem_map_of_mem hs, halike⟩

/-- The names of a choice are distinct, since the tables are apart. -/
theorem distinctNames_chosen (hapart : Apart selections) (choice : ShardedTable → DataNode) :
    DistinctNames (chosen selections choice) :=
  List.pairwise_map.mpr hapart

/-- What a choice maps the name of a sharded table to. -/
theorem findMapping?_chosen (hapart : Apart selections) (choice : ShardedTable → DataNode)
    {s : Selection} (hs : s ∈ selections) {t : String} (ht : Text.alike s.1.name t = true) :
    findMapping? (chosen selections choice) t = some ⟨s.1.name, (choice s.1).table⟩ := by
  rw [← findMapping?_congr _ ht]
  exact findMapping?_of_mem (distinctNames_chosen hapart choice) (List.mem_map_of_mem hs)

end Chosen

namespace Route

/-- The units of a route are the choices of nodes on the allowed data sources, each once, between
fixed mappings. -/
structure Offers (route : Route) (selections : List Selection) (before after : List Mapping)
    (allowed : String → Prop) : Prop where
  nodup : route.units.Nodup
  mem_iff : ∀ u, u ∈ route.units ↔ ∃ dataSource choice, allowed dataSource ∧
    Chooses selections dataSource choice ∧
    u = { dataSource := .identity dataSource
          tables := before ++ chosen selections choice ++ after }

/-- Some choice of nodes is on an allowed data source. -/
def Reachable (selections : List Selection) (allowed : String → Prop) : Prop :=
  ∃ dataSource choice, allowed dataSource ∧ Chooses selections dataSource choice

/-- A route that offers the choices has units exactly if one of them is reachable. -/
theorem Offers.units_ne_nil_iff {route : Route} {selections : List Selection}
    {before after : List Mapping} {allowed : String → Prop}
    (h : route.Offers selections before after allowed) :
    route.units ≠ [] ↔ Reachable selections allowed := by
  refine ⟨?_, ?_⟩
  · intro hne
    rcases List.exists_mem_of_ne_nil _ hne with ⟨u, hu⟩
    rcases (h.mem_iff u).mp hu with ⟨dataSource, choice, hallowed, hchooses, -⟩
    exact ⟨dataSource, choice, hallowed, hchooses⟩
  · rintro ⟨dataSource, choice, hallowed, hchooses⟩ hnil
    have hmem := (h.mem_iff _).mpr ⟨dataSource, choice, hallowed, hchooses, rfl⟩
    rw [hnil] at hmem
    cases hmem

/-- The units of sharded tables alone. -/
theorem offers_unitsOf {selections : List Selection} (hapart : Apart selections)
    (hsome : selections ≠ []) :
    (ofUnits (unitsOf selections)).Offers selections [] [] fun _ => True := by
  refine ⟨nodup_ofUnits _, ?_⟩
  intro u
  rw [mem_ofUnits, mem_unitsOf hapart hsome]
  simp

/-- Units of broadcast tables: the same names on every data source. -/
def copies (dataSources names : List String) : List RouteUnit :=
  dataSources.map fun ds => { dataSource := .identity ds, tables := identities names }

/-- Data sources that are not renamed pair when they are the same, and then they agree. -/
theorem pairsWith_identity {u c : RouteUnit} {a b : String} (hu : u.dataSource = .identity a)
    (hc : c.dataSource = .identity b) :
    (u.pairsWith c = true ↔ b = a) ∧
      (b = a → mergeDataSources u.dataSource c.dataSource = .ok (.identity a)) := by
  refine ⟨?_, ?_⟩
  · simp [RouteUnit.pairsWith, hu, hc, Mapping.identity]
  · rintro rfl
    simp [mergeDataSources, hu, hc, Mapping.identity]

/-- The pairs of a route are its units with the candidates that pair with them. -/
theorem mem_pairs {r : Route} {candidates : List RouteUnit} {pair : RouteUnit × RouteUnit} :
    pair ∈ r.pairs candidates ↔
      pair.1 ∈ r.units ∧ pair.2 ∈ candidates ∧ pair.1.pairsWith pair.2 = true := by
  rcases pair with ⟨u, c⟩
  simp only [pairs, List.mem_flatMap, List.mem_map, List.mem_filter, Prod.mk.injEq]
  constructor
  · rintro ⟨u', hu', c', ⟨hc', hpair⟩, rfl, rfl⟩
    exact ⟨hu', hc', hpair⟩
  · rintro ⟨hu, hc, hpair⟩
    exact ⟨u, hu, c, ⟨hc, hpair⟩, rfl, rfl⟩

/-- Narrowing fails for want of common targets. -/
def Disjoint (outcome : Except Fault Route) : Prop :=
  ∃ cause, outcome = .error (.routing cause)

section Narrowing

variable {selections : List Selection} {names dataSources : List String}

/-- None of the names is that of a sharded table. -/
def Fresh (selections : List Selection) (names : List String) : Prop :=
  ∀ name ∈ names, ∀ s ∈ selections, Text.alike s.1.name name = false

/-- A fresh name is mapped by no choice. -/
theorem Fresh.not_maps (h : Fresh selections names) (choice : ShardedTable → DataNode)
    {name : String} (hname : name ∈ names) : ¬ Maps (chosen selections choice) name := by
  rw [maps_chosen]
  rintro ⟨s, hs, halike⟩
  rw [h name hname s hs] at halike
  cases halike

/-- Which names are new does not depend on mappings of others. -/
theorem newNames_append {ms : List Mapping} (ks : List Mapping)
    (h : ∀ name ∈ names, ¬ Maps ms name) : newNames (ms ++ ks) names = newNames ks names := by
  induction names generalizing ks with
  | nil => rfl
  | cons name names ih =>
      have hnone : findMapping? ms name = none :=
        findMapping?_eq_none.mpr (h name List.mem_cons_self)
      have hrest := fun ks => ih ks fun n hn => h n (List.mem_cons_of_mem _ hn)
      rw [newNames, newNames, findMapping?_append, hnone, Option.none_or, List.append_assoc, hrest,
        hrest]

/-- The outcome of narrowing a route: the units of all pairs, of which there has to be one. -/
theorem narrow_cases {r : Route} {candidates : List RouteUnit}
    (merge : RouteUnit × RouteUnit → RouteUnit) (hr : r.units ≠ [])
    (hmerge : ∀ pair ∈ r.pairs candidates,
      mergeDataSources pair.1.dataSource pair.2.dataSource = .ok (merge pair).dataSource ∧
      mergeMappings pair.1.tables pair.2.tables = some (merge pair).tables) (rule : String)
    {before after : List Mapping} {allowed : String → Prop}
    (hmem : ∀ u, (∃ pair ∈ r.pairs candidates, merge pair = u) ↔ ∃ dataSource choice,
      allowed dataSource ∧ Chooses selections dataSource choice ∧
      u = { dataSource := .identity dataSource
            tables := before ++ chosen selections choice ++ after }) :
    (∃ narrowed, r.narrow candidates rule = .ok narrowed ∧
      narrowed.Offers selections before after allowed ∧ Reachable selections allowed) ∨
    Disjoint (r.narrow candidates rule) ∧ ¬ Reachable selections allowed := by
  rw [narrow_eq hr hmerge]
  by_cases hpairs : r.pairs candidates = []
  · rw [if_pos hpairs]
    refine .inr ⟨⟨_, rfl⟩, ?_⟩
    rintro ⟨dataSource, choice, hallowed, hchooses⟩
    rcases (hmem _).mpr ⟨dataSource, choice, hallowed, hchooses, rfl⟩ with ⟨pair, hpair, -⟩
    rw [hpairs] at hpair
    cases hpair
  · rw [if_neg hpairs]
    have hoffers : (ofUnits ((r.pairs candidates).map merge)).Offers selections before after
        allowed := by
      refine ⟨nodup_ofUnits _, ?_⟩
      intro u
      rw [mem_ofUnits, List.mem_map]
      exact hmem u
    refine .inl ⟨_, rfl, hoffers, hoffers.units_ne_nil_iff.mp ?_⟩
    rw [units_ofUnits, Ne, distinctly_eq_nil, List.map_eq_nil_iff]
    exact hpairs

variable (dataSources) in
/-- Broadcast tables narrow the units of sharded ones to the data sources that hold them. -/
theorem Offers.narrow_broadcast {r : Route} (h : r.Offers selections [] [] fun _ => True)
    (hr : r.units ≠ []) (hfresh : Fresh selections names) (rule : String) :
    (∃ narrowed, r.narrow (copies dataSources names) rule = .ok narrowed ∧
      narrowed.Offers selections [] (identities (newNames [] names)) (· ∈ dataSources) ∧
      Reachable selections (· ∈ dataSources)) ∨
    Disjoint (r.narrow (copies dataSources names) rule) ∧
      ¬ Reachable selections (· ∈ dataSources) := by
  have hpairs : ∀ pair, pair ∈ r.pairs (copies dataSources names) ↔
      ∃ dataSource choice, dataSource ∈ dataSources ∧ Chooses selections dataSource choice ∧
        pair = ({ dataSource := .identity dataSource, tables := chosen selections choice },
          { dataSource := .identity dataSource, tables := identities names }) := by
    intro pair
    rcases pair with ⟨u, c⟩
    rw [mem_pairs, h.mem_iff, copies, List.mem_map]
    constructor
    · rintro ⟨⟨a, choice, -, hchooses, rfl⟩, ⟨b, hb, rfl⟩, hpair⟩
      have hsame : b = a := (pairsWith_identity rfl rfl).1.mp hpair
      subst hsame
      exact ⟨b, choice, hb, hchooses, by simp⟩
    · rintro ⟨a, choice, ha, hchooses, heq⟩
      cases heq
      exact ⟨⟨a, choice, trivial, hchooses, by simp⟩, ⟨a, ha, rfl⟩,
        (pairsWith_identity rfl rfl).1.mpr rfl⟩
  apply narrow_cases
    (fun pair => { pair.1 with tables := pair.1.tables ++ identities (newNames [] names) }) hr
  · intro pair hpair
    rcases (hpairs pair).mp hpair with ⟨a, choice, -, -, rfl⟩
    refine ⟨(pairsWith_identity rfl rfl).2 rfl, ?_⟩
    have hnew : newNames (chosen selections choice) names = newNames [] names := by
      have hnone : ∀ name ∈ names, ¬ Maps (chosen selections choice) name :=
        fun name hname => hfresh.not_maps choice hname
      have hnew := newNames_append [] hnone
      rwa [List.append_nil] at hnew
    rw [mergeMappings_identities, hnew]
  · intro u
    constructor
    · rintro ⟨pair, hpair, rfl⟩
      rcases (hpairs pair).mp hpair with ⟨a, choice, ha, hchooses, rfl⟩
      exact ⟨a, choice, ha, hchooses, by simp⟩
    · rintro ⟨a, choice, ha, hchooses, rfl⟩
      exact ⟨_, (hpairs _).mpr ⟨a, choice, ha, hchooses, rfl⟩, by simp⟩

/-- Sharded tables narrow the units of broadcast ones to the choices of nodes. -/
theorem narrow_sharded (hapart : Apart selections) (hsome : selections ≠ [])
    (hfresh : Fresh selections names) (hdataSources : dataSources ≠ []) (rule : String) :
    (∃ narrowed, (ofUnits (copies dataSources names)).narrow (unitsOf selections) rule =
        .ok narrowed ∧
      narrowed.Offers selections (identities names) [] (· ∈ dataSources) ∧
      Reachable selections (· ∈ dataSources)) ∨
    Disjoint ((ofUnits (copies dataSources names)).narrow (unitsOf selections) rule) ∧
      ¬ Reachable selections (· ∈ dataSources) := by
  have hpairs : ∀ pair, pair ∈ (ofUnits (copies dataSources names)).pairs (unitsOf selections) ↔
      ∃ dataSource choice, dataSource ∈ dataSources ∧ Chooses selections dataSource choice ∧
        pair = ({ dataSource := .identity dataSource, tables := identities names },
          { dataSource := .identity dataSource, tables := chosen selections choice }) := by
    intro pair
    rcases pair with ⟨u, c⟩
    rw [mem_pairs, mem_ofUnits, mem_unitsOf hapart hsome, copies, List.mem_map]
    constructor
    · rintro ⟨⟨b, hb, rfl⟩, ⟨a, choice, hchooses, rfl⟩, hpair⟩
      have hsame : a = b := (pairsWith_identity rfl rfl).1.mp hpair
      subst hsame
      exact ⟨a, choice, hb, hchooses, rfl⟩
    · rintro ⟨a, choice, ha, hchooses, heq⟩
      cases heq
      exact ⟨⟨a, ha, rfl⟩, ⟨a, choice, hchooses, rfl⟩, (pairsWith_identity rfl rfl).1.mpr rfl⟩
  apply narrow_cases
    (fun pair => { pair.1 with tables := pair.1.tables ++ pair.2.tables })
  · rw [units_ofUnits, Ne, distinctly_eq_nil, copies, List.map_eq_nil_iff]
    exact hdataSources
  · intro pair hpair
    rcases (hpairs pair).mp hpair with ⟨a, choice, -, -, rfl⟩
    refine ⟨(pairsWith_identity rfl rfl).2 rfl, ?_⟩
    apply mergeMappings_new
    · rintro n hn ⟨m, hm, halike⟩
      rcases List.mem_map.mp hn with ⟨s, hs, rfl⟩
      rcases mem_identities.mp hm with ⟨name, hname, rfl⟩
      have hnot := hfresh name hname s hs
      rw [Text.alike_comm] at hnot
      rw [show Text.alike (Mapping.identity name).logical s.1.name = false from hnot] at halike
      cases halike
    · exact distinctNames_chosen hapart choice
  · intro u
    constructor
    · rintro ⟨pair, hpair, rfl⟩
      rcases (hpairs pair).mp hpair with ⟨a, choice, ha, hchooses, rfl⟩
      exact ⟨a, choice, ha, hchooses, by simp⟩
    · rintro ⟨a, choice, ha, hchooses, rfl⟩
      exact ⟨_, (hpairs _).mpr ⟨a, choice, ha, hchooses, rfl⟩, by simp⟩

end Narrowing

end Route

end ShardedSql
