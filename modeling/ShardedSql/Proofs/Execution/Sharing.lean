import Mathlib.Data.Int.CardIntervalMod
import ShardedSql.Proofs.Execution.Dealing

/-!
# Units shared out evenly

Apart from their connections, the lanes of a statement are fixed by its units: each data source gets
as many lanes as it has units, up to a bound, and its units are dealt out over them.  They come to
the lanes in turn, so that no lane has two units more than another one of the same data source, and
on every lane the units keep their order.

Main results:

- Theorem `length_of_mem_deal`: how many entries a hand has.
- Theorem `LaneLimits.openEach_eq_ok`: lanes that are opened, and the connections acquired for them.
- Theorem `LaneLimits.openFor_sharesOut`: what lanes are opened for units.
-/

namespace ShardedSql

/-! ## Hands -/

/-- The places below a bound that come to one hand. -/
theorem length_filter_range_mod {n hand : Nat} (hhand : hand < n) (length : Nat) :
    ((List.range length).filter fun place => place % n == hand).length =
      length / n + if hand < length % n then 1 else 0 := by
  have hn : 0 < n := Nat.zero_lt_of_lt hhand
  have hcount : ((List.range length).filter fun place => place % n == hand).length =
      Nat.count (· ≡ hand [MOD n]) length := by
    induction length with
    | zero => rfl
    | succ length ih =>
        rw [List.range_succ, List.filter_append, List.length_append, ih, Nat.count_succ]
        by_cases hlast : length % n = hand <;>
          simp [Nat.ModEq, Nat.mod_eq_of_lt hhand, hlast]
  rw [hcount, Nat.count_modEq_card length hn, Nat.mod_eq_of_lt hhand]

/-- Every hand has the same number of entries, or one more. -/
theorem length_of_mem_deal {α : Type} {n : Nat} {entries hand : List α}
    (hmem : hand ∈ deal n entries) :
    hand.length = entries.length / n ∨ hand.length = entries.length / n + 1 := by
  rcases List.mem_map.mp hmem with ⟨position, hposition, rfl⟩
  have hplaces : (entries.zipIdx.filter fun x => x.2 % n == position).length =
      ((List.range entries.length).filter fun place => place % n == position).length := by
    have hall : entries.zipIdx.map (·.2) = List.range entries.length :=
      (List.zipIdx_map_snd 0 entries).trans (List.range_eq_range' ..).symm
    rw [← hall, List.filter_map, List.length_map]
    rfl
  have hlength := length_filter_range_mod (List.mem_range.mp hposition) entries.length
  rw [← hplaces] at hlength
  rw [List.length_map]
  show (entries.zipIdx.filter fun x => x.2 % n == position).length = _ ∨
    (entries.zipIdx.filter fun x => x.2 % n == position).length = _
  rw [hlength]
  split
  · exact .inr rfl
  · exact .inl rfl

/-- The entries of a hand keep their order. -/
theorem sublist_of_mem_deal {α : Type} {n : Nat} {entries hand : List α}
    (hmem : hand ∈ deal n entries) : hand.Sublist entries := by
  rcases List.mem_map.mp hmem with ⟨position, -, rfl⟩
  have hentries : entries.zipIdx.map (·.1) = entries := List.zipIdx_map_fst 0 entries
  conv => rhs; rw [← hentries]
  exact List.filter_sublist.map _

/-- Units are dealt to as many lanes as there are. -/
theorem length_deal {α : Type} (n : Nat) (entries : List α) : (deal n entries).length = n := by
  rw [deal, List.length_map, List.length_range]

/-! ## Lanes apart from their connections -/

/-- A lane apart from its connection. -/
structure Share (υ : Type) where
  dataSource : String
  mode : ConnectionMode
  units : List (Nat × υ)

/-- What a lane is apart from its connection. -/
def Lane.share {υ : Type} (lane : Lane υ) : Share υ :=
  { dataSource := lane.dataSource, mode := lane.mode, units := lane.units }

/-- The acquisition of the connection of a lane. -/
def Lane.acquisition {υ : Type} (lane : Lane υ) : Event :=
  .acquired lane.dataSource lane.connection

namespace LaneLimits

variable {υ : Type} (limits : LaneLimits) {b : Backend}

/-- The most lanes that a data source gets. -/
def most : Nat := max 1 limits.maxConnections

/-- The shares of the entries of a data source. -/
def shares (group : String × List (Nat × υ)) : List (Share υ) :=
  (deal (limits.plan group.2.length).1 group.2).map fun units =>
    { dataSource := group.1, mode := (limits.plan group.2.length).2, units }

/-- There is a lane for each unit up to the most that are allowed. -/
theorem plan_fst (n : Nat) : (limits.plan n).1 = min n limits.most := by
  unfold plan most
  by_cases hle : n ≤ max 1 limits.maxConnections
  · simp only [hle, if_true, Nat.min_eq_left]
  · simp only [hle, if_false, Nat.min_eq_right (Nat.le_of_lt (Nat.lt_of_not_le hle))]

/-- Units have connections of their own as long as there are enough. -/
theorem plan_snd (n : Nat) : (limits.plan n).2 = .perUnit ↔ n ≤ limits.most := by
  unfold plan most
  by_cases hle : n ≤ max 1 limits.maxConnections
  · simp only [hle, if_true]
  · simp only [hle, if_false, reduceCtorEq]

/-- Each connection at hand has been acquired, and nothing else has happened. -/
theorem acquire_eq_ok {dataSource : String} {n : Nat} {atHand connections : List ConnectionId}
    {h h' : History} (hok : limits.acquire b dataSource n atHand h = (.ok connections, h')) :
    ∃ acquired, connections = atHand ++ acquired ∧
      h' = h ++ acquired.map (.acquired dataSource) := by
  induction n generalizing atHand h with
  | zero =>
      cases hok
      exact ⟨[], (List.append_nil _).symm, (List.append_nil _).symm⟩
  | succ n ih =>
      rcases Action.bind_eq_ok.mp hok with ⟨connection, h₁, hfirst, hothers⟩
      have hacquired := Action.onFault_eq_ok.mp hfirst
      unfold Backend.acquireWithin at hacquired
      rcases ih hothers with ⟨acquired, rfl, rfl⟩
      cases hgrant : b.acquire h dataSource with
      | granted granted =>
          rw [hgrant] at hacquired
          cases hacquired
          exact ⟨connection :: acquired, List.append_assoc .., List.append_assoc ..⟩
      | refused _ | silent =>
          rw [hgrant] at hacquired
          cases hacquired

/-- The lanes of one data source, and the connections acquired for them. -/
theorem openOn_eq_ok {dataSource : String} {entries : List (Nat × υ)} {lanes : List (Lane υ)}
    {h h' : History} (hok : limits.openOn b dataSource entries h = (.ok lanes, h')) :
    lanes.map Lane.share = limits.shares (dataSource, entries) ∧
      h' = h ++ lanes.map Lane.acquisition := by
  rcases Action.bind_eq_ok.mp hok with ⟨connections, h₁, hacquired, hlanes⟩
  have hlength : connections.length = (deal (limits.plan entries.length).1 entries).length := by
    rw [length_deal, limits.length_of_acquire b hacquired]
    exact Nat.zero_add _
  rcases limits.acquire_eq_ok hacquired with ⟨_, rfl, rfl⟩
  cases hlanes
  constructor
  · have hhands := List.map_snd_zip (Nat.le_of_eq hlength.symm)
    rw [List.map_map, shares, ← hhands, List.map_map]
    rfl
  · have hconnections := List.map_fst_zip (Nat.le_of_eq hlength)
    rw [List.map_map]
    conv => lhs; rw [← List.nil_append (List.map _ _), ← hconnections]
    rw [List.map_map]
    rfl

/-- The lanes of several data sources, and the connections acquired for them. -/
theorem openEach_eq_ok {groups : List (String × List (Nat × υ))} {opened lanes : List (Lane υ)}
    {h h' : History} (hok : limits.openEach b groups opened h = (.ok lanes, h')) :
    ∃ others, lanes = opened ++ others ∧ others.map Lane.share = groups.flatMap limits.shares ∧
      h' = h ++ others.map Lane.acquisition := by
  induction groups generalizing opened h with
  | nil =>
      cases hok
      exact ⟨[], (List.append_nil _).symm, rfl, (List.append_nil _).symm⟩
  | cons group groups ih =>
      rcases Action.bind_eq_ok.mp hok with ⟨first, h₁, hfirst, hothers⟩
      rcases limits.openOn_eq_ok (Action.onFault_eq_ok.mp hfirst) with ⟨hshares, rfl⟩
      rcases ih hothers with ⟨others, rfl, hrest, rfl⟩
      refine ⟨first ++ others, List.append_assoc .., ?_, ?_⟩
      · rw [List.map_append, hshares, hrest, List.flatMap_cons]
      · rw [List.map_append, List.append_assoc]

end LaneLimits

/-! ## Entries of a data source -/

section

variable {υ : Type} (dataSource : υ → String) (units : List υ)

/-- The units of a data source, each with its place. -/
def entriesOn (ds : String) : List (Nat × υ) :=
  (placed units).filter fun x => dataSource x.2 == ds

/-- Groups are listed in the order of the first units on their data sources. -/
theorem byDataSource_eq :
    byDataSource dataSource units =
      (distinctly (units.map dataSource)).map fun ds => (ds, entriesOn dataSource units ds) := rfl

theorem length_entriesOn (ds : String) :
    (entriesOn dataSource units ds).length = (units.map dataSource).count ds := by
  have hunits : units.map dataSource = (placed units).map fun x => dataSource x.2 := by
    conv => lhs; rw [← map_snd_placed units]
    exact List.map_map
  rw [hunits, List.count, List.countP_map, List.countP_eq_length_filter]
  rfl

/-- The places of the units of a data source increase. -/
theorem pairwise_entriesOn (ds : String) :
    ((entriesOn dataSource units ds).map (·.1)).Pairwise (· < ·) := by
  have hplaces : ((placed units).map (·.1)).Pairwise (· < ·) := by
    rw [map_fst_placed]
    exact List.pairwise_lt_range
  exact hplaces.sublist (List.filter_sublist.map _)

end

/-! ## Lanes -/

/-- Lanes share out the units of a statement, with at most so many lanes for each data source. -/
structure Lane.SharesOut {υ : Type} (dataSource : υ → String) (units : List υ) (most : Nat)
    (lanes : List (Lane υ)) : Prop where
  places : ((lanes.flatMap (·.units)).map (·.1)).Perm (List.range units.length)
  unit_eq : ∀ lane ∈ lanes, ∀ x ∈ lane.units, units[x.1]? = some x.2
  increasing : ∀ lane ∈ lanes, (lane.units.map (·.1)).Pairwise (· < ·)
  own : ∀ lane ∈ lanes, ∀ x ∈ lane.units, dataSource x.2 = lane.dataSource
  nonempty : ∀ lane ∈ lanes, lane.units ≠ []
  /-- Data sources come in the order of their first units, each with as many lanes as it has units,
  if these are not too many. -/
  dataSources : lanes.map (·.dataSource) = (distinctly (units.map dataSource)).flatMap fun ds =>
    List.replicate (min ((units.map dataSource).count ds) most) ds
  /-- No lane has two units more than another one of its data source. -/
  even : ∀ lane ∈ lanes, ∀ other ∈ lanes, lane.dataSource = other.dataSource →
    lane.units.length ≤ other.units.length + 1
  /-- Units share connections exactly when there are too many of them on a data source. -/
  mode : ∀ lane ∈ lanes,
    lane.mode = .perUnit ↔ (units.map dataSource).count lane.dataSource ≤ most

namespace LaneLimits

variable {υ : Type} (limits : LaneLimits) {b : Backend} {dataSource : υ → String} {units : List υ}
  {lanes : List (Lane υ)}

/-- What a lane is, given the units of its data source. -/
theorem exists_of_mem_lanes
    (hshares : lanes.map Lane.share = (byDataSource dataSource units).flatMap limits.shares)
    {lane : Lane υ} (hlane : lane ∈ lanes) :
    lane.dataSource ∈ units.map dataSource ∧
      lane.mode = (limits.plan ((units.map dataSource).count lane.dataSource)).2 ∧
      lane.units ∈ deal (min ((units.map dataSource).count lane.dataSource) limits.most)
        (entriesOn dataSource units lane.dataSource) := by
  have hmem : lane.share ∈ (byDataSource dataSource units).flatMap limits.shares :=
    hshares ▸ List.mem_map_of_mem hlane
  rcases List.mem_flatMap.mp hmem with ⟨group, hgroup, hshare⟩
  rw [byDataSource_eq] at hgroup
  rcases List.mem_map.mp hgroup with ⟨ds, hds, rfl⟩
  rcases List.mem_map.mp hshare with ⟨hand, hhand, heq⟩
  have hds' : lane.dataSource = ds := (congrArg Share.dataSource heq).symm
  have hmode : _ = lane.mode := congrArg Share.mode heq
  have hunits : hand = lane.units := congrArg Share.units heq
  rw [length_entriesOn] at hmode hhand
  rw [plan_fst] at hhand
  rw [hds']
  exact ⟨mem_distinctly.mp hds, hmode.symm, hunits ▸ hhand⟩

/-- The data sources of the lanes. -/
theorem map_dataSource_lanes
    (hshares : lanes.map Lane.share = (byDataSource dataSource units).flatMap limits.shares) :
    lanes.map (·.dataSource) = (distinctly (units.map dataSource)).flatMap fun ds =>
      List.replicate (min ((units.map dataSource).count ds) limits.most) ds := by
  have hall := congrArg (List.map Share.dataSource) hshares
  rw [List.map_map, List.map_flatMap, byDataSource_eq, List.flatMap_map] at hall
  refine hall.trans (List.flatMap_congr fun ds _ => ?_)
  rw [shares, List.map_map, ← length_entriesOn, ← plan_fst]
  refine List.eq_replicate_iff.mpr ⟨?_, ?_⟩
  · rw [List.length_map, length_deal]
  · intro name hname
    rcases List.mem_map.mp hname with ⟨_, -, rfl⟩
    rfl

/-- Lanes with the shares of units share them out. -/
theorem sharesOut
    (hshares : lanes.map Lane.share = (byDataSource dataSource units).flatMap limits.shares)
    (hhold : Lane.Hold dataSource lanes (placed units)) :
    Lane.SharesOut dataSource units limits.most lanes := by
  have hlane := fun (lane : Lane υ) (hmem : lane ∈ lanes) =>
    limits.exists_of_mem_lanes hshares hmem
  have hlength : ∀ lane ∈ lanes, lane.units.length =
        (units.map dataSource).count lane.dataSource /
          min ((units.map dataSource).count lane.dataSource) limits.most ∨
      lane.units.length =
        (units.map dataSource).count lane.dataSource /
          min ((units.map dataSource).count lane.dataSource) limits.most + 1 := by
    intro lane hmem
    have hdealt := length_of_mem_deal (hlane lane hmem).2.2
    rwa [length_entriesOn] at hdealt
  refine ⟨?_, ?_, ?_, hhold.own, ?_, limits.map_dataSource_lanes hshares, ?_, ?_⟩
  · exact map_fst_placed units ▸ hhold.units.map (·.1)
  · intro lane hmem x hx
    exact mem_placed units |>.mp (hhold.units.mem_iff.mp (List.mem_flatMap.mpr ⟨lane, hmem, hx⟩))
  · intro lane hmem
    exact (pairwise_entriesOn dataSource units lane.dataSource).sublist
      ((sublist_of_mem_deal (hlane lane hmem).2.2).map _)
  · -- There are no more lanes than units.
    intro lane hmem hnil
    have hpos : 0 < (units.map dataSource).count lane.dataSource :=
      List.count_pos_iff.mpr (hlane lane hmem).1
    have hmost : 0 < limits.most := Nat.le_max_left 1 limits.maxConnections
    have hone := Nat.div_pos (Nat.min_le_left _ limits.most) (Nat.lt_min.mpr ⟨hpos, hmost⟩)
    have hdealt := hlength lane hmem
    rw [hnil, List.length_nil] at hdealt
    omega
  · intro lane hmem other hother hsame
    have hdealt := hlength lane hmem
    have hdealtOther := hlength other hother
    rw [← hsame] at hdealtOther
    omega
  · intro lane hmem
    rw [(hlane lane hmem).2.1]
    exact limits.plan_snd _

/-- Where all connections are granted, one is acquired for each lane, and the lanes share out the
units. -/
theorem openFor_sharesOut (hgrants : b.GrantsAll) (dataSource : υ → String) (units : List υ)
    (h : History) :
    ∃ lanes, limits.openFor b dataSource units h =
        (.ok lanes, h ++ lanes.map Lane.acquisition) ∧
      Lane.SharesOut dataSource units (max 1 limits.maxConnections) lanes := by
  rcases limits.openFor_granted hgrants dataSource units h with ⟨lanes, h', hlanes, -, hhold⟩
  rcases limits.openEach_eq_ok hlanes with ⟨others, hothers, hshares, rfl⟩
  rw [List.nil_append] at hothers
  subst hothers
  exact ⟨_, hlanes, limits.sharesOut hshares hhold⟩

/-- A backend that numbers the connections that it grants. -/
def numbering : Backend where
  acquire h _ := .granted h.acquired.length
  query _ _ := .error "no rows"
  update _ _ := .error "no rows"
  control _ _ := .ok ()
  inTransaction _ := false
  elapsed _ := 0

/-- Reads of four tables, three of them on one data source. -/
def tableReads : List ExecutionUnit :=
  [⟨"ds_0", ⟨"SELECT * FROM t_order_0", []⟩⟩, ⟨"ds_1", ⟨"SELECT * FROM t_order_1", []⟩⟩,
    ⟨"ds_0", ⟨"SELECT * FROM t_order_2", []⟩⟩, ⟨"ds_0", ⟨"SELECT * FROM t_order_4", []⟩⟩]

/-- With at most two connections to each data source, the first and the last read share one. -/
theorem openFor_sharesOut_tableReads :
    numbering.GrantsAll ∧ ∃ lanes,
      (⟨2, 1000⟩ : LaneLimits).openFor numbering (·.dataSource) tableReads [] =
        (.ok lanes, lanes.map Lane.acquisition) ∧
      (lanes.map fun lane => (lane.dataSource, lane.connection, lane.units.map (·.1))) =
        [("ds_0", 0, [0, 3]), ("ds_0", 1, [2]), ("ds_1", 2, [1])] ∧
      Lane.SharesOut (·.dataSource) tableReads 2 lanes := by
  have hgrants : numbering.GrantsAll := fun h _ => ⟨h.acquired.length, rfl⟩
  rcases openFor_sharesOut ⟨2, 1000⟩ hgrants (·.dataSource) tableReads [] with
    ⟨lanes, hlanes, hshares⟩
  have hok : (.ok lanes : Except Fault (List (Lane ExecutionUnit))) =
      ((⟨2, 1000⟩ : LaneLimits).openFor numbering (·.dataSource) tableReads []).1 :=
    (congrArg Prod.fst hlanes).symm
  refine ⟨hgrants, lanes, hlanes, ?_, hshares⟩
  cases hok
  rfl

end LaneLimits

end ShardedSql
