import Mathlib.Data.List.Perm.Basic
import ShardedSql.Proofs.Distinctly
import ShardedSql.Proofs.Execution.Acquisition

/-!
# Units dealt out over lanes

The units of a statement are sorted by data source and dealt out over the connections of each.  As
long as all connections are granted, every unit comes to one lane, which is one of its data source.

Main results:

- Theorems `byDataSource_perm` and `deal_perm`: sorting and dealing out lose and repeat nothing.
- Theorem `LaneLimits.openFor_granted`: lanes are opened for all units, each on its data source.
-/

namespace ShardedSql

/-- Sorting by a key, and putting what belongs to each key one after the other, is a permutation. -/
theorem flatMap_filter_perm {α κ : Type} [DecidableEq κ] (key : α → κ) {keys : List κ}
    (hkeys : keys.Nodup) (entries : List α) (hmem : ∀ x ∈ entries, key x ∈ keys) :
    (keys.flatMap fun k => entries.filter fun x => key x == k).Perm entries := by
  induction keys generalizing entries with
  | nil =>
      have hnil : entries = [] := List.eq_nil_iff_forall_not_mem.mpr fun x hx => by
        cases hmem x hx
      rw [hnil]
      exact .refl _
  | cons k keys ih =>
      rw [List.nodup_cons] at hkeys
      have hothers : (keys.flatMap fun k' => entries.filter fun x => key x == k') =
          keys.flatMap fun k' => (entries.filter fun x => !(key x == k)).filter fun x =>
            key x == k' := by
        apply List.flatMap_congr
        intro k' hk'
        have hne : k' ≠ k := fun heq => hkeys.1 (heq ▸ hk')
        rw [List.filter_filter]
        apply List.filter_congr
        intro x _
        by_cases hx : key x = k'
        · simp [hx, hne]
        · simp [hx]
      have hrest : ∀ x ∈ entries.filter fun x => !(key x == k), key x ∈ keys := by
        intro x hx
        rcases List.mem_filter.mp hx with ⟨hx, hne⟩
        rcases List.mem_cons.mp (hmem x hx) with heq | hmem
        · simp [heq] at hne
        · exact hmem
      rw [List.flatMap_cons, hothers]
      exact ((ih hkeys.2 _ hrest).append_left _).trans
        (List.filter_append_perm (fun x => key x == k) entries)

/-- Entries that are dealt out are all in some hand, each once. -/
theorem deal_perm {α : Type} {n : Nat} (hn : 0 < n) (entries : List α) :
    (deal n entries).flatten.Perm entries := by
  have hhands : (deal n entries).flatten = ((List.range n).flatMap fun hand =>
      entries.zipIdx.filter fun x => x.2 % n == hand).map (·.1) := by
    rw [deal, List.map_flatMap]
    rfl
  have hsorted := flatMap_filter_perm (fun x : α × Nat => x.2 % n) List.nodup_range
    entries.zipIdx fun x _ => List.mem_range.mpr (Nat.mod_lt x.2 hn)
  rw [hhands]
  have hentries : entries.zipIdx.map (·.1) = entries := List.zipIdx_map_fst 0 entries
  conv => rhs; rw [← hentries]
  exact hsorted.map _

section

variable {υ : Type} (dataSource : υ → String) (units : List υ)

/-- The units of a statement, each with its place. -/
def placed (units : List υ) : List (Nat × υ) :=
  units.zipIdx.map fun (u, place) => (place, u)

/-- The units sorted by data source are all there, each once. -/
theorem byDataSource_perm :
    ((byDataSource dataSource units).flatMap (·.2)).Perm (placed units) := by
  have hsorted := flatMap_filter_perm (fun x : Nat × υ => dataSource x.2)
    (nodup_distinctly (units.map dataSource)) (placed units) ?_
  · rw [byDataSource, List.flatMap_map]
    exact hsorted
  · intro x hx
    rcases List.mem_map.mp hx with ⟨⟨u, place⟩, hmem, rfl⟩
    rw [mem_distinctly]
    exact List.mem_map_of_mem (List.fst_mem_of_mem_zipIdx hmem)

/-- The units of a group are on its data source. -/
theorem dataSource_of_mem_byDataSource {group : String × List (Nat × υ)}
    (hgroup : group ∈ byDataSource dataSource units) :
    ∀ x ∈ group.2, dataSource x.2 = group.1 := by
  rcases List.mem_map.mp hgroup with ⟨ds, -, rfl⟩
  intro x hx
  simpa using (List.mem_filter.mp hx).2

/-- The places are counted from zero. -/
theorem map_fst_placed : (placed units).map (·.1) = List.range units.length := by
  rw [placed, List.map_map]
  exact List.zipIdx_map_snd 0 units |>.trans (List.range_eq_range' ..).symm

theorem map_snd_placed : (placed units).map (·.2) = units := by
  rw [placed, List.map_map]
  exact List.zipIdx_map_fst 0 units

/-- A unit is placed where it stands in the list. -/
theorem mem_placed {place : Nat} {u : υ} :
    (place, u) ∈ placed units ↔ units[place]? = some u := by
  simp [placed, List.mem_zipIdx_iff_getElem?]

end

/-! ## Granted connections -/

/-- Every connection that is asked for is granted. -/
def Backend.GrantsAll (b : Backend) : Prop :=
  ∀ h dataSource, ∃ connection, b.acquire h dataSource = .granted connection

/-- Lanes that hold given entries, each once and on its own data source. -/
structure Lane.Hold {υ : Type} (dataSource : υ → String) (lanes : List (Lane υ))
    (entries : List (Nat × υ)) : Prop where
  units : (lanes.flatMap (·.units)).Perm entries
  own : ∀ lane ∈ lanes, ∀ x ∈ lane.units, dataSource x.2 = lane.dataSource

/-- Lanes that hold entries, and others that hold others, together hold all of them. -/
theorem Lane.Hold.append {υ : Type} {dataSource : υ → String} {lanes others : List (Lane υ)}
    {entries further : List (Nat × υ)} (hlanes : Lane.Hold dataSource lanes entries)
    (hothers : Lane.Hold dataSource others further) :
    Lane.Hold dataSource (lanes ++ others) (entries ++ further) := by
  constructor
  · rw [List.flatMap_append]
    exact hlanes.units.append hothers.units
  · intro lane hlane
    rcases List.mem_append.mp hlane with hlane | hlane
    · exact hlanes.own lane hlane
    · exact hothers.own lane hlane

namespace LaneLimits

variable {υ : Type} (limits : LaneLimits) {b : Backend}

/-- If every connection is granted, any number of them is acquired. -/
theorem acquire_granted (hgrants : b.GrantsAll) (dataSource : String) (n : Nat)
    (atHand : List ConnectionId) (h : History) :
    ∃ connections h', limits.acquire b dataSource n atHand h = (.ok connections, h') ∧
      h'.calls = h.calls := by
  induction n generalizing atHand h with
  | zero => exact ⟨atHand, h, rfl, rfl⟩
  | succ n ih =>
      rcases hgrants h dataSource with ⟨connection, hgranted⟩
      rcases ih (atHand ++ [connection]) (h ++ [.acquired dataSource connection]) with
        ⟨connections, h', hrest, hcalls⟩
      refine ⟨connections, h', ?_, ?_⟩
      · rw [acquire]
        refine Action.bind_eq_ok.mpr ⟨connection, _, ?_, hrest⟩
        simp only [Action.onFault, Backend.acquireWithin, hgranted]
      · rw [hcalls, History.calls_append]
        exact List.append_nil _

/-- There is a lane for any unit. -/
theorem plan_pos {n : Nat} (hn : 0 < n) : 0 < (limits.plan n).1 := by
  by_cases hle : n ≤ max 1 limits.maxConnections
  · simpa [plan, hle] using hn
  · simp only [plan, hle, if_false]
    exact Nat.le_max_left 1 limits.maxConnections

/-- Every unit is dealt to one lane. -/
theorem deal_plan_perm (entries : List (Nat × υ)) :
    (deal (limits.plan entries.length).1 entries).flatten.Perm entries := by
  cases entries with
  | nil => simp [deal, plan]
  | cons x entries => exact deal_perm (limits.plan_pos (Nat.succ_pos _)) _

/-- The lanes of one data source hold its entries. -/
theorem hold_of_openOn {dataSource : υ → String} {ds : String} {entries : List (Nat × υ)}
    (hentries : ∀ x ∈ entries, dataSource x.2 = ds) {lanes : List (Lane υ)} {h h' : History}
    (hok : limits.openOn b ds entries h = (.ok lanes, h')) :
    Lane.Hold dataSource lanes entries := by
  rcases Action.bind_eq_ok.mp hok with ⟨connections, h₁, hacquired, hlanes⟩
  have hlength : (deal (limits.plan entries.length).1 entries).length ≤ connections.length := by
    rw [deal, List.length_map, List.length_range, limits.length_of_acquire b hacquired]
    exact Nat.le_add_left _ _
  have hdealt := limits.deal_plan_perm entries
  cases hlanes
  constructor
  · rw [List.flatMap_map]
    have hhands := congrArg List.flatten (List.map_snd_zip hlength)
    rw [← List.flatMap_def] at hhands
    exact hhands ▸ hdealt
  · intro lane hlane x hx
    rcases List.mem_map.mp hlane with ⟨⟨connection, hand⟩, hmem, rfl⟩
    exact hentries x (hdealt.mem_iff.mp (List.mem_flatten.mpr ⟨hand, (List.of_mem_zip hmem).2, hx⟩))

/-- The lanes of several data sources hold their entries. -/
theorem hold_of_openEach {dataSource : υ → String} {groups : List (String × List (Nat × υ))}
    (hgroups : ∀ group ∈ groups, ∀ x ∈ group.2, dataSource x.2 = group.1)
    {opened : List (Lane υ)} {entries : List (Nat × υ)}
    (hopened : Lane.Hold dataSource opened entries) {lanes : List (Lane υ)} {h h' : History}
    (hok : limits.openEach b groups opened h = (.ok lanes, h')) :
    Lane.Hold dataSource lanes (entries ++ groups.flatMap (·.2)) := by
  induction groups generalizing opened entries h with
  | nil =>
      cases hok
      rwa [List.flatMap_nil, List.append_nil]
  | cons group groups ih =>
      rw [List.forall_mem_cons] at hgroups
      rcases Action.bind_eq_ok.mp hok with ⟨first, h₁, hfirst, hothers⟩
      have hhold := limits.hold_of_openOn hgroups.1 (Action.onFault_eq_ok.mp hfirst)
      rw [List.flatMap_cons, ← List.append_assoc]
      exact ih hgroups.2 (hopened.append hhold) hothers

/-- Lanes that are opened for units hold all of them. -/
theorem hold_of_openFor {dataSource : υ → String} {units : List υ} {lanes : List (Lane υ)}
    {h h' : History} (hok : limits.openFor b dataSource units h = (.ok lanes, h')) :
    Lane.Hold dataSource lanes (placed units) := by
  have hnone : Lane.Hold dataSource ([] : List (Lane υ)) [] := ⟨.refl _, by simp⟩
  have hhold := limits.hold_of_openEach
    (fun _ hgroup => dataSource_of_mem_byDataSource dataSource units hgroup) hnone hok
  exact ⟨hhold.units.trans (byDataSource_perm dataSource units), hhold.own⟩

/-- If every connection is granted, all lanes are opened. -/
theorem openEach_granted (hgrants : b.GrantsAll) (groups : List (String × List (Nat × υ)))
    (opened : List (Lane υ)) (h : History) :
    ∃ lanes h', limits.openEach b groups opened h = (.ok lanes, h') ∧ h'.calls = h.calls := by
  induction groups generalizing opened h with
  | nil => exact ⟨opened, h, rfl, rfl⟩
  | cons group groups ih =>
      rcases limits.acquire_granted hgrants group.1 (limits.plan group.2.length).1 [] h with
        ⟨connections, h₁, hacquired, hcalls⟩
      have hopened : ∃ lanes, limits.openOn b group.1 group.2 h = (.ok lanes, h₁) :=
        ⟨_, Action.bind_eq_ok.mpr ⟨connections, h₁, hacquired, rfl⟩⟩
      rcases hopened with ⟨lanes, hlanes⟩
      rcases ih (opened ++ lanes) h₁ with ⟨all, h₂, hall, hcallsAll⟩
      exact ⟨all, h₂, Action.bind_eq_ok.mpr ⟨lanes, h₁, Action.onFault_eq_ok.mpr hlanes, hall⟩,
        hcallsAll.trans hcalls⟩

/-- Lanes are opened for all units, each on its data source. -/
theorem openFor_granted (hgrants : b.GrantsAll) (dataSource : υ → String) (units : List υ)
    (h : History) :
    ∃ lanes h', limits.openFor b dataSource units h = (.ok lanes, h') ∧ h'.calls = h.calls ∧
      Lane.Hold dataSource lanes (placed units) := by
  rcases limits.openEach_granted hgrants (byDataSource dataSource units) [] h with
    ⟨lanes, h', hlanes, hcalls⟩
  exact ⟨lanes, h', hlanes, hcalls, limits.hold_of_openFor hlanes⟩

end LaneLimits

end ShardedSql
