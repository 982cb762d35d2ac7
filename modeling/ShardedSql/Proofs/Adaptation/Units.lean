import ShardedSql.Adaptation
import ShardedSql.Proofs.Traversal

/-!
# Execution units of a route

Every route unit is adapted to an execution unit, and of equal execution units the first one is
kept.  The units are made twice when several of them are left and the statement has a page.

Main results:

- Theorem `unitsOfRoute_eq`: all units of a route are adapted before equal ones are dropped.
- Theorem `length_foldl_addUnit_le_one`: one unit is left exactly when the others are the same as
  the first one.
- Theorem `buildUnits_cases`: which of the two sets of units a statement has.
- Theorem `buildUnits_unrenamed`: the text of a statement that has one target and renames nothing.
-/

namespace ShardedSql

/-- The execution unit of a route unit. -/
def Adapter.unitFor (adapt : Adapter) (statement : Statement) (widened : Bool) (u : RouteUnit) :
    Except Fault ExecutionUnit := do
  let sql ← adapt statement u widened
  return { dataSource := u.dataSource.actual, statement := sql }

/-- The execution units of all route units. -/
def Adapter.unitsFor (adapt : Adapter) (statement : Statement) (route : Route) (widened : Bool) :
    Except Fault (List ExecutionUnit) :=
  route.units.mapM (adapt.unitFor statement widened)

/-- All units are the same as the first one. -/
def AllSame : List ExecutionUnit → Prop
  | [] => True
  | u :: us => ∀ v ∈ us, v.same u = true

instance AllSame.decidable : (units : List ExecutionUnit) → Decidable (AllSame units)
  | [] => .isTrue trivial
  | u :: us => inferInstanceAs (Decidable (∀ v ∈ us, v.same u = true))

/-- Units that are all the same have one data source. -/
theorem AllSame.dataSource_eq {units : List ExecutionUnit} (h : AllSame units)
    {a b : ExecutionUnit} (ha : a ∈ units) (hb : b ∈ units) : a.dataSource = b.dataSource := by
  cases units with
  | nil => cases ha
  | cons first later =>
      have hfirst : ∀ unit ∈ first :: later, unit.dataSource = first.dataSource := by
        intro unit hunit
        rcases List.mem_cons.mp hunit with rfl | hunit
        · rfl
        · have hsame := h unit hunit
          rw [ExecutionUnit.same, Bool.and_eq_true] at hsame
          exact eq_of_beq hsame.1
      exact (hfirst a ha).trans (hfirst b hb).symm

/-! ## Units kept once -/

/-- Units that are kept stay in front. -/
theorem prefix_foldl_addUnit (us kept : List ExecutionUnit) : kept <+: us.foldl addUnit kept := by
  induction us generalizing kept with
  | nil => exact List.prefix_rfl
  | cons u us ih =>
      refine List.IsPrefix.trans ?_ (ih (addUnit kept u))
      unfold addUnit
      split
      · exact List.prefix_rfl
      · exact List.prefix_append kept [u]

/-- Only the given units are kept. -/
theorem mem_of_mem_foldl_addUnit {us kept : List ExecutionUnit} {unit : ExecutionUnit}
    (h : unit ∈ us.foldl addUnit kept) : unit ∈ kept ∨ unit ∈ us := by
  induction us generalizing kept with
  | nil => exact .inl h
  | cons u us ih =>
      rcases ih h with h | h
      · unfold addUnit at h
        split at h
        · exact .inl h
        · rcases List.mem_append.mp h with h | h
          · exact .inl h
          · exact .inr (List.mem_singleton.mp h ▸ List.mem_cons_self)
      · exact .inr (List.mem_cons_of_mem _ h)

/-- One unit is kept alone exactly if all others are the same. -/
theorem foldl_addUnit_singleton {u : ExecutionUnit} {us : List ExecutionUnit} :
    us.foldl addUnit [u] = [u] ↔ ∀ v ∈ us, v.same u = true := by
  induction us with
  | nil => simp
  | cons v us ih =>
      rw [List.foldl_cons, List.forall_mem_cons]
      by_cases hsame : v.same u = true
      · have hadd : addUnit [u] v = [u] := by simp [addUnit, hsame]
        rw [hadd, ih]
        exact ⟨fun h => ⟨hsame, h⟩, fun h => h.2⟩
      · -- `v` is kept as well, and so there are two units from here on.
        have hadd : addUnit [u] v = [u, v] := by simp [addUnit, hsame]
        rw [hadd]
        refine ⟨fun h => ?_, fun h => absurd h.1 hsame⟩
        have hle := (prefix_foldl_addUnit us [u, v]).length_le
        rw [h] at hle
        exact absurd hle (by simp)

/-- When the others are the same as the first unit, it is the one that is left. -/
theorem AllSame.foldl_addUnit {us : List ExecutionUnit} (h : AllSame us) :
    us.foldl addUnit [] = us.head?.toList := by
  cases us with
  | nil => rfl
  | cons u us => exact foldl_addUnit_singleton.mpr h

/-- One unit is left exactly when the others are the same as the first one. -/
theorem length_foldl_addUnit_le_one {us : List ExecutionUnit} :
    (us.foldl addUnit []).length ≤ 1 ↔ AllSame us := by
  constructor
  · intro h
    cases us with
    | nil => trivial
    | cons u us =>
        have hkept : [u] <+: us.foldl addUnit [u] := prefix_foldl_addUnit us [u]
        exact foldl_addUnit_singleton.mp (hkept.eq_of_length_le h).symm
  · intro h
    rw [h.foldl_addUnit]
    exact Option.length_toList_le

/-! ## Units of a route -/

section Units

variable {adapt : Adapter} {statement : Statement} {route : Route} {units : List ExecutionUnit}
  {widened : Bool}

/-- All units of a route are adapted before equal ones are dropped. -/
theorem unitsOfRoute_eq (adapt : Adapter) (statement : Statement) (route : Route)
    (widened : Bool) :
    unitsOfRoute adapt statement route widened =
      (adapt.unitsFor statement route widened).map (·.foldl addUnit []) := by
  rw [Adapter.unitsFor, ← foldlM_eq_mapM, unitsOfRoute]
  congr 1
  funext kept u
  unfold Adapter.unitFor
  cases adapt statement u widened <;> rfl

/-- The units of a route are its adapted statements without repetitions. -/
theorem unitsOfRoute_eq_ok_iff :
    unitsOfRoute adapt statement route widened = .ok units ↔
      ∃ all, adapt.unitsFor statement route widened = .ok all ∧ units = all.foldl addUnit [] := by
  rw [unitsOfRoute_eq]
  cases adapt.unitsFor statement route widened with
  | error e => simp [Except.map]
  | ok all => simp [Except.map, eq_comm]

/-- Every execution unit is a route unit with its text. -/
theorem exists_of_mem_unitsOfRoute (h : unitsOfRoute adapt statement route widened = .ok units)
    {unit : ExecutionUnit} (hunit : unit ∈ units) :
    ∃ u ∈ route.units, adapt.unitFor statement widened u = .ok unit := by
  rcases unitsOfRoute_eq_ok_iff.mp h with ⟨all, hall, rfl⟩
  rcases mem_of_mem_foldl_addUnit hunit with hunit | hunit
  · cases hunit
  · exact mem_of_mapM hall unit hunit

/-- The first execution unit is that of the first route unit. -/
theorem head?_unitsFor {all : List ExecutionUnit}
    (h : adapt.unitsFor statement route widened = .ok all) {u : RouteUnit}
    (hu : route.units.head? = some u) :
    ∃ unit, adapt.unitFor statement widened u = .ok unit ∧ all.head? = some unit := by
  rcases List.head?_eq_some_iff.mp hu with ⟨us, hus⟩
  have hall := mapM_eq_ok_iff.mp h
  rw [hus, List.forall₂_cons_left_iff] at hall
  rcases hall with ⟨unit, later, hunit, -, rfl⟩
  exact ⟨unit, hunit, rfl⟩

/-- Every route unit has an execution unit on its data source. -/
theorem exists_unit_of_unitsFor {all : List ExecutionUnit}
    (h : adapt.unitsFor statement route widened = .ok all) {u : RouteUnit}
    (hu : u ∈ route.units) : ∃ unit ∈ all, unit.dataSource = u.dataSource.actual := by
  rcases List.mem_iff_get.mp hu with ⟨i, rfl⟩
  have hall := mapM_eq_ok_iff.mp h
  have hi : i.1 < all.length := hall.length_eq ▸ i.2
  rcases Except.bind_eq_ok.mp (hall.get i.2 hi) with ⟨sql, -, hunit⟩
  exact ⟨all.get ⟨i, hi⟩, List.get_mem _ _, by rw [← Except.ok.inj hunit]⟩

/-- A route with execution units has a first unit. -/
theorem exists_head?_of_buildUnits (h : buildUnits adapt statement route = .ok units) :
    ∃ u, route.units.head? = some u := by
  unfold buildUnits at h
  split at h
  · cases h
  · rename_i hsome
    have hunits : route.units ≠ [] := by simpa [Route.isEmpty] using hsome
    exact ⟨_, List.head?_eq_some_head hunits⟩

/-- The units of a statement are those without the widened page, unless several of them are left
and it has a page. -/
theorem buildUnits_cases (h : buildUnits adapt statement route = .ok units) :
    ∃ plain, adapt.unitsFor statement route false = .ok plain ∧
      ((AllSame plain ∨ statement.shape.page = none) ∧ units = plain.foldl addUnit [] ∨
      ¬ AllSame plain ∧ ∃ wide, adapt.unitsFor statement route true = .ok wide ∧
        units = wide.foldl addUnit []) := by
  unfold buildUnits at h
  split at h
  · cases h
  · rcases Except.bind_eq_ok.mp h with ⟨kept, hkept, h⟩
    rcases unitsOfRoute_eq_ok_iff.mp hkept with ⟨plain, hplain, rfl⟩
    refine ⟨plain, hplain, ?_⟩
    have hmany : 1 < (plain.foldl addUnit []).length ↔ ¬ AllSame plain := by
      rw [← Nat.not_le, length_foldl_addUnit_le_one]
    split at h
    · rename_i hboth
      rw [Bool.and_eq_true, decide_eq_true_eq] at hboth
      exact .inr ⟨hmany.mp hboth.1, unitsOfRoute_eq_ok_iff.mp h⟩
    · rename_i hboth
      rw [Bool.and_eq_true, decide_eq_true_eq, not_and_or, Nat.not_lt,
        length_foldl_addUnit_le_one, Bool.not_eq_true, Option.isSome_eq_false_iff,
        Option.isNone_iff_eq_none] at hboth
      exact .inl ⟨hboth, (Except.ok.inj h).symm⟩

/-- Several execution units of a statement with a page are all built with the widened page. -/
theorem buildUnits_widened (h : buildUnits adapt statement route = .ok units)
    (hmany : 2 ≤ units.length) (hpage : statement.shape.page.isSome = true) :
    unitsOfRoute adapt statement route true = .ok units := by
  rcases buildUnits_cases h with ⟨plain, -, ⟨hsame | hnone, hunits⟩ | ⟨-, wide, hwide, hunits⟩⟩
  · have hle := length_foldl_addUnit_le_one.mpr hsame
    rw [← hunits] at hle
    omega
  · rw [hnone] at hpage
    cases hpage
  · exact unitsOfRoute_eq_ok_iff.mpr ⟨wide, hwide, hunits⟩

/-- A statement that has one target and renames nothing keeps its text and its parameters. -/
theorem buildUnits_unrenamed (L : Sql.Library) (statement : Statement) {u : RouteUnit}
    (hidentity : ∀ m ∈ u.tables, m.isIdentity = true) :
    buildUnits (adapterFor L) statement ⟨[u]⟩ =
      .ok [⟨u.dataSource.actual, ⟨statement.sql, statement.parameters⟩⟩] := by
  have hrenames : u.tables.any (!·.isIdentity) = false := by
    rw [List.any_eq_false]
    intro m hm
    simp [hidentity m hm]
  have hadapt : adapterFor L statement u false =
      .ok ⟨statement.sql, statement.parameters⟩ := by
    have hfilter : statement.shape.page.filter (fun _ => false) = none := by
      cases statement.shape.page <;> rfl
    unfold adapterFor
    rw [hfilter]
    simp only [hrenames]
    rfl
  have hunits : unitsOfRoute (adapterFor L) statement ⟨[u]⟩ false =
      .ok [⟨u.dataSource.actual, ⟨statement.sql, statement.parameters⟩⟩] := by
    unfold unitsOfRoute
    simp only [List.foldlM_cons, List.foldlM_nil, hadapt]
    rfl
  unfold buildUnits
  rw [hunits]
  rfl

end Units

end ShardedSql
