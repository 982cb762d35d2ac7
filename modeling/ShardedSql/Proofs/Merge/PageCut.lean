import ShardedSql.Proofs.Adaptation.Units
import ShardedSql.Proofs.Merge.GroupedPage

/-!
# Who cuts the page

The page of a statement with one execution unit is cut by its target, that of a statement with
several ones by the merge, which needs the widened page of each target.  The execution units are
counted before their pages are widened.  Widening may make different texts equal, and a target
that is left over then delivers a widened page from which nobody cuts the page that was asked for.

Main results:

- Theorem `Merger.cuts_page_iff`: a page is cut from merged rows exactly when there are several
  results.
- Theorem `buildUnits_cutOnce_iff`: when the page is cut exactly once.
- Theorem `not_cutOnce_viewOrders`: a statement whose page is not cut at all.
-/

namespace ShardedSql

/-! ## The page of a merge -/

/-- Merged rows from which a page is cut. -/
def MergedResult.CutsPage (merged : MergedResult) : Prop :=
  ∃ c, merged.cursor.inner = .page c

/-- A page is cut from merged rows exactly when there are several results. -/
theorem Merger.cuts_page_iff {m : Merger} {results : List ResultCursor} {statement : Statement}
    (hpage : statement.shape.page.isSome = true) {merged : MergedResult}
    (h : m.merge results statement = .ok merged) : merged.CutsPage ↔ 2 ≤ results.length := by
  rcases Option.isSome_iff_exists.mp hpage with ⟨p, hp⟩
  rcases merge_eq_ok_iff.mp h with ⟨-, inner, hinner, rfl⟩
  unfold MergedResult.CutsPage
  match results, hinner with
  | [], hinner =>
      cases hinner
      simp
  | [result], hinner =>
      cases hinner
      simp
  | first :: second :: later, hinner =>
      simp only [MergedCursor.ofResults, hp] at hinner
      cases hcombined : CombinedCursor.ofResults (first :: second :: later) statement.shape
        (commonColumns (first :: second :: later)).length m.collation with
      | error e =>
          rw [hcombined] at hinner
          cases hinner
      | ok c =>
          rw [hcombined] at hinner
          cases hinner
          simp

/-! ## Units whose page is cut once -/

/-- The page of a statement is cut exactly once. -/
structure CutOnce (adapt : Adapter) (statement : Statement) (route : Route)
    (units : List ExecutionUnit) : Prop where
  single : ∀ unit, units = [unit] → ∃ u ∈ route.units, adapt.unitFor statement false u = .ok unit
  /-- Of several units each has the widened page. -/
  several : 2 ≤ units.length →
    ∀ unit ∈ units, ∃ u ∈ route.units, adapt.unitFor statement true u = .ok unit

/-- Widening the page of a statement does no harm: its texts are the same before, or they are not
the same afterwards, or the first one then is a text with the page that was asked for. -/
def WidensSafely (adapt : Adapter) (statement : Statement) (route : Route) : Prop :=
  (∃ plain, adapt.unitsFor statement route false = .ok plain ∧ AllSame plain) ∨
  (∃ wide, adapt.unitsFor statement route true = .ok wide ∧ ¬ AllSame wide) ∨
  ∃ first, route.units.head? = some first ∧
    ∃ u ∈ route.units, adapt.unitFor statement true first = adapt.unitFor statement false u

section Units

variable {adapt : Adapter} {statement : Statement} {route : Route} {units : List ExecutionUnit}
  (hpage : statement.shape.page.isSome = true) (h : buildUnits adapt statement route = .ok units)

include hpage h

/-- A page is cut once exactly if widening it does no harm. -/
theorem cutOnce_iff :
    CutOnce adapt statement route units ↔ WidensSafely adapt statement route := by
  have hseveral : 2 ≤ units.length →
      ∀ unit ∈ units, ∃ u ∈ route.units, adapt.unitFor statement true u = .ok unit :=
    fun hmany unit hunit => exists_of_mem_unitsOfRoute (buildUnits_widened h hmany hpage) hunit
  rcases exists_head?_of_buildUnits h with ⟨first, hfirst⟩
  rcases buildUnits_cases h with ⟨plain, hplain, ⟨hcase, rfl⟩ | ⟨hother, wide, hwide, rfl⟩⟩
  · -- There is one unit, and it has the page that was asked for.
    have hsame : AllSame plain := by
      refine hcase.resolve_right fun hnone => ?_
      rw [hnone] at hpage
      cases hpage
    rcases head?_unitsFor hplain hfirst with ⟨only, honly, hhead⟩
    refine ⟨fun _ => .inl ⟨plain, hplain, hsame⟩, fun _ => ⟨fun unit hunit => ?_, hseveral⟩⟩
    rw [hsame.foldl_addUnit, hhead] at hunit
    cases hunit
    exact ⟨first, List.mem_of_head? hfirst, honly⟩
  · -- The units have the widened page, and how many there are depends on the widened texts.
    have hplainDiffers : ¬ ∃ plain, adapt.unitsFor statement route false = .ok plain ∧
        AllSame plain := by
      rintro ⟨plain', hplain', hsame⟩
      cases hplain.symm.trans hplain'
      exact hother hsame
    rw [WidensSafely, or_iff_right hplainDiffers]
    by_cases hsame : AllSame wide
    · rcases head?_unitsFor hwide hfirst with ⟨only, honly, hhead⟩
      have hunits : wide.foldl addUnit [] = [only] := by
        rw [hsame.foldl_addUnit, hhead]
        rfl
      rw [hunits] at hseveral ⊢
      constructor
      · intro hcut
        rcases hcut.single only rfl with ⟨u, hu, hadapted⟩
        exact .inr ⟨first, hfirst, u, hu, honly.trans hadapted.symm⟩
      · rintro (⟨wide', hwide', hdifferent⟩ | ⟨first', hfirst', u, hu, hequal⟩)
        · cases hwide.symm.trans hwide'
          exact absurd hsame hdifferent
        · cases hfirst.symm.trans hfirst'
          refine ⟨fun unit hunit => ?_, hseveral⟩
          cases hunit
          exact ⟨u, hu, hequal.symm.trans honly⟩
    · refine ⟨fun _ => .inl ⟨wide, hwide, hsame⟩, fun _ => ⟨fun unit hunit => ?_, hseveral⟩⟩
      refine absurd (length_foldl_addUnit_le_one.mp ?_) hsame
      rw [hunit]
      exact Nat.le_refl 1

/-- Texts for several data sources are never the same. -/
theorem cutOnce_of_apart {u v : RouteUnit} (hu : u ∈ route.units) (hv : v ∈ route.units)
    (hapart : u.dataSource.actual ≠ v.dataSource.actual) : CutOnce adapt statement route units := by
  have hdifferent : ∀ {widened all}, adapt.unitsFor statement route widened = .ok all →
      ¬ AllSame all := by
    intro widened all hall hsame
    rcases exists_unit_of_unitsFor hall hu with ⟨a, ha, hsource⟩
    rcases exists_unit_of_unitsFor hall hv with ⟨b, hb, htarget⟩
    exact hapart (hsource.symm.trans ((hsame.dataSource_eq ha hb).trans htarget))
  rw [cutOnce_iff hpage h]
  rcases buildUnits_cases h with ⟨plain, hplain, ⟨hsame | hnone, -⟩ | ⟨-, wide, hwide, -⟩⟩
  · exact absurd hsame (hdifferent hplain)
  · rw [hnone] at hpage
    cases hpage
  · exact .inr (.inl ⟨wide, hwide, hdifferent hwide⟩)

end Units

/-- The page of a statement is cut exactly once when widening does no harm, in particular when the
statement runs on several data sources.  The merge cuts a page exactly when several units are
left. -/
theorem buildUnits_cutOnce_iff (adapt : Adapter) {statement : Statement} {route : Route}
    (hpage : statement.shape.page.isSome = true) {units : List ExecutionUnit}
    (h : buildUnits adapt statement route = .ok units) :
    (CutOnce adapt statement route units ↔ WidensSafely adapt statement route) ∧
    ((∃ u ∈ route.units, ∃ v ∈ route.units, u.dataSource.actual ≠ v.dataSource.actual) →
      CutOnce adapt statement route units) ∧
    ∀ (m : Merger) (results : List ResultCursor) (merged : MergedResult),
      results.length = units.length → m.merge results statement = .ok merged →
      (merged.CutsPage ↔ 2 ≤ units.length) :=
  ⟨cutOnce_iff hpage h, fun ⟨_, hu, _, hv, hapart⟩ => cutOnce_of_apart hpage h hu hv hapart,
    fun m _ _ hlength hmerge => hlength ▸ m.cuts_page_iff hpage hmerge⟩

/-! ### A page that nobody cuts -/

/-- A page of orders on two data sources. -/
def pagedOrders : Statement :=
  { sql := "SELECT * FROM t_order LIMIT 2 OFFSET 4"
    tables := ["t_order"]
    shape := { Shape.plain with page := some ⟨4, some 2⟩ } }

/-- Two data sources with a part of the orders each. -/
def ordersRoute : Route :=
  ⟨[⟨.identity "ds_0", [⟨"t_order", "t_order_0"⟩]⟩, ⟨.identity "ds_1", [⟨"t_order", "t_order_1"⟩]⟩]⟩

/-- The execution units of `pagedOrders`, each with the rows up to the end of the page. -/
def pagedUnits : List ExecutionUnit :=
  [⟨"ds_0", ⟨"SELECT * FROM t_order_0 LIMIT 6", []⟩⟩,
    ⟨"ds_1", ⟨"SELECT * FROM t_order_1 LIMIT 6", []⟩⟩]

/-- The page of `pagedOrders` is cut once, from the merged rows. -/
theorem buildUnits_cutOnce_iff_pagedOrders :
    pagedOrders.shape.page.isSome = true ∧
    buildUnits (adapterFor (Sql.reader .postgres)) pagedOrders ordersRoute = .ok pagedUnits ∧
    CutOnce (adapterFor (Sql.reader .postgres)) pagedOrders ordersRoute pagedUnits := by
  have hunits :
      buildUnits (adapterFor (Sql.reader .postgres)) pagedOrders ordersRoute = .ok pagedUnits := by
    apply eq_ok_of_toOption
    decide +kernel
  have hwide : (adapterFor (Sql.reader .postgres)).unitsFor pagedOrders ordersRoute true =
      .ok pagedUnits := by
    apply eq_ok_of_toOption
    decide +kernel
  have hdifferent : ¬ AllSame pagedUnits := by decide
  exact ⟨rfl, hunits,
    (buildUnits_cutOnce_iff _ rfl hunits).1.mpr (.inr (.inl ⟨pagedUnits, hwide, hdifferent⟩))⟩

/-- A page of a view, whose text does not name the table that it is routed by. -/
def viewOrders : Statement :=
  { sql := "select * from v_order limit 2 offset 4"
    tables := ["t_order"]
    shape := { Shape.plain with page := some ⟨4, some 2⟩ } }

/-- Two parts of a table on one data source, the first one under its own name. -/
def viewRoute : Route :=
  ⟨[⟨.identity "ds_0", [⟨"t_order", "t_order"⟩]⟩, ⟨.identity "ds_0", [⟨"t_order", "t_order_1"⟩]⟩]⟩

/-- The view as its target stores it. -/
def viewRows : Table :=
  ⟨[⟨"id", "id"⟩], [[.int 1], [.int 2], [.int 3], [.int 4], [.int 5], [.int 6]]⟩

/-- The page of `viewOrders` is not cut: the texts differ in their spelling until the page is
widened, and the rows before the page are delivered as well. -/
theorem not_cutOnce_viewOrders :
    buildUnits (adapterFor (Sql.reader .postgres)) viewOrders viewRoute =
      .ok [⟨"ds_0", ⟨"SELECT * FROM v_order LIMIT 6", []⟩⟩] ∧
    (adapterFor (Sql.reader .postgres)).unitsFor viewOrders viewRoute false =
      .ok [⟨"ds_0", ⟨"select * from v_order limit 2 offset 4", []⟩⟩,
        ⟨"ds_0", ⟨"SELECT * FROM v_order LIMIT 2 OFFSET 4", []⟩⟩] ∧
    ¬ CutOnce (adapterFor (Sql.reader .postgres)) viewOrders viewRoute
      [⟨"ds_0", ⟨"SELECT * FROM v_order LIMIT 6", []⟩⟩] ∧
    Merger.rowsOf ⟨.binary, .none⟩ viewOrders [viewRows] =
      .ok [[.int 1], [.int 2], [.int 3], [.int 4], [.int 5], [.int 6]] := by
  have hplain : (adapterFor (Sql.reader .postgres)).unitsFor viewOrders viewRoute false =
      .ok [⟨"ds_0", ⟨"select * from v_order limit 2 offset 4", []⟩⟩,
        ⟨"ds_0", ⟨"SELECT * FROM v_order LIMIT 2 OFFSET 4", []⟩⟩] := by
    apply eq_ok_of_toOption
    decide +kernel
  refine ⟨?_, hplain, fun hcut => ?_, rfl⟩
  · apply eq_ok_of_toOption
    decide +kernel
  · rcases hcut.single _ rfl with ⟨u, hu, hadapted⟩
    rcases mapM_cases ((adapterFor (Sql.reader .postgres)).unitFor viewOrders false)
      viewRoute.units with
      ⟨all, hall, -, hmem⟩ | ⟨-, -, e, -, he⟩
    · cases hplain.symm.trans hall
      exact absurd ((hmem _).mpr ⟨u, hu, hadapted⟩) (by decide)
    · cases hplain.symm.trans he

end ShardedSql
