import ShardedSql.Proofs.Merge.GroupedPage
import ShardedSql.Proofs.Merge.Page
import ShardedSql.Proofs.Merge.Totals
import ShardedSql.Proofs.Sorting.FirstOfEach

/-!
# Pages of distinct rows

A statement that drops equal rows keeps the first of them over all results.  A target to which the
page is pushed down has dropped those of its own rows that are equal, so that what it cuts off comes
after as many rows that all differ: the rows of the page are there, and each of them is the first of
its equals among the answers as well.

Main results:

- Theorem `Shape.groupwise_eq_arranged`: dropping equal rows arranges the first row of each group.
- Theorem `DistinctRows.slice_arranged_cut`: cutting the results does not change the page.
- Theorem `Merger.rowsOf_distinct_cut`: the answers of targets to which the page has been pushed
  down give the page of the complete results.
-/

namespace ShardedSql

/-! ## Equal rows -/

/-- A null equals no other cell. -/
theorem Cell.isNull_eq_of_order {collation : Collation} {a b : Cell}
    (h : order collation a b = .ok .eq) : a.isNull = b.isNull := by
  cases a with
  | null => cases b <;> simp [order] at h ⊢
  | bool _ | int _ | float _ | text _ | bytes _ => cases b <;> simp [order, isNull] at h ⊢

/-- Equal cells of a sortable column are equal under every criterion. -/
theorem OrderItem.totalOrder_eq_of_equals (item : OrderItem) {collation : Collation}
    {kind : CellKind} (hkind : kind.isOrdered) {a b : Cell} (ha : a.isOf kind) (hb : b.isOf kind)
    (h : Cell.equals collation a b = .ok true) : item.totalOrder collation a b = .eq := by
  have horder := Cell.equals_eq_true.mp h
  have hnull := Cell.isNull_eq_of_order horder
  cases hna : a.isNull with
  | true =>
      rw [hna] at hnull
      simp [OrderItem.totalOrder, hna, ← hnull]
  | false =>
      rw [hna] at hnull
      have hka : a.kind = kind := by simpa [Cell.isOf, hna] using ha
      have hkb : b.kind = kind := by simpa [Cell.isOf, ← hnull] using hb
      rw [Cell.order_eq_totalOrder collation hkind hka hkb, Except.ok.injEq] at horder
      simp only [OrderItem.totalOrder, hna, ← hnull, horder]
      cases item.direction <;> rfl

/-- Rows whose sort columns are equal tie. -/
theorem Row.totalOrder_eq_of_equals {collation : Collation} {items : List OrderItem} {a b : Row}
    (hsortable : Sortable items [a, b])
    (h : ∀ item ∈ items,
      Cell.equals collation (a.cell item.column) (b.cell item.column) = .ok true) :
    Row.totalOrder collation items a b = .eq := by
  induction items with
  | nil => rfl
  | cons item items ih =>
      rcases hsortable item List.mem_cons_self with ⟨kind, hkind, hcells⟩
      rcases hcells a (by simp) with ⟨x, hx, hxk⟩
      rcases hcells b (by simp) with ⟨y, hy, hyk⟩
      have hfirst := h item List.mem_cons_self
      rw [Row.cell_of_getElem? hx, Row.cell_of_getElem? hy] at hfirst
      have hrest := ih (fun i hi => hsortable i (List.mem_cons_of_mem _ hi))
        fun i hi => h i (List.mem_cons_of_mem _ hi)
      simp only [Row.totalOrder, compareLex, Row.cell_of_getElem? hx, Row.cell_of_getElem? hy,
        item.totalOrder_eq_of_equals hkind hxk hyk hfirst, hrest]
      rfl

namespace Grouping

variable {g : Grouping} {width : Nat} {rows : List Row}

/-- Without aggregates the merged rows are the first ones of each group. -/
theorem mergedRows_eq_leaders (hnone : g.aggregates = []) (h : g.Mergeable width rows) :
    (g.keysOf rows).mapM (g.mergedRow rows) = .ok (g.leaders rows) := by
  rcases mergedRows_cases h with ⟨merged, hmerged, hsummary, -⟩ | ⟨-, -, leader, -, c, hc, -⟩
  · have hsame : List.Forall₂ (· = ·) (g.leaders rows) merged := by
      apply hsummary.imp
      intro leader row hrow
      apply Row.ext_cell hrow.length_eq.symm
      intro c _
      exact (hrow.untouched c (by simp [aggregateColumns, hnone])).symm
    rw [List.forall₂_eq_eq_eq] at hsame
    rw [hmerged, hsame]
  · rw [accumulations, hnone] at hc
    cases hc

/-- The first row of each group is the first one with its key. -/
theorem leaders_eq_firstOfEach (h : g.Mergeable width rows) :
    g.leaders rows = firstOfEach g.key rows := by
  induction rows with
  | nil => rfl
  | cons row rows ih =>
      rw [leaders, firstOfEach, ← ih (h.subset fun r hr => List.mem_cons_of_mem _ hr)]
      congr 1
      apply List.filter_congr
      intro leader hleader
      have hkey := h.alike_iff_key List.mem_cons_self
        (List.mem_cons_of_mem _ (leaders_subset leader hleader))
      rw [Bool.eq_iff_iff, hasOther_iff, Bool.not_eq_true', ← Bool.not_eq_true, hkey, ne_comm]

end Grouping

/-! ## Dropping equal rows -/

/-- The shape drops rows that are equal as far as they are visible, and does not group them
otherwise. -/
structure Shape.DropsEqual (s : Shape) : Prop where
  distinct : s.distinct = true
  noGroups : s.hasGroups = false
  noAggregates : s.hasAggregates = false

/-- Results of which each holds only rows that differ in what the sender of the statement sees. -/
structure DistinctRows (collation : Collation) (visible : Nat) (tables : List Table) : Prop where
  keyable : ∀ t ∈ tables, ∀ row ∈ t.rows, ∀ c < visible, (row.cell c).Keyable collation
  /-- No two rows of one result agree on all visible cells. -/
  apart : ∀ t ∈ tables, t.rows.Pairwise fun a b =>
    ∃ c < visible, Cell.equals collation (a.cell c) (b.cell c) ≠ .ok true

namespace Shape

variable {s : Shape} {width : Nat} {collation : Collation} {rows : List Row}

/-- A shape that drops equal rows groups them. -/
theorem DropsEqual.groupsRows (h : s.DropsEqual) : s.GroupsRows := by
  simp [GroupsRows, h.distinct]

/-- A shape that drops equal rows has no aggregates. -/
theorem DropsEqual.aggregates_eq (h : s.DropsEqual) : s.aggregates = [] := by
  simpa [hasAggregates] using h.noAggregates

/-- A shape that drops equal rows groups by the visible columns. -/
theorem DropsEqual.mem_groupColumns (h : s.DropsEqual) {c : Nat} :
    c ∈ s.groupColumns width ↔ c < min (s.visibleColumns.getD width) width := by
  simp [groupColumns, h.noGroups, h.distinct]

/-- Dropping equal rows arranges the first row of each group. -/
theorem groupwise_eq_arranged (hshape : s.DropsEqual)
    (h : (s.grouping width collation).Mergeable width rows) (hsortable : Sortable s.orderBy rows) :
    s.groupwise width collation rows =
      .ok (s.arranged collation ((s.grouping width collation).leaders rows)) := by
  have hleaders := Grouping.mergedRows_eq_leaders hshape.aggregates_eq h
  have hsorted : sortRising (Row.order collation s.orderBy)
      ((s.grouping width collation).leaders rows) = .ok _ :=
    sortRising_eq_sortRows (hsortable.subset Grouping.leaders_subset)
  unfold groupwise arranged
  simp only [hleaders, bind, Except.bind]
  split
  · exact hsorted
  · rfl

end Shape

namespace DistinctRows

variable {s : Shape} {width : Nat} {collation : Collation} {tables : List Table}

/-- Equal rows can be told from others. -/
theorem mergeable (h : DistinctRows collation (min (s.visibleColumns.getD width) width) tables)
    (hshape : s.DropsEqual) (hwidth : HaveWidth width tables) :
    (s.grouping width collation).Mergeable width (tables.flatMap (·.rows)) := by
  have hnone : (s.grouping width collation).aggregates = [] := hshape.aggregates_eq
  refine ⟨⟨?_, ?_⟩, hwidth.length_eq, ?_, ?_⟩
  · simp [Grouping.aggregateColumns, hnone]
  · simp [Grouping.aggregateColumns, hnone]
  · intro row hrow c hc
    rcases List.mem_flatMap.mp hrow with ⟨t, ht, hrow⟩
    exact h.keyable t ht row hrow c (hshape.mem_groupColumns.mp hc)
  · simp [Grouping.accumulations, hnone]

/-- No key comes twice in one result. -/
theorem distinct (h : DistinctRows collation (min (s.visibleColumns.getD width) width) tables)
    (hshape : s.DropsEqual) (hwidth : HaveWidth width tables) :
    ∀ t ∈ tables, Distinct (s.grouping width collation).key t.rows := by
  intro t ht
  refine (h.apart t ht).imp_of_mem ?_
  rintro a b ha hb ⟨c, hc, hdiffer⟩ hkey
  have hmem : ∀ row ∈ t.rows, row ∈ tables.flatMap (·.rows) := fun row hrow =>
    List.mem_flatMap.mpr ⟨t, ht, hrow⟩
  have halike := ((h.mergeable hshape hwidth).alike_iff_key (hmem a ha) (hmem b hb)).mpr hkey
  exact hdiffer (Grouping.alike_iff.mp halike c (hshape.mem_groupColumns.mpr hc))

/-- Rows with the same key tie. -/
theorem ordersKeys (h : DistinctRows collation (min (s.visibleColumns.getD width) width) tables)
    (hshape : s.DropsEqual) (hwidth : HaveWidth width tables)
    (hvisible : ∀ item ∈ s.orderBy, item.column < min (s.visibleColumns.getD width) width)
    (hsortable : Sortable s.orderBy (tables.flatMap (·.rows))) :
    OrdersKeys (Row.totalOrder collation s.orderBy) (s.grouping width collation).key
      (tables.flatMap (·.rows)) := by
  intro a ha b hb hkey
  have halike := ((h.mergeable hshape hwidth).alike_iff_key ha hb).mpr hkey
  apply Row.totalOrder_eq_of_equals (hsortable.pair ha hb)
  intro item hitem
  exact Grouping.alike_iff.mp halike _ (hshape.mem_groupColumns.mpr (hvisible item hitem))

/-- What is left of the results holds no row twice either. -/
theorem cut {visible : Nat} (h : DistinctRows collation visible tables) (p : Page) :
    DistinctRows collation visible (tables.map (·.cut p)) := by
  refine ⟨?_, ?_⟩
  · intro t ht row hrow
    rcases List.mem_map.mp ht with ⟨whole, hwhole, rfl⟩
    exact h.keyable whole hwhole row ((p.cut_prefix whole.rows).subset hrow)
  · intro t ht
    rcases List.mem_map.mp ht with ⟨whole, hwhole, rfl⟩
    exact (h.apart whole hwhole).sublist (p.cut_prefix whole.rows).sublist

/-- The first rows of all groups up to the end of a page are those of the results that are cut. -/
theorem slice_arranged_cut
    (h : DistinctRows collation (min (s.visibleColumns.getD width) width) tables)
    (hshape : s.DropsEqual) (hwidth : HaveWidth width tables)
    (hvisible : ∀ item ∈ s.orderBy, item.column < min (s.visibleColumns.getD width) width)
    (hmergeable : Mergeable collation s.orderBy tables) (p : Page)
    (hlength : ∀ t ∈ tables, t.rows.length < Nat.pow 2 64) :
    p.slice (s.arranged collation
        ((s.grouping width collation).leaders ((tables.map (·.cut p)).flatMap (·.rows)))) =
      p.slice (s.arranged collation
        ((s.grouping width collation).leaders (tables.flatMap (·.rows)))) := by
  cases hcount : p.rowCount with
  | none => rw [map_cut_of_rowCount_none hcount]
  | some n =>
      apply Page.slice_eq_of_take_eq hcount
      rw [Shape.arranged_eq_sortRows, Shape.arranged_eq_sortRows,
        sortRows_eq_stableSort (hmergeable.sortable.subset Grouping.leaders_subset),
        sortRows_eq_stableSort ((hmergeable.cut p).sortable.subset Grouping.leaders_subset),
        Grouping.leaders_eq_firstOfEach (h.mergeable hshape hwidth),
        Grouping.leaders_eq_firstOfEach ((h.cut p).mergeable hshape (hwidth.cut p))]
      have hdistinct : ∀ pair ∈ cutPairs p tables,
          Distinct (s.grouping width collation).key pair.2 := by
        intro pair hpair
        rcases List.mem_map.mp hpair with ⟨t, ht, rfl⟩
        exact h.distinct hshape hwidth t ht
      have hkeys := h.ordersKeys hshape hwidth hvisible hmergeable.sortable
      have htake := take_stableSort_firstOfEach (Row.totalOrder collation s.orderBy)
        (p.offset.toNat + n.toNat) (cutPairs p tables)
        (map_snd_cutPairs p tables ▸ hmergeable.sortedLists) hdistinct
        (by rwa [map_snd_cutPairs, ← List.flatMap_def])
        fun pair hpair => keepsFirst_of_mem_cutPairs hcount hlength hpair
      rw [map_snd_cutPairs, flatten_map_fst_cutPairs, ← List.flatMap_def] at htake
      exact htake

end DistinctRows

/-! ## The page -/

namespace Merger

variable {m : Merger} {statement : Statement} {p : Page} {width : Nat} {tables : List Table}

/-- Results from which equal rows are dropped give the page of the first row of each group. -/
theorem rowsOf_distinct (hpage : statement.shape.page = some p)
    (hshape : statement.shape.DropsEqual)
    (hvisible : ∀ item ∈ statement.shape.orderBy, item.column < visibleWidth statement width)
    (hmany : 2 ≤ tables.length) (hwidth : HaveWidth width tables)
    (hsortable : Sortable statement.shape.orderBy (tables.flatMap (·.rows)))
    (h : DistinctRows m.collation (visibleWidth statement width) tables) :
    m.rowsOf statement tables = .ok ((p.slice (statement.shape.arranged m.collation
      ((statement.shape.grouping width m.collation).leaders (tables.flatMap (·.rows))))).map
        ((m.masks.columnMasks statement).shown (visibleWidth statement width))) := by
  have hrange : statement.shape.ColumnsInRange width := by
    intro c hc
    simp only [Shape.columnsUsed, hshape.aggregates_eq, List.flatMap_nil, List.append_nil,
      List.mem_append, List.mem_map] at hc
    rcases hc with hc | ⟨item, hitem, rfl⟩
    · exact Nat.lt_of_lt_of_le (hshape.mem_groupColumns.mp hc) (Nat.min_le_right _ _)
    · exact Nat.lt_of_lt_of_le (hvisible item hitem) (Nat.min_le_right _ _)
  exact (rowsOf_eq_ok_iff_of_haveWidth hpage hshape.groupsRows hmany hwidth).mpr
    ⟨hrange, _, Shape.groupwise_eq_arranged hshape (h.mergeable hshape hwidth) hsortable, rfl⟩

/-- The answers of targets to which the page has been pushed down give the page of their complete
results: the first row of each group, of which so many are skipped and kept as the page asks for. -/
theorem rowsOf_distinct_cut (m : Merger) {statement : Statement} {p : Page}
    (hpage : statement.shape.page = some p) (hshape : statement.shape.DropsEqual) {width : Nat}
    (hvisible : ∀ item ∈ statement.shape.orderBy, item.column < visibleWidth statement width)
    {tables : List Table} (hmany : 2 ≤ tables.length) (hwidth : HaveWidth width tables)
    (hlength : ∀ t ∈ tables, t.rows.length < Nat.pow 2 64)
    (hmergeable : Mergeable m.collation statement.shape.orderBy tables)
    (hdistinct : DistinctRows m.collation (visibleWidth statement width) tables) :
    ∃ page, page = (p.slice (statement.shape.arranged m.collation
        ((statement.shape.grouping width m.collation).leaders (tables.flatMap (·.rows))))).map
          ((m.masks.columnMasks statement).shown (visibleWidth statement width)) ∧
      m.rowsOf statement (tables.map (·.cut p)) = .ok page ∧
      m.rowsOf statement tables = .ok page := by
  have hcut := rowsOf_distinct hpage hshape hvisible (by simpa using hmany) (hwidth.cut p)
    (hmergeable.cut p).sortable (hdistinct.cut p)
  rw [hdistinct.slice_arranged_cut hshape hwidth hvisible hmergeable p hlength] at hcut
  exact ⟨_, rfl, hcut,
    rowsOf_distinct hpage hshape hvisible hmany hwidth hmergeable.sortable hdistinct⟩

/-! ### Names written in two ways -/

/-- Names of two data sources.  The last one of the first data source, which is cut off, is also in
the second, written in another way. -/
def nameTables : List Table :=
  [⟨[⟨"name", "name"⟩, ⟨"id", "id"⟩],
    [[.text "ann", .int 1], [.text "bob", .int 2], [.text "cid", .int 3]]⟩,
  ⟨[⟨"name", "name"⟩, ⟨"id", "id"⟩], [[.text "ANN", .int 4], [.text "Cid", .int 5]]⟩]

/-- A statement that asks for the second name. -/
def nameStatement : Statement :=
  { sql := "SELECT DISTINCT name FROM t_user ORDER BY name LIMIT 1 OFFSET 1"
    shape := { Shape.plain with
      orderBy := [⟨0, .ascending, .last⟩], distinct := true, visibleColumns := some 1
      page := some ⟨1, some 1⟩ } }

/-- The second name of `nameTables`. -/
theorem rowsOf_distinct_cut_nameTables :
    nameStatement.shape.page = some ⟨1, some 1⟩ ∧ nameStatement.shape.DropsEqual ∧
    (∀ item ∈ nameStatement.shape.orderBy, item.column < visibleWidth nameStatement 2) ∧
    2 ≤ nameTables.length ∧ HaveWidth 2 nameTables ∧
    (∀ t ∈ nameTables, t.rows.length < Nat.pow 2 64) ∧
    Mergeable .caseInsensitive nameStatement.shape.orderBy nameTables ∧
    DistinctRows .caseInsensitive (visibleWidth nameStatement 2) nameTables ∧
    rowsOf ⟨.caseInsensitive, .none⟩ nameStatement (nameTables.map (·.cut ⟨1, some 1⟩)) =
      .ok [[.text "bob"]] ∧
    rowsOf ⟨.caseInsensitive, .none⟩ nameStatement nameTables = .ok [[.text "bob"]] := by
  have hpage : nameStatement.shape.page = some ⟨1, some 1⟩ := rfl
  have hshape : nameStatement.shape.DropsEqual := ⟨rfl, rfl, rfl⟩
  have hvisible : ∀ item ∈ nameStatement.shape.orderBy,
      item.column < visibleWidth nameStatement 2 := by
    decide
  have hwidth : HaveWidth 2 nameTables := by
    intro t ht
    exact ⟨(by decide : ∀ t ∈ nameTables, t.columns.length = 2) t ht,
      (by decide : ∀ t ∈ nameTables, ∀ row ∈ t.rows, row.length = 2) t ht⟩
  have hlength : ∀ t ∈ nameTables, t.rows.length < Nat.pow 2 64 := by
    decide
  have hmergeable : Mergeable .caseInsensitive nameStatement.shape.orderBy nameTables := by
    refine ⟨by decide +kernel, ?_⟩
    intro item hitem
    rw [List.mem_singleton.mp hitem]
    exact ⟨.text, rfl, by decide⟩
  have hdistinct : DistinctRows .caseInsensitive (visibleWidth nameStatement 2) nameTables := by
    have hnames : ∀ t ∈ nameTables, t.rows.Pairwise fun a b =>
        (Cell.equals .caseInsensitive (a.cell 0) (b.cell 0)).toOption = some false := by
      decide +kernel
    refine ⟨by decide +kernel, ?_⟩
    intro t ht
    refine (hnames t ht).imp ?_
    intro a b hdiffer
    refine ⟨0, by decide, ?_⟩
    intro hequal
    rw [hequal] at hdiffer
    cases hdiffer
  have hleaders : (nameStatement.shape.grouping 2 .caseInsensitive).leaders
      (nameTables.flatMap (·.rows)) =
        [[.text "ann", .int 1], [.text "bob", .int 2], [.text "cid", .int 3]] := by
    decide +kernel
  have hrising : sortRising (Row.order .caseInsensitive nameStatement.shape.orderBy)
      [[.text "ann", .int 1], [.text "bob", .int 2], [.text "cid", .int 3]] =
        .ok [[.text "ann", .int 1], [.text "bob", .int 2], [.text "cid", .int 3]] := by
    apply eq_ok_of_toOption
    decide +kernel
  rw [← hleaders, sortRising_eq_sortRows (hmergeable.sortable.subset Grouping.leaders_subset),
    Except.ok.injEq] at hrising
  rcases rowsOf_distinct_cut ⟨.caseInsensitive, .none⟩ hpage hshape hvisible (by decide) hwidth
    hlength hmergeable hdistinct with ⟨page, hrows, hcut, hcomplete⟩
  have hpageRows : page = [[.text "bob"]] := by
    rw [hrows, Shape.arranged_eq_sortRows, hrising, hleaders]
    rfl
  rw [hpageRows] at hcut hcomplete
  exact ⟨hpage, hshape, hvisible, by decide, hwidth, hlength, hmergeable, hdistinct, hcut,
    hcomplete⟩

end Merger

end ShardedSql
