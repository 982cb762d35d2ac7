import ShardedSql.Proofs.Cursor.Ordered
import ShardedSql.Proofs.Merge.Table

/-!
# Merged pages

A page of merged rows needs no more rows of each target than are pushed down: whatever a target
cuts off lies behind the last row of the page.

Main results:

- Theorem `Mergeable.slice_arranged_cut`: cutting the results does not change the page of the
  arranged rows.
- Theorem `CombinedCursor.delivers_arranged`: results that are not grouped are combined into their
  arranged rows.
- Theorem `Merger.merge_cut_eq_slice`: a page merged from cut results is the page of all rows.
-/

namespace ShardedSql

open Cursor

namespace Shape

/-- The shape leaves the rows as they are: it neither groups them nor drops equal ones. -/
structure KeepsRows (s : Shape) : Prop where
  noGroups : s.hasGroups = false
  noAggregates : s.hasAggregates = false
  notDistinct : s.distinct = false

/-- All rows in the order a shape asks for: sorted by its criteria, if it has any. -/
def arranged (s : Shape) (collation : Collation) (rows : List Row) : List Row :=
  if s.hasOrder then sortRows collation s.orderBy rows else rows

/-- Rows are arranged by sorting them, if there is anything to sort by. -/
theorem arranged_eq_sortRows (s : Shape) (collation : Collation) (rows : List Row) :
    s.arranged collation rows = sortRows collation s.orderBy rows := by
  unfold arranged hasOrder
  cases hitems : s.orderBy with
  | nil => simp [sortRows_nil_items]
  | cons item items => simp

/-- Arranging keeps all rows and adds none. -/
theorem mem_arranged {s : Shape} {collation : Collation} {rows : List Row} {row : Row} :
    row ∈ s.arranged collation rows ↔ row ∈ rows := by
  rw [arranged_eq_sortRows]
  exact List.mem_mergeSort

theorem length_arranged (s : Shape) (collation : Collation) (rows : List Row) :
    (s.arranged collation rows).length = rows.length := by
  rw [arranged_eq_sortRows]
  exact List.length_mergeSort _

end Shape

/-- Results that can be merged: sorted each by itself, by criteria whose columns are sortable. -/
structure Mergeable (collation : Collation) (items : List OrderItem) (tables : List Table) :
    Prop where
  sorted : ∀ t ∈ tables, t.rows.Pairwise fun a b => Row.mayPrecede collation items a b
  sortable : Sortable items (tables.flatMap (·.rows))

/-- Pages of mergeable tables are mergeable. -/
theorem Mergeable.cut {collation : Collation} {items : List OrderItem} {tables : List Table}
    (h : Mergeable collation items tables) (p : Page) :
    Mergeable collation items (tables.map (·.cut p)) := by
  refine ⟨?_, ?_⟩
  · intro t ht
    rcases List.mem_map.mp ht with ⟨whole, hwhole, rfl⟩
    exact (h.sorted whole hwhole).sublist (p.cut_prefix whole.rows).sublist
  · apply h.sortable.subset
    intro row hrow
    rcases List.mem_flatMap.mp hrow with ⟨t, ht, hrow⟩
    rcases List.mem_map.mp ht with ⟨whole, hwhole, rfl⟩
    exact List.mem_flatMap.mpr ⟨whole, hwhole, (p.cut_prefix whole.rows).subset hrow⟩

/-- What is left of each result, with the rows of the complete one. -/
def cutPairs (p : Page) (tables : List Table) : List (List Row × List Row) :=
  tables.map fun t => (p.cut t.rows, t.rows)

/-- The first parts of the pairs are the rows of the pages. -/
theorem flatten_map_fst_cutPairs (p : Page) (tables : List Table) :
    ((cutPairs p tables).map (·.1)).flatten = (tables.map (·.cut p)).flatMap (·.rows) := by
  rw [cutPairs, List.flatMap_def, List.map_map, List.map_map]
  rfl

/-- The second parts are the rows of the tables. -/
theorem map_snd_cutPairs (p : Page) (tables : List Table) :
    (cutPairs p tables).map (·.2) = tables.map (·.rows) := by
  rw [cutPairs, List.map_map]
  rfl

/-- What is left of a result holds its rows up to the end of the page. -/
theorem keepsFirst_of_mem_cutPairs {p : Page} {n : UInt64} (hcount : p.rowCount = some n)
    {tables : List Table} (hlength : ∀ t ∈ tables, t.rows.length < Nat.pow 2 64)
    {pair : List Row × List Row} (hpair : pair ∈ cutPairs p tables) :
    KeepsFirst (p.offset.toNat + n.toNat) pair := by
  rcases List.mem_map.mp hpair with ⟨t, ht, rfl⟩
  exact ⟨p.cut_prefix t.rows, p.take_prefix_cut (hlength t ht) hcount⟩

/-- The rows of each result are sorted by the total preorder. -/
theorem Mergeable.sortedLists {collation : Collation} {items : List OrderItem}
    {tables : List Table} (h : Mergeable collation items tables) :
    SortedLists (Row.totalOrder collation items) (tables.map (·.rows)) := by
  intro l hl
  rcases List.mem_map.mp hl with ⟨t, ht, rfl⟩
  have hrows : Sortable items t.rows :=
    h.sortable.subset fun row hrow => List.mem_flatMap.mpr ⟨t, ht, hrow⟩
  exact (pairwise_mayPrecede_iff hrows).mp (h.sorted t ht)

/-- Without an end of the page nothing is cut off. -/
theorem map_cut_of_rowCount_none {p : Page} (hcount : p.rowCount = none) (tables : List Table) :
    tables.map (·.cut p) = tables := by
  simp [Table.cut, Page.cut, Page.pushedDown, hcount]

/-- Sorted rows up to the end of a page are those of the results that are cut. -/
theorem Mergeable.slice_arranged_cut {collation : Collation} {shape : Shape}
    {tables : List Table} (h : Mergeable collation shape.orderBy tables) (p : Page)
    (hlength : ∀ t ∈ tables, t.rows.length < Nat.pow 2 64) :
    p.slice (shape.arranged collation ((tables.map (·.cut p)).flatMap (·.rows))) =
      p.slice (shape.arranged collation (tables.flatMap (·.rows))) := by
  cases hcount : p.rowCount with
  | none => rw [map_cut_of_rowCount_none hcount]
  | some n =>
      apply Page.slice_eq_of_take_eq hcount
      rw [Shape.arranged_eq_sortRows, Shape.arranged_eq_sortRows,
        sortRows_eq_stableSort h.sortable, sortRows_eq_stableSort (h.cut p).sortable]
      have htake := take_stableSort_flatten (Row.totalOrder collation shape.orderBy)
        (p.offset.toNat + n.toNat) (cutPairs p tables)
        (map_snd_cutPairs p tables ▸ h.sortedLists)
        fun pair hpair => keepsFirst_of_mem_cutPairs hcount hlength hpair
      rw [map_snd_cutPairs, flatten_map_fst_cutPairs, ← List.flatMap_def] at htake
      exact htake

/-! ## The merge -/

/-- Results that are neither grouped nor rid of equal rows are combined into their arranged
rows. -/
theorem CombinedCursor.delivers_arranged {shape : Shape} (hshape : shape.KeepsRows)
    {collation : Collation} {tables : List Table} (h : Mergeable collation shape.orderBy tables)
    (width : Nat) :
    ∃ c, CombinedCursor.ofResults (tables.map Table.cursor) shape width collation = .ok c ∧
      (shape.arranged collation (tables.flatMap (·.rows))).length ≤ bound c ∧
      Delivers c (shape.arranged collation (tables.flatMap (·.rows))) := by
  have hun := Table.cursors_uninterrupted tables
  have hrows := Table.flatMap_rows tables
  rw [Shape.length_arranged]
  unfold CombinedCursor.ofResults
  simp only [hshape.noGroups, hshape.noAggregates, hshape.notDistinct, Bool.or_self,
    Bool.false_eq_true, if_false]
  cases horder : shape.hasOrder with
  | true =>
      have hsorted : ∀ r ∈ tables.map Table.cursor,
          r.rows.rest.Pairwise fun a b => Row.mayPrecede collation shape.orderBy a b := by
        intro r hr
        rcases List.mem_map.mp hr with ⟨t, ht, rfl⟩
        exact h.sorted t ht
      rcases OrderedCursor.delivers hun hsorted (hrows ▸ h.sortable) with
        ⟨c, hc, hbound, hdelivers⟩
      rw [hrows] at hbound hdelivers
      refine ⟨.ordered c, by simp [hc, Except.map], hbound, ?_⟩
      have hwrapped := hdelivers.wrap CombinedCursor.ordered (fun _ => rfl)
        (fun _ _ => rfl)
      simpa [Shape.arranged, horder] using hwrapped
  | false =>
      have hdelivers := StreamCursor.delivers hun .beforeFirst
      rw [hrows] at hdelivers
      refine ⟨.stream (.ofResults (tables.map Table.cursor)), by simp, ?_, ?_⟩
      · show _ ≤ ((tables.map Table.cursor).map Cursor.bound).foldr (· + ·) 0
        rw [List.flatMap_def, List.length_flatten, List.map_map, List.map_map]
        exact Nat.le_refl _
      · have hwrapped := hdelivers.wrap CombinedCursor.stream (fun _ => rfl)
          (fun _ _ => rfl)
        rw [Shape.arranged, horder]
        exact hwrapped

/-- A page merged from results that are cut after the rows pushed down is the page of all rows: the
skipped ones are dropped from the arranged rows, and so many are kept as the page asks for. -/
theorem Merger.merge_cut_eq_slice (m : Merger) {statement : Statement} {p : Page}
    (hpage : statement.shape.page = some p) (hshape : statement.shape.KeepsRows)
    {tables : List Table} (hmany : 2 ≤ tables.length) {width : Nat}
    (hwidth : HaveWidth width tables) (hlength : ∀ t ∈ tables, t.rows.length < Nat.pow 2 64)
    (h : Mergeable m.collation statement.shape.orderBy tables) :
    ∃ merged, m.merge ((tables.map (·.cut p)).map Table.cursor) statement = .ok merged ∧
      merged.rows.1 =
        .ok ((p.slice (statement.shape.arranged m.collation (tables.flatMap (·.rows)))).map
          ((m.masks.columnMasks statement).shown (visibleWidth statement width))) := by
  rcases CombinedCursor.delivers_arranged hshape (h.cut p) width with
    ⟨c, hc, hbound, hdelivers⟩
  rcases m.merge_eq hpage (hwidth.cut p) (by simpa using hmany) with
    ⟨columns, hcolumns, hmerge⟩
  refine ⟨m.pageOf statement p width columns c, ?_, ?_⟩
  · rw [hmerge, hc]
    rfl
  · rw [m.rows_pageOf statement p hcolumns hbound _ hdelivers, h.slice_arranged_cut p hlength]
    intro row hrow
    exact (hwidth.cut p).wide row (Shape.mem_arranged.mp hrow)

/-- Three results sorted by their only column. -/
def sortedTables : List Table :=
  [⟨[⟨"k", "k"⟩], [[.int 1], [.int 4], [.int 6]]⟩, ⟨[⟨"k", "k"⟩], [[.int 2], [.int 4], [.null]]⟩,
    ⟨[⟨"k", "k"⟩], []⟩]

/-- A statement that asks for two rows after the first of `sortedTables`. -/
def sortedPage : Statement :=
  { sql := "SELECT k FROM t ORDER BY k NULLS LAST LIMIT 2 OFFSET 1"
    shape := { Shape.plain with
      orderBy := [⟨0, .ascending, .last⟩], page := some ⟨1, some 2⟩ } }

/-- The page of `sortedTables` that `sortedPage` asks for. -/
theorem Merger.merge_cut_eq_slice_sortedTables :
    sortedPage.shape.page = some ⟨1, some 2⟩ ∧ sortedPage.shape.KeepsRows ∧
    2 ≤ sortedTables.length ∧ HaveWidth 1 sortedTables ∧
    (∀ t ∈ sortedTables, t.rows.length < Nat.pow 2 64) ∧
    Mergeable .binary sortedPage.shape.orderBy sortedTables ∧
    ∃ merged, Merger.merge ⟨.binary, .none⟩
        ((sortedTables.map (·.cut ⟨1, some 2⟩)).map Table.cursor) sortedPage = .ok merged ∧
      merged.rows.1 = .ok [[.int 2], [.int 4]] := by
  have hshape : sortedPage.shape.KeepsRows := ⟨rfl, rfl, rfl⟩
  have hwidth : HaveWidth 1 sortedTables := by
    intro t ht
    exact ⟨(by decide : ∀ t ∈ sortedTables, t.columns.length = 1) t ht,
      (by decide : ∀ t ∈ sortedTables, ∀ row ∈ t.rows, row.length = 1) t ht⟩
  have hlength : ∀ t ∈ sortedTables, t.rows.length < Nat.pow 2 64 := by
    decide
  have hmergeable : Mergeable .binary sortedPage.shape.orderBy sortedTables := by
    refine ⟨by decide, ?_⟩
    intro item hitem
    rw [List.mem_singleton.mp hitem]
    exact ⟨.int, rfl, by decide⟩
  have hrising : sortRising (Row.order .binary sortedPage.shape.orderBy)
      (sortedTables.flatMap (·.rows)) =
      .ok [[.int 1], [.int 2], [.int 4], [.int 4], [.int 6], [.null]] := by
    rfl
  rw [sortRising_eq_sortRows hmergeable.sortable] at hrising
  refine ⟨rfl, hshape, by decide, hwidth, hlength, hmergeable, ?_⟩
  have hpage : sortedPage.shape.page = some ⟨1, some 2⟩ := rfl
  rcases Merger.merge_cut_eq_slice ⟨.binary, .none⟩ hpage hshape (by decide) hwidth hlength
    hmergeable with ⟨merged, hmerge, hrows⟩
  refine ⟨merged, hmerge, ?_⟩
  rw [Shape.arranged_eq_sortRows, Except.ok.inj hrising] at hrows
  rw [hrows]
  rfl

end ShardedSql
