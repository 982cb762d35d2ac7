import ShardedSql.Proofs.Adaptation.Units
import ShardedSql.Proofs.Merge.GroupedResults
import ShardedSql.Sql.Reader

/-!
# Pages of grouped results

The page of a statement that is sent to several targets is pushed down to each of them, also when
their results are grouped.  A target then leaves out partial rows, and with them parts of the totals
of groups that it shares with others.  The page that is merged from such answers is the one of the
complete results exactly when no row that it shows is affected.

Main results:

- Theorem `Merger.rowsOf_eq_ok_iff`: the page of grouped results, group by group.
- Theorem `Merger.answers_iff_complete`: when answers that are cut give the page of the complete
  results.
- Theorem `Merger.answers_ne_complete_splitStatus`: a statement whose answers give a wrong total.
-/

namespace ShardedSql

open Cursor

/-! ## Rows of a page -/

/-- The positions of rows that a page shows. -/
structure Page.Covers (p : Page) (i : Nat) : Prop where
  offset_le : p.offset.toNat ≤ i
  lt_end : ∀ n, p.rowCount = some n → i < p.offset.toNat + n.toNat

/-- Two lists have the same page when they agree where the page shows them. -/
theorem Page.slice_eq_iff {α : Type} {p : Page} {xs ys : List α} :
    p.slice xs = p.slice ys ↔ ∀ i, p.Covers i → xs[i]? = ys[i]? := by
  unfold Page.slice
  rw [List.ext_getElem?_iff]
  cases hcount : p.rowCount with
  | none =>
      simp only [List.getElem?_drop]
      refine ⟨?_, ?_⟩
      · intro h i hi
        have hrow := h (i - p.offset.toNat)
        rwa [Nat.add_sub_cancel' hi.offset_le] at hrow
      · intro h i
        exact h _ ⟨Nat.le_add_right _ _, by simp [hcount]⟩
  | some n =>
      simp only [List.getElem?_take, List.getElem?_drop]
      refine ⟨?_, ?_⟩
      · intro h i hi
        have hrow := h (i - p.offset.toNat)
        have hend := hi.lt_end n hcount
        have hlt : i - p.offset.toNat < n.toNat := by
          have hle := hi.offset_le
          omega
        rwa [if_pos hlt, if_pos hlt, Nat.add_sub_cancel' hi.offset_le] at hrow
      · intro h i
        by_cases hi : i < n.toNat
        · rw [if_pos hi, if_pos hi]
          refine h _ ⟨Nat.le_add_right _ _, ?_⟩
          intro k hk
          rw [hcount, Option.some.injEq] at hk
          rw [← hk]
          omega
        · rw [if_neg hi, if_neg hi]

/-- A page can be cut before or after rows are changed one by one. -/
theorem Page.slice_map {α β : Type} (p : Page) (f : α → β) (xs : List α) :
    p.slice (xs.map f) = (p.slice xs).map f := by
  unfold Page.slice
  cases p.rowCount <;> simp

/-- The same for the images of the rows. -/
theorem Page.map_slice_eq_iff {α β : Type} {p : Page} (f : α → β) {xs ys : List α} :
    (p.slice xs).map f = (p.slice ys).map f ↔
      ∀ i, p.Covers i → xs[i]?.map f = ys[i]?.map f := by
  rw [← Page.slice_map, ← Page.slice_map, Page.slice_eq_iff]
  simp only [List.getElem?_map]

/-! ## Execution units -/

section Units

variable {adapt : Adapter} {statement : Statement} {route : Route} {units : List ExecutionUnit}

/-- A target to which the page has been pushed down answers with the first rows of its complete
result. -/
theorem answers_eq_cut {p : Page} (hpage : statement.shape.page = some p)
    (hunits : buildUnits adapt statement route = .ok units) (hmany : 2 ≤ units.length)
    {answer complete : ExecutionUnit → Table}
    (htarget : ∀ u ∈ route.units, ∀ sql, adapt statement u true = .ok sql →
      answer ⟨u.dataSource.actual, sql⟩ = (complete ⟨u.dataSource.actual, sql⟩).cut p) :
    units.map answer = (units.map complete).map (·.cut p) := by
  have hwidened := buildUnits_widened hunits hmany (by simp [hpage])
  rw [List.map_map]
  apply List.map_congr_left
  intro unit hunit
  rcases exists_of_mem_unitsOfRoute hwidened hunit with ⟨u, hu, hadapted⟩
  rcases Except.bind_eq_ok.mp hadapted with ⟨sql, hsql, hequal⟩
  cases hequal
  exact htarget u hu sql hsql

end Units

/-! ## The page of grouped results -/

namespace Merger

/-- The rows that the merge of some results delivers. -/
def rowsOf (m : Merger) (statement : Statement) (tables : List Table) :
    Except Fault (List Row) := do
  let merged ← m.merge (tables.map Table.cursor) statement
  merged.rows.1

/-- Results that are merged have one width. -/
theorem haveWidth_of_merge {m : Merger} {statement : Statement} {tables : List Table}
    (hrows : ∀ t ∈ tables, ∀ row ∈ t.rows, row.length = t.columns.length) {merged : MergedResult}
    (h : m.merge (tables.map Table.cursor) statement = .ok merged) :
    HaveWidth (commonColumns (tables.map Table.cursor)).length tables := by
  intro t ht
  have hcolumns : t.columns.length = (commonColumns (tables.map Table.cursor)).length :=
    (merge_eq_ok_iff.mp h).1 t.cursor (List.mem_map_of_mem ht)
  exact ⟨hcolumns, fun row hrow => (hrows t ht row hrow).trans hcolumns⟩

variable {m : Merger} {statement : Statement} {p : Page}

/-- Several results of one width whose rows are grouped give the page of the merged rows of all
groups. -/
theorem rowsOf_eq_ok_iff_of_haveWidth (hpage : statement.shape.page = some p)
    (hgrouped : statement.shape.GroupsRows) {tables : List Table} (hmany : 2 ≤ tables.length)
    {width : Nat} (hwidth : HaveWidth width tables) {rows : List Row} :
    m.rowsOf statement tables = .ok rows ↔
      statement.shape.ColumnsInRange width ∧
      ∃ merged, statement.shape.groupwise width m.collation (tables.flatMap (·.rows)) = .ok merged ∧
        rows = (p.slice merged).map
          ((m.masks.columnMasks statement).shown (visibleWidth statement width)) := by
  have hresults : ∀ r ∈ tables.map Table.cursor, r.width = width := by
    intro r hr
    rcases List.mem_map.mp hr with ⟨t, ht, rfl⟩
    exact (hwidth t ht).columns_length
  have hrows : m.rowsOf statement tables = .ok rows ↔
      ∃ merged, m.merge (tables.map Table.cursor) statement = .ok merged ∧
        merged.rows.1 = .ok rows := Except.bind_eq_ok
  have hpaged : ∀ all : List Row, statement.shape.paged all = p.slice all := fun all => by
    simp [Shape.paged, hpage]
  rw [hrows, merge_grouped_iff hgrouped (by simpa using hmany) hresults]
  simp only [groupRows_eq_ok_iff (Table.cursors_neverFail tables) hwidth.rows_length,
    Table.flatMap_rows, hpaged, and_assoc, exists_and_left]

/-- Several results whose rows are grouped give the page of the merged rows of all groups, provided
that they have one width. -/
theorem rowsOf_eq_ok_iff (hpage : statement.shape.page = some p)
    (hgrouped : statement.shape.GroupsRows) {tables : List Table} (hmany : 2 ≤ tables.length)
    (hrows : ∀ t ∈ tables, ∀ row ∈ t.rows, row.length = t.columns.length) {rows : List Row} :
    m.rowsOf statement tables = .ok rows ↔
      ∃ width merged, HaveWidth width tables ∧ statement.shape.ColumnsInRange width ∧
        statement.shape.groupwise width m.collation (tables.flatMap (·.rows)) = .ok merged ∧
        rows = (p.slice merged).map
          ((m.masks.columnMasks statement).shown (visibleWidth statement width)) := by
  constructor
  · intro h
    cases hmerge : m.merge (tables.map Table.cursor) statement with
    | error e => simp [rowsOf, hmerge, bind, Except.bind] at h
    | ok merged =>
        have hwidth := haveWidth_of_merge hrows hmerge
        rcases (rowsOf_eq_ok_iff_of_haveWidth hpage hgrouped hmany hwidth).mp h with
          ⟨hrange, all, hall, hslice⟩
        exact ⟨_, all, hwidth, hrange, hall, hslice⟩
  · rintro ⟨width, merged, hwidth, hrange, hmerged, hslice⟩
    exact (rowsOf_eq_ok_iff_of_haveWidth hpage hgrouped hmany hwidth).mpr
      ⟨hrange, merged, hmerged, hslice⟩

/-- The answers of targets to which the page has been pushed down give the page of their complete
results exactly when the groups can be merged from both and every row that the page shows is the
same for both.  A target to which the page has been pushed down answers with the first rows of its
complete result. -/
theorem answers_iff_complete (m : Merger) {adapt : Adapter} {statement : Statement} {route : Route}
    {p : Page} (hpage : statement.shape.page = some p) (hgrouped : statement.shape.GroupsRows)
    {units : List ExecutionUnit} (hunits : buildUnits adapt statement route = .ok units)
    (hmany : 2 ≤ units.length) {answer complete : ExecutionUnit → Table}
    (hrows : ∀ unit ∈ units, ∀ row ∈ (complete unit).rows,
      row.length = (complete unit).columns.length)
    (htarget : ∀ u ∈ route.units, ∀ sql, adapt statement u true = .ok sql →
      answer ⟨u.dataSource.actual, sql⟩ = (complete ⟨u.dataSource.actual, sql⟩).cut p) :
    (∃ page, m.rowsOf statement (units.map answer) = .ok page ∧
      m.rowsOf statement (units.map complete) = .ok page) ↔
    ∃ width kept all, HaveWidth width (units.map complete) ∧
      statement.shape.ColumnsInRange width ∧
      statement.shape.groupwise width m.collation
        (units.flatMap fun unit => p.cut (complete unit).rows) = .ok kept ∧
      statement.shape.groupwise width m.collation
        (units.flatMap fun unit => (complete unit).rows) = .ok all ∧
      ∀ i, p.Covers i →
        kept[i]?.map ((m.masks.columnMasks statement).shown (visibleWidth statement width)) =
          all[i]?.map ((m.masks.columnMasks statement).shown (visibleWidth statement width)) := by
  have hcomplete : ∀ t ∈ units.map complete, ∀ row ∈ t.rows, row.length = t.columns.length := by
    intro t ht
    rcases List.mem_map.mp ht with ⟨unit, hunit, rfl⟩
    exact hrows unit hunit
  have hallRows : (units.map complete).flatMap (·.rows) =
      units.flatMap fun unit => (complete unit).rows := by
    rw [List.flatMap_map]
  have hkeptRows : ((units.map complete).map (·.cut p)).flatMap (·.rows) =
      units.flatMap fun unit => p.cut (complete unit).rows := by
    rw [List.flatMap_map, List.flatMap_map]
    rfl
  have hmanyTables : 2 ≤ (units.map complete).length := by simpa using hmany
  have hmanyCut : 2 ≤ ((units.map complete).map (·.cut p)).length := by simpa using hmany
  rw [answers_eq_cut hpage hunits hmany htarget]
  constructor
  · rintro ⟨page, hcut, hfull⟩
    rcases (rowsOf_eq_ok_iff hpage hgrouped hmanyTables hcomplete).mp hfull with
      ⟨width, all, hwidth, hrange, hall, hpageAll⟩
    rcases (rowsOf_eq_ok_iff_of_haveWidth hpage hgrouped hmanyCut (hwidth.cut p)).mp hcut with
      ⟨-, kept, hkept, hpageKept⟩
    rw [hallRows] at hall
    rw [hkeptRows] at hkept
    refine ⟨width, kept, all, hwidth, hrange, hkept, hall, (Page.map_slice_eq_iff _).mp ?_⟩
    rw [← hpageKept, ← hpageAll]
  · rintro ⟨width, kept, all, hwidth, hrange, hkept, hall, hagree⟩
    rw [← hallRows] at hall
    rw [← hkeptRows] at hkept
    have hcut := (rowsOf_eq_ok_iff_of_haveWidth (m := m) hpage hgrouped hmanyCut
      (hwidth.cut p)).mpr ⟨hrange, kept, hkept, rfl⟩
    have hfull := (rowsOf_eq_ok_iff_of_haveWidth hpage hgrouped hmanyTables hwidth).mpr
      ⟨hrange, all, hall, (Page.map_slice_eq_iff _).mpr hagree⟩
    exact ⟨_, hcut, hfull⟩

/-! ### An affected total -/

/-- A statement that asks for the most frequent status. -/
def statusStatement : Statement :=
  { sql := "SELECT status, COUNT(*) FROM t_order GROUP BY status ORDER BY COUNT(*) DESC LIMIT 1"
    tables := ["t_order"]
    shape := { Shape.plain with
      orderBy := [⟨1, .descending, .last⟩], groupBy := [0], aggregates := [⟨1, .count⟩]
      page := some ⟨0, some 1⟩ } }

/-- Two data sources with a part of the table each. -/
def statusRoute : Route :=
  ⟨[⟨.identity "ds_0", [⟨"t_order", "t_order_0"⟩]⟩, ⟨.identity "ds_1", [⟨"t_order", "t_order_1"⟩]⟩]⟩

/-- The execution units of `statusStatement`, each with the limit of the page. -/
def statusUnits : List ExecutionUnit :=
  [⟨"ds_0",
    ⟨"SELECT status, COUNT(*) FROM t_order_0 GROUP BY status ORDER BY COUNT(*) DESC LIMIT 1", []⟩⟩,
  ⟨"ds_1",
    ⟨"SELECT status, COUNT(*) FROM t_order_1 GROUP BY status ORDER BY COUNT(*) DESC LIMIT 1", []⟩⟩]

/-- The statement goes to both data sources with its page widened. -/
theorem buildUnits_statusStatement :
    buildUnits (adapterFor (Sql.reader .postgres)) statusStatement statusRoute =
      .ok statusUnits := by
  apply eq_ok_of_toOption
  decide +kernel

/-- The counts of the two data sources. -/
def statusCounts (first second : List Row) (unit : ExecutionUnit) : Table :=
  ⟨[⟨"status", "status"⟩, ⟨"count", "count"⟩], if unit.dataSource = "ds_0" then first else second⟩

/-- Counts that are led by the same status in both data sources. -/
def commonStatus : ExecutionUnit → Table :=
  statusCounts [[.int 2, .int 7], [.int 1, .int 5]] [[.int 2, .int 4], [.int 1, .int 3]]

/-- Counts that are led by another status in each data source. -/
def splitStatus : ExecutionUnit → Table :=
  statusCounts [[.int 2, .int 7], [.int 1, .int 5]] [[.int 1, .int 4], [.int 2, .int 3]]

/-- The answers give the page of the complete results of `commonStatus`. -/
theorem answers_iff_complete_commonStatus :
    statusStatement.shape.page = some ⟨0, some 1⟩ ∧
    statusStatement.shape.GroupsRows ∧
    buildUnits (adapterFor (Sql.reader .postgres)) statusStatement statusRoute = .ok statusUnits ∧
    2 ≤ statusUnits.length ∧
    (∀ unit ∈ statusUnits, ∀ row ∈ (commonStatus unit).rows,
      row.length = (commonStatus unit).columns.length) ∧
    ∃ page,
      rowsOf ⟨.binary, .none⟩ statusStatement
        (statusUnits.map fun unit => (commonStatus unit).cut ⟨0, some 1⟩) = .ok page ∧
      rowsOf ⟨.binary, .none⟩ statusStatement (statusUnits.map commonStatus) = .ok page := by
  have hpage : statusStatement.shape.page = some ⟨0, some 1⟩ := rfl
  have hrows : ∀ unit ∈ statusUnits, ∀ row ∈ (commonStatus unit).rows,
      row.length = (commonStatus unit).columns.length := by
    decide
  have hwidth : HaveWidth 2 (statusUnits.map commonStatus) := by
    intro t ht
    exact ⟨(by decide : ∀ t ∈ statusUnits.map commonStatus, t.columns.length = 2) t ht,
      (by decide : ∀ t ∈ statusUnits.map commonStatus, ∀ row ∈ t.rows, row.length = 2) t ht⟩
  have hrange : ∀ column ∈ statusStatement.shape.columnsUsed 2, column < 2 := by
    decide
  refine ⟨hpage, rfl, buildUnits_statusStatement, by decide, hrows, ?_⟩
  refine (answers_iff_complete ⟨.binary, .none⟩ hpage rfl buildUnits_statusStatement (by decide)
    hrows fun _ _ _ _ => rfl).mpr
    ⟨2, [[.int 2, .int 11]], [[.int 2, .int 11], [.int 1, .int 8]], hwidth, hrange, rfl, rfl, ?_⟩
  intro i hi
  have hfirst : i = 0 := by
    have hend : i < 1 := hi.lt_end 1 rfl
    omega
  rw [hfirst]
  rfl

/-- The answers give less than the total of `splitStatus`: the second data source leaves out its
count of the status that leads. -/
theorem answers_ne_complete_splitStatus :
    buildUnits (adapterFor (Sql.reader .postgres)) statusStatement statusRoute = .ok statusUnits ∧
    rowsOf ⟨.binary, .none⟩ statusStatement
      (statusUnits.map fun unit => (splitStatus unit).cut ⟨0, some 1⟩) =
        .ok [[.int 2, .int 7]] ∧
    rowsOf ⟨.binary, .none⟩ statusStatement (statusUnits.map splitStatus) =
      .ok [[.int 2, .int 10]] :=
  ⟨buildUnits_statusStatement, rfl, rfl⟩

end Merger

end ShardedSql
