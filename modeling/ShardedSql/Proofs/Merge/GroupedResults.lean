import ShardedSql.Proofs.Merge.Groups

/-!
# Grouped results that may fail

A move of a result may fail, and its rows may be too short.  Grouping reads all rows of all results,
so that none of this has happened when there are merged rows.

Main results:

- Theorem `ResultCursor.foldRows_of_ok`: a fold that succeeds has read all rows of a result.
- Theorem `groupRows_of_ok`: results whose rows could be merged have been read to the end.
- Theorem `Merger.merge_grouped_iff`: the rows that grouped results are merged into.
-/

namespace ShardedSql

open Cursor

/-! ## Reading results -/

/-- A row that could be read has as many cells as have been read. -/
theorem Cursor.Shows.readRow_eq_ok {σ : Type} [Cursor σ] {s : σ} {row read : Row}
    (h : Shows s row) {width : Nat} (hread : Cursor.readRow width s = .ok read) :
    width ≤ row.length ∧ read = row.take width := by
  by_cases hwidth : width ≤ row.length
  · rw [h.readRow hwidth, Except.ok.injEq] at hread
    exact ⟨hwidth, hread.symm⟩
  · rcases mapM_cases (cell s) (List.range width) with ⟨-, -, hall, -⟩ | ⟨-, -, e, -, he⟩
    · rcases hall row.length (List.mem_range.mpr (Nat.lt_of_not_le hwidth)) with ⟨x, hx⟩
      rw [h row.length] at hx
      simp [Position.cell] at hx
    · have hfault : Cursor.readRow width s = .error e := he
      rw [hread] at hfault
      cases hfault

/-- A move of a result that does not fail comes to the next row or to the end. -/
theorem ResultCursor.next_of_ok {r r' : ResultCursor} {more : Bool}
    (h : r.next = (.ok more, r')) : more = r.rows.advance.1 ∧ r'.rows = r.rows.advance.2 := by
  unfold ResultCursor.next at h
  split at h
  · cases h
  · cases h
    exact ⟨rfl, rfl⟩
  · cases h
    exact ⟨rfl, rfl⟩

/-- A fold over a result that succeeds has met no fault and has read all rows. -/
theorem ResultCursor.foldRows_of_ok {α : Type} {width : Nat} {f : α → Row → Except Fault α}
    {a b : α} {r : ResultCursor} (h : (foldRows width f a r).1 = .ok b) :
    Wide width r.rows.rest ∧ (r.rows.rest.map (·.take width)).foldlM f a = .ok b := by
  have hfold : ∀ (rows : List Row) (a : α) (r : ResultCursor), r.rows.rest = rows →
      (foldUpTo width f (rows.length + 1) a r).1 = .ok b →
      Wide width rows ∧ (rows.map (·.take width)).foldlM f a = .ok b := by
    intro rows
    induction rows with
    | nil =>
        intro a r hrest h
        rcases hnext : Cursor.next r with ⟨_ | more, r'⟩
        · rw [foldUpTo, hnext] at h
          cases h
        · have hmore := (next_of_ok hnext).1
          rw [RowCursor.advance, hrest] at hmore
          rw [foldUpTo, hnext, hmore] at h
          exact ⟨by simp [Wide], h⟩
    | cons row rows ih =>
        intro a r hrest h
        rcases hnext : Cursor.next r with ⟨_ | more, r'⟩
        · rw [foldUpTo, hnext] at h
          cases h
        · rcases next_of_ok hnext with ⟨hmore, hrows⟩
          rw [RowCursor.advance, hrest] at hmore hrows
          have hshows : Shows r' row := fun column => by
            show r'.rows.position.cell column = _
            rw [hrows]
          rw [List.length_cons, foldUpTo, hnext, hmore] at h
          cases hread : readRow width r' >>= f a with
          | error e =>
              simp only [hread] at h
              cases h
          | ok next =>
              simp only [hread] at h
              rcases Except.bind_eq_ok.mp hread with ⟨cells, hcells, hf⟩
              rcases hshows.readRow_eq_ok hcells with ⟨hwide, rfl⟩
              rcases ih next r' (by rw [hrows]) h with ⟨hrest, hfold⟩
              refine ⟨List.forall_mem_cons.mpr ⟨hwide, hrest⟩, ?_⟩
              rw [List.map_cons, List.foldlM_cons, hf]
              exact hfold
  exact hfold r.rows.rest a r rfl h

/-- The rows of some results, as far as the given width goes. -/
def rowsRead (width : Nat) (results : List ResultCursor) : List Row :=
  results.flatMap fun r => r.rows.rest.map (·.take width)

/-- Rows that are read have the width that is asked for. -/
theorem rowsRead_length {width : Nat} {results : List ResultCursor}
    (h : ∀ r ∈ results, Wide width r.rows.rest) :
    ∀ row ∈ rowsRead width results, row.length = width := by
  intro row hrow
  rcases List.mem_flatMap.mp hrow with ⟨r, hr, hrow⟩
  rcases List.mem_map.mp hrow with ⟨whole, hwhole, rfl⟩
  rw [List.length_take]
  exact Nat.min_eq_left (h r hr whole hwhole)

/-- Results whose rows could be grouped have been read to the end. -/
theorem Grouping.collect_of_ok {g : Grouping} {width : Nat} {results : List ResultCursor}
    {groups : List Group} (h : g.collect width results = .ok groups) :
    (∀ r ∈ results, Wide width r.rows.rest) ∧
      (rowsRead width results).foldlM g.addRow [] = .ok groups := by
  have hfold : ∀ (results : List ResultCursor) (before : List Group),
      results.foldlM (fun groups r => (Cursor.foldRows width g.addRow groups r).1) before =
        .ok groups →
      (∀ r ∈ results, Wide width r.rows.rest) ∧
        (rowsRead width results).foldlM g.addRow before = .ok groups := by
    intro results
    induction results with
    | nil => exact fun before h => ⟨by simp, h⟩
    | cons r results ih =>
        intro before h
        rw [List.foldlM_cons] at h
        rcases Except.bind_eq_ok.mp h with ⟨next, hfirst, hlater⟩
        rcases ResultCursor.foldRows_of_ok hfirst with ⟨hwide, hrows⟩
        rcases ih next hlater with ⟨hwides, hrest⟩
        refine ⟨List.forall_mem_cons.mpr ⟨hwide, hwides⟩, ?_⟩
        rw [rowsRead, List.flatMap_cons, List.foldlM_append, hrows]
        exact hrest
  exact hfold results [] h

/-- Results that may fail have been read to the end when their rows could be merged, group by
group. -/
theorem groupRows_of_ok {results : List ResultCursor} {shape : Shape} {width : Nat}
    {collation : Collation} {merged : List Row}
    (h : groupRows results shape width collation = .ok merged) :
    shape.ColumnsInRange width ∧ (∀ r ∈ results, Wide width r.rows.rest) ∧
      shape.groupwise width collation (rowsRead width results) = .ok merged := by
  unfold groupRows at h
  split at h
  · cases h
  next hfind =>
    rcases Except.bind_eq_ok.mp h with ⟨groups, hgroups, hmerged⟩
    rcases Grouping.collect_of_ok hgroups with ⟨hwide, hrows⟩
    refine ⟨fun c hc => by simpa using List.find?_eq_none.mp hfind c hc, hwide, ?_⟩
    rcases (shape.grouping width collation).addRows_cases (rowsRead width results) with
      ⟨groups', hgroups', hcollected⟩ | ⟨-, -, e, he, -⟩
    · rw [hrows, Except.ok.injEq] at hgroups'
      subst hgroups'
      rw [hcollected.mapM_finish] at hmerged
      exact hmerged
    · rw [hrows] at he
      cases he

/-! ## The merge -/

/-- Rows of several results are grouped: by group columns, for aggregates or to drop equal ones. -/
def Shape.GroupsRows (s : Shape) : Prop :=
  (s.hasGroups || s.hasAggregates || s.distinct) = true

/-- The rows of the page that a shape asks for, all rows if it asks for none. -/
def Shape.paged (s : Shape) (rows : List Row) : List Row :=
  match s.page with
  | some p => p.slice rows
  | none => rows

/-- A page leaves rows out and keeps the order of the others. -/
theorem Shape.paged_sublist (s : Shape) (rows : List Row) : (s.paged rows).Sublist rows := by
  unfold paged
  split
  · exact Page.slice_sublist _ rows
  · exact List.Sublist.refl rows

/-- The page of rows in memory, before any column is hidden. -/
def Shape.pagedCursor (s : Shape) (rows : List Row) : MergedCursor :=
  match s.page with
  | some p => .page { inner := .rows (.ofRows rows), page := p }
  | none => .whole (.rows (.ofRows rows))

/-- The cursor of a page delivers the rows of the page. -/
theorem Shape.delivers_pagedCursor (s : Shape) (rows : List Row) :
    Delivers (s.pagedCursor rows) (s.paged rows) := by
  have hrows : Delivers (CombinedCursor.rows (.ofRows rows)) rows :=
    (RowCursor.delivers .beforeFirst rows).wrap CombinedCursor.rows (fun _ => rfl) (fun _ _ => rfl)
  unfold pagedCursor paged
  cases s.page with
  | some p =>
      exact (Paged.delivers p hrows).wrap MergedCursor.page (fun _ => rfl) (fun _ _ => rfl)
  | none => exact hrows.wrap MergedCursor.whole (fun _ => rfl) (fun _ _ => rfl)

/-- A page has no more rows than its cursor announces. -/
theorem Shape.length_paged_le_bound (s : Shape) (rows : List Row) :
    (s.paged rows).length ≤ bound (s.pagedCursor rows) := by
  have hbound : bound (s.pagedCursor rows) = rows.length := by
    unfold pagedCursor
    cases s.page <;> rfl
  rw [hbound]
  exact (s.paged_sublist rows).length_le

/-- Several results whose rows are grouped are combined into the merged rows of all groups. -/
theorem MergedCursor.ofResults_grouped {s : Shape} (hgrouped : s.GroupsRows)
    {results : List ResultCursor} (hmany : 2 ≤ results.length) (width : Nat)
    (collation : Collation) :
    MergedCursor.ofResults results s width collation =
      (groupRows results s width collation).map s.pagedCursor := by
  match results, hmany with
  | r :: r' :: later, _ =>
      have hcombined : CombinedCursor.ofResults (r :: r' :: later) s width collation =
          (groupRows (r :: r' :: later) s width collation).map fun rows =>
            .rows (.ofRows rows) := if_pos hgrouped
      unfold MergedCursor.ofResults
      simp only [hcombined]
      cases groupRows (r :: r' :: later) s width collation <;> rfl

/-- The page of rows in memory, as its sender sees it. -/
def Merger.pagedResult (m : Merger) (statement : Statement) (columns : List Column)
    (rows : List Row) : MergedResult :=
  { columns := columns.take (visibleWidth statement columns.length)
    cursor :=
      { inner := statement.shape.pagedCursor rows, masks := m.masks.columnMasks statement } }

/-- Reading the result of a page gives its rows as they are shown. -/
theorem Merger.rows_pagedResult (m : Merger) (statement : Statement) {columns : List Column}
    {rows : List Row} (hwide : Wide columns.length rows) :
    (m.pagedResult statement columns rows).rows.1 =
      .ok ((statement.shape.paged rows).map
        ((m.masks.columnMasks statement).shown (visibleWidth statement columns.length))) := by
  have hle : visibleWidth statement columns.length ≤ columns.length := Nat.min_le_right _ _
  have hvisible : (m.pagedResult statement columns rows).width =
      visibleWidth statement columns.length := by
    show (columns.take _).length = _
    rw [List.length_take]
    exact Nat.min_eq_left hle
  have hwidePage : Wide (visibleWidth statement columns.length) (statement.shape.paged rows) := by
    intro row hrow
    exact Nat.le_trans hle (hwide row ((statement.shape.paged_sublist rows).subset hrow))
  have hrows := MergedResult.rows_eq (hvisible ▸ hwidePage)
    (statement.shape.length_paged_le_bound rows) (statement.shape.delivers_pagedCursor rows)
  rwa [hvisible] at hrows

/-- Several results of one width whose rows are grouped are merged into the page of the merged rows
of all groups. -/
theorem Merger.merge_grouped_iff {m : Merger} {statement : Statement}
    (hgrouped : statement.shape.GroupsRows) {results : List ResultCursor}
    (hmany : 2 ≤ results.length) {width : Nat} (hwidth : ∀ r ∈ results, r.width = width)
    {rows : List Row} :
    (∃ merged, m.merge results statement = .ok merged ∧ merged.rows.1 = .ok rows) ↔
      ∃ all, groupRows results statement.shape width m.collation = .ok all ∧
        rows = (statement.shape.paged all).map
          ((m.masks.columnMasks statement).shown (visibleWidth statement width)) := by
  have hcommon : (commonColumns results).length = width := by
    cases results with
    | nil => simp at hmany
    | cons r later => exact hwidth r List.mem_cons_self
  have hmerge : ∀ merged, m.merge results statement = .ok merged ↔
      ∃ all, groupRows results statement.shape width m.collation = .ok all ∧
        merged = m.pagedResult statement (commonColumns results) all := by
    intro merged
    rw [merge_eq_ok_iff, hcommon, MergedCursor.ofResults_grouped hgrouped hmany,
      and_iff_right hwidth]
    cases groupRows results statement.shape width m.collation with
    | error e => simp [Except.map]
    | ok all => simp [Except.map, pagedResult, hcommon]
  have hrows : ∀ all, groupRows results statement.shape width m.collation = .ok all →
      (m.pagedResult statement (commonColumns results) all).rows.1 =
        .ok ((statement.shape.paged all).map
          ((m.masks.columnMasks statement).shown (visibleWidth statement width))) := by
    intro all hall
    rcases groupRows_of_ok hall with ⟨-, hwide, hgroupwise⟩
    rw [← hcommon]
    apply m.rows_pagedResult
    intro row hrow
    rw [hcommon]
    exact Nat.le_of_eq (Shape.groupwise_length (rowsRead_length hwide) hgroupwise row hrow).symm
  simp only [hmerge]
  constructor
  · rintro ⟨-, ⟨all, hall, rfl⟩, h⟩
    rw [hrows all hall, Except.ok.injEq] at h
    exact ⟨all, hall, h.symm⟩
  · rintro ⟨all, hall, rfl⟩
    exact ⟨_, ⟨all, hall, rfl⟩, hrows all hall⟩

end ShardedSql
