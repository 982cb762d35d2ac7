import ShardedSql.Proofs.Cursor.Paged
import ShardedSql.Proofs.Traversal

/-!
# Merged tables

The results of several targets, held in memory, and what their merge delivers: the page of the
combined rows, as the sender of the statement sees them.

Main results:

- Theorem `Merger.merge_eq_ok_iff`: when results can be merged, and into what.
- Theorem `Merger.merge_eq`: several results are merged into the page of their combined rows.
- Theorem `Merger.rows_pageOf`: that page delivers the slice of the combined rows.
-/

namespace ShardedSql

open Cursor

/-- A result in memory: its columns and its rows. -/
structure Table where
  columns : List Column
  rows : List Row

namespace Table

/-- A cursor over a result. -/
def cursor (t : Table) : ResultCursor := .ofRows t.columns t.rows

/-- What is left of a result when its target delivers no more rows than are pushed down. -/
def cut (p : Page) (t : Table) : Table := { t with rows := p.cut t.rows }

/-- A result whose rows have as many cells as it has columns. -/
structure HasWidth (width : Nat) (t : Table) : Prop where
  columns_length : t.columns.length = width
  rows_length : ∀ row ∈ t.rows, row.length = width

/-- A page of a table is as wide as the table. -/
theorem HasWidth.cut {width : Nat} {t : Table} (h : t.HasWidth width) (p : Page) :
    (t.cut p).HasWidth width :=
  ⟨h.columns_length, fun row hrow => h.rows_length row ((p.cut_prefix t.rows).subset hrow)⟩

/-- The cursors of tables have the rows of the tables. -/
theorem flatMap_rows (tables : List Table) :
    (tables.map cursor).flatMap (·.rows.rest) = tables.flatMap (·.rows) := by
  rw [List.flatMap_map]
  rfl

/-- The cursors of tables are not interrupted. -/
theorem cursors_uninterrupted (tables : List Table) :
    ∀ r ∈ tables.map cursor, r.Uninterrupted := by
  intro r hr
  rcases List.mem_map.mp hr with ⟨t, -, rfl⟩
  exact ResultCursor.ofRows_uninterrupted t.columns t.rows

/-- The cursors of tables never fail. -/
theorem cursors_neverFail (tables : List Table) : ∀ r ∈ tables.map cursor, r.NeverFails :=
  fun r hr => (cursors_uninterrupted tables r hr).neverFails

end Table

/-- All results have the given width. -/
def HaveWidth (width : Nat) (tables : List Table) : Prop :=
  ∀ t ∈ tables, t.HasWidth width

/-- Pages of tables of one width have this width. -/
theorem HaveWidth.cut {width : Nat} {tables : List Table} (h : HaveWidth width tables)
    (p : Page) : HaveWidth width (tables.map (·.cut p)) := by
  intro t ht
  rcases List.mem_map.mp ht with ⟨whole, hwhole, rfl⟩
  exact (h whole hwhole).cut p

/-- The rows of their cursors have this width. -/
theorem HaveWidth.rows_length {width : Nat} {tables : List Table} (h : HaveWidth width tables) :
    ∀ r ∈ tables.map Table.cursor, ∀ row ∈ r.rows.rest, row.length = width := by
  intro r hr row hrow
  rcases List.mem_map.mp hr with ⟨t, ht, rfl⟩
  exact (h t ht).rows_length row hrow

/-- All rows of all results have the width. -/
theorem HaveWidth.length_eq {width : Nat} {tables : List Table} (h : HaveWidth width tables) :
    ∀ row ∈ tables.flatMap (·.rows), row.length = width := by
  intro row hrow
  rcases List.mem_flatMap.mp hrow with ⟨t, ht, hrow⟩
  exact (h t ht).rows_length row hrow

/-- In tables of one width all columns up to it are there. -/
theorem HaveWidth.wide {width : Nat} {tables : List Table} (h : HaveWidth width tables) :
    Wide width (tables.flatMap (·.rows)) :=
  fun row hrow => Nat.le_of_eq (h.length_eq row hrow).symm

namespace Merger

/-- How many columns of a result its sender sees. -/
def visibleWidth (statement : Statement) (width : Nat) : Nat :=
  min (statement.shape.visibleColumns.getD width) width

/-- Results can be merged when they have one width and their rows can be combined. -/
theorem merge_eq_ok_iff {m : Merger} {results : List ResultCursor} {statement : Statement}
    {merged : MergedResult} :
    m.merge results statement = .ok merged ↔
      (∀ r ∈ results, r.width = (commonColumns results).length) ∧
      ∃ inner, MergedCursor.ofResults results statement.shape (commonColumns results).length
          m.collation = .ok inner ∧
        merged = {
          columns := (commonColumns results).take
            (visibleWidth statement (commonColumns results).length)
          cursor := { inner, masks := m.masks.columnMasks statement } } := by
  unfold merge
  cases hfind : results.find? (·.width != (commonColumns results).length) with
  | some other =>
      simp only [hfind]
      refine ⟨fun h => (nomatch h), fun h => ?_⟩
      have hother := List.find?_some hfind
      rw [h.1 other (List.mem_of_find?_eq_some hfind)] at hother
      simp at hother
  | none =>
      simp only [hfind, Except.bind_eq_ok]
      refine ⟨?_, ?_⟩
      · rintro ⟨inner, hinner, h⟩
        refine ⟨fun r hr => ?_, inner, hinner, (Except.ok.inj h).symm⟩
        simpa using List.find?_eq_none.mp hfind r hr
      · rintro ⟨-, inner, hinner, rfl⟩
        exact ⟨inner, hinner, rfl⟩

/-- The page of combined rows, as its sender sees it. -/
def pageOf (m : Merger) (statement : Statement) (p : Page) (width : Nat) (columns : List Column)
    (c : CombinedCursor) : MergedResult :=
  { columns := columns.take (visibleWidth statement width)
    cursor := { inner := .page { inner := c, page := p }, masks := m.masks.columnMasks statement } }

/-- Several results of one width are merged into the page of their combined rows. -/
theorem merge_eq (m : Merger) {statement : Statement} {p : Page}
    (hpage : statement.shape.page = some p) {width : Nat} {tables : List Table}
    (hwidth : HaveWidth width tables) (hmany : 2 ≤ tables.length) :
    ∃ columns : List Column, columns.length = width ∧
      m.merge (tables.map Table.cursor) statement =
        (CombinedCursor.ofResults (tables.map Table.cursor) statement.shape width
          m.collation).map (m.pageOf statement p width columns) := by
  match tables, hmany with
  | t :: u :: tables, _ =>
      have hlength : t.columns.length = width := (hwidth t List.mem_cons_self).columns_length
      have hfind : ((t :: u :: tables).map Table.cursor).find?
          (fun r => r.width != t.columns.length) = none := by
        rw [List.find?_eq_none, hlength]
        intro r hr
        rcases List.mem_map.mp hr with ⟨v, hv, rfl⟩
        have hcolumns : v.cursor.width = width := (hwidth v hv).columns_length
        simp [hcolumns]
      refine ⟨t.columns, hlength, ?_⟩
      subst hlength
      have hcommon : commonColumns ((t :: u :: tables).map Table.cursor) = t.columns := rfl
      unfold Merger.merge
      simp only [hcommon, hfind, bind, Except.bind, pure, Except.pure]
      simp only [List.map_cons, MergedCursor.ofResults, hpage]
      cases CombinedCursor.ofResults (t.cursor :: u.cursor :: tables.map Table.cursor)
        statement.shape t.columns.length m.collation with
      | error e => rfl
      | ok c => rfl

/-- The page of combined rows delivers their slice. -/
theorem rows_pageOf (m : Merger) (statement : Statement) (p : Page) {width : Nat}
    {columns : List Column} (hcolumns : columns.length = width) {c : CombinedCursor}
    {rows : List Row} (hbound : rows.length ≤ bound c) (hwide : Wide width rows)
    (hdelivers : Delivers c rows) :
    (m.pageOf statement p width columns c).rows.1 = .ok ((p.slice rows).map
      ((m.masks.columnMasks statement).shown (visibleWidth statement width))) := by
  have hle : visibleWidth statement width ≤ width := Nat.min_le_right _ _
  have hvisible : (m.pageOf statement p width columns c).width = visibleWidth statement width := by
    show (columns.take _).length = _
    rw [List.length_take, hcolumns]
    exact Nat.min_eq_left hle
  have hslice : Delivers (m.pageOf statement p width columns c).cursor.inner (p.slice rows) :=
    (Paged.delivers p hdelivers).wrap MergedCursor.page (fun _ => rfl) (fun _ _ => rfl)
  have hwideSlice : Wide (visibleWidth statement width) (p.slice rows) := by
    intro row hrow
    exact Nat.le_trans hle (hwide row ((p.slice_sublist rows).subset hrow))
  have hrows := MergedResult.rows_eq (hvisible ▸ hwideSlice)
    (Nat.le_trans (p.slice_sublist rows).length_le hbound) hslice
  rwa [hvisible] at hrows

end Merger

end ShardedSql
