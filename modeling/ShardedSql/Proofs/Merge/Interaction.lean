import ShardedSql.Proofs.Cursor.Comparable
import ShardedSql.Proofs.Merge.Groups
import ShardedSql.Proofs.Merge.Page

/-!
# Interaction with merged results

Merged results of every shape, whether grouped, merged by order or put one after the other, paged
and masked or not, refine a list of rows: moves and reads in whatever order are answered as the
list answers them.

Main results:

- Theorem `CombinedCursor.exists_lists`: combined results behave as a list of rows.
- Theorem `Merger.merge_refines`: what the sender of a statement gets refines a list of rows.
-/

namespace ShardedSql

open Cursor

/-- Results of one width have the width of the first one. -/
theorem HaveWidth.common {width : Nat} {tables : List Table} (h : HaveWidth width tables) :
    HaveWidth (commonColumns (tables.map Table.cursor)).length tables := by
  cases tables with
  | nil => simp [HaveWidth]
  | cons t tables =>
      have hlength : t.columns.length = width := (h t List.mem_cons_self).columns_length
      show HaveWidth t.columns.length _
      rwa [hlength]

section Refinement

variable {width : Nat} {tables : List Table} (hwidth : HaveWidth width tables) {shape : Shape}
  {collation : Collation}
  (hcomparable : shape.KeepsRows →
    Comparable collation shape.orderBy (tables.flatMap (·.rows)))

include hwidth hcomparable

/-- Combined results behave as a list of rows, which are as wide as the results. -/
theorem CombinedCursor.exists_lists (visible : Nat) {c : CombinedCursor}
    (h : CombinedCursor.ofResults (tables.map Table.cursor) shape width collation = .ok c) :
    ∃ rows, (∀ row ∈ rows, row.length = width) ∧ Lists visible c rows := by
  have hun := Table.cursors_uninterrupted tables
  have hall : ∀ row ∈ (tables.map Table.cursor).flatMap (·.rows.rest), row.length = width :=
    Table.flatMap_rows tables ▸ hwidth.length_eq
  unfold CombinedCursor.ofResults at h
  split at h
  · cases hgroups : groupRows (tables.map Table.cursor) shape width collation with
    | error e =>
        rw [hgroups] at h
        cases h
    | ok merged =>
        rw [hgroups] at h
        cases h
        rcases (groupRows_eq_ok_iff (Table.cursors_neverFail tables) hwidth.rows_length).mp hgroups
          with ⟨-, hmerged⟩
        exact ⟨merged, Shape.groupwise_length hall hmerged,
          (RowCursor.lists visible merged).wrap CombinedCursor.rows (fun _ => rfl) (fun _ _ => rfl)⟩
  · next hkeeps =>
    have hkeeps : shape.KeepsRows := by
      simp only [Bool.or_eq_true, not_or, Bool.not_eq_true] at hkeeps
      exact ⟨hkeeps.1.1, hkeeps.1.2, hkeeps.2⟩
    split at h
    · have hrows := hcomparable hkeeps
      rw [← Table.flatMap_rows] at hrows
      rcases OrderedCursor.lists_of_comparable visible hun hrows with
        ⟨ordered, rows, hordered, hperm, hlists⟩
      rw [hordered] at h
      cases h
      exact ⟨rows, fun row hrow => hall row (hperm.mem_iff.mp hrow),
        hlists.wrap CombinedCursor.ordered (fun _ => rfl) (fun _ _ => rfl)⟩
    · cases h
      exact ⟨_, hall, (StreamCursor.lists visible hun).wrap CombinedCursor.stream (fun _ => rfl)
        (fun _ _ => rfl)⟩

/-- Merged results behave as a list of rows, from which a page is cut if there are several. -/
theorem MergedCursor.exists_lists (visible : Nat) {c : MergedCursor}
    (h : MergedCursor.ofResults (tables.map Table.cursor) shape width collation = .ok c) :
    ∃ rows, (∀ row ∈ rows, row.length = width) ∧ Lists visible c rows := by
  match tables, h with
  | [], h =>
      cases h
      exact ⟨[], by simp, ((RowCursor.lists visible []).wrap CombinedCursor.rows (fun _ => rfl)
        (fun _ _ => rfl)).wrap MergedCursor.whole (fun _ => rfl) (fun _ _ => rfl)⟩
  | [t], h =>
      cases h
      exact ⟨t.rows, (hwidth t List.mem_cons_self).rows_length,
        ((ResultCursor.lists visible t.columns t.rows).wrap CombinedCursor.single (fun _ => rfl)
          (fun _ _ => rfl)).wrap MergedCursor.whole (fun _ => rfl) (fun _ _ => rfl)⟩
  | t :: u :: tables, h =>
      simp only [List.map_cons, MergedCursor.ofResults] at h
      cases hcombined : CombinedCursor.ofResults (t.cursor :: u.cursor :: tables.map Table.cursor)
        shape width collation with
      | error e =>
          rw [hcombined] at h
          cases h
      | ok combined =>
          rw [hcombined] at h
          rcases CombinedCursor.exists_lists hwidth hcomparable visible hcombined with
            ⟨rows, hrows, hlists⟩
          cases hpage : shape.page with
          | none =>
              rw [hpage] at h
              cases h
              exact ⟨rows, hrows, hlists.wrap MergedCursor.whole (fun _ => rfl) (fun _ _ => rfl)⟩
          | some p =>
              rw [hpage] at h
              cases h
              refine ⟨p.slice rows, fun row hrow => hrows row ((p.slice_sublist rows).subset hrow),
                ?_⟩
              exact (hlists.page p).wrap MergedCursor.page (fun _ => rfl) (fun _ _ => rfl)

end Refinement

/-- Whatever is asked of merged results in memory, they answer as a list of rows with the visible
columns does: a move finds a row as long as there are any, reads yield the cells of the current row,
and there is no current row before the first move and ever after the first one that finds none. -/
theorem Merger.merge_refines (m : Merger) {statement : Statement} {width : Nat}
    {tables : List Table} (hwidth : HaveWidth width tables)
    (hcomparable : statement.shape.KeepsRows →
      Comparable m.collation statement.shape.orderBy (tables.flatMap (·.rows)))
    {merged : MergedResult} (h : m.merge (tables.map Table.cursor) statement = .ok merged) :
    ∃ rows : List Row, (∀ row ∈ rows, row.length = merged.width) ∧
      Refines merged.width merged rows := by
  rcases merge_eq_ok_iff.mp h with ⟨-, inner, hinner, hmerged⟩
  have hvisible : merged.width ≤ (commonColumns (tables.map Table.cursor)).length := by
    rw [hmerged]
    exact List.length_take_le' _ _
  rcases MergedCursor.exists_lists hwidth.common hcomparable merged.width hinner with
    ⟨rows, hrows, hlists⟩
  have hwide : Wide merged.width rows := by
    intro row hrow
    rw [hrows row hrow]
    exact hvisible
  have hcursor : merged.cursor.inner = inner := by rw [hmerged]
  refine ⟨_, ?_, (MergedResult.lists hwide (hcursor ▸ hlists)).refines⟩
  intro row hrow
  rcases List.mem_map.mp hrow with ⟨inside, hinside, rfl⟩
  simp [ColumnMasks.shown, hwide inside hinside]

/-- Two results with a number and an address each, the first one not sorted by the number. -/
def addressTables : List Table :=
  [⟨[⟨"k", "k"⟩, ⟨"email", "email"⟩, ⟨"k", "k_order"⟩],
      [[.int 3, .text "ann@x", .int 3], [.int 1, .text "bob@x", .int 1]]⟩,
    ⟨[⟨"k", "k"⟩, ⟨"email", "email"⟩, ⟨"k", "k_order"⟩], [[.int 2, .text "cy@x", .int 2]]⟩]

/-- A statement that asks for the addresses after the first one by a column that is not visible. -/
def addressPage : Statement :=
  { sql := "SELECT k, email FROM t_user ORDER BY k OFFSET 1"
    tables := ["t_user"]
    projections := [⟨none, "k"⟩, ⟨none, "email"⟩]
    shape := { Shape.plain with
      orderBy := [⟨2, .ascending, .last⟩], page := some ⟨1, none⟩, visibleColumns := some 2 } }

/-- A merge that hides what follows the at sign of an address. -/
def addressMerger : Merger :=
  ⟨.binary, ⟨[⟨"t_user", "email", ⟨.after, "@", '*'⟩⟩]⟩⟩

/-- What is shown of the addresses after the first one, in the order of their numbers 2, 3 and 1. -/
def shownAddresses : List Row :=
  [[.int 3, .text "ann@*"], [.int 1, .text "bob@*"]]

/-- Requests that read two rows of two cells and then look for a third one. -/
def readThrough : List (Request 2) :=
  [.move, .read 0, .read 1, .move, .read 0, .read 1, .move]

/-- Rows of two cells that answer these requests like two rows are these rows. -/
theorem eq_of_listAnswers {rows : List Row} (hlength : ∀ row ∈ rows, row.length = 2)
    (h : listAnswers rows 0 readThrough = listAnswers shownAddresses 0 readThrough) :
    rows = shownAddresses := by
  match rows, hlength, h with
  | [], _, h => simp [readThrough, listAnswers, shownAddresses] at h
  | [_], _, h => simp [readThrough, listAnswers, shownAddresses] at h
  | [r, s], hlength, h =>
      obtain ⟨a, b, rfl⟩ := List.length_eq_two.mp (hlength r (by simp))
      obtain ⟨c, d, rfl⟩ := List.length_eq_two.mp (hlength s (by simp))
      simpa [readThrough, listAnswers, shownAddresses, standing, Position.cell, and_assoc] using h
  | _ :: _ :: _ :: _, _, h => simp [readThrough, listAnswers, shownAddresses] at h

/-- The merge of `addressTables` refines `shownAddresses`. -/
theorem Merger.merge_refines_addressTables :
    HaveWidth 3 addressTables ∧
    Comparable .binary addressPage.shape.orderBy (addressTables.flatMap (·.rows)) ∧
    ∃ merged, addressMerger.merge (addressTables.map Table.cursor) addressPage = .ok merged ∧
      merged.width = 2 ∧ Refines 2 merged shownAddresses := by
  have hwidth : HaveWidth 3 addressTables := by
    intro t ht
    exact ⟨(by decide : ∀ t ∈ addressTables, t.columns.length = 3) t ht,
      (by decide : ∀ t ∈ addressTables, ∀ row ∈ t.rows, row.length = 3) t ht⟩
  have hcomparable :
      Comparable .binary addressPage.shape.orderBy (addressTables.flatMap (·.rows)) := by
    have hcells : ∀ row ∈ addressTables.flatMap (·.rows), ∃ n, row[2]? = some (.int n) := by
      intro row hrow
      simp only [addressTables, List.flatMap_cons, List.flatMap_nil, List.append_nil,
        List.cons_append, List.nil_append, List.mem_cons, List.not_mem_nil, or_false] at hrow
      rcases hrow with rfl | rfl | rfl <;> exact ⟨_, rfl⟩
    refine comparable_of_columns fun item hitem a ha b hb => ?_
    rcases hcells a ha with ⟨m, hm⟩
    rcases hcells b hb with ⟨n, hn⟩
    rw [List.mem_singleton.mp hitem]
    exact ⟨_, _, _, hm, hn, rfl⟩
  obtain ⟨merged, hmerged, hvisible⟩ :
      ∃ merged, addressMerger.merge (addressTables.map Table.cursor) addressPage = .ok merged ∧
        merged.width = 2 := ⟨_, rfl, rfl⟩
  obtain ⟨rows, hlength, hrefines⟩ :=
    addressMerger.merge_refines hwidth (fun _ => hcomparable) hmerged
  rw [hvisible] at hlength hrefines
  -- All rows are moved to and all cells are read, so that the answers tell the rows.
  have hanswers : (addressMerger.merge (addressTables.map Table.cursor) addressPage).map
      (answers readThrough) = .ok (listAnswers shownAddresses 0 readThrough) := rfl
  rw [hmerged] at hanswers
  have hrows : rows = shownAddresses :=
    eq_of_listAnswers hlength ((hrefines _).symm.trans (Except.ok.inj hanswers))
  exact ⟨hwidth, hcomparable, merged, hmerged, hvisible, hrows ▸ hrefines⟩

end ShardedSql
