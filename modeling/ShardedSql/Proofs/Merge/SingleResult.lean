import ShardedSql.Proofs.Cursor.Interaction
import ShardedSql.Proofs.Merge.Table

/-!
# A single result

The target of a single result has sorted, grouped and cut its rows already.  The merge passes them
on as they are, whatever the shape of the statement, and only hides the columns that are not
visible.

Main results:

- Theorem `Merger.merge_single`: what a single result is merged into.
- Theorem `Merger.exists_narrows`: without masks it is passed on as it is.
-/

namespace ShardedSql

open Cursor

/-- Nothing is masked by the rule that masks nothing. -/
theorem MaskRule.columnMasks_none (statement : Statement) :
    MaskRule.none.columnMasks statement = [] := by
  unfold columnMasks
  rw [List.filterMap_eq_nil_iff]
  rintro ⟨p, index⟩ -
  have hmask : MaskRule.none.projectionMask? statement p = Option.none := by
    unfold projectionMask?
    cases p.table.or (soleTable? statement) <;> rfl
  show (MaskRule.none.projectionMask? statement p).map _ = _
  rw [hmask]
  rfl

/-- Without masks the visible cells are shown as they are. -/
theorem ColumnMasks.shown_nil (visible : Nat) :
    ColumnMasks.shown [] visible = (·.take visible) := by
  have happly : ColumnMasks.apply [] = fun _ cell => cell := rfl
  funext row
  rw [shown, happly]
  apply List.ext_getElem?
  intro column
  rw [List.getElem?_mapIdx, Option.map_id']

/-- Merged rows are those of a result up to the columns that are not visible. -/
structure MergedResult.Narrows (merged : MergedResult) (visible : Nat) (result : ResultCursor) :
    Prop where
  columns : merged.columns = result.columns.take visible
  answers : ∀ requests : List (Request visible), answers requests merged = answers requests result
  /-- All rows of a result that never fails are there in order, cut to the visible columns. -/
  rows : result.NeverFails → Wide visible result.rows.rest →
    merged.rows.1 = .ok (result.rows.rest.map (·.take visible))

namespace Merger

/-- A single result is passed on as it is, whatever the shape of the statement. -/
theorem merge_single (m : Merger) (statement : Statement) (result : ResultCursor) :
    m.merge [result] statement = .ok
      { columns := result.columns.take (visibleWidth statement result.width)
        cursor :=
          { inner := .whole (.single result), masks := m.masks.columnMasks statement } } := by
  rw [merge_eq_ok_iff]
  exact ⟨by simp [commonColumns, ResultCursor.width], _, rfl, rfl⟩

/-- Without masks a single result is passed on without the columns that are not visible. -/
theorem exists_narrows {m : Merger} (hmasks : m.masks = .none) (statement : Statement)
    (result : ResultCursor) :
    ∃ merged, m.merge [result] statement = .ok merged ∧
      merged.Narrows (visibleWidth statement result.width) result := by
  refine ⟨_, m.merge_single statement result, ?_⟩
  rw [hmasks, MaskRule.columnMasks_none]
  have hle : visibleWidth statement result.width ≤ result.width := Nat.min_le_right _ _
  generalize visibleWidth statement result.width = visible at hle
  have hlength : (result.columns.take visible).length = visible := by
    rw [List.length_take]
    exact Nat.min_eq_left hle
  let passed (inner : ResultCursor) : MergedResult :=
    { columns := result.columns.take visible
      cursor := { inner := .whole (.single inner), masks := [] } }
  have hcell : ∀ inner, ∀ column < visible, cell (passed inner) column = cell inner column := by
    intro inner column hcolumn
    show (if (result.columns.take visible).length ≤ column then _
      else (cell inner column).map (ColumnMasks.apply [] column)) = _
    rw [hlength, if_neg (Nat.not_le.mpr hcolumn)]
    cases cell inner column <;> rfl
  refine ⟨rfl, fun requests => answers_wrap passed (fun _ => rfl) hcell requests result, ?_⟩
  intro hnever hwide
  have hinner : Delivers (MergedCursor.whole (.single result)) result.rows.rest :=
    (hnever.delivers.wrap CombinedCursor.single (fun _ => rfl) (fun _ _ => rfl)).wrap
      MergedCursor.whole (fun _ => rfl) (fun _ _ => rfl)
  have hwidth : (passed result).width = visible := hlength
  have hmasks : (passed result).cursor.masks = [] := rfl
  have hrows := MergedResult.rows_eq (r := passed result) (hwidth.symm ▸ hwide) (Nat.le_refl _)
    hinner
  rwa [hwidth, hmasks, ColumnMasks.shown_nil] at hrows

end Merger

end ShardedSql
