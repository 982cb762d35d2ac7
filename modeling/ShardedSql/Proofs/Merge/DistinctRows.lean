import ShardedSql.Proofs.Merge.AlikeGroups
import ShardedSql.Proofs.Merge.DistinctPage
import ShardedSql.Proofs.Merge.SingleResult

/-!
# Rows that are kept apart

A statement that drops equal rows groups them by its group columns, if it has any, and by all
visible columns otherwise.  Rows of different groups are then told apart by what is visible of the
group columns, unless an aggregate has put a total there.

Main results:

- Theorem `Shape.groupwise_apart`: no two merged rows agree in all visible columns if the groups can
  be told by them.
- Theorem `Shape.exists_groupwise_alike`: otherwise some rows are merged into two that agree.
- Theorem `Merger.keepsApart_of_seesGroups`: which shapes keep equal rows from being returned.
-/

namespace ShardedSql

/-- Two rows agree in the visible columns. -/
def Row.Agree (collation : Collation) (visible : Nat) (a b : Row) : Prop :=
  ∀ c < visible, Cell.equals collation (a.cell c) (b.cell c) = .ok true

/-- The groups of a shape can be told by what is visible: every group column is visible, and no
aggregate computes its cells. -/
structure Shape.SeesGroups (s : Shape) (width : Nat) : Prop where
  visible : ∀ c ∈ s.groupColumns width, c < min (s.visibleColumns.getD width) width
  uncomputed : ∀ c ∈ s.groupColumns width, c ∉ s.aggregates.flatMap (·.computed)

namespace Shape

variable {s : Shape} {width : Nat} {collation : Collation} {rows merged : List Row}

/-- No two merged rows agree in all visible columns if the groups can be told by them. -/
theorem groupwise_apart (hsees : s.SeesGroups width)
    (htell : ∀ c ∈ s.groupColumns width, Cell.Tellable collation (rows.map (·.cell c)))
    (h : s.groupwise width collation rows = .ok merged) :
    merged.Pairwise fun a b =>
      ¬ Row.Agree collation (min (s.visibleColumns.getD width) width) a b := by
  have hshort : ∀ row ∈ rows, ∀ c ∈ s.groupColumns width, (row.cell c).Short collation :=
    fun row hrow c hc => (htell c hc).short _ (List.mem_map_of_mem hrow)
  have hcell : ∀ row ∈ merged, ∀ c ∈ s.groupColumns width, row.cell c ∈ rows.map (·.cell c) := by
    intro row hrow c hc
    rcases groupwise_keeps h hrow (hsees.uncomputed c hc) with ⟨r, hr, hcell⟩
    exact hcell ▸ List.mem_map_of_mem hr
  have hnodup := map_key_groupwise hsees.uncomputed hshort h
  rw [List.Nodup, List.pairwise_map] at hnodup
  refine hnodup.imp_of_mem ?_
  intro a b ha hb hkey hagree
  refine hkey ?_
  have hsame : ∀ c ∈ s.groupColumns width,
      (a.cell c).groupKey collation = (b.cell c).groupKey collation := fun c hc =>
    (htell c hc).groupKey_eq (hcell a ha c hc) (hcell b hb c hc)
      (hagree c (hsees.visible c hc))
  unfold Grouping.key
  rw [List.flatMap_def, List.flatMap_def]
  exact congrArg List.flatten (List.map_congr_left hsame)

end Shape

/-! ## The merge -/

/-- The same statement, with another page or none. -/
def Statement.onPage (statement : Statement) (page : Option Page) : Statement :=
  { statement with shape := { statement.shape with page } }

/-- Cells whose masks leave them as they are are shown as they are. -/
theorem ColumnMasks.cell_shown {masks : ColumnMasks} {visible : Nat}
    (hplain : ∀ c < visible, ∀ x, masks.apply c x = x) (row : Row) {c : Nat} (hc : c < visible) :
    (masks.shown visible row).cell c = row.cell c := by
  unfold shown Row.cell
  rw [List.getD_eq_getElem?_getD, List.getD_eq_getElem?_getD, List.getElem?_mapIdx,
    List.getElem?_take_of_lt hc]
  cases row[c]? with
  | none => rfl
  | some x => simp [hplain c hc]

namespace Merger

/-- No masks hide what is visible of a statement. -/
def ShowsPlain (m : Merger) (statement : Statement) (width : Nat) : Prop :=
  ∀ c < visibleWidth statement width, ∀ x, (m.masks.columnMasks statement).apply c x = x

/-- Of whatever page of whatever results, as long as key bytes tell the cells of their group columns
apart, no two rows agree in all visible columns. -/
def KeepsApart (m : Merger) (statement : Statement) (width : Nat) : Prop :=
  ∀ (page : Option Page) (results : List ResultCursor), 2 ≤ results.length →
    (∀ r ∈ results, r.width = width) →
    (∀ c ∈ statement.shape.groupColumns width,
      Cell.Tellable m.collation ((rowsRead width results).map (·.cell c))) →
    ∀ merged rows, m.merge results (statement.onPage page) = .ok merged →
      merged.rows.1 = .ok rows →
      rows.Pairwise fun a b => ¬ Row.Agree m.collation (visibleWidth statement width) a b

variable {m : Merger} {statement : Statement} {width : Nat}

/-- Without masks every column is shown as it is. -/
theorem showsPlain_of_masks_none (hmasks : m.masks = .none) (statement : Statement) (width : Nat) :
    m.ShowsPlain statement width := by
  intro c _ x
  rw [hmasks, MaskRule.columnMasks_none]
  rfl

/-- A visible cell without a mask is shown as it is. -/
theorem ShowsPlain.cell_shown (hplain : m.ShowsPlain statement width) (page : Option Page)
    (row : Row) {c : Nat} (hc : c < visibleWidth statement width) :
    (((m.masks.columnMasks (statement.onPage page)).shown
      (visibleWidth (statement.onPage page) width)) row).cell c = row.cell c :=
  ColumnMasks.cell_shown hplain row hc

/-- Groups that can be told by what is visible are kept apart. -/
theorem keepsApart_of_seesGroups (hgrouped : statement.shape.GroupsRows)
    (hplain : m.ShowsPlain statement width) (hsees : statement.shape.SeesGroups width) :
    m.KeepsApart statement width := by
  intro page results hmany hwidth htell merged rows hmerge hrows
  have hgroupedPage : (statement.onPage page).shape.GroupsRows := hgrouped
  rcases (merge_grouped_iff hgroupedPage hmany hwidth).mp ⟨merged, hmerge, hrows⟩ with
    ⟨all, hall, rfl⟩
  have hgroupwise : statement.shape.groupwise width m.collation (rowsRead width results) =
      .ok all := (groupRows_of_ok hall).2.2
  have hapart := Shape.groupwise_apart hsees htell hgroupwise
  have hpage := hapart.sublist ((statement.onPage page).shape.paged_sublist all)
  rw [List.pairwise_map]
  refine hpage.imp ?_
  intro a b hdiffer hagree
  refine hdiffer fun c hc => ?_
  have hcell := hagree c hc
  rwa [hplain.cell_shown page a hc, hplain.cell_shown page b hc] at hcell

/-- The rows of these results are the numbers. -/
theorem rowsRead_numberResults (column : Nat) :
    rowsRead width (numberResults width column) = numberRows width column := by
  have htake : ∀ n, (numberRow width column n).take width = numberRow width column n := fun n =>
    List.take_of_length_le (Nat.le_of_eq length_numberRow)
  show [(numberRow width column 1).take width, (numberRow width column 1).take width,
    (numberRow width column 2).take width] = _
  rw [htake, htake, numberRows]

/-- Their cells can be told apart by their keys. -/
theorem tellable_numberRows (collation : Collation) (column c : Nat) :
    Cell.Tellable collation ((numberRows width column).map (·.cell c)) :=
  .of_isOf_int (cells_numberRows_isOf_int c)

/-- Groups that are kept apart can be told by what is visible. -/
theorem seesGroups_of_keepsApart (hgrouped : statement.shape.GroupsRows)
    (hplain : m.ShowsPlain statement width) (hrange : statement.shape.ColumnsInRange width)
    (hapart : (statement.shape.aggregates.flatMap (·.columns)).Nodup)
    (h : m.KeepsApart statement width) : statement.shape.SeesGroups width := by
  have hnone : ∀ column ∈ statement.shape.groupColumns width,
      ¬ (visibleWidth statement width ≤ column ∨
        column ∈ statement.shape.aggregates.flatMap (·.computed)) := by
    intro column hcolumn halike
    rcases Shape.exists_groupwise_alike m.collation hrange hapart hcolumn halike with
      ⟨all, hgroupwise, hlength, hsame⟩
    have hmany : 2 ≤ (numberResults width column).length := Nat.le_refl 2
    have hrest : (numberResults width column).flatMap (·.rows.rest) = numberRows width column := rfl
    have hrows : ∀ r ∈ numberResults width column, ∀ row ∈ r.rows.rest, row.length = width := by
      intro r hr row hrow
      have hmem : row ∈ numberRows width column := hrest ▸ List.mem_flatMap.mpr ⟨r, hr, hrow⟩
      rcases exists_numberRow_of_mem hmem with ⟨n, rfl⟩
      exact length_numberRow
    have hwidth : ∀ r ∈ numberResults width column, r.width = width := by
      intro r hr
      rcases List.mem_map.mp hr with ⟨t, ht, rfl⟩
      simp only [List.mem_cons, List.not_mem_nil, or_false] at ht
      rcases ht with rfl | rfl <;> exact List.length_replicate
    have hgroups : groupRows (numberResults width column) statement.shape width m.collation =
        .ok all :=
      (groupRows_eq_ok_iff (Table.cursors_neverFail _) hrows).mpr ⟨hrange, hgroupwise⟩
    have hgroupedAll : (statement.onPage none).shape.GroupsRows := hgrouped
    rcases (merge_grouped_iff hgroupedAll hmany hwidth).mpr ⟨all, hgroups, rfl⟩ with
      ⟨merged, hmerge, hmerged⟩
    have hpairs := h none (numberResults width column) hmany hwidth
      (fun c _ => rowsRead_numberResults column ▸ tellable_numberRows m.collation column c)
      merged _ hmerge hmerged
    rw [List.pairwise_map] at hpairs
    match all, hlength with
    | [a, b], _ =>
        refine List.rel_of_pairwise_cons hpairs (List.mem_singleton_self b) ?_
        intro c hc
        rcases hsame a (by simp) b (by simp) c hc with ⟨hcell, hint⟩
        rw [hplain.cell_shown none a hc, hplain.cell_shown none b hc, ← hcell]
        exact Cell.equals_self_of_isOf_int hint
  exact ⟨fun c hc => Nat.lt_of_not_le fun hle => hnone c hc (.inl hle),
    fun c hc hmem => hnone c hc (.inr hmem)⟩

/-- A statement that drops equal rows has none left among its merged rows exactly when its groups
can be told by what is visible: group columns must not be hidden and must not be computed by
aggregates.  Shapes whose merge fails or whose aggregates share columns are left out of the second
part. -/
theorem distinct_keepsApart_iff (hdistinct : statement.shape.distinct = true)
    (hplain : m.ShowsPlain statement width) :
    (statement.shape.SeesGroups width → m.KeepsApart statement width) ∧
    (statement.shape.ColumnsInRange width →
      (statement.shape.aggregates.flatMap (·.columns)).Nodup →
        (m.KeepsApart statement width ↔ statement.shape.SeesGroups width)) := by
  have hgrouped : statement.shape.GroupsRows := by
    simp [Shape.GroupsRows, hdistinct]
  exact ⟨keepsApart_of_seesGroups hgrouped hplain, fun hrange hapart =>
    ⟨seesGroups_of_keepsApart hgrouped hplain hrange hapart,
      keepsApart_of_seesGroups hgrouped hplain⟩⟩

/-! ### Amounts by customer, status by user -/

/-- Amounts by customer, each customer once. -/
def amountStatement : Statement :=
  { sql := "SELECT DISTINCT name, SUM(amount), MAX(amount) FROM t_order GROUP BY name"
    shape := { amountShape with distinct := true } }

/-- The amounts of two customers, one of whom is written in two ways. -/
theorem distinct_keepsApart_iff_amounts :
    amountStatement.shape.distinct = true ∧
    ShowsPlain ⟨.caseInsensitive, .none⟩ amountStatement 3 ∧
    amountStatement.shape.SeesGroups 3 ∧
    ∃ merged, merge ⟨.caseInsensitive, .none⟩ amountResults amountStatement = .ok merged ∧
      merged.rows.1 = .ok [[.text "ann", .int 7, .int 9], [.text "Bob", .null, .int 1]] ∧
      List.Pairwise (fun a b => ¬ Row.Agree .caseInsensitive 3 a b)
        [[.text "ann", .int 7, .int 9], [.text "Bob", .null, .int 1]] := by
  have hplain := showsPlain_of_masks_none (m := ⟨.caseInsensitive, .none⟩) rfl amountStatement 3
  have hsees : amountStatement.shape.SeesGroups 3 := ⟨by decide, by decide⟩
  have htell : ∀ c ∈ amountStatement.shape.groupColumns 3,
      Cell.Tellable .caseInsensitive ((rowsRead 3 amountResults).map (·.cell c)) := by
    intro c hc
    have hfirst : c = 0 := List.mem_singleton.mp hc
    subst hfirst
    exact ⟨by decide +kernel, by decide⟩
  have hrows : (merge ⟨.caseInsensitive, .none⟩ amountResults amountStatement >>= fun merged =>
      merged.rows.1) = .ok [[.text "ann", .int 7, .int 9], [.text "Bob", .null, .int 1]] := by
    apply eq_ok_of_toOption
    decide +kernel
  rcases Except.bind_eq_ok.mp hrows with ⟨merged, hmerge, hmerged⟩
  have hapart := (distinct_keepsApart_iff rfl hplain).1 hsees
  exact ⟨rfl, hplain, hsees, merged, hmerge, hmerged,
    hapart none amountResults (by decide) (by decide) htell merged _ hmerge hmerged⟩

/-- The status of each user, each status once. -/
def userStatement : Statement :=
  { sql := "SELECT DISTINCT status FROM t_order GROUP BY status, user_id"
    shape := { Shape.plain with groupBy := [0, 1], distinct := true, visibleColumns := some 1 } }

/-- The number of orders. -/
def countStatement : Statement :=
  { sql := "SELECT DISTINCT COUNT(*) FROM t_order"
    shape := { Shape.plain with aggregates := [⟨0, .count⟩], distinct := true } }

/-- The totals of all orders. -/
def totalStatement : Statement :=
  { sql := "SELECT DISTINCT total FROM t_order", shape := { Shape.plain with distinct := true } }

/-- Rows that agree are left where a group column is hidden, where partial counts are taken for what
is counted, and where an integer is beyond the precision of the floating-point number it equals. -/
theorem rows_not_apart :
    (rowsOf ⟨.binary, .none⟩ userStatement
        [⟨[⟨"status", "status"⟩, ⟨"user_id", "user_id"⟩], [[.text "paid", .int 1]]⟩,
          ⟨[⟨"status", "status"⟩, ⟨"user_id", "user_id"⟩], [[.text "paid", .int 2]]⟩] =
      .ok [[.text "paid"], [.text "paid"]] ∧
      Row.Agree .binary 1 [.text "paid"] [.text "paid"]) ∧
    (rowsOf ⟨.binary, .none⟩ countStatement
        [⟨[⟨"count", "count"⟩], [[.int 5]]⟩, ⟨[⟨"count", "count"⟩], [[.int 5]]⟩,
          ⟨[⟨"count", "count"⟩], [[.int 10]]⟩] =
      .ok [[.int 10], [.int 10]] ∧
      Row.Agree .binary 1 [.int 10] [.int 10]) ∧
    rowsOf ⟨.binary, .none⟩ totalStatement
        [⟨[⟨"total", "total"⟩], [[.int 9007199254740993]]⟩,
          ⟨[⟨"total", "total"⟩], [[.float ⟨0x4340000000000000⟩]]⟩] =
      .ok [[.int 9007199254740993], [.float ⟨0x4340000000000000⟩]] ∧
      Row.Agree .binary 1 [.int 9007199254740993] [.float ⟨0x4340000000000000⟩] := by
  have hagree : ∀ x y : Cell, Cell.equals .binary x y = .ok true →
      Row.Agree .binary 1 [x] [y] := by
    intro x y hxy c hc
    have hfirst : c = 0 := by omega
    rw [hfirst]
    exact hxy
  refine ⟨⟨?_, hagree _ _ rfl⟩, ⟨?_, hagree _ _ rfl⟩, ?_, hagree _ _ ?_⟩ <;>
    · apply eq_ok_of_toOption
      decide +kernel

end Merger

end ShardedSql
