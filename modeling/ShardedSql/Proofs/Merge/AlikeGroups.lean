import ShardedSql.Proofs.Merge.GroupCells
import ShardedSql.Proofs.Merge.ShardOrder
import ShardedSql.Proofs.Sorting.SortedRows

/-!
# Groups that look alike

Groups whose rows are nulls but for a number in one column, a group column, are merged into rows
that differ in that column only.  If an aggregate puts a sum or an average there, they do not even
differ in that column.

Main results:

- Theorem `Grouping.Summarises.cell_eq_of_computed`: groups whose numbers have the same sum are
  merged into the same cell.
- Theorem `Grouping.exists_mergedRows_alike`: two groups that are merged into rows that differ in
  one column at most.
- Theorem `Shape.exists_groupwise_alike`: the same for the merged rows of a shape.
-/

namespace ShardedSql

/-! ## Rows with one number -/

/-- A row of nulls but for one number. -/
def numberRow (width column : Nat) (n : Int64) : Row :=
  (List.replicate width Cell.null).set column (.int n)

/-- Two results that hold a number twice in one column, and another number once. -/
def numberResults (width column : Nat) : List ResultCursor :=
  [⟨List.replicate width ⟨"", ""⟩, [numberRow width column 1, numberRow width column 1]⟩,
    ⟨List.replicate width ⟨"", ""⟩, [numberRow width column 2]⟩].map Table.cursor

section Numbers

variable {width column c : Nat} {n : Int64}

theorem length_numberRow : (numberRow width column n).length = width := by
  simp [numberRow]

theorem replicate_null_cell : Row.cell (List.replicate width Cell.null) c = .null := by
  unfold Row.cell
  by_cases hc : c < width <;> simp [List.getD, hc]

theorem numberRow_cell_self (h : column < width) :
    (numberRow width column n).cell column = .int n :=
  Row.cell_set_self (by simpa using h) _

/-- All cells but the number are null. -/
theorem numberRow_cell_of_ne (h : c ≠ column) : (numberRow width column n).cell c = .null := by
  rw [numberRow, Row.cell_set_of_ne h.symm, replicate_null_cell]

/-- So all cells are integers or null. -/
theorem isOf_int_numberRow : ((numberRow width column n).cell c).isOf .int := by
  rcases Row.cell_set_cases (List.replicate width Cell.null) column c (.int n) with h | ⟨-, h⟩
  · rw [numberRow, h, replicate_null_cell]
    rfl
  · rw [numberRow, h]
    rfl

end Numbers

/-- Integers and nulls equal themselves. -/
theorem Cell.equals_self_of_isOf_int {collation : Collation} {c : Cell} (h : c.isOf .int) :
    equals collation c c = .ok true := by
  rcases isOf_cases h with rfl | ⟨-, hkind⟩
  · rfl
  · rcases int_of_kind hkind with ⟨n, rfl⟩
    simp [equals, order, Except.map]

/-- Integers and nulls can be told apart by their keys. -/
theorem Cell.Tellable.of_isOf_int {collation : Collation} {cells : List Cell}
    (h : ∀ c ∈ cells, c.isOf .int) : Tellable collation cells := by
  refine ⟨fun c hc => ?_, fun c _ d hd _ => ?_⟩
  · rcases isOf_cases (h c hc) with rfl | ⟨-, hkind⟩
    · trivial
    · rcases int_of_kind hkind with ⟨n, rfl⟩
      trivial
  · rcases isOf_cases (h d hd) with rfl | ⟨-, hkind⟩
    · simp [kind]
    · simp [hkind]

/-! ## Merged rows of rows with one number -/

/-- Nulls have the total null. -/
theorem Accumulation.IsTotal.eq_null {k : Accumulation} {collation : Collation} {cells : List Cell}
    {total : Cell} (h : k.IsTotal collation cells total) (hnull : ∀ c ∈ cells, c = .null) :
    total = .null := by
  have hbest : ∀ wanted, Cell.IsBest wanted collation cells total → total = .null := by
    rintro wanted (⟨-, hnone⟩ | ⟨before, after, hcells, -⟩)
    · exact hnone
    · exact hnull total (by simp [hcells])
  cases k with
  | sum =>
      rcases h with ⟨-, hnone⟩ | ⟨⟨c, hc, hsome⟩, -⟩
      · exact hnone
      · rw [hnull c hc] at hsome
        cases hsome
  | least | greatest => exact hbest _ h

/-- Without a count or without a sum there is no average. -/
theorem average_eq_null {sum count c : Cell} (h : average sum count = .ok c)
    (hcount : count.isOf .int) (hnull : sum = .null ∨ count = .null) : c = .null := by
  rcases Cell.isOf_cases hcount with rfl | ⟨-, hkind⟩
  · cases h
    rfl
  · rcases Cell.int_of_kind hkind with ⟨n, rfl⟩
    rcases hnull with rfl | hnull
    · simpa [average, Cell.isNull, Cell.number?, eq_comm] using h
    · cases hnull

namespace Grouping

variable {g : Grouping} {width : Nat} {members members' : List Row}
  {leader leader' merged merged' : Row} {column : Nat}

/-- A column that is computed is summed or holds an average. -/
theorem computed_cases (h : column ∈ g.computed) :
    (column, .sum) ∈ g.accumulations ∨
      ∃ a ∈ g.aggregates, a.column = column ∧ ∃ s n, a.kind = .average s n := by
  rcases List.mem_flatMap.mp h with ⟨a, ha, hmem⟩
  have hsum : (column, .sum) ∈ a.accumulations → (column, .sum) ∈ g.accumulations := fun hx =>
    List.mem_flatMap.mpr ⟨a, ha, hx⟩
  unfold Aggregate.computed at hmem
  cases hkind : a.kind with
  | count | sum =>
      rw [hkind, List.mem_singleton] at hmem
      exact .inl (hsum (by simp [Aggregate.accumulations, hkind, hmem]))
  | min | max => simp [hkind] at hmem
  | average s n =>
      simp only [hkind, List.mem_cons, List.not_mem_nil, or_false] at hmem
      rcases hmem with rfl | hmem
      · exact .inr ⟨a, ha, rfl, s, n, hkind⟩
      · refine .inl (hsum ?_)
        rcases hmem with rfl | rfl <;> simp [Aggregate.accumulations, hkind]

/-- The columns of an average differ. -/
theorem Separate.average_nodup (hg : g.Separate width) {a : Aggregate} (ha : a ∈ g.aggregates)
    {s n : Nat} (hkind : a.kind = .average s n) : [a.column, s, n].Nodup := by
  have hnodup := (List.nodup_flatMap.mp hg.apart).1 a ha
  rwa [Aggregate.columns, hkind] at hnodup

/-- The merged row of a group of rows with numbers in one column has nulls in the others. -/
theorem Summarises.cell_eq_null (hg : g.Separate width) (h : g.Summarises members leader merged)
    (hnull : ∀ row ∈ leader :: members, ∀ c ≠ column, row.cell c = .null) {c : Nat}
    (hc : c ≠ column) : merged.cell c = .null := by
  have hadded : ∀ x ∈ g.accumulations, x.1 ≠ column → merged.cell x.1 = .null := by
    intro x hx hne
    apply (h.accumulated x hx).eq_null
    intro cell hcell
    rcases List.mem_map.mp hcell with ⟨row, hrow, rfl⟩
    exact hnull row (List.mem_cons_of_mem _ hrow) _ hne
  by_cases hmem : c ∈ g.aggregateColumns
  · rcases column_cases hmem with ⟨k, hk⟩ | ⟨a, ha, s, n, hkind, rfl, hs, hn⟩
    · exact hadded (c, k) hk hc
    · have hdiffer := hg.average_nodup ha hkind
      refine average_eq_null (h.averaged a ha s n hkind)
        (Cell.IsSum.isOf_int (h.accumulated _ hn)) ?_
      by_cases hcount : n = column
      · left
        apply hadded _ hs
        rintro rfl
        simp [hcount] at hdiffer
      · exact .inr (hadded _ hn hcount)
  · rw [h.untouched c hmem]
    exact hnull leader List.mem_cons_self c hc

/-- In a column that is computed two groups are merged into the same cell if their numbers have the
same sum. -/
theorem Summarises.cell_eq_of_computed (hg : g.Separate width)
    (h : g.Summarises members leader merged) (h' : g.Summarises members' leader' merged')
    (hnull : ∀ row ∈ leader :: members, ∀ c ≠ column, row.cell c = .null)
    (hnull' : ∀ row ∈ leader' :: members', ∀ c ≠ column, row.cell c = .null) {total : Cell}
    (hsum : Cell.IsSum (members.map (·.cell column)) total)
    (hsum' : Cell.IsSum (members'.map (·.cell column)) total) (hcomputed : column ∈ g.computed) :
    merged.cell column = merged'.cell column ∧ (merged.cell column).isOf .int := by
  rcases computed_cases hcomputed with hadded | ⟨a, ha, rfl, s, n, hkind⟩
  · have htotal := Cell.IsSum.unique (List.Perm.refl _) (h.accumulated _ hadded) hsum
    rw [htotal, Cell.IsSum.unique (List.Perm.refl _) (h'.accumulated _ hadded) hsum']
    exact ⟨rfl, hsum.isOf_int⟩
  · -- Both averages are made from nulls.
    have hdiffer := hg.average_nodup ha hkind
    have hn := (mem_accumulations_of_average ha hkind).2
    have hne : n ≠ a.column := by
      rintro rfl
      simp at hdiffer
    have hnone := average_eq_null (h.averaged a ha s n hkind)
      (Cell.IsSum.isOf_int (h.accumulated _ hn)) (.inr (h.cell_eq_null hg hnull hne))
    have hnone' := average_eq_null (h'.averaged a ha s n hkind)
      (Cell.IsSum.isOf_int (h'.accumulated _ hn)) (.inr (h'.cell_eq_null hg hnull' hne))
    rw [hnone, hnone']
    exact ⟨rfl, rfl⟩

end Grouping

/-! ## Two groups -/

/-- A number twice and another number once. -/
def numberRows (width column : Nat) : List Row :=
  [numberRow width column 1, numberRow width column 1, numberRow width column 2]

/-- A sum that is found has not overflowed on its way. -/
theorem Cell.not_sumOverflows_of_ok {cells : List Cell} {total : Cell}
    (h : ∀ c ∈ cells, c.isOf .int) (hok : cells.foldlM addPartial .null = .ok total) :
    ¬ SumOverflows cells := by
  rcases sumCells_cases h with ⟨-, -, -, hfits⟩ | ⟨e, he, -⟩
  · exact hfits
  · rw [hok] at he
    cases he

/-- All of these rows have a number and nothing else. -/
theorem exists_numberRow_of_mem {width column : Nat} {row : Row}
    (h : row ∈ numberRows width column) : ∃ n, row = numberRow width column n := by
  simp only [numberRows, List.mem_cons, List.not_mem_nil, or_false] at h
  rcases h with rfl | rfl | rfl <;> exact ⟨_, rfl⟩

/-- Their cells are integers or null. -/
theorem isOf_int_of_mem_numberRows {width column c : Nat} {row : Row}
    (h : row ∈ numberRows width column) : (row.cell c).isOf .int := by
  rcases exists_numberRow_of_mem h with ⟨n, rfl⟩
  exact isOf_int_numberRow

theorem cells_numberRows_isOf_int {width column : Nat} (c : Nat) :
    ∀ cell ∈ (numberRows width column).map (·.cell c), cell.isOf .int := by
  intro cell hcell
  rcases List.mem_map.mp hcell with ⟨row, hrow, rfl⟩
  exact isOf_int_of_mem_numberRows hrow

/-- The numbers of the two groups have the same sum. -/
theorem isSum_numberRows {width column : Nat} (hlt : column < width) :
    Cell.IsSum ([numberRow width column 1, numberRow width column 1].map (·.cell column))
      (.int 2) ∧
    Cell.IsSum ([numberRow width column 2].map (·.cell column)) (.int 2) := by
  simp only [List.map_cons, List.map_nil, numberRow_cell_self hlt]
  exact ⟨.inr ⟨⟨_, List.mem_cons_self, rfl⟩, 2, rfl, by decide⟩,
    .inr ⟨⟨_, List.mem_cons_self, rfl⟩, 2, rfl, by decide⟩⟩

namespace Grouping

variable {g : Grouping} {width column : Nat}

/-- Rows of one number are alike. -/
theorem alike_numberRow (n : Int64) :
    g.alike (numberRow width column n) (numberRow width column n) = true :=
  alike_iff.mpr fun _ _ => Cell.equals_self_of_isOf_int isOf_int_numberRow

/-- Rows of different numbers are not. -/
theorem not_alike_numberRows (hmem : column ∈ g.columns) (hlt : column < width) {m n : Int64}
    (hne : m ≠ n) : g.alike (numberRow width column m) (numberRow width column n) = false := by
  rw [← Bool.not_eq_true, alike_iff]
  intro h
  have hcell := h column hmem
  rw [numberRow_cell_self hlt, numberRow_cell_self hlt, Cell.equals_eq_true, Cell.order,
    Except.ok.injEq, Int.compare_eq_eq, Int64.toInt_inj] at hcell
  exact hne hcell

/-- These rows can be merged by any grouping whose columns are apart. -/
theorem mergeable_numberRows (hg : g.Separate width) :
    g.Mergeable width (numberRows width column) := by
  refine ⟨hg, ?_, ?_, ?_⟩
  · intro row hrow
    rcases exists_numberRow_of_mem hrow with ⟨n, rfl⟩
    exact length_numberRow
  · intro row hrow c _
    rcases Cell.isOf_cases (isOf_int_of_mem_numberRows hrow) with hnull | ⟨-, hkind⟩
    · rw [hnull]
      trivial
    · rcases Cell.int_of_kind hkind with ⟨n, hn⟩
      rw [hn]
      trivial
  · intro x _
    have hcells : ∀ cell ∈ (numberRows width column).map (·.cell x.1), cell.isOf .int :=
      cells_numberRows_isOf_int x.1
    rcases x with ⟨c, _ | _ | _⟩
    · exact hcells
    · exact ⟨.int, rfl, hcells⟩
    · exact ⟨.int, rfl, hcells⟩

section Members

variable (hmem : column ∈ g.columns) (hlt : column < width)

include hmem hlt

/-- Two of the rows lead a group. -/
theorem leaders_numberRows :
    g.leaders (numberRows width column) = [numberRow width column 1, numberRow width column 2] := by
  have hdiffer := not_alike_numberRows (g := g) hmem hlt (show (1 : Int64) ≠ 2 by decide)
  simp [numberRows, leaders, alike_numberRow, hdiffer]

/-- The first group has two rows. -/
theorem members_numberRows_one :
    g.members (numberRows width column) (numberRow width column 1) =
      [numberRow width column 1, numberRow width column 1] := by
  have hdiffer := not_alike_numberRows (g := g) hmem hlt (show (1 : Int64) ≠ 2 by decide)
  simp [numberRows, members, alike_numberRow, hdiffer]

/-- The second group has one row. -/
theorem members_numberRows_two :
    g.members (numberRows width column) (numberRow width column 2) =
      [numberRow width column 2] := by
  have hdiffer := not_alike_numberRows (g := g) hmem hlt (show (2 : Int64) ≠ 1 by decide)
  simp [numberRows, members, alike_numberRow, hdiffer]

/-- No sum over these rows overflows. -/
theorem not_anyOverflows_numberRows : ¬ g.AnyOverflows (numberRows width column) := by
  rintro ⟨leader, hleader, c, -, hover⟩
  rw [leaders_numberRows hmem hlt] at hleader
  have hcells : ∀ cell ∈ (g.members (numberRows width column) leader).map (·.cell c),
      cell.isOf .int := by
    intro cell hcell
    rcases List.mem_map.mp hcell with ⟨row, hrow, rfl⟩
    exact isOf_int_of_mem_numberRows (List.mem_filter.mp hrow).1
  have hsum : ∃ total, ((g.members (numberRows width column) leader).map (·.cell c)).foldlM
      addPartial .null = .ok total := by
    simp only [List.mem_cons, List.not_mem_nil, or_false] at hleader
    rcases hleader with rfl | rfl
    · rw [members_numberRows_one hmem hlt, List.map_cons, List.map_cons, List.map_nil]
      by_cases hc : c = column
      · rw [hc, numberRow_cell_self hlt]
        exact ⟨_, rfl⟩
      · rw [numberRow_cell_of_ne hc]
        exact ⟨_, rfl⟩
    · rw [members_numberRows_two hmem hlt, List.map_cons, List.map_nil]
      by_cases hc : c = column
      · rw [hc, numberRow_cell_self hlt]
        exact ⟨_, rfl⟩
      · rw [numberRow_cell_of_ne hc]
        exact ⟨_, rfl⟩
  rcases hsum with ⟨total, htotal⟩
  exact Cell.not_sumOverflows_of_ok hcells htotal hover

/-- Both groups are merged into rows that differ in one column at most, and not even there if the
column is computed: twice the one number is the other. -/
theorem exists_mergedRows_alike (hg : g.Separate width) :
    ∃ x y : Row, (g.keysOf (numberRows width column)).mapM
        (g.mergedRow (numberRows width column)) = .ok [x, y] ∧
      x.length = width ∧ y.length = width ∧
      (∀ c ≠ column, x.cell c = .null ∧ y.cell c = .null) ∧
      (x.cell column).isOf .int ∧ (y.cell column).isOf .int ∧
      (column ∈ g.computed → x.cell column = y.cell column) := by
  rcases mergedRows_cases (mergeable_numberRows hg) with ⟨merged, hmerged, hsummary, -⟩ | ⟨-, -, h⟩
  · rw [SummarisedBy, leaders_numberRows hmem hlt] at hsummary
    simp only [List.forall₂_cons_left_iff, List.forall₂_nil_left_iff] at hsummary
    rcases hsummary with ⟨x, -, hx, ⟨y, -, hy, rfl, rfl⟩, rfl⟩
    rw [members_numberRows_one hmem hlt] at hx
    rw [members_numberRows_two hmem hlt] at hy
    have hnull : ∀ row ∈ [numberRow width column 1, numberRow width column 1,
        numberRow width column 1], ∀ c ≠ column, row.cell c = .null := by
      intro row hrow c hc
      simp only [List.mem_cons, List.not_mem_nil, or_false, or_self] at hrow
      rw [hrow, numberRow_cell_of_ne hc]
    have hnull' : ∀ row ∈ [numberRow width column 2, numberRow width column 2],
        ∀ c ≠ column, row.cell c = .null := by
      intro row hrow c hc
      simp only [List.mem_cons, List.not_mem_nil, or_false, or_self] at hrow
      rw [hrow, numberRow_cell_of_ne hc]
    rcases isSum_numberRows hlt with ⟨hsum, hsum'⟩
    have hcomputed := hx.cell_eq_of_computed hg hy hnull hnull' hsum hsum'
    have hint : ∀ row ∈ [x, y], column ∉ g.computed → (row.cell column).isOf .int := by
      intro row hrow hkept
      rcases mem_of_mapM hmerged row hrow with ⟨key, hkey, hrow⟩
      rcases mergedRow_keeps hkey hrow hkept with ⟨member, hmember, hcell⟩
      rw [hcell]
      exact isOf_int_of_mem_numberRows (List.mem_filter.mp hmember).1
    refine ⟨x, y, hmerged, hx.length_eq.trans length_numberRow, hy.length_eq.trans length_numberRow,
      fun c hc => ⟨hx.cell_eq_null hg hnull hc, hy.cell_eq_null hg hnull' hc⟩, ?_, ?_,
      fun h => (hcomputed h).1⟩
    · by_cases h : column ∈ g.computed
      · exact (hcomputed h).2
      · exact hint x (by simp) h
    · by_cases h : column ∈ g.computed
      · exact (hcomputed h).1 ▸ (hcomputed h).2
      · exact hint y (by simp) h
  · exact absurd h (not_anyOverflows_numberRows hmem hlt)

end Members

end Grouping

/-- Rows of integers and nulls are sorted by any of their columns. -/
theorem sortable_of_isOf_int {items : List OrderItem} {width : Nat} {rows : List Row}
    (hitems : ∀ item ∈ items, item.column < width)
    (hrows : ∀ row ∈ rows, row.length = width ∧ ∀ c, (row.cell c).isOf .int) :
    Sortable items rows := by
  intro item hitem
  refine ⟨.int, rfl, fun row hrow => ?_⟩
  rcases hrows row hrow with ⟨hlength, hint⟩
  have hcell :=
    List.getElem?_eq_getElem (hlength.symm ▸ hitems item hitem : item.column < row.length)
  exact ⟨_, hcell, Row.cell_of_getElem? hcell ▸ hint item.column⟩

/-- Merged rows that can be sorted make up a merge. -/
theorem Shape.exists_groupwise_of_sortable {s : Shape} {width : Nat} {collation : Collation}
    {rows merged : List Row}
    (hmerged : ((s.grouping width collation).keysOf rows).mapM
      ((s.grouping width collation).mergedRow rows) = .ok merged)
    (hsortable : Sortable s.orderBy merged) :
    ∃ sorted, s.groupwise width collation rows = .ok sorted := by
  unfold groupwise
  simp only [hmerged, bind, Except.bind]
  split
  · exact ⟨_, sortRising_eq_sortRows hsortable⟩
  · exact ⟨_, rfl⟩

/-- Rows that nobody can tell apart by what is visible are merged from groups of which a column is
hidden or computed. -/
theorem Shape.exists_groupwise_alike {s : Shape} {width : Nat} (collation : Collation)
    (hrange : s.ColumnsInRange width) (hapart : (s.aggregates.flatMap (·.columns)).Nodup)
    {column visible : Nat} (hcolumn : column ∈ s.groupColumns width)
    (halike : visible ≤ column ∨ column ∈ s.aggregates.flatMap (·.computed)) :
    ∃ merged, s.groupwise width collation (numberRows width column) = .ok merged ∧
      merged.length = 2 ∧ ∀ a ∈ merged, ∀ b ∈ merged, ∀ c < visible,
        a.cell c = b.cell c ∧ (a.cell c).isOf .int := by
  have hseparate : (s.grouping width collation).Separate width :=
    ⟨hapart, fun c hc => hrange c (List.mem_append_right _ hc)⟩
  have hlt : column < width :=
    hrange column (List.mem_append_left _ (List.mem_append_left _ hcolumn))
  rcases Grouping.exists_mergedRows_alike (g := s.grouping width collation) hcolumn hlt hseparate
    with ⟨x, y, hmerged, hxlength, hylength, hnull, hx, hy, hcomputed⟩
  have hcells : ∀ row ∈ [x, y], row.length = width ∧ ∀ c, (row.cell c).isOf .int := by
    intro row hrow
    simp only [List.mem_cons, List.not_mem_nil, or_false] at hrow
    rcases hrow with rfl | rfl
    · refine ⟨hxlength, fun c => ?_⟩
      by_cases hc : c = column
      · rw [hc]
        exact hx
      · rw [(hnull c hc).1]
        rfl
    · refine ⟨hylength, fun c => ?_⟩
      by_cases hc : c = column
      · rw [hc]
        exact hy
      · rw [(hnull c hc).2]
        rfl
  have hsortable : Sortable s.orderBy [x, y] := sortable_of_isOf_int (fun _ hitem => hrange _
    (List.mem_append_left _ (List.mem_append_right _ (List.mem_map_of_mem hitem)))) hcells
  rcases exists_groupwise_of_sortable hmerged hsortable with ⟨merged, hgroupwise⟩
  rcases groupwise_perm hgroupwise with ⟨all, hall, hperm⟩
  rw [hmerged, Except.ok.injEq] at hall
  subst hall
  refine ⟨merged, hgroupwise, hperm.length_eq, ?_⟩
  have hsame : ∀ c < visible, x.cell c = y.cell c := by
    intro c hc
    by_cases hne : c = column
    · subst hne
      rcases halike with hhidden | hmem
      · omega
      · exact hcomputed hmem
    · rw [(hnull c hne).1, (hnull c hne).2]
  intro a ha b hb c hc
  have hmem : ∀ row ∈ merged, row.cell c = x.cell c := by
    intro row hrow
    have hrow := hperm.mem_iff.mp hrow
    simp only [List.mem_cons, List.not_mem_nil, or_false] at hrow
    rcases hrow with rfl | rfl
    · rfl
    · exact (hsame c hc).symm
  exact ⟨(hmem a ha).trans (hmem b hb).symm, (hcells a (hperm.mem_iff.mp ha)).2 c⟩

end ShardedSql
