import ShardedSql.Proofs.Merge.Faults
import ShardedSql.Proofs.Merge.GroupCells
import ShardedSql.Proofs.Merge.Totals

/-!
# What happens to one column

Aggregates may share columns: an average has the sum and the count it is made from in columns that
another aggregate may accumulate as well.  Adding a row to a total takes one step for every
aggregate of a column, so that a column is summed up if its only step is a sum.

Main results:

- Theorem `Grouping.accumulate_cell`: adding a row takes the steps of each column.
- Theorem `Grouping.SummedOnce.sumOf_cases`: a column whose only step is a sum is summed up.
- Theorem `Grouping.Separate.summedOnce`: aggregates that share no column leave each summed column
  to one sum.
- Theorem `Shape.addsUp_of_summedOnce`: the merged rows hold the sums of their groups, if each
  summed column has no other step.
-/

namespace ShardedSql

/-! ## Steps of a column -/

namespace Accumulation

/-- The steps that some accumulations take at a column. -/
def stepsAt (c : Nat) (columns : List (Nat × Accumulation)) : List Accumulation :=
  (columns.filter (·.1 == c)).map (·.2)

/-- Adds a cell to the total of its column, once for each step. -/
def take (collation : Collation) (steps : List Accumulation) (total cell : Cell) :
    Except Fault Cell :=
  steps.foldlM (fun total k => k.add collation total cell) total

/-- Steps of a column come in the order of the accumulated columns. -/
theorem stepsAt_append (c : Nat) (columns columns' : List (Nat × Accumulation)) :
    stepsAt c (columns ++ columns') = stepsAt c columns ++ stepsAt c columns' := by
  simp [stepsAt]

theorem stepsAt_cons_self (c : Nat) (k : Accumulation) (columns : List (Nat × Accumulation)) :
    stepsAt c ((c, k) :: columns) = k :: stepsAt c columns := by
  simp [stepsAt]

/-- Steps of other columns are passed over. -/
theorem stepsAt_cons_of_ne {c d : Nat} (h : d ≠ c) (k : Accumulation)
    (columns : List (Nat × Accumulation)) : stepsAt c ((d, k) :: columns) = stepsAt c columns := by
  simp [stepsAt, h]

/-- A column that is not accumulated has no steps. -/
theorem stepsAt_eq_nil {c : Nat} {columns : List (Nat × Accumulation)}
    (h : c ∉ columns.map (·.1)) : stepsAt c columns = [] := by
  rw [stepsAt, List.filter_eq_nil_iff.mpr, List.map_nil]
  intro x hx hcolumn
  exact h (beq_iff_eq.mp hcolumn ▸ List.mem_map_of_mem hx)

/-- Only sums overflow. -/
theorem eq_sum_of_overflow {k : Accumulation} {collation : Collation} {total cell : Cell}
    {e : Fault} (h : k.add collation total cell = .error e) (hover : e.isOverflow = true) :
    k = sum := by
  have hpick : ∀ wanted, pickPartial wanted collation total cell ≠ .error e := by
    intro wanted herror
    have hfaults : FailsOnly (fun fault => fault.isOverflow = false)
        (pickPartial wanted collation total cell) :=
      pickPartial_failsOnly (fun _ _ hnot => hnot) wanted collation total cell
    have hnot : e.isOverflow = false := hfaults e herror
    rw [hover] at hnot
    cases hnot
  cases k with
  | sum => rfl
  | least => exact absurd h (hpick .lt)
  | greatest => exact absurd h (hpick .gt)

end Accumulation

open Accumulation

/-- Adding a row takes the steps of each column. -/
theorem Row.addColumns_cell {collation : Collation} {columns : List (Nat × Accumulation)}
    {total row next : Row} {c : Nat} (hc : c < total.length)
    (h : Row.addColumns collation columns total row = .ok next) :
    take collation (stepsAt c columns) (total.cell c) (row.cell c) = .ok (next.cell c) := by
  induction columns generalizing total with
  | nil =>
      cases h
      rfl
  | cons x columns ih =>
      rw [Row.addColumns, List.foldlM_cons] at h
      rcases Except.bind_eq_ok.mp h with ⟨between, hbetween, hlater⟩
      rcases Row.combine_eq_ok hbetween with ⟨y, hy, rfl⟩
      have hrest := ih (by rwa [List.length_set]) hlater
      rcases x with ⟨d, k⟩
      by_cases hd : d = c
      · subst hd
        rw [Row.cell_set_self hc] at hrest
        rw [stepsAt_cons_self, take, List.foldlM_cons, hy]
        exact hrest
      · rw [Row.cell_set_of_ne hd] at hrest
        rw [stepsAt_cons_of_ne hd]
        exact hrest

/-- A row cannot be added because of one of the steps, those before it having been taken. -/
theorem Row.addColumns_error {collation : Collation} {columns : List (Nat × Accumulation)}
    {total row : Row} {e : Fault} (h : Row.addColumns collation columns total row = .error e) :
    ∃ before x after between, columns = before ++ x :: after ∧
      Row.addColumns collation before total row = .ok between ∧
      x.2.add collation (between.cell x.1) (row.cell x.1) = .error e := by
  induction columns generalizing total with
  | nil => cases h
  | cons x columns ih =>
      rw [Row.addColumns, List.foldlM_cons] at h
      cases hcell : x.2.add collation (total.cell x.1) (row.cell x.1) with
      | error e' =>
          rw [Row.combine, hcell] at h
          cases h
          exact ⟨[], x, columns, total, rfl, rfl, hcell⟩
      | ok c =>
          have hstep : total.combine (x.2.add collation) x.1 row = .ok (total.set x.1 c) := by
            rw [Row.combine, hcell]
            rfl
          rw [hstep] at h
          rcases ih h with ⟨before, y, after, between, rfl, hbefore, hfault⟩
          refine ⟨x :: before, y, after, between, rfl, ?_, hfault⟩
          rw [Row.addColumns, List.foldlM_cons, hstep]
          exact hbefore

/-! ## Columns that are summed up -/

namespace Grouping

variable {g : Grouping} {c : Nat}

/-- The sums of a column: it is that of a sum, of a count, or of what an average is made from. -/
def Summed (g : Grouping) (c : Nat) : Prop :=
  (c, .sum) ∈ g.accumulations

/-- Every summed column is left to one sum. -/
structure SummedOnce (g : Grouping) : Prop where
  once : ∀ c, g.Summed c → stepsAt c g.accumulations = [.sum]
  kept : ∀ c, g.Summed c → ∀ a ∈ g.aggregates, ∀ sumColumn countColumn,
    a.kind = .average sumColumn countColumn → a.column ≠ c

/-- The merged rows hold the sums of their groups. -/
def HoldsSums (g : Grouping) (rows merged : List Row) : Prop :=
  ∃ all, merged.Perm all ∧
    List.Forall₂ (fun key row => ∀ c, g.Summed c →
      Cell.IsSum ((g.partials rows key).map (·.cell c)) (row.cell c)) (g.keysOf rows) all

/-- Aggregates that share no column leave each summed column to one sum. -/
theorem Separate.summedOnce {width : Nat} (hg : g.Separate width) : g.SummedOnce := by
  refine ⟨fun c hc => ?_, fun c hc a ha _ _ hkind => (hg.ne_average ha hkind hc).symm⟩
  rcases List.append_of_mem hc with ⟨before, after, hsplit⟩
  have hapart : (g.accumulations.map (·.1)).Nodup := hg.apart.sublist g.accumulations_sublist
  rw [hsplit, List.map_append, List.map_cons, List.nodup_append, List.nodup_cons] at hapart
  rcases hapart with ⟨-, ⟨hafter, -⟩, hbefore⟩
  have hbefore : c ∉ before.map (·.1) := fun hmem => hbefore c hmem c List.mem_cons_self rfl
  rw [hsplit, stepsAt_append, stepsAt_cons_self, stepsAt_eq_nil hbefore, stepsAt_eq_nil hafter,
    List.nil_append]

/-- Adding a row takes the steps of each column. -/
theorem accumulate_cell {total row next : Row} (hc : c < total.length)
    (h : g.accumulate total row = .ok next) :
    take g.collation (stepsAt c g.accumulations) (total.cell c) (row.cell c) = .ok (next.cell c) :=
  Row.addColumns_cell hc ((g.accumulate_eq total row).symm.trans h)

/-- A column that is summed once takes the sum with each row. -/
theorem SummedOnce.take_eq (h : g.SummedOnce) (hc : g.Summed c) (total cell : Cell) :
    take g.collation (stepsAt c g.accumulations) total cell = addPartial total cell := by
  rw [h.once c hc, take, List.foldlM_cons]
  exact bind_pure _

/-- Before the one step of a summed column there is none. -/
theorem SummedOnce.stepsAt_before (h : g.SummedOnce) {before after : List (Nat × Accumulation)}
    (hsplit : g.accumulations = before ++ (c, .sum) :: after) : stepsAt c before = [] := by
  have honce := h.once c (by rw [Summed, hsplit]; simp)
  rw [hsplit, stepsAt_append, stepsAt_cons_self] at honce
  have hlength := congrArg List.length honce
  simp only [List.length_append, List.length_cons, List.length_nil] at hlength
  exact List.eq_nil_of_length_eq_zero (by omega)

/-- A row is added to all sums, or one of them overflows if anything does. -/
theorem SummedOnce.accumulate_cases (h : g.SummedOnce) {total : Row}
    (hrange : ∀ c, g.Summed c → c < total.length) (row : Row) :
    (∃ next, g.accumulate total row = .ok next ∧
      ∀ c, g.Summed c → addPartial (total.cell c) (row.cell c) = .ok (next.cell c)) ∨
    ∃ e, g.accumulate total row = .error e ∧ (e.isOverflow = true →
      ∃ c, g.Summed c ∧ addPartial (total.cell c) (row.cell c) = .error e) := by
  cases hsum : g.accumulate total row with
  | ok next =>
      refine .inl ⟨next, rfl, fun c hc => ?_⟩
      rw [← h.take_eq hc]
      exact accumulate_cell (hrange c hc) hsum
  | error e =>
      refine .inr ⟨e, rfl, fun hover => ?_⟩
      rw [accumulate_eq] at hsum
      rcases Row.addColumns_error hsum with
        ⟨before, ⟨c, k⟩, after, between, hsplit, hbefore, hfault⟩
      have hk := eq_sum_of_overflow hfault hover
      subst hk
      have hc : g.Summed c := by rw [Summed, hsplit]; simp
      have hsame := Row.addColumns_cell (hrange c hc) hbefore
      rw [h.stepsAt_before hsplit] at hsame
      have hcell : total.cell c = between.cell c := Except.ok.inj hsame
      refine ⟨c, hc, ?_⟩
      rw [hcell]
      exact hfault

/-- Rows are added to all sums, or one of them overflows if anything does. -/
theorem SummedOnce.addAll_cases (h : g.SummedOnce) {first : Row}
    (hrange : ∀ c, g.Summed c → c < first.length) (rows : List Row) :
    (∃ total, rows.foldlM g.accumulate first = .ok total ∧ ∀ c, g.Summed c →
      (rows.map (·.cell c)).foldlM addPartial (first.cell c) = .ok (total.cell c)) ∨
    ∃ e, rows.foldlM g.accumulate first = .error e ∧ (e.isOverflow = true →
      ∃ c, g.Summed c ∧ (rows.map (·.cell c)).foldlM addPartial (first.cell c) = .error e) := by
  induction rows generalizing first with
  | nil => exact .inl ⟨first, rfl, fun _ _ => rfl⟩
  | cons row rows ih =>
      simp only [List.map_cons, List.foldlM_cons]
      rcases h.accumulate_cases hrange row with ⟨next, hnext, hadded⟩ | ⟨e, he, hover⟩
      · have hlength : next.length = first.length := accumulate_length hnext
        rw [hnext]
        rcases ih (by rwa [hlength]) with ⟨total, htotal, hsums⟩ | ⟨e, he, hover⟩
        · refine .inl ⟨total, htotal, fun c hc => ?_⟩
          rw [hadded c hc]
          exact hsums c hc
        · refine .inr ⟨e, he, fun hkind => ?_⟩
          rcases hover hkind with ⟨c, hc, hfault⟩
          refine ⟨c, hc, ?_⟩
          rw [hadded c hc]
          exact hfault
      · rw [he]
        refine .inr ⟨e, rfl, fun hkind => ?_⟩
        rcases hover hkind with ⟨c, hc, hfault⟩
        refine ⟨c, hc, ?_⟩
        rw [hfault]
        rfl

/-- The rows of a group are summed up, or one of the sums overflows if anything does. -/
theorem SummedOnce.sumOf_cases (h : g.SummedOnce) {first : Row} {others : List Row}
    (hrange : ∀ c, g.Summed c → c < first.length)
    (hcells : ∀ c, g.Summed c → ∀ row ∈ first :: others, (row.cell c).isOf .int) :
    (∃ total, g.sumOf (first :: others) = .ok total ∧ ∀ c, g.Summed c →
      Cell.IsSum ((first :: others).map (·.cell c)) (total.cell c)) ∨
    ∃ e, g.sumOf (first :: others) = .error e ∧
      (e.isOverflow = true → g.Overflows (first :: others)) := by
  have hfrom : ∀ c, ((first :: others).map (·.cell c)).foldlM addPartial .null =
      (others.map (·.cell c)).foldlM addPartial (first.cell c) := by
    intro c
    have hfirst : addPartial .null (first.cell c) = .ok (first.cell c) := rfl
    rw [List.map_cons, List.foldlM_cons, hfirst]
    rfl
  have hints : ∀ c, g.Summed c → ∀ cell ∈ (first :: others).map (·.cell c), cell.isOf .int := by
    intro c hc cell hcell
    rcases List.mem_map.mp hcell with ⟨row, hrow, rfl⟩
    exact hcells c hc row hrow
  rw [sumOf]
  rcases h.addAll_cases hrange others with ⟨total, htotal, hadded⟩ | ⟨e, he, hover⟩
  · refine .inl ⟨total, htotal, fun c hc => ?_⟩
    rcases Cell.sumCells_cases (hints c hc) with ⟨sum, hsum, hisSum, -⟩ | ⟨e, he, -⟩
    · rw [hfrom, hadded c hc, Except.ok.injEq] at hsum
      rw [hsum]
      exact hisSum
    · rw [hfrom, hadded c hc] at he
      cases he
  · refine .inr ⟨e, he, fun hkind => ?_⟩
    rcases hover hkind with ⟨c, hc, hfault⟩
    rcases Cell.sumCells_cases (hints c hc) with ⟨sum, hsum, -, -⟩ | ⟨-, -, hoverflows⟩
    · rw [hfrom, hfault] at hsum
      cases hsum
    · exact ⟨c, hc, hoverflows⟩

/-- A merged row keeps the total of a column that no average is put into. -/
theorem finish_cell {group : Group} {merged : Row} (h : g.finish group = .ok merged)
    (hc : ∀ a ∈ g.aggregates, ∀ sumColumn countColumn, a.kind = .average sumColumn countColumn →
      a.column ≠ c) : merged.cell c = group.total.cell c := by
  have hstep : ∀ a ∈ g.aggregates, ∀ b b' : Row, b.cell c = group.total.cell c →
      a.finish b = .ok b' → b'.cell c = group.total.cell c := by
    intro a ha b b' hb hb'
    rw [Aggregate.finish_cell_of_ne hb' (hc a ha), hb]
  exact foldlM_preserves hstep rfl h

/-- The total of a group holds its sums, or one of the sums overflows if anything does. -/
theorem SummedOnce.totalOf_cases (h : g.SummedOnce) {width : Nat} {rows : List Row}
    (hrange : ∀ c, g.Summed c → c < width) (hrows : ∀ row ∈ rows, row.length = width)
    (hcells : ∀ row ∈ rows, ∀ c, g.Summed c → (row.cell c).isOf .int) {key : List UInt8}
    (hkey : key ∈ g.keysOf rows) :
    (∃ total, g.totalOf rows key = .ok total ∧ ∀ c, g.Summed c →
      Cell.IsSum ((g.partials rows key).map (·.cell c)) (total.cell c)) ∨
    ∃ e, g.totalOf rows key = .error e ∧
      (e.isOverflow = true → g.Overflows (g.partials rows key)) := by
  have hmem : ∀ row ∈ g.partials rows key, row ∈ rows := fun row hrow =>
    (List.mem_filter.mp hrow).1
  rw [totalOf]
  cases hpartials : g.partials rows key with
  | nil => exact absurd hkey (partials_eq_nil.mp hpartials)
  | cons first others =>
      rw [hpartials] at hmem
      refine h.sumOf_cases (fun c hc => ?_) fun c hc row hrow => hcells row (hmem row hrow) c hc
      rw [hrows first (hmem first List.mem_cons_self)]
      exact hrange c hc

end Grouping

namespace Shape

/-- Whatever results of a width are merged, integers and nulls in the summed columns: the merged
rows hold the sums of their groups, and merging overflows only if a running sum does. -/
def AddsUp (s : Shape) (width : Nat) (collation : Collation) : Prop :=
  ∀ results : List ResultCursor, (∀ r ∈ results, r.NeverFails) →
    (∀ r ∈ results, ∀ row ∈ r.rows.rest, row.length = width) →
    (∀ row ∈ results.flatMap (·.rows.rest), ∀ c, (s.grouping width collation).Summed c →
      (row.cell c).isOf .int) →
    (∀ merged, groupRows results s width collation = .ok merged →
      (s.grouping width collation).HoldsSums (results.flatMap (·.rows.rest)) merged) ∧
    ∀ e, groupRows results s width collation = .error e → e.isOverflow = true →
      ∃ key ∈ (s.grouping width collation).keysOf (results.flatMap (·.rows.rest)),
        (s.grouping width collation).Overflows
          ((s.grouping width collation).partials (results.flatMap (·.rows.rest)) key)

variable {s : Shape} {width : Nat} {collation : Collation} {rows : List Row}

/-- Summed columns are there if all columns are. -/
theorem ColumnsInRange.summed (h : s.ColumnsInRange width) {c : Nat}
    (hc : (s.grouping width collation).Summed c) : c < width := by
  have hmem : c ∈ (s.grouping width collation).aggregateColumns :=
    (s.grouping width collation).accumulations_sublist.subset (List.mem_map_of_mem hc)
  exact h c (List.mem_append_right _ hmem)

/-- When all groups have totals, what is left to do does not overflow. -/
theorem groupwise_failsOnly (htotals : ∀ key ∈ (s.grouping width collation).keysOf rows,
      ∃ total, (s.grouping width collation).totalOf rows key = .ok total) :
    FailsOnly (fun e => e.isOverflow = false) (s.groupwise width collation rows) := by
  refine FailsOnly.bind (FailsOnly.mapM fun key hkey => ?_) fun merged => ?_
  · rcases htotals key hkey with ⟨total, htotal⟩
    rw [Grouping.mergedRow, htotal]
    exact Grouping.finish_failsOnly (fun _ _ hnot => hnot) _ _
  · split
    · exact sortRising_failsOnly (fun _ _ => orderRows_failsOnly (fun _ _ hnot => hnot) collation
        (fun _ => failsOnly_ok _) (fun _ => failsOnly_ok _) s.orderBy) merged
    · exact failsOnly_ok merged

/-- The merged rows hold the sums of their groups, if each summed column is left to one sum. -/
theorem addsUp_of_summedOnce
    (h : s.ColumnsInRange width → (s.grouping width collation).SummedOnce) :
    s.AddsUp width collation := by
  intro results hnever hwidth hcells
  have hrows : ∀ row ∈ results.flatMap (·.rows.rest), row.length = width := by
    intro row hrow
    rcases List.mem_flatMap.mp hrow with ⟨r, hr, hrow⟩
    exact hwidth r hr row hrow
  constructor
  · intro merged hmerged
    rcases (groupRows_eq_ok_iff hnever hwidth).mp hmerged with ⟨hrange, hgroupwise⟩
    rcases groupwise_perm hgroupwise with ⟨all, hall, hperm⟩
    refine ⟨all, hperm, ?_⟩
    have hplaced := (List.forall₂_and_left _ _).mpr
      ⟨fun key hkey => hkey, mapM_eq_ok_iff.mp hall⟩
    refine hplaced.imp fun key row hrow c hc => ?_
    rcases Except.bind_eq_ok.mp hrow.2 with ⟨total, htotal, hfinish⟩
    rw [Grouping.finish_cell hfinish ((h hrange).kept c hc)]
    rcases (h hrange).totalOf_cases (fun c hc => hrange.summed hc) hrows hcells hrow.1 with
      ⟨total', htotal', hsums⟩ | ⟨e, he, -⟩
    · rw [htotal, Except.ok.injEq] at htotal'
      rw [htotal']
      exact hsums c hc
    · rw [htotal] at he
      cases he
  · intro e he hover
    by_cases hrange : s.ColumnsInRange width
    · rcases groupRows_cases collation hnever hwidth hrange with
        ⟨key, hkey, e', he', htotal⟩ | ⟨htotals, hgroupwise⟩
      · rw [he, Except.error.injEq] at he'
        subst he'
        refine ⟨key, hkey, ?_⟩
        rcases (h hrange).totalOf_cases (fun c hc => hrange.summed hc) hrows hcells hkey with
          ⟨total, htotal', -⟩ | ⟨e', he', hoverflows⟩
        · rw [htotal] at htotal'
          cases htotal'
        · rw [htotal, Except.error.injEq] at he'
          subst he'
          exact hoverflows hover
      · have hnot : e.isOverflow = false := groupwise_failsOnly htotals e (hgroupwise ▸ he)
        rw [hover] at hnot
        cases hnot
    · rcases groupRows_of_not_inRange hrange results collation with ⟨column, hfault⟩
      rw [hfault, Except.error.injEq] at he
      subst he
      cases hover

end Shape

end ShardedSql
