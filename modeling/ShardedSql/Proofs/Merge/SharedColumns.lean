import Mathlib.Tactic.IntervalCases
import ShardedSql.Proofs.Merge.AlikeGroups
import ShardedSql.Proofs.Merge.ColumnSteps
import ShardedSql.Proofs.Merge.ScalarTotals

/-!
# Columns that aggregates share

A column that several aggregates accumulate takes several steps for each row after the first one of
its group.  Whether it is summed up all the same is told by groups of a number that is repeated:
two sums count it twice, and next to a sum the least or the greatest number keeps the total of any
number of rows near the number itself.

Main results:

- Theorem `Accumulation.eq_sum_of_take`: the steps that add up repeated numbers are a single sum.
- Theorem `Shape.AddsUp.repeated`: what merging a repeated number comes to where sums are held.
- Theorem `Shape.addsUp_iff`: merged rows hold the sums of their groups exactly if each summed
  column is left to one sum.
-/

namespace ShardedSql

/-! ## Steps with a unit -/

namespace Accumulation

variable {k : Accumulation} {collation : Collation} {steps : List Accumulation} {unit : Int64}
  {total total' cell : Cell}

/-- Of two integers the new one is picked if it compares as wanted. -/
theorem pickPartial_int (wanted : Ordering) (n m : Int64) :
    pickPartial wanted collation (.int n) (.int m) =
      .ok (if compare m.toInt n.toInt == wanted then .int m else .int n) :=
  rfl

/-- A step makes an integer of integers, taking null for one, unless it overflows. -/
theorem add_isOf_int (k : Accumulation) (collation : Collation) (htotal : total.isOf .int)
    (hcell : cell.isOf .int) :
    (∃ next, k.add collation total cell = .ok next ∧ next.isOf .int) ∨
    ∃ e, k.add collation total cell = .error e ∧ e.isOverflow = true := by
  rcases Cell.isOf_cases htotal with rfl | ⟨-, hkind⟩
  · exact .inl ⟨cell, add_null cell, hcell⟩
  rcases Cell.int_of_kind hkind with ⟨n, rfl⟩
  rcases Cell.isOf_cases hcell with rfl | ⟨-, hkind⟩
  · exact .inl ⟨.int n, by cases k <;> rfl, rfl⟩
  rcases Cell.int_of_kind hkind with ⟨m, rfl⟩
  have hpick : ∀ wanted, ∃ next, pickPartial wanted collation (.int n) (.int m) = .ok next ∧
      next.isOf .int := by
    intro wanted
    refine ⟨_, pickPartial_int wanted n m, ?_⟩
    split <;> rfl
  have hsum : (∃ next, addPartial (.int n) (.int m) = .ok next ∧ next.isOf .int) ∨
      ∃ e, addPartial (.int n) (.int m) = .error e ∧ e.isOverflow = true := by
    unfold addPartial
    dsimp only
    split
    · exact .inl ⟨_, rfl, rfl⟩
    · exact .inr ⟨_, rfl, rfl⟩
  cases k with
  | sum => exact hsum
  | least => exact .inl (hpick .lt)
  | greatest => exact .inl (hpick .gt)

/-- A number on the side of a unit. -/
def Beyond (unit : Int64) (c : Cell) : Prop :=
  ∃ n, c = .int n ∧ 1 ≤ unit.toInt * n.toInt

/-- The step that goes back to a unit from whatever is beyond it. -/
def Resets (unit : Int64) (k : Accumulation) : Prop :=
  unit = 1 ∧ k = least ∨ unit = -1 ∧ k = greatest

/-- A total is reset by one or by minus one. -/
theorem Resets.unit_eq (h : Resets unit k) : unit = 1 ∨ unit = -1 :=
  h.imp And.left And.left

theorem toInt_mul_self (hunit : unit = 1 ∨ unit = -1) : unit.toInt * unit.toInt = 1 := by
  rcases hunit with rfl | rfl <;> decide

/-- Numbers are added to their sum. -/
theorem addPartial_int {n m : Int64} (h : addPartial (.int n) (.int m) = .ok total) :
    ∃ sum : Int64, total = .int sum ∧ sum.toInt = n.toInt + m.toInt := by
  have hone : Cell.IsSum [.int n] (.int n) :=
    .inr ⟨⟨_, List.mem_cons_self, rfl⟩, n, rfl, (Int.add_zero _).symm⟩
  have hint : Cell.isOf .int (.int m) := rfl
  rcases hone.add_cases hint with ⟨next, hnext, hsum⟩ | ⟨e, he, -⟩
  · rw [h, Except.ok.injEq] at hnext
    subst hnext
    rcases hsum with ⟨hnull, -⟩ | ⟨-, sum, rfl, hsum⟩
    · cases hnull (.int n) List.mem_cons_self
    · refine ⟨sum, rfl, hsum.trans ?_⟩
      show n.toInt + (m.toInt + 0) = _
      rw [Int.add_zero]
  · rw [h] at he
    cases he

/-- Steps with a unit do not leave its side. -/
theorem add_beyond (hunit : unit = 1 ∨ unit = -1) (htotal : Beyond unit total)
    (h : k.add collation total (.int unit) = .ok total') : Beyond unit total' := by
  rcases htotal with ⟨n, rfl, hn⟩
  have hself := toInt_mul_self hunit
  have hpick : ∀ wanted, pickPartial wanted collation (.int n) (.int unit) = .ok total' →
      Beyond unit total' := by
    intro wanted hpick
    rw [pickPartial_int, Except.ok.injEq] at hpick
    subst hpick
    split
    · exact ⟨unit, rfl, Int.le_of_eq hself.symm⟩
    · exact ⟨n, rfl, hn⟩
  cases k with
  | sum =>
      rcases addPartial_int h with ⟨sum, rfl, hsum⟩
      refine ⟨sum, rfl, ?_⟩
      rw [hsum, Int.mul_add, hself]
      omega
  | least => exact hpick .lt h
  | greatest => exact hpick .gt h

/-- A total beyond the unit is reset to it. -/
theorem Resets.add_eq (h : Resets unit k) (htotal : Beyond unit total) :
    k.add collation total (.int unit) = .ok (.int unit) := by
  rcases htotal with ⟨n, rfl, hn⟩
  have hpick : ∀ wanted, (n.toInt ≠ unit.toInt → compare unit.toInt n.toInt = wanted) →
      pickPartial wanted collation (.int n) (.int unit) = .ok (.int unit) := by
    intro wanted hwanted
    rw [pickPartial_int]
    by_cases hsame : n.toInt = unit.toInt
    · rw [Int64.toInt_inj.mp hsame, ite_self]
    · rw [hwanted hsame, if_pos (beq_self_eq_true _)]
  rcases h with ⟨rfl, rfl⟩ | ⟨rfl, rfl⟩
  · have hone : (1 : Int64).toInt = 1 := by decide
    refine hpick .lt fun hne => Int.compare_eq_lt.mpr ?_
    rw [hone] at hn hne ⊢
    omega
  · have hone : (-1 : Int64).toInt = -1 := by decide
    refine hpick .gt fun hne => Int.compare_eq_gt.mpr ?_
    rw [hone] at hn hne ⊢
    omega

/-- After going back to the unit it does not matter where the steps have begun. -/
theorem Resets.take_eq (h : Resets unit k) (hk : k ∈ steps) {last last' : Cell}
    (htotal : Beyond unit total) (htotal' : Beyond unit total')
    (hlast : take collation steps total (.int unit) = .ok last)
    (hlast' : take collation steps total' (.int unit) = .ok last') : last = last' := by
  induction steps generalizing total total' with
  | nil => cases hk
  | cons step steps ih =>
      rw [take, List.foldlM_cons] at hlast hlast'
      rcases Except.bind_eq_ok.mp hlast with ⟨next, hnext, hlater⟩
      rcases Except.bind_eq_ok.mp hlast' with ⟨next', hnext', hlater'⟩
      rcases List.mem_cons.mp hk with rfl | hk
      · rw [h.add_eq htotal, Except.ok.injEq] at hnext
        rw [h.add_eq htotal', Except.ok.injEq] at hnext'
        rw [← hnext] at hlater
        rw [← hnext', hlater, Except.ok.injEq] at hlater'
        exact hlater'
      · exact ih hk (add_beyond h.unit_eq htotal hnext) (add_beyond h.unit_eq htotal' hnext')
          hlater hlater'

/-- So many ones add up to their number. -/
theorem integerSum_replicate_one (n : Nat) :
    Cell.integerSum (List.replicate n (.int 1)) = n := by
  induction n with
  | zero => rfl
  | succ n ih =>
      rw [List.replicate_succ', Cell.integerSum_concat, ih]
      rfl

/-- A cell is added once for each sum. -/
theorem take_replicate_sum (n : Nat) (total cell : Cell) :
    take collation (List.replicate n .sum) total cell =
      (List.replicate n cell).foldlM addPartial total := by
  induction n generalizing total with
  | zero => rfl
  | succ n ih =>
      rw [List.replicate_succ, List.replicate_succ, take, List.foldlM_cons, List.foldlM_cons]
      congr 1
      funext next
      exact ih next

/-- Sums that make two of one are a single one. -/
theorem length_eq_one_of_sums {n : Nat}
    (h : take collation (List.replicate n .sum) (.int 1) (.int 1) = .ok (.int 2)) : n = 1 := by
  have hfold : (List.replicate (n + 1) (Cell.int 1)).foldlM addPartial .null = .ok (.int 2) := by
    rw [List.replicate_succ, List.foldlM_cons]
    rw [take_replicate_sum] at h
    exact h
  have hint : ∀ c ∈ List.replicate (n + 1) (Cell.int 1), c.isOf .int := by
    intro c hc
    rw [List.eq_of_mem_replicate hc]
    rfl
  rcases Cell.sumCells_cases hint with ⟨total, htotal, hsum, -⟩ | ⟨e, he, -⟩
  · rw [hfold, Except.ok.injEq] at htotal
    subst htotal
    rcases hsum with ⟨-, hnull⟩ | ⟨-, m, hm, hsum⟩
    · cases hnull
    · cases hm
      rw [integerSum_replicate_one] at hsum
      have htwo : (2 : Int64).toInt = 2 := by decide
      omega
  · rw [hfold] at he
    cases he

/-- The steps that add up repeated units are a single sum. -/
theorem eq_sum_of_take (collation : Collation)
    (h : ∀ unit : Int64, unit = 1 ∨ unit = -1 →
      take collation steps (.int unit) (.int unit) = .ok (.int (unit + unit)) ∧
      take collation steps (.int (unit + unit)) (.int unit) = .ok (.int (unit + unit + unit))) :
    steps = [.sum] := by
  -- A step that goes back to the unit would make two and three units the same.
  have hresets : ∀ (unit : Int64) (k : Accumulation), Resets unit k → k ∉ steps := by
    intro unit k hk hmem
    rcases h unit hk.unit_eq with ⟨htwo, hthree⟩
    have hself := toInt_mul_self hk.unit_eq
    have hsame := hk.take_eq hmem ⟨unit, rfl, Int.le_of_eq hself.symm⟩
      ⟨unit + unit, rfl, by rcases hk.unit_eq with rfl | rfl <;> decide⟩ htwo hthree
    rw [Cell.int.injEq] at hsame
    rcases hk.unit_eq with rfl | rfl
    · exact absurd hsame (by decide)
    · exact absurd hsame (by decide)
  have hsums : ∀ k ∈ steps, k = sum := by
    intro k hk
    cases k with
    | sum => rfl
    | least => exact absurd hk (hresets 1 least (.inl ⟨rfl, rfl⟩))
    | greatest => exact absurd hk (hresets (-1) greatest (.inr ⟨rfl, rfl⟩))
  have hsteps := List.eq_replicate_of_mem hsums
  have htwo := (h 1 (.inl rfl)).1
  rw [hsteps] at htwo ⊢
  rw [length_eq_one_of_sums htwo]
  rfl

end Accumulation

/-! ## Rows of integers -/

section Integers

variable {total row : Row}

/-- Adding to a column makes an integer of integers, unless it overflows. -/
theorem Row.combine_isOf_int (k : Accumulation) (collation : Collation) (column : Nat)
    (htotal : ∀ c, (total.cell c).isOf .int) (hrow : ∀ c, (row.cell c).isOf .int) :
    (∃ next, total.combine (k.add collation) column row = .ok next ∧
      ∀ c, (next.cell c).isOf .int) ∨
    ∃ e, total.combine (k.add collation) column row = .error e ∧ e.isOverflow = true := by
  unfold Row.combine
  rcases k.add_isOf_int collation (htotal column) (hrow column) with
    ⟨next, hnext, hint⟩ | ⟨e, he, hover⟩
  · rw [hnext]
    refine .inl ⟨total.set column next, rfl, fun c => ?_⟩
    rcases Row.cell_set_cases total column c next with hsame | ⟨-, hset⟩
    · rw [hsame]
      exact htotal c
    · rw [hset]
      exact hint
  · rw [he]
    exact .inr ⟨e, rfl, hover⟩

/-- A group of integers has a total of integers, unless a sum overflows. -/
theorem Grouping.sumOf_isOf_int (g : Grouping) {rows : List Row} (hsome : rows ≠ [])
    (hrows : ∀ row ∈ rows, ∀ c, (row.cell c).isOf .int) :
    (∃ total, g.sumOf rows = .ok total ∧ ∀ c, (total.cell c).isOf .int) ∨
    ∃ e, g.sumOf rows = .error e ∧ e.isOverflow = true := by
  cases rows with
  | nil => exact absurd rfl hsome
  | cons first others =>
      rw [List.forall_mem_cons] at hrows
      refine foldlM_cases (fun row hrow total htotal => ?_) hrows.1
      rw [accumulate_eq, Row.addColumns]
      exact foldlM_cases (fun x _ total htotal =>
        Row.combine_isOf_int x.2 g.collation x.1 htotal (hrows.2 row hrow)) htotal

end Integers

/-! ## Averages -/

/-- An average is a floating-point number or null. -/
theorem average_isOf_float {sum count mean : Cell} (h : average sum count = .ok mean) :
    mean.isOf .float := by
  unfold average at h
  repeat' split at h
  all_goals first
    | (cases h; rfl)
    | cases h

namespace Cell

/-- A number, taking null for one. -/
def Numeric (c : Cell) : Prop :=
  c.isOf .int ∨ c.isOf .float

theorem Numeric.number? {c : Cell} (h : c.Numeric) (hsome : c.isNull = false) :
    ∃ x, c.number? = some x := by
  cases c with
  | int n => exact ⟨_, rfl⟩
  | float x => exact ⟨_, rfl⟩
  | null => cases hsome
  | _ => rcases h with h | h <;> cases h

end Cell

/-- Numbers have an average. -/
theorem exists_average {sum count : Cell} (hsum : sum.Numeric) (hcount : count.Numeric) :
    ∃ mean, average sum count = .ok mean := by
  unfold average
  cases hnone : count.isNull with
  | true => exact ⟨.null, rfl⟩
  | false =>
      rcases hcount.number? hnone with ⟨n, hn⟩
      simp only [hn, Bool.false_eq_true, if_false]
      split
      · exact ⟨.null, rfl⟩
      · rename_i hzero
        rw [Bool.or_eq_true, not_or, Bool.not_eq_true, Bool.not_eq_true] at hzero
        rcases hsum.number? hzero.2 with ⟨s, hs⟩
        rw [hs]
        exact ⟨_, rfl⟩

namespace Aggregate

variable {a : Aggregate} {total next : Row}

/-- Finishing changes a column only by putting a mean there. -/
theorem finish_cell_cases (h : a.finish total = .ok next) (c : Nat) :
    next.cell c = total.cell c ∨ (next.cell c).isOf .float := by
  rcases finish_cases h with ⟨-, rfl⟩ | ⟨_, _, mean, -, hmean, rfl⟩
  · exact .inl rfl
  · refine (Row.cell_set_cases total a.column c mean).imp_right fun hset => ?_
    rw [hset.2]
    exact average_isOf_float hmean

/-- The column of an average holds a mean. -/
theorem finish_cell_self (h : a.finish total = .ok next) (hrange : a.column < total.length)
    {sumColumn countColumn : Nat} (hkind : a.kind = .average sumColumn countColumn) :
    (next.cell a.column).isOf .float := by
  rcases finish_cases h with ⟨hnot, -⟩ | ⟨_, _, mean, -, hmean, rfl⟩
  · exact absurd hkind (hnot _ _)
  · rw [Row.cell_set_self hrange]
    exact average_isOf_float hmean

/-- Of numbers means can be taken. -/
theorem exists_finish (a : Aggregate) (hnumbers : ∀ c, (total.cell c).Numeric) :
    ∃ next, a.finish total = .ok next := by
  unfold finish
  cases a.kind with
  | count | sum | min | max => exact ⟨total, rfl⟩
  | average sumColumn countColumn =>
      rcases exists_average (hnumbers sumColumn) (hnumbers countColumn) with ⟨mean, hmean⟩
      exact ⟨total.set a.column mean, by simp only [hmean, Except.map]⟩

end Aggregate

namespace Grouping

variable {g : Grouping} {group : Group} {merged : Row}

/-- A group whose total has numbers has a merged row. -/
theorem exists_finish (g : Grouping) (group : Group)
    (hnumbers : ∀ c, (group.total.cell c).Numeric) : ∃ merged, g.finish group = .ok merged := by
  have hstep : ∀ a ∈ g.aggregates, ∀ b : Row, (∀ c, (b.cell c).Numeric) →
      (∃ b', a.finish b = .ok b' ∧ ∀ c, (b'.cell c).Numeric) ∨
        ∃ e, a.finish b = .error e ∧ False := by
    intro a _ b hb
    rcases a.exists_finish hb with ⟨b', hb'⟩
    refine .inl ⟨b', hb', fun c => ?_⟩
    rcases Aggregate.finish_cell_cases hb' c with hsame | hmean
    · rw [hsame]
      exact hb c
    · exact .inr hmean
  rcases foldlM_cases hstep hnumbers with ⟨merged, hmerged, -⟩ | ⟨-, -, hfalse⟩
  · exact ⟨merged, hmerged⟩
  · exact hfalse.elim

/-- The column of an average holds a mean in the end. -/
theorem finish_cell_average (h : g.finish group = .ok merged) {a : Aggregate}
    (ha : a ∈ g.aggregates) (hrange : a.column < group.total.length)
    {sumColumn countColumn : Nat} (hkind : a.kind = .average sumColumn countColumn) :
    (merged.cell a.column).isOf .float := by
  rcases List.append_of_mem ha with ⟨before, after, hsplit⟩
  rw [Grouping.finish, hsplit, List.foldlM_append] at h
  rcases Except.bind_eq_ok.mp h with ⟨between, hbetween, hrest⟩
  rw [List.foldlM_cons] at hrest
  rcases Except.bind_eq_ok.mp hrest with ⟨next, hnext, hlater⟩
  have hlength : between.length = group.total.length :=
    foldlM_preserves (P := fun b => b.length = group.total.length)
      (fun _ _ _ _ hb hb' => (Aggregate.finish_length hb').trans hb) rfl hbetween
  have hmean := Aggregate.finish_cell_self hnext (hlength ▸ hrange) hkind
  have hstep : ∀ b ∈ after, ∀ x y : Row, (x.cell a.column).isOf .float →
      b.finish x = .ok y → (y.cell a.column).isOf .float := by
    intro b _ x y hx hy
    rcases Aggregate.finish_cell_cases hy a.column with hsame | hmean
    · rw [hsame]
      exact hx
    · exact hmean
  exact foldlM_preserves hstep hmean hlater

end Grouping

/-! ## A number that is repeated -/

/-- A result that repeats a number in one column. -/
def repeatedNumber (width column : Nat) (n : Int64) (times : Nat) : List ResultCursor :=
  [⟨List.replicate width ⟨"", ""⟩, List.replicate times (numberRow width column n)⟩].map
    Table.cursor

section Repeated

variable {width column c : Nat} {unit : Int64} {times : Nat}

/-- The rows of these results are one row again and again. -/
theorem rows_repeatedNumber : (repeatedNumber width column unit times).flatMap (·.rows.rest) =
    List.replicate times (numberRow width column unit) := by
  rw [repeatedNumber, Table.flatMap_rows, List.flatMap_cons, List.flatMap_nil, List.append_nil]

/-- Rows that are the same have one key. -/
theorem Grouping.keysOf_replicate (g : Grouping) (times : Nat) (row : Row) :
    g.keysOf (List.replicate (times + 1) row) = [g.key row] := by
  rw [List.replicate_succ]
  exact keysOf_cons_of_key_eq fun other hother => by rw [List.eq_of_mem_replicate hother]

/-- Rows that are the same are all in the group of their key. -/
theorem Grouping.partials_replicate (g : Grouping) (times : Nat) (row : Row) :
    g.partials (List.replicate times row) (g.key row) = List.replicate times row :=
  partials_of_key_eq fun other hother => by rw [List.eq_of_mem_replicate hother]

/-- Equal rows are merged into one row. -/
theorem Shape.groupwise_replicate {s : Shape} {collation : Collation} {row total merged : Row}
    (htotal : (s.grouping width collation).sumOf (List.replicate (times + 1) row) = .ok total)
    (hmerged : (s.grouping width collation).finish
      ⟨(s.grouping width collation).key row, total⟩ = .ok merged) :
    s.groupwise width collation (List.replicate (times + 1) row) = .ok [merged] := by
  rw [List.replicate_succ] at htotal ⊢
  rw [groupwise_of_key_eq fun other hother => by rw [List.eq_of_mem_replicate hother], htotal]
  show ((s.grouping width collation).finish ⟨_, total⟩).map _ = _
  rw [hmerged]
  rfl

/-- Few units do not overflow. -/
theorem not_sumOverflows_replicate (hunit : unit = 1 ∨ unit = -1) (htimes : times ≤ 3) :
    ¬ Cell.SumOverflows
      ((List.replicate times (numberRow width column unit)).map (·.cell c)) := by
  rw [List.map_replicate]
  have hcells : ∀ cell ∈ List.replicate times ((numberRow width column unit).cell c),
      cell.isOf .int := by
    intro cell hcell
    rw [List.eq_of_mem_replicate hcell]
    exact isOf_int_numberRow
  have hcell : (numberRow width column unit).cell c = .null ∨
      (numberRow width column unit).cell c = .int unit := by
    rcases Row.cell_set_cases (List.replicate width Cell.null) column c (.int unit) with h | ⟨-, h⟩
    · rw [replicate_null_cell] at h
      exact .inl h
    · exact .inr h
  have hfold : ∃ total, (List.replicate times ((numberRow width column unit).cell c)).foldlM
      addPartial .null = .ok total := by
    rcases hcell with h | h <;> rw [h]
    · interval_cases times <;> exact ⟨_, rfl⟩
    · rcases hunit with rfl | rfl <;> interval_cases times <;> exact ⟨_, rfl⟩
  rcases hfold with ⟨total, htotal⟩
  exact Cell.not_sumOverflows_of_ok hcells htotal

end Repeated

namespace Shape

variable {s : Shape} {width : Nat} {collation : Collation} {c : Nat} {unit : Int64} {times : Nat}

/-- Where sums are held, a repeated unit is merged into a row that holds its sum. -/
theorem AddsUp.repeated (h : s.AddsUp width collation) (hrange : s.ColumnsInRange width)
    (hc : (s.grouping width collation).Summed c) (hunit : unit = 1 ∨ unit = -1)
    (htimes : times < 3) :
    ∃ total merged, (s.grouping width collation).sumOf
        (List.replicate (times + 1) (numberRow width c unit)) = .ok total ∧
      (s.grouping width collation).finish
        ⟨(s.grouping width collation).key (numberRow width c unit), total⟩ = .ok merged ∧
      Cell.IsSum (List.replicate (times + 1) (.int unit)) (merged.cell c) := by
  let g := s.grouping width collation
  let row := numberRow width c unit
  let results := repeatedNumber width c unit (times + 1)
  have hrows : results.flatMap (·.rows.rest) = List.replicate (times + 1) row :=
    rows_repeatedNumber
  have hmem : ∀ other ∈ results.flatMap (·.rows.rest), other = row := fun other hother =>
    List.eq_of_mem_replicate (hrows ▸ hother)
  have hcell : ∀ other ∈ results.flatMap (·.rows.rest), ∀ column,
      (other.cell column).isOf .int := by
    intro other hother column
    rw [hmem other hother]
    exact isOf_int_numberRow
  have hnever : ∀ r ∈ results, r.NeverFails := Table.cursors_neverFail _
  have hwidth : ∀ r ∈ results, ∀ other ∈ r.rows.rest, other.length = width := by
    intro r hr other hother
    rw [hmem other (List.mem_flatMap.mpr ⟨r, hr, hother⟩)]
    exact length_numberRow
  rcases h results hnever hwidth fun other hother column _ => hcell other hother column with
    ⟨hholds, hoverflows⟩
  have hcases := groupRows_cases collation hnever hwidth hrange
  rw [hrows] at hholds hoverflows hcases hcell
  have hkey : ∀ key ∈ g.keysOf (List.replicate (times + 1) row), key = g.key row := by
    rw [g.keysOf_replicate]
    exact fun key hkey => List.mem_singleton.mp hkey
  have htotalOf : g.totalOf (List.replicate (times + 1) row) (g.key row) =
      g.sumOf (List.replicate (times + 1) row) := by
    rw [Grouping.totalOf, g.partials_replicate]
  rcases g.sumOf_isOf_int (by simp) hcell with ⟨total, htotal, hint⟩ | ⟨e, he, hover⟩
  · rcases g.exists_finish ⟨g.key row, total⟩ fun column => .inl (hint column) with
      ⟨merged, hmerged⟩
    refine ⟨total, merged, htotal, hmerged, ?_⟩
    rcases hcases with ⟨key, hmemKey, e, -, he⟩ | ⟨-, hgroupwise⟩
    · rw [hkey key hmemKey, htotalOf, htotal] at he
      cases he
    · rcases hholds [merged] (hgroupwise.trans (groupwise_replicate htotal hmerged)) with
        ⟨all, hperm, hplaced⟩
      rw [List.perm_singleton.mp hperm.symm, g.keysOf_replicate, List.forall₂_cons,
        g.partials_replicate] at hplaced
      have hsum := hplaced.1 c hc
      rwa [List.map_replicate, numberRow_cell_self (hrange.summed hc)] at hsum
  · -- So few units do not overflow.
    rcases hcases with ⟨key, hmemKey, e', hfault, he'⟩ | ⟨htotals, -⟩
    · rw [hkey key hmemKey, htotalOf, he, Except.error.injEq] at he'
      subst he'
      rcases hoverflows e hfault hover with ⟨key', hmemKey', column, -, hsum⟩
      rw [hkey key' hmemKey', g.partials_replicate] at hsum
      exact absurd hsum (not_sumOverflows_replicate hunit htimes)
    · rcases htotals (g.key row) (by rw [g.keysOf_replicate]; exact List.mem_singleton_self _) with
        ⟨total, htotal⟩
      rw [htotalOf, he] at htotal
      cases htotal

/-- Where sums are held, no average is put into a summed column: it would not be an integer. -/
theorem AddsUp.kept (h : s.AddsUp width collation) (hrange : s.ColumnsInRange width)
    (hc : (s.grouping width collation).Summed c) {a : Aggregate}
    (ha : a ∈ (s.grouping width collation).aggregates) {sumColumn countColumn : Nat}
    (hkind : a.kind = .average sumColumn countColumn) : a.column ≠ c := by
  rintro rfl
  have hone : (1 : Int64) = 1 ∨ (1 : Int64) = -1 := .inl rfl
  rcases h.repeated hrange hc hone (show 0 < 3 by decide) with
    ⟨total, merged, htotal, hfinish, hsum⟩
  have hlength : total.length = width := by
    rw [← Except.ok.inj htotal]
    exact length_numberRow
  have hmean := Grouping.finish_cell_average hfinish ha (hlength.symm ▸ hrange.summed hc) hkind
  rcases hsum with ⟨hnull, -⟩ | ⟨-, n, hn, -⟩
  · cases hnull (.int 1) List.mem_cons_self
  · rw [hn] at hmean
    cases hmean

/-- Where sums are held, the total of a repeated unit has its sum. -/
theorem AddsUp.sumOf_repeated (h : s.AddsUp width collation) (hrange : s.ColumnsInRange width)
    (hc : (s.grouping width collation).Summed c) (hunit : unit = 1 ∨ unit = -1)
    (htimes : times < 3) :
    ∃ total, (s.grouping width collation).sumOf
        (List.replicate (times + 1) (numberRow width c unit)) = .ok total ∧
      c < total.length ∧ Cell.IsSum (List.replicate (times + 1) (.int unit)) (total.cell c) := by
  rcases h.repeated hrange hc hunit htimes with ⟨total, merged, htotal, hfinish, hsum⟩
  rw [Grouping.finish_cell hfinish fun a ha _ _ hkind => h.kept hrange hc ha hkind] at hsum
  refine ⟨total, htotal, ?_, hsum⟩
  have hlength : total.length = width := Grouping.sumOf_length (by simp)
    (fun row hrow => by rw [List.eq_of_mem_replicate hrow, length_numberRow]) htotal
  rw [hlength]
  exact hrange.summed hc

/-- One more unit is added by the steps of its column. -/
theorem take_repeated {g : Grouping} {total total' : Row} (hlength : c < total.length)
    (hc : c < width)
    (htotal : g.sumOf (List.replicate (times + 1) (numberRow width c unit)) = .ok total)
    (htotal' : g.sumOf (List.replicate (times + 2) (numberRow width c unit)) = .ok total') :
    Accumulation.take g.collation (Accumulation.stepsAt c g.accumulations) (total.cell c)
      (.int unit) = .ok (total'.cell c) := by
  rw [List.replicate_succ', Grouping.sumOf_concat (by simp), htotal] at htotal'
  rw [← numberRow_cell_self hc (n := unit)]
  exact Grouping.accumulate_cell hlength htotal'

/-- Where sums are held, each summed column is left to one sum. -/
theorem AddsUp.summedOnce (h : s.AddsUp width collation) (hrange : s.ColumnsInRange width) :
    (s.grouping width collation).SummedOnce := by
  refine ⟨fun c hc => ?_, fun c hc a ha _ _ hkind => h.kept hrange hc ha hkind⟩
  apply Accumulation.eq_sum_of_take collation
  intro unit hunit
  rcases h.sumOf_repeated hrange hc hunit (show 0 < 3 by decide) with ⟨one, hone, hlength, hsum⟩
  rcases h.sumOf_repeated hrange hc hunit (show 1 < 3 by decide) with
    ⟨two, htwo, hlength', hsum'⟩
  rcases h.sumOf_repeated hrange hc hunit (show 2 < 3 by decide) with ⟨three, hthree, -, hsum''⟩
  have hsums : Cell.IsSum (List.replicate 1 (.int unit)) (.int unit) ∧
      Cell.IsSum (List.replicate 2 (.int unit)) (.int (unit + unit)) ∧
      Cell.IsSum (List.replicate 3 (.int unit)) (.int (unit + unit + unit)) := by
    rcases hunit with rfl | rfl
    · exact ⟨.inr ⟨⟨_, List.mem_cons_self, rfl⟩, _, rfl, by decide⟩,
        .inr ⟨⟨_, List.mem_cons_self, rfl⟩, _, rfl, by decide⟩,
        .inr ⟨⟨_, List.mem_cons_self, rfl⟩, _, rfl, by decide⟩⟩
    · exact ⟨.inr ⟨⟨_, List.mem_cons_self, rfl⟩, _, rfl, by decide⟩,
        .inr ⟨⟨_, List.mem_cons_self, rfl⟩, _, rfl, by decide⟩,
        .inr ⟨⟨_, List.mem_cons_self, rfl⟩, _, rfl, by decide⟩⟩
  have hfirst := take_repeated hlength (hrange.summed hc) hone htwo
  have hsecond := take_repeated hlength' (hrange.summed hc) htwo hthree
  rw [Cell.IsSum.unique (List.Perm.refl _) hsum hsums.1] at hfirst
  rw [Cell.IsSum.unique (List.Perm.refl _) hsum' hsums.2.1] at hfirst hsecond
  rw [Cell.IsSum.unique (List.Perm.refl _) hsum'' hsums.2.2] at hsecond
  exact ⟨hfirst, hsecond⟩

/-- Whatever results are merged, each merged row holds the sums of its group, a partial being
counted once, exactly if each summed column is left to one sum. -/
theorem addsUp_iff (s : Shape) (width : Nat) (collation : Collation) :
    s.AddsUp width collation ↔
      (s.ColumnsInRange width → (s.grouping width collation).SummedOnce) :=
  ⟨fun h hrange => h.summedOnce hrange, addsUp_of_summedOnce⟩

/-- The average and the total of an amount: the total is what the average is made from. -/
def meanAndTotal : Shape :=
  { Shape.plain with aggregates := [⟨0, .average 1 2⟩, ⟨1, .sum⟩] }

/-- One order of an amount of three, and three orders that amount to five. -/
def meanResults : List ResultCursor :=
  [⟨[⟨"avg", "avg"⟩, ⟨"sum", "sum"⟩, ⟨"count", "count"⟩], [[.null, .int 3, .int 1]]⟩,
    ⟨[⟨"avg", "avg"⟩, ⟨"sum", "sum"⟩, ⟨"count", "count"⟩], [[.null, .int 5, .int 3]]⟩].map
    Table.cursor

/-- The five is counted twice: four orders amount to eight. -/
theorem groupRows_not_holdsSums_meanAndTotal :
    (∀ r ∈ meanResults, r.NeverFails) ∧
    groupRows meanResults meanAndTotal 3 .binary =
      .ok [[.float ⟨0x400a000000000000⟩, .int 13, .int 4]] ∧
    Cell.IsSum ((meanResults.flatMap (·.rows.rest)).map (·.cell 1)) (.int 8) ∧
    ¬ (meanAndTotal.grouping 3 .binary).HoldsSums (meanResults.flatMap (·.rows.rest))
      [[.float ⟨0x400a000000000000⟩, .int 13, .int 4]] := by
  refine ⟨Table.cursors_neverFail _, ?_, ?_, ?_⟩
  · apply eq_ok_of_toOption
    decide +kernel
  · exact .inr ⟨⟨.int 3, by decide, rfl⟩, 8, rfl, by decide⟩
  · rintro ⟨all, hperm, hplaced⟩
    have hall : all = [[.float ⟨0x400a000000000000⟩, .int 13, .int 4]] :=
      List.perm_singleton.mp hperm.symm
    have hkeys : (meanAndTotal.grouping 3 .binary).keysOf (meanResults.flatMap (·.rows.rest)) =
        [[]] := by
      decide
    rw [hkeys, hall, List.forall₂_cons] at hplaced
    have hsummed : (meanAndTotal.grouping 3 .binary).Summed 1 := by
      simp [Grouping.Summed, Grouping.accumulations, Shape.grouping, meanAndTotal,
        Aggregate.accumulations]
    rcases hplaced.1 1 hsummed with ⟨-, hnull⟩ | ⟨-, n, hn, hsum⟩
    · cases hnull
    · cases hn
      exact absurd hsum (by decide)

end Shape

end ShardedSql
