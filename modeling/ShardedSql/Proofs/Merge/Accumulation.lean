import Mathlib.Data.List.Induction
import Mathlib.Data.List.Nodup
import Mathlib.Data.List.Pairwise
import ShardedSql.Proofs.Merge.Groups
import ShardedSql.Proofs.Sorting.RowOrder

/-!
# Accumulated columns

Each aggregate is computed from the cells of one or two columns, which are added up or of which the
best is kept, one row after the other.  As long as no two aggregates share a column, the total of a
group can be computed column by column.

Main results:

- Theorem `sumCells_cases`: nulls and integers add up to their exact sum, unless a partial sum does
  not fit into an integer cell.
- Theorem `bestCell_eq_ok`: of nulls and cells of one kind the earliest best one is kept.
-/

namespace ShardedSql

open Std

namespace Cell

/-- A cell of a kind is null or has that kind. -/
theorem isOf_cases {kind : CellKind} {c : Cell} (h : c.isOf kind) :
    c = .null ∨ c.isNull = false ∧ c.kind = kind := by
  cases c with
  | null => exact .inl rfl
  | _ => exact .inr ⟨rfl, by simpa [isOf, isNull] using h⟩

theorem int_of_kind {c : Cell} (h : c.kind = .int) : ∃ n, c = .int n := by
  cases c with
  | int n => exact ⟨n, rfl⟩
  | _ => cases h

/-! ## Sums -/

/-- A number that an integer cell can hold. -/
def FitsInt (n : Int) : Prop := -Nat.pow 2 63 ≤ n ∧ n < Nat.pow 2 63

/-- The sum of the integers among some cells. -/
def integerSum (cells : List Cell) : Int :=
  (cells.map intKey).foldr (· + ·) 0

/-- The running sum of some cells leaves the range of integer cells. -/
def SumOverflows (cells : List Cell) : Prop :=
  ∃ before, before <+: cells ∧ ¬ FitsInt (integerSum before)

/-- The sum of some cells: that of the integers among them, null if all are null. -/
def IsSum (cells : List Cell) (total : Cell) : Prop :=
  ((∀ c ∈ cells, c.isNull) ∧ total = .null) ∨
    (∃ c ∈ cells, c.isNull = false) ∧ ∃ n, total = .int n ∧ n.toInt = integerSum cells

theorem fitsInt_toInt (n : Int64) : FitsInt n.toInt :=
  ⟨n.le_toInt, n.toInt_lt⟩

/-- One more cell adds its integer. -/
theorem integerSum_concat (cells : List Cell) (c : Cell) :
    integerSum (cells ++ [c]) = integerSum cells + c.intKey := by
  unfold integerSum
  induction cells with
  | nil => simp
  | cons d cells ih =>
      rw [List.cons_append, List.map_cons, List.map_cons, List.foldr_cons, List.foldr_cons, ih]
      omega

/-- Nulls add up to nothing. -/
theorem integerSum_of_null {cells : List Cell} (h : ∀ c ∈ cells, c.isNull) :
    integerSum cells = 0 := by
  induction cells with
  | nil => rfl
  | cons c cells ih =>
      rw [List.forall_mem_cons] at h
      have hrest : (cells.map intKey).foldr (· + ·) 0 = 0 := ih h.2
      have hfirst : c.intKey = 0 := by
        cases c with
        | int n => simp [isNull] at h
        | _ => rfl
      rw [integerSum, List.map_cons, List.foldr_cons, hrest, hfirst]
      rfl

/-- The sum of a total is in range. -/
theorem IsSum.fitsInt {cells : List Cell} {total : Cell} (h : IsSum cells total) :
    FitsInt (integerSum cells) := by
  rcases h with ⟨hnull, -⟩ | ⟨-, n, -, hn⟩
  · rw [integerSum_of_null hnull]
    exact ⟨by decide, by decide⟩
  · rw [← hn]
    exact fitsInt_toInt n

/-- A total of integers is an integer or null. -/
theorem IsSum.isOf_int {cells : List Cell} {total : Cell} (h : IsSum cells total) :
    total.isOf .int := by
  rcases h with ⟨-, rfl⟩ | ⟨-, n, rfl, -⟩ <;> rfl

/-- A sum of one more cell overflows if one before does or the new one is out of range. -/
theorem sumOverflows_concat {cells : List Cell} {c : Cell} :
    SumOverflows (cells ++ [c]) ↔ SumOverflows cells ∨ ¬ FitsInt (integerSum (cells ++ [c])) := by
  unfold SumOverflows
  simp only [List.prefix_concat_iff]
  constructor
  · rintro ⟨before, rfl | hprefix, hsum⟩
    · exact .inr hsum
    · exact .inl ⟨before, hprefix, hsum⟩
  · rintro (⟨before, hprefix, hsum⟩ | hsum)
    · exact ⟨before, .inr hprefix, hsum⟩
    · exact ⟨_, .inl rfl, hsum⟩

/-- One more cell is added to a sum, or the sum does not fit. -/
theorem IsSum.add_cases {cells : List Cell} {total c : Cell} (h : IsSum cells total)
    (hc : c.isOf .int) :
    (∃ next, addPartial total c = .ok next ∧ IsSum (cells ++ [c]) next) ∨
    ∃ e, addPartial total c = .error e ∧ ¬ FitsInt (integerSum (cells ++ [c])) := by
  rcases isOf_cases hc with rfl | ⟨hsome, hkind⟩
  · refine .inl ⟨total, by cases total <;> rfl, ?_⟩
    rcases h with ⟨hnull, rfl⟩ | ⟨⟨d, hd, hdsome⟩, n, rfl, hn⟩
    · refine .inl ⟨?_, rfl⟩
      intro d hd
      rcases List.mem_append.mp hd with hd | hd
      · exact hnull d hd
      · rw [List.mem_singleton.mp hd]
        rfl
    · refine .inr ⟨⟨d, by simp [hd], hdsome⟩, n, rfl, ?_⟩
      rw [integerSum_concat, hn]
      exact (Int.add_zero _).symm
  · rcases int_of_kind hkind with ⟨m, rfl⟩
    have hany : ∃ d ∈ cells ++ [.int m], d.isNull = false := ⟨.int m, by simp, rfl⟩
    rcases h with ⟨hnull, rfl⟩ | ⟨-, n, rfl, hn⟩
    · refine .inl ⟨.int m, rfl, .inr ⟨hany, m, rfl, ?_⟩⟩
      rw [integerSum_concat, integerSum_of_null hnull, Int.zero_add]
      rfl
    · have hsum : integerSum (cells ++ [.int m]) = n.toInt + m.toInt := by
        rw [integerSum_concat, hn]
        rfl
      rw [hsum]
      by_cases hfits : FitsInt (n.toInt + m.toInt)
      · refine .inl ⟨.int (Int64.ofInt (n.toInt + m.toInt)), ?_, .inr ⟨hany, _, rfl, ?_⟩⟩
        · simp only [addPartial]
          rw [if_pos (by simpa [FitsInt] using hfits)]
        · rw [hsum]
          exact Int64.toInt_ofInt_of_le hfits.1 hfits.2
      · refine .inr ⟨.merge (.overflow m.toInt n.toInt), ?_, hfits⟩
        simp only [addPartial]
        rw [if_neg (by simpa [FitsInt] using hfits)]

/-- Nulls and integers add up to their exact sum, unless a partial sum does not fit. -/
theorem sumCells_cases {cells : List Cell} (h : ∀ c ∈ cells, c.isOf .int) :
    (∃ total, cells.foldlM addPartial .null = .ok total ∧ IsSum cells total ∧
      ¬ SumOverflows cells) ∨
    ∃ e, cells.foldlM addPartial .null = .error e ∧ SumOverflows cells := by
  induction cells using List.reverseRecOn with
  | nil =>
      have hnil : IsSum [] .null := .inl ⟨by simp, rfl⟩
      refine .inl ⟨.null, rfl, hnil, ?_⟩
      rintro ⟨before, hprefix, hsum⟩
      rw [List.prefix_nil.mp hprefix] at hsum
      exact hsum hnil.fitsInt
  | append_singleton cells c ih =>
      rw [List.foldlM_append, sumOverflows_concat]
      rcases ih fun d hd => h d (by simp [hd]) with ⟨total, htotal, hsum, hfits⟩ | ⟨e, he, hover⟩
      · simp only [htotal, List.foldlM_cons, List.foldlM_nil, bind_pure]
        rcases hsum.add_cases (h c (by simp)) with ⟨next, hnext, hsum⟩ | ⟨e, he, hbad⟩
        · exact .inl ⟨next, hnext, hsum, fun hover => hover.elim hfits (· hsum.fitsInt)⟩
        · exact .inr ⟨e, he, .inr hbad⟩
      · exact .inr ⟨e, by rw [he]; rfl, .inl hover⟩

/-! ## Best cells -/

/-- The best of some cells: the earliest one that no other is better than, null if all are null. -/
def IsBest (wanted : Ordering) (collation : Collation) (cells : List Cell) (best : Cell) : Prop :=
  ((∀ c ∈ cells, c.isNull) ∧ best = .null) ∨
    ∃ before after, cells = before ++ best :: after ∧ best.isNull = false ∧
      (∀ c ∈ before, c.isNull = false → order collation best c = .ok wanted) ∧
      ∀ c ∈ after, c.isNull = false →
        order collation best c = .ok wanted ∨ order collation best c = .ok .eq

section Best

variable {wanted : Ordering} {collation : Collation} {kind : CellKind} {cells : List Cell}
  {best c : Cell}

/-- The best cell is as good as all others. -/
theorem IsBest.order_cases (hkind : kind.isOrdered) (hcells : ∀ d ∈ cells, d.isOf kind)
    (h : IsBest wanted collation cells best) (hbest : best.isNull = false) :
    best.kind = kind ∧ ∀ d ∈ cells, d.isNull = false →
      order collation best d = .ok wanted ∨ order collation best d = .ok .eq := by
  rcases h with ⟨-, rfl⟩ | ⟨before, after, rfl, -, hbefore, hafter⟩
  · cases hbest
  · have hbestKind : best.kind = kind := by
      rcases isOf_cases (hcells best (by simp)) with rfl | ⟨-, hbestKind⟩
      · cases hbest
      · exact hbestKind
    refine ⟨hbestKind, ?_⟩
    intro d hd hsome
    rcases List.mem_append.mp hd with hd | hd
    · exact .inl (hbefore d hd hsome)
    · rcases List.mem_cons.mp hd with rfl | hd
      · right
        rw [order_eq_totalOrder collation hkind hbestKind hbestKind]
        exact congrArg Except.ok ReflCmp.compare_self
      · exact hafter d hd hsome

/-- What the best cell is better than, is worse than whatever is better than the best cell. -/
theorem order_trans (hwanted : wanted ≠ .eq) (hkind : kind.isOrdered) {a b d : Cell}
    (ha : a.kind = kind) (hb : b.kind = kind) (hd : d.kind = kind)
    (hab : order collation a b = .ok wanted)
    (hbd : order collation b d = .ok wanted ∨ order collation b d = .ok .eq) :
    order collation a d = .ok wanted := by
  rw [order_eq_totalOrder collation hkind ha hb, Except.ok.injEq] at hab
  rw [order_eq_totalOrder collation hkind hb hd, Except.ok.injEq, Except.ok.injEq] at hbd
  rw [order_eq_totalOrder collation hkind ha hd, Except.ok.injEq]
  cases wanted with
  | eq => exact absurd rfl hwanted
  | lt =>
      apply TransCmp.lt_of_lt_of_isLE hab
      rcases hbd with h | h <;> simp [h]
  | gt =>
      apply TransCmp.gt_of_gt_of_isGE hab
      rcases hbd with h | h <;> simp [h]

/-- The best cell stays the best before a cell that is null or no better. -/
theorem IsBest.kept (h : IsBest wanted collation cells best)
    (hc : c.isNull = false → best.isNull = false ∧
      (order collation best c = .ok wanted ∨ order collation best c = .ok .eq)) :
    IsBest wanted collation (cells ++ [c]) best := by
  rcases h with ⟨hnull, rfl⟩ | ⟨before, after, rfl, hbest, hbefore, hafter⟩
  · left
    refine ⟨?_, rfl⟩
    intro d hd
    rcases List.mem_append.mp hd with hd | hd
    · exact hnull d hd
    · rw [List.mem_singleton.mp hd]
      by_contra hsome
      have hbest := (hc (by simpa using hsome)).1
      cases hbest
  · right
    refine ⟨before, after ++ [c], by simp, hbest, hbefore, ?_⟩
    intro d hd hdsome
    rcases List.mem_append.mp hd with hd | hd
    · exact hafter d hd hdsome
    · rw [List.mem_singleton.mp hd] at hdsome ⊢
      exact (hc hdsome).2

/-- A cell that is better than the best one is better than all others. -/
theorem IsBest.replaced (hwanted : wanted ≠ .eq) (hkind : kind.isOrdered)
    (hcells : ∀ d ∈ cells, d.isOf kind) (h : IsBest wanted collation cells best)
    (hsome : c.isNull = false) (hckind : c.kind = kind)
    (hc : best.isNull = false → order collation c best = .ok wanted) :
    IsBest wanted collation (cells ++ [c]) c := by
  refine .inr ⟨cells, [], rfl, hsome, ?_, by simp⟩
  intro d hd hdsome
  have hdkind : d.kind = kind := by
    rcases isOf_cases (hcells d hd) with rfl | ⟨-, hdkind⟩
    · cases hdsome
    · exact hdkind
  cases hbest : best.isNull with
  | true =>
      rcases h with ⟨hnull, -⟩ | ⟨-, -, -, hfalse, -⟩
      · rw [hnull d hd] at hdsome
        cases hdsome
      · rw [hbest] at hfalse
        cases hfalse
  | false =>
      rcases h.order_cases hkind hcells hbest with ⟨hbestKind, hall⟩
      exact order_trans hwanted hkind hckind hbestKind hdkind (hc hbest) (hall d hd hdsome)

/-- One more cell replaces the best one exactly if it is better. -/
theorem IsBest.pick (hwanted : wanted ≠ .eq) (hkind : kind.isOrdered)
    (hcells : ∀ d ∈ cells, d.isOf kind) (hc : c.isOf kind)
    (h : IsBest wanted collation cells best) :
    ∃ next, pickPartial wanted collation best c = .ok next ∧
      IsBest wanted collation (cells ++ [c]) next := by
  rcases isOf_cases hc with rfl | ⟨hsome, hckind⟩
  · refine ⟨best, by cases best <;> rfl, h.kept ?_⟩
    intro hsome
    cases hsome
  cases hbest : best.isNull with
  | true =>
      refine ⟨c, by simp [pickPartial, hbest], h.replaced hwanted hkind hcells hsome hckind ?_⟩
      simp [hbest]
  | false =>
      have hbestKind := (h.order_cases hkind hcells hbest).1
      have horder := order_eq_totalOrder collation hkind hckind hbestKind
      by_cases hbetter : totalOrder collation c best = wanted
      · rw [hbetter] at horder
        refine ⟨c, ?_, h.replaced hwanted hkind hcells hsome hckind fun _ => horder⟩
        simp [pickPartial, hbest, hsome, horder, Except.map]
      · refine ⟨best, ?_, h.kept fun _ => ⟨hbest, ?_⟩⟩
        · simp [pickPartial, hbest, hsome, horder, Except.map, hbetter]
        · -- A cell that is not better is worse or equal.
          have hswap : totalOrder collation best c = (totalOrder collation c best).swap :=
            OrientedCmp.eq_swap
          rw [order_eq_totalOrder collation hkind hbestKind hckind, hswap]
          revert hbetter hwanted
          cases totalOrder collation c best <;> cases wanted <;> simp

end Best

/-- Of nulls and cells of one kind the earliest best one is kept. -/
theorem bestCell_eq_ok {wanted : Ordering} (hwanted : wanted ≠ .eq) (collation : Collation)
    {kind : CellKind} (hkind : kind.isOrdered) {cells : List Cell} (h : ∀ c ∈ cells, c.isOf kind) :
    ∃ best, cells.foldlM (pickPartial wanted collation) .null = .ok best ∧
      IsBest wanted collation cells best := by
  induction cells using List.reverseRecOn with
  | nil => exact ⟨.null, rfl, .inl ⟨by simp, rfl⟩⟩
  | append_singleton cells c ih =>
      have hcells : ∀ d ∈ cells, d.isOf kind := fun d hd => h d (by simp [hd])
      rcases ih hcells with ⟨best, hfold, hbest⟩
      rcases hbest.pick hwanted hkind hcells (h c (by simp)) with ⟨next, hnext, hkept⟩
      refine ⟨next, ?_, hkept⟩
      simp only [List.foldlM_append, hfold, List.foldlM_cons, List.foldlM_nil, bind_pure]
      exact hnext

end Cell

/-! ## Columns -/

/-- How the cells of a column are accumulated. -/
inductive Accumulation where
  | sum
  | least
  | greatest

namespace Accumulation

/-- Adds a cell to the total of its column. -/
def add (k : Accumulation) (collation : Collation) : Cell → Cell → Except Fault Cell :=
  match k with
  | sum => addPartial
  | least => pickPartial .lt collation
  | greatest => pickPartial .gt collation

/-- The cells that can be accumulated: nulls and integers in a sum, nulls and cells of one ordered
kind otherwise. -/
def Accepts (k : Accumulation) (cells : List Cell) : Prop :=
  match k with
  | sum => ∀ c ∈ cells, c.isOf .int
  | least | greatest => ∃ kind : CellKind, kind.isOrdered ∧ ∀ c ∈ cells, c.isOf kind

/-- The total of the cells of a column. -/
def IsTotal (k : Accumulation) (collation : Collation) (cells : List Cell) (total : Cell) : Prop :=
  match k with
  | sum => Cell.IsSum cells total
  | least => Cell.IsBest .lt collation cells total
  | greatest => Cell.IsBest .gt collation cells total

variable {k : Accumulation} {collation : Collation} {cells : List Cell}

/-- The first cell is the first total. -/
@[simp]
theorem add_null (c : Cell) : k.add collation .null c = .ok c := by
  cases k <;> cases c <;> rfl

/-- Fewer cells are accepted as well. -/
theorem Accepts.subset (h : k.Accepts cells) {cells' : List Cell}
    (hsub : ∀ c ∈ cells', c ∈ cells) : k.Accepts cells' := by
  cases k with
  | sum => exact fun c hc => h c (hsub c hc)
  | least | greatest =>
      rcases h with ⟨kind, hkind, hcells⟩
      exact ⟨kind, hkind, fun c hc => hcells c (hsub c hc)⟩

/-- The cells of a column have a total, unless a running sum leaves the range. -/
theorem Accepts.total_cases (h : k.Accepts cells) (collation : Collation) :
    (∃ total, cells.foldlM (k.add collation) .null = .ok total ∧
      k.IsTotal collation cells total ∧ ¬ (k = sum ∧ Cell.SumOverflows cells)) ∨
    ∃ e, cells.foldlM (k.add collation) .null = .error e ∧ k = sum ∧ Cell.SumOverflows cells := by
  cases k with
  | sum =>
      rcases Cell.sumCells_cases h with ⟨total, hfold, htotal, hfits⟩ | ⟨e, he, hover⟩
      · exact .inl ⟨total, hfold, htotal, fun hover => hfits hover.2⟩
      · exact .inr ⟨e, he, rfl, hover⟩
  | least =>
      rcases h with ⟨kind, hkind, hcells⟩
      have hwanted : Ordering.lt ≠ .eq := by decide
      rcases Cell.bestCell_eq_ok hwanted collation hkind hcells with ⟨best, hfold, hbest⟩
      exact .inl ⟨best, hfold, hbest, fun hsum => by cases hsum.1⟩
  | greatest =>
      rcases h with ⟨kind, hkind, hcells⟩
      have hwanted : Ordering.gt ≠ .eq := by decide
      rcases Cell.bestCell_eq_ok hwanted collation hkind hcells with ⟨best, hfold, hbest⟩
      exact .inl ⟨best, hfold, hbest, fun hsum => by cases hsum.1⟩

end Accumulation

/-! ## Rows -/

theorem Row.cell_set_self {row : Row} {column : Nat} (h : column < row.length) (c : Cell) :
    Row.cell (row.set column c) column = c := by
  simp [Row.cell, List.getD, h]

/-- Setting a cell leaves the others as they are. -/
theorem Row.cell_set_of_ne {row : Row} {column other : Nat} (h : column ≠ other) (c : Cell) :
    Row.cell (row.set column c) other = row.cell other := by
  simp [Row.cell, List.getD, List.getElem?_set_ne h]

/-- The columns that an aggregate accumulates. -/
def Aggregate.accumulations (a : Aggregate) : List (Nat × Accumulation) :=
  match a.kind with
  | .count | .sum => [(a.column, .sum)]
  | .min => [(a.column, .least)]
  | .max => [(a.column, .greatest)]
  | .average sumColumn countColumn => [(sumColumn, .sum), (countColumn, .sum)]

/-- Adds the cells of a row to the totals of some columns. -/
def Row.addColumns (collation : Collation) (columns : List (Nat × Accumulation)) (total row : Row) :
    Except Fault Row :=
  columns.foldlM (fun total x => total.combine (x.2.add collation) x.1 row) total

/-- An aggregate adds a row to a total column by column. -/
theorem Aggregate.accumulate_eq (a : Aggregate) (collation : Collation) (total row : Row) :
    a.accumulate collation total row = Row.addColumns collation a.accumulations total row := by
  unfold Aggregate.accumulate Aggregate.accumulations Row.addColumns
  cases a.kind <;> simp [Accumulation.add]

/-- Only columns of the aggregate are accumulated. -/
theorem Aggregate.accumulations_sublist (a : Aggregate) :
    (a.accumulations.map (·.1)).Sublist a.columns := by
  unfold Aggregate.accumulations Aggregate.columns
  cases a.kind <;> simp

theorem Aggregate.column_mem_columns (a : Aggregate) : a.column ∈ a.columns := by
  unfold Aggregate.columns
  cases a.kind <;> simp

/-- A row is added column by column, unless one of the columns cannot be added. -/
theorem Row.addColumns_cases (collation : Collation) {columns : List (Nat × Accumulation)}
    {total : Row} (hapart : (columns.map (·.1)).Nodup) (hrange : ∀ x ∈ columns, x.1 < total.length)
    (row : Row) :
    (∃ next, Row.addColumns collation columns total row = .ok next ∧
      (∀ x ∈ columns, x.2.add collation (total.cell x.1) (row.cell x.1) = .ok (next.cell x.1)) ∧
      ∀ c ∉ columns.map (·.1), next.cell c = total.cell c) ∨
    ∃ e, Row.addColumns collation columns total row = .error e ∧
      ∃ x ∈ columns, x.2.add collation (total.cell x.1) (row.cell x.1) = .error e := by
  induction columns generalizing total with
  | nil => exact .inl ⟨total, rfl, by simp, by simp⟩
  | cons x columns ih =>
      rw [List.map_cons, List.nodup_cons] at hapart
      rw [List.forall_mem_cons] at hrange
      unfold Row.addColumns at ih ⊢
      rw [List.foldlM_cons, Row.combine]
      cases hx : x.2.add collation (total.cell x.1) (row.cell x.1) with
      | error e => exact .inr ⟨e, rfl, x, List.mem_cons_self, hx⟩
      | ok c =>
          have hother : ∀ y ∈ columns, Row.cell (total.set x.1 c) y.1 = total.cell y.1 := by
            intro y hy
            apply Row.cell_set_of_ne
            intro heq
            exact hapart.1 (heq ▸ List.mem_map_of_mem hy)
          have hlater := @ih (total.set x.1 c) hapart.2 (by simpa using hrange.2)
          rcases hlater with ⟨next, hnext, hcolumns, hrest⟩ | ⟨e, he, y, hy, hfault⟩
          · refine .inl ⟨next, hnext, ?_, ?_⟩
            · intro y hy
              rcases List.mem_cons.mp hy with rfl | hy
              · rw [hx, hrest _ hapart.1, Row.cell_set_self hrange.1]
              · rw [← hother y hy]
                exact hcolumns y hy
            · intro d hd
              rw [List.map_cons, List.mem_cons, not_or] at hd
              rw [hrest d hd.2, Row.cell_set_of_ne (Ne.symm hd.1)]
          · refine .inr ⟨e, he, y, List.mem_cons_of_mem _ hy, ?_⟩
            rw [← hother y hy]
            exact hfault

namespace Grouping

/-- The columns that the aggregates accumulate. -/
def accumulations (g : Grouping) : List (Nat × Accumulation) :=
  g.aggregates.flatMap (·.accumulations)

/-- The columns that the aggregates read or fill. -/
def aggregateColumns (g : Grouping) : List Nat :=
  g.aggregates.flatMap (·.columns)

/-- A grouping adds a row to a total with the columns of all its aggregates. -/
theorem accumulate_eq (g : Grouping) (total row : Row) :
    g.accumulate total row = Row.addColumns g.collation g.accumulations total row := by
  have hall : ∀ (aggregates : List Aggregate) (total : Row),
      aggregates.foldlM (fun total a => a.accumulate g.collation total row) total =
        Row.addColumns g.collation (aggregates.flatMap (·.accumulations)) total row := by
    intro aggregates
    induction aggregates with
    | nil => intro total; rfl
    | cons a aggregates ih =>
        intro total
        unfold Row.addColumns at ih ⊢
        rw [List.foldlM_cons, List.flatMap_cons, List.foldlM_append, a.accumulate_eq]
        congr 1
        funext next
        exact ih next
  exact hall g.aggregates total

/-- Only columns of the aggregates are accumulated. -/
theorem accumulations_sublist (g : Grouping) :
    (g.accumulations.map (·.1)).Sublist g.aggregateColumns := by
  unfold accumulations aggregateColumns
  induction g.aggregates with
  | nil => exact List.nil_sublist _
  | cons a aggregates ih =>
      rw [List.flatMap_cons, List.flatMap_cons, List.map_append]
      exact a.accumulations_sublist.append ih

/-- An average is computed from two sums. -/
theorem mem_accumulations_of_average {g : Grouping} {a : Aggregate} (ha : a ∈ g.aggregates)
    {sumColumn countColumn : Nat} (hkind : a.kind = .average sumColumn countColumn) :
    (sumColumn, .sum) ∈ g.accumulations ∧ (countColumn, .sum) ∈ g.accumulations := by
  have hcolumns : a.accumulations = [(sumColumn, .sum), (countColumn, .sum)] := by
    rw [Aggregate.accumulations, hkind]
  exact ⟨List.mem_flatMap.mpr ⟨a, ha, by simp [hcolumns]⟩,
    List.mem_flatMap.mpr ⟨a, ha, by simp [hcolumns]⟩⟩

/-- No two aggregates share a column, and all columns are there. -/
structure Separate (g : Grouping) (width : Nat) : Prop where
  apart : g.aggregateColumns.Nodup
  inRange : ∀ c ∈ g.aggregateColumns, c < width

/-- Rows are added to a total column by column, unless one of the columns cannot be added. -/
theorem addAll_cases {g : Grouping} {width : Nat} (hg : g.Separate width) {first : Row}
    (hfirst : first.length = width) (rows : List Row) :
    (∃ total, rows.foldlM g.accumulate first = .ok total ∧
      (∀ x ∈ g.accumulations, (rows.map (·.cell x.1)).foldlM (x.2.add g.collation)
        (first.cell x.1) = .ok (total.cell x.1)) ∧
      ∀ c ∉ g.accumulations.map (·.1), total.cell c = first.cell c) ∨
    ∃ e, rows.foldlM g.accumulate first = .error e ∧
      ∃ x ∈ g.accumulations, (rows.map (·.cell x.1)).foldlM (x.2.add g.collation)
        (first.cell x.1) = .error e := by
  have hapart : (g.accumulations.map (·.1)).Nodup := hg.apart.sublist g.accumulations_sublist
  have hrange : ∀ x ∈ g.accumulations, x.1 < width := fun x hx =>
    hg.inRange _ (g.accumulations_sublist.subset (List.mem_map_of_mem hx))
  induction rows generalizing first with
  | nil => exact .inl ⟨first, rfl, fun _ _ => rfl, fun _ _ => rfl⟩
  | cons row rows ih =>
      rw [List.foldlM_cons, accumulate_eq]
      have hcolumns := Row.addColumns_cases g.collation hapart (hfirst ▸ hrange) row
      rcases hcolumns with ⟨next, hnext, hadded, hrest⟩ | ⟨e, he, x, hx, hfault⟩
      · have hlength : next.length = width := by
          rw [← hfirst]
          exact accumulate_length ((g.accumulate_eq first row).trans hnext)
        have hstep : ∀ x ∈ g.accumulations,
            ((row :: rows).map (·.cell x.1)).foldlM (x.2.add g.collation) (first.cell x.1) =
              (rows.map (·.cell x.1)).foldlM (x.2.add g.collation) (next.cell x.1) := by
          intro x hx
          rw [List.map_cons, List.foldlM_cons, hadded x hx]
          rfl
        rw [hnext]
        rcases ih hlength with ⟨total, htotal, hcolumns, hsame⟩ | ⟨e, he, x, hx, hfault⟩
        · refine .inl ⟨total, htotal, ?_, ?_⟩
          · intro x hx
            rw [hstep x hx]
            exact hcolumns x hx
          · intro c hc
            rw [hsame c hc, hrest c hc]
        · refine .inr ⟨e, he, x, hx, ?_⟩
          rw [hstep x hx]
          exact hfault
      · refine .inr ⟨e, by rw [he]; rfl, x, hx, ?_⟩
        rw [List.map_cons, List.foldlM_cons, hfault]
        rfl

/-! ### Averages -/

/-- A column belongs to one aggregate. -/
theorem Separate.eq_of_mem {g : Grouping} {width : Nat} (hg : g.Separate width) {a b : Aggregate}
    (ha : a ∈ g.aggregates) (hb : b ∈ g.aggregates) {c : Nat} (hca : c ∈ a.columns)
    (hcb : c ∈ b.columns) : a = b := by
  have hsymm : Std.Symm (Function.onFun List.Disjoint fun a : Aggregate => a.columns) :=
    ⟨fun _ _ h => List.disjoint_symm h⟩
  by_contra hne
  exact (List.nodup_flatMap.mp hg.apart).2.forall ha hb hne hca hcb

/-- The column of an average is not accumulated. -/
theorem Separate.ne_average {g : Grouping} {width : Nat} (hg : g.Separate width) {a : Aggregate}
    (ha : a ∈ g.aggregates) {sumColumn countColumn : Nat}
    (hkind : a.kind = .average sumColumn countColumn) {x : Nat × Accumulation}
    (hx : x ∈ g.accumulations) : x.1 ≠ a.column := by
  rcases List.mem_flatMap.mp hx with ⟨b, hb, hxb⟩
  intro heq
  have hxcolumn : x.1 ∈ b.columns := b.accumulations_sublist.subset (List.mem_map_of_mem hxb)
  have hcolumns : a.columns = [a.column, sumColumn, countColumn] := by
    rw [Aggregate.columns, hkind]
  have hacolumn : x.1 ∈ a.columns := by simp [hcolumns, heq]
  have hsame := hg.eq_of_mem hb ha hxcolumn hacolumn
  subst hsame
  have hnodup := (List.nodup_flatMap.mp hg.apart).1 b hb
  rw [hcolumns] at hnodup
  simp only [Aggregate.accumulations, hkind, List.mem_cons, List.not_mem_nil, or_false] at hxb
  rcases hxb with rfl | rfl <;> simp_all

/-- Integers have an average over a count that is an integer. -/
theorem average_eq_ok {sum count : Cell} (hsum : sum.isOf .int) (hcount : count.isOf .int) :
    ∃ c, average sum count = .ok c := by
  unfold average
  rcases Cell.isOf_cases hcount with rfl | ⟨-, hcount⟩
  · exact ⟨.null, rfl⟩
  · rcases Cell.int_of_kind hcount with ⟨n, rfl⟩
    simp only [Cell.isNull, Cell.number?]
    rcases Cell.isOf_cases hsum with rfl | ⟨-, hsum⟩
    · exact ⟨.null, by simp⟩
    · rcases Cell.int_of_kind hsum with ⟨m, rfl⟩
      by_cases hzero : (Binary64.ofInt n.toInt).isZero
      · exact ⟨.null, by simp [hzero]⟩
      · exact ⟨_, by simp [hzero]; rfl⟩

/-- The average is put into its column; other columns are left as they are. -/
theorem finish_eq_ok {a : Aggregate} {total : Row} (hrange : a.column < total.length)
    (haverage : ∀ sumColumn countColumn, a.kind = .average sumColumn countColumn →
      ∃ c, average (total.cell sumColumn) (total.cell countColumn) = .ok c) :
    ∃ next, a.finish total = .ok next ∧
      (∀ sumColumn countColumn, a.kind = .average sumColumn countColumn →
        average (total.cell sumColumn) (total.cell countColumn) = .ok (next.cell a.column)) ∧
      ∀ c, (∀ sumColumn countColumn, a.kind = .average sumColumn countColumn → c ≠ a.column) →
        next.cell c = total.cell c := by
  unfold Aggregate.finish
  cases hkind : a.kind with
  | count | sum | min | max => exact ⟨total, rfl, by simp, fun _ _ => rfl⟩
  | average sumColumn countColumn =>
      rcases haverage sumColumn countColumn hkind with ⟨x, hx⟩
      refine ⟨total.set a.column x, by simp only [hx, Except.map], ?_, ?_⟩
      · intro s n hsame
        cases hsame
        rw [Row.cell_set_self hrange, hx]
      · intro c hc
        exact Row.cell_set_of_ne (Ne.symm (hc _ _ rfl)) x

/-- Averages are put into their columns; other columns are left as they are. -/
theorem finishAll_eq_ok {aggregates : List Aggregate} {total : Row}
    (hapart : (aggregates.flatMap (·.columns)).Nodup)
    (hrange : ∀ c ∈ aggregates.flatMap (·.columns), c < total.length)
    (haverage : ∀ a ∈ aggregates, ∀ sumColumn countColumn,
      a.kind = .average sumColumn countColumn →
        ∃ c, average (total.cell sumColumn) (total.cell countColumn) = .ok c) :
    ∃ merged, aggregates.foldlM (fun total a => a.finish total) total = .ok merged ∧
      (∀ a ∈ aggregates, ∀ sumColumn countColumn, a.kind = .average sumColumn countColumn →
        average (total.cell sumColumn) (total.cell countColumn) = .ok (merged.cell a.column)) ∧
      ∀ c, (∀ a ∈ aggregates, ∀ sumColumn countColumn,
        a.kind = .average sumColumn countColumn → c ≠ a.column) → merged.cell c = total.cell c := by
  induction aggregates generalizing total with
  | nil => exact ⟨total, rfl, by simp, fun _ _ => rfl⟩
  | cons a aggregates ih =>
      rw [List.flatMap_cons, List.nodup_append] at hapart
      rcases hapart with ⟨-, hapart, hdisjoint⟩
      rw [List.flatMap_cons, List.forall_mem_append] at hrange
      rw [List.forall_mem_cons] at haverage
      have hne : ∀ b ∈ aggregates, ∀ c ∈ b.columns, c ≠ a.column := fun b hb c hc heq =>
        hdisjoint _ a.column_mem_columns _ (List.mem_flatMap.mpr ⟨b, hb, hc⟩) heq.symm
      rcases finish_eq_ok (hrange.1 _ a.column_mem_columns) haverage.1 with
        ⟨next, hnext, hfilled, hrest⟩
      -- What the other aggregates read is not what `a` fills.
      have hread : ∀ b ∈ aggregates, ∀ sumColumn countColumn,
          b.kind = .average sumColumn countColumn →
          average (next.cell sumColumn) (next.cell countColumn) =
            average (total.cell sumColumn) (total.cell countColumn) := by
        intro b hb sumColumn countColumn hkind
        have hcolumns : b.columns = [b.column, sumColumn, countColumn] := by
          rw [Aggregate.columns, hkind]
        rw [hrest sumColumn fun _ _ _ => hne b hb _ (by simp [hcolumns]),
          hrest countColumn fun _ _ _ => hne b hb _ (by simp [hcolumns])]
      have hlater := @ih next hapart
        (by rw [Aggregate.finish_length hnext]; exact hrange.2)
        (fun b hb s n hkind => by rw [hread b hb s n hkind]; exact haverage.2 b hb s n hkind)
      rcases hlater with ⟨merged, hmerged, hothers, hsame⟩
      refine ⟨merged, ?_, ?_, ?_⟩
      · rw [List.foldlM_cons, hnext]
        exact hmerged
      · intro b hb sumColumn countColumn hkind
        rcases List.mem_cons.mp hb with rfl | hb
        · rw [hsame _ fun d hd _ _ _ => (hne d hd _ d.column_mem_columns).symm]
          exact hfilled _ _ hkind
        · rw [← hread b hb _ _ hkind]
          exact hothers b hb _ _ hkind
      · intro c hc
        rw [List.forall_mem_cons] at hc
        rw [hsame c hc.2, hrest c hc.1]

end Grouping

end ShardedSql
