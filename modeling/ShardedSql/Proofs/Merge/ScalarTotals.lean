import ShardedSql.Proofs.Merge.Totals

/-!
# Totals without group columns

A statement that has aggregates but no group columns has one total over all rows.  The rows are
then merged into a single row, except that a statement which also drops equal rows keeps a row for
each of the different partial totals and adds up only those that are the same.

Main results:

- Theorem `Grouping.length_keysOf_le_one_iff`: there is at most one group exactly when all rows have
  one key.
- Theorem `groupRows_scalar`: when rows are merged into a single row with the totals of all rows.
-/

namespace ShardedSql

namespace Grouping

variable {g : Grouping} {rows : List Row}

/-- Rows with one key are one group. -/
theorem keysOf_cons_of_key_eq {first : Row} {others : List Row}
    (h : ∀ row ∈ others, g.key row = g.key first) : g.keysOf (first :: others) = [g.key first] := by
  rw [keysOf, List.map_cons, distinctly_cons, List.cons_eq_cons]
  refine ⟨rfl, List.filter_eq_nil_iff.mpr ?_⟩
  intro key hkey
  rcases List.mem_map.mp (mem_distinctly.mp hkey) with ⟨row, hrow, rfl⟩
  simp [h row hrow]

/-- Rows of one key are all in its group. -/
theorem partials_of_key_eq {key : List UInt8} (h : ∀ row ∈ rows, g.key row = key) :
    g.partials rows key = rows :=
  List.filter_eq_self.mpr fun row hrow => by simp [h row hrow]

/-- There is at most one group exactly when all rows have one key. -/
theorem length_keysOf_le_one_iff :
    (g.keysOf rows).length ≤ 1 ↔ ∀ a ∈ rows, ∀ b ∈ rows, g.key a = g.key b := by
  constructor
  · intro h a ha b hb
    have hmem : ∀ row ∈ rows, g.key row ∈ g.keysOf rows := fun row hrow =>
      mem_keysOf.mpr ⟨row, hrow, rfl⟩
    match hkeys : g.keysOf rows, h with
    | [], _ => simp [hkeys] at hmem; exact absurd ha (hmem a)
    | [key], _ =>
        rw [hkeys] at hmem
        rw [List.mem_singleton.mp (hmem a ha), List.mem_singleton.mp (hmem b hb)]
  · intro h
    cases rows with
    | nil => exact Nat.zero_le _
    | cons first others =>
        rw [keysOf_cons_of_key_eq fun row hrow =>
          h row (List.mem_cons_of_mem _ hrow) first List.mem_cons_self]
        exact Nat.le_refl _

/-- Rows without key cells have one key. -/
theorem key_eq_nil (h : g.columns = []) (row : Row) : g.key row = [] := by
  rw [key, h, List.flatMap_nil]

end Grouping

namespace Shape

variable {s : Shape} {width : Nat} {collation : Collation} {rows merged : List Row}

/-- There is one merged row for each group. -/
theorem groupwise_length_eq (h : s.groupwise width collation rows = .ok merged) :
    merged.length = ((s.grouping width collation).keysOf rows).length := by
  rcases groupwise_perm h with ⟨all, hall, hperm⟩
  rw [hperm.length_eq, (mapM_eq_ok_iff.mp hall).length_eq]

/-- Rows of one group are merged into one row, which needs no sorting. -/
theorem groupwise_of_key_eq {first : Row} {others : List Row}
    (h : ∀ row ∈ others,
      (s.grouping width collation).key row = (s.grouping width collation).key first) :
    s.groupwise width collation (first :: others) =
      ((s.grouping width collation).sumOf (first :: others) >>= fun total =>
        (s.grouping width collation).finish
          ⟨(s.grouping width collation).key first, total⟩).map fun row => [row] := by
  have hall : ∀ row ∈ first :: others,
      (s.grouping width collation).key row = (s.grouping width collation).key first :=
    List.forall_mem_cons.mpr ⟨rfl, h⟩
  have hmerged : (s.grouping width collation).mergedRow (first :: others)
      ((s.grouping width collation).key first) =
        ((s.grouping width collation).sumOf (first :: others) >>= fun total =>
          (s.grouping width collation).finish
            ⟨(s.grouping width collation).key first, total⟩) := by
    rw [Grouping.mergedRow, Grouping.totalOf, Grouping.partials_of_key_eq hall]
  unfold groupwise
  simp only [Grouping.keysOf_cons_of_key_eq h, List.mapM_cons, List.mapM_nil, hmerged]
  cases (s.grouping width collation).sumOf (first :: others) >>= fun total =>
      (s.grouping width collation).finish ⟨(s.grouping width collation).key first, total⟩ with
  | error e => rfl
  | ok row =>
      show (if s.hasOrder then
        sortRising (Row.order collation s.orderBy) [row] else .ok [row]) = .ok [row]
      split <;> rfl

/-- At most one merged row, there if there are any rows, with the sums over all rows in the columns
of counts and sums. -/
structure IsScalarTotal (s : Shape) (rows merged : List Row) : Prop where
  length_le : merged.length ≤ 1
  covers : rows ≠ [] → merged ≠ []
  /-- Its counts and sums are over all rows. -/
  totals : ∀ row ∈ merged, ∀ a ∈ s.aggregates, a.kind = .count ∨ a.kind = .sum →
    Cell.IsSum (rows.map (·.cell a.column)) (row.cell a.column)

/-- Counts and sums are accumulated by adding. -/
theorem mem_accumulations {a : Aggregate} (ha : a ∈ s.aggregates)
    (hkind : a.kind = .count ∨ a.kind = .sum) :
    (a.column, .sum) ∈ (s.grouping width collation).accumulations := by
  refine List.mem_flatMap.mpr ⟨a, ha, ?_⟩
  unfold Aggregate.accumulations
  rcases hkind with hkind | hkind <;> simp [hkind]

/-- Rows of one group are merged into a row with the totals, unless a running sum leaves the
range. -/
theorem groupwise_scalar_cases (hkeys : ∀ a ∈ rows, ∀ b ∈ rows,
      (s.grouping width collation).key a = (s.grouping width collation).key b)
    (hseparate : (s.grouping width collation).Separate width)
    (hwidth : ∀ row ∈ rows, row.length = width)
    (haccepts : ∀ x ∈ (s.grouping width collation).accumulations,
      x.2.Accepts (rows.map (·.cell x.1))) :
    (∃ merged, s.groupwise width collation rows = .ok merged ∧ s.IsScalarTotal rows merged ∧
      ¬ (s.grouping width collation).Overflows rows) ∨
    ∃ e, s.groupwise width collation rows = .error e ∧
      (s.grouping width collation).Overflows rows := by
  cases rows with
  | nil =>
      refine .inl ⟨[], ?_, ⟨Nat.zero_le _, fun h => absurd rfl h, by simp⟩, ?_⟩
      · unfold groupwise
        show (if s.hasOrder then sortRising (Row.order collation s.orderBy) [] else .ok []) = .ok []
        split <;> rfl
      · rintro ⟨c, -, before, hbefore, hover⟩
        rw [List.map_nil, List.prefix_nil] at hbefore
        rw [hbefore] at hover
        exact hover ⟨by decide, by decide⟩
  | cons first others =>
      have hfirst : ∀ row ∈ others,
          (s.grouping width collation).key row = (s.grouping width collation).key first :=
        fun row hrow => hkeys row (List.mem_cons_of_mem _ hrow) first List.mem_cons_self
      rw [groupwise_of_key_eq hfirst]
      rcases Grouping.sumOf_cases hseparate (hwidth first List.mem_cons_self) haccepts
          ((s.grouping width collation).key first) with
        ⟨row, hrow, hsummary, hfits⟩ | ⟨e, he, hover⟩
      · refine .inl ⟨[row], by rw [hrow]; rfl, ⟨Nat.le_refl _, fun _ => by simp, ?_⟩, hfits⟩
        intro only honly a ha hkind
        rw [List.mem_singleton.mp honly]
        exact hsummary.accumulated _ (mem_accumulations ha hkind)
      · exact .inr ⟨e, by rw [he]; rfl, hover⟩

end Shape

/-- A statement without group columns has its totals in a single row exactly when all rows have one
key, which only a statement that drops equal rows can spoil, and no running sum leaves the range of
integers. -/
theorem groupRows_scalar {results : List ResultCursor} {shape : Shape} {width : Nat}
    {collation : Collation} (hnever : ∀ r ∈ results, r.NeverFails)
    (hwidth : ∀ r ∈ results, ∀ row ∈ r.rows.rest, row.length = width)
    (hscalar : shape.hasGroups = false) (hrange : shape.ColumnsInRange width)
    (hapart : (shape.grouping width collation).aggregateColumns.Nodup)
    (haccepts : ∀ x ∈ (shape.grouping width collation).accumulations,
      x.2.Accepts ((results.flatMap (·.rows.rest)).map (·.cell x.1))) :
    (∃ merged, groupRows results shape width collation = .ok merged ∧
      shape.IsScalarTotal (results.flatMap (·.rows.rest)) merged) ↔
    (shape.distinct = true →
      ∀ a ∈ results.flatMap (·.rows.rest), ∀ b ∈ results.flatMap (·.rows.rest),
        (shape.grouping width collation).key a = (shape.grouping width collation).key b) ∧
      ¬ (shape.grouping width collation).Overflows (results.flatMap (·.rows.rest)) := by
  have hgroupwise : ∀ merged, groupRows results shape width collation = .ok merged ↔
      shape.groupwise width collation (results.flatMap (·.rows.rest)) = .ok merged := by
    intro merged
    rw [groupRows_eq_ok_iff hnever hwidth, and_iff_right hrange]
  simp only [hgroupwise]
  have hrows : ∀ row ∈ results.flatMap (·.rows.rest), row.length = width := by
    intro row hrow
    rcases List.mem_flatMap.mp hrow with ⟨r, hr, hrow⟩
    exact hwidth r hr row hrow
  generalize results.flatMap (·.rows.rest) = rows at haccepts hrows ⊢
  have hseparate : (shape.grouping width collation).Separate width :=
    ⟨hapart, fun c hc => hrange c (List.mem_append_right _ hc)⟩
  have hscalar' : shape.distinct = false → ∀ row,
      (shape.grouping width collation).key row = [] := by
    intro hdistinct row
    apply Grouping.key_eq_nil
    simp [Shape.grouping, Shape.groupColumns, hscalar, hdistinct]
  have hcases := fun hkeys => Shape.groupwise_scalar_cases hkeys hseparate hrows haccepts
  constructor
  · rintro ⟨merged, hmerged, htotal⟩
    have hkeys := Grouping.length_keysOf_le_one_iff.mp
      (Shape.groupwise_length_eq hmerged ▸ htotal.length_le)
    rcases hcases hkeys with ⟨-, -, -, hfits⟩ | ⟨e, he, -⟩
    · exact ⟨fun _ => hkeys, hfits⟩
    · rw [hmerged] at he
      cases he
  · rintro ⟨hdistinct, hfits⟩
    have hkeys : ∀ a ∈ rows, ∀ b ∈ rows,
        (shape.grouping width collation).key a = (shape.grouping width collation).key b := by
      cases hcase : shape.distinct with
      | true => exact hdistinct hcase
      | false =>
          intro a _ b _
          rw [hscalar' hcase a, hscalar' hcase b]
    rcases hcases hkeys with ⟨merged, hmerged, htotal, -⟩ | ⟨-, -, hover⟩
    · exact ⟨merged, hmerged, htotal⟩
    · exact absurd hover hfits

/-- Number and amount of all orders. -/
def ordersShape : Shape :=
  { Shape.plain with aggregates := [⟨0, .count⟩, ⟨1, .sum⟩] }

/-- The orders of two data sources, the second of which has none with an amount. -/
def ordersResults : List ResultCursor :=
  [⟨[⟨"count", "count"⟩, ⟨"sum", "sum"⟩], [[.int 5, .int 40]]⟩,
    ⟨[⟨"count", "count"⟩, ⟨"sum", "sum"⟩], [[.int 7, .null]]⟩].map Table.cursor

/-- The totals of `ordersResults`. -/
theorem groupRows_scalar_orders :
    (∀ r ∈ ordersResults, r.NeverFails) ∧
    (∀ r ∈ ordersResults, ∀ row ∈ r.rows.rest, row.length = 2) ∧
    ordersShape.hasGroups = false ∧ ordersShape.ColumnsInRange 2 ∧
    (ordersShape.grouping 2 .binary).aggregateColumns.Nodup ∧
    (∀ x ∈ (ordersShape.grouping 2 .binary).accumulations,
      x.2.Accepts ((ordersResults.flatMap (·.rows.rest)).map (·.cell x.1))) ∧
    ¬ (ordersShape.grouping 2 .binary).Overflows (ordersResults.flatMap (·.rows.rest)) ∧
    groupRows ordersResults ordersShape 2 .binary = .ok [[.int 12, .int 40]] ∧
    ordersShape.IsScalarTotal (ordersResults.flatMap (·.rows.rest)) [[.int 12, .int 40]] := by
  have hnever : ∀ r ∈ ordersResults, r.NeverFails := Table.cursors_neverFail _
  have hwidth : ∀ r ∈ ordersResults, ∀ row ∈ r.rows.rest, row.length = 2 := by
    decide
  have hrange : ordersShape.ColumnsInRange 2 :=
    (by decide : ∀ column ∈ ordersShape.columnsUsed 2, column < 2)
  have hapart : (ordersShape.grouping 2 .binary).aggregateColumns.Nodup := by
    decide
  have haccepts : ∀ x ∈ (ordersShape.grouping 2 .binary).accumulations,
      x.2.Accepts ((ordersResults.flatMap (·.rows.rest)).map (·.cell x.1)) := by
    intro x hx
    have hcases : x = (0, .sum) ∨ x = (1, .sum) := by
      simpa [Grouping.accumulations, Shape.grouping, ordersShape, Aggregate.accumulations] using hx
    rcases hcases with rfl | rfl
    · show ∀ c ∈ _, _
      decide
    · show ∀ c ∈ _, _
      decide
  have hmerged : groupRows ordersResults ordersShape 2 .binary = .ok [[.int 12, .int 40]] := by
    apply eq_ok_of_toOption
    decide +kernel
  have htotal : ordersShape.IsScalarTotal (ordersResults.flatMap (·.rows.rest))
      [[.int 12, .int 40]] := by
    refine ⟨Nat.le_refl _, fun _ => by simp, ?_⟩
    intro row hrow a ha _
    rw [List.mem_singleton.mp hrow]
    simp only [ordersShape, List.mem_cons, List.not_mem_nil, or_false] at ha
    rcases ha with rfl | rfl <;> exact .inr ⟨by decide, _, rfl, by decide⟩
  have hiff := groupRows_scalar hnever hwidth rfl hrange hapart haccepts
  exact ⟨hnever, hwidth, rfl, hrange, hapart, haccepts, (hiff.mp ⟨_, hmerged, htotal⟩).2, hmerged,
    htotal⟩

/-- Number of all orders, equal rows being dropped. -/
def distinctCount : Shape :=
  { Shape.plain with aggregates := [⟨0, .count⟩], distinct := true }

/-- Two counts that differ are not added up where equal rows are dropped. -/
theorem groupRows_not_scalar_counts :
    groupRows ([⟨[⟨"count", "count"⟩], [[.int 5]]⟩, ⟨[⟨"count", "count"⟩], [[.int 7]]⟩].map
      Table.cursor) distinctCount 1 .binary = .ok [[.int 5], [.int 7]] ∧
    ¬ distinctCount.IsScalarTotal [[.int 5], [.int 7]] [[.int 5], [.int 7]] := by
  refine ⟨?_, fun h => absurd h.length_le (by decide)⟩
  apply eq_ok_of_toOption
  decide +kernel

end ShardedSql
