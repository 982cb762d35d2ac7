import ShardedSql.Proofs.Cell.EqualKeys
import ShardedSql.Proofs.Merge.Accumulation

/-!
# Cells of merged rows

In the columns that no aggregate computes, a merged row holds cells of its group: the cell of the
first row, or the least or greatest one.  Where these are the group columns, the merged row has the
key of its group.

Main results:

- Theorem `Grouping.mergedRow_keeps`: what a merged row holds in a column that is not computed.
- Theorem `Grouping.key_mergedRow`: the key of a merged row is that of its group.
- Theorem `Shape.map_key_groupwise`: no two merged rows have the same key.
-/

namespace ShardedSql

/-! ## Columns that are not computed -/

/-- After a cell is set, any cell is what it was or the one that was set. -/
theorem Row.cell_set_cases (row : Row) (column other : Nat) (c : Cell) :
    Row.cell (row.set column c) other = row.cell other ∨
      other = column ∧ Row.cell (row.set column c) other = c := by
  by_cases hne : column = other
  · subst hne
    by_cases hlt : column < row.length
    · exact .inr ⟨rfl, Row.cell_set_self hlt c⟩
    · rw [List.set_eq_of_length_le (Nat.le_of_not_lt hlt)]
      exact .inl rfl
  · exact .inl (Row.cell_set_of_ne hne c)

/-- Combining changes one column only. -/
theorem Row.combine_cell_of_ne {f : Cell → Cell → Except Fault Cell} {column c : Nat}
    {total addend next : Row} (h : total.combine f column addend = .ok next) (hne : c ≠ column) :
    next.cell c = total.cell c := by
  rcases Row.combine_eq_ok h with ⟨x, -, rfl⟩
  exact Row.cell_set_of_ne hne.symm x

/-- Of two cells one is picked. -/
theorem pickPartial_cases {wanted : Ordering} {collation : Collation} {current candidate c : Cell}
    (h : pickPartial wanted collation current candidate = .ok c) : c = current ∨ c = candidate := by
  unfold pickPartial at h
  split at h
  · exact .inr (Except.ok.inj h).symm
  · split at h
    · exact .inl (Except.ok.inj h).symm
    · cases horder : Cell.order collation candidate current with
      | error e => simp [horder, Except.map] at h
      | ok o =>
          simp only [horder, Except.map, Except.ok.injEq] at h
          split at h
          · exact .inr h.symm
          · exact .inl h.symm

/-- Picking keeps one of the two cells of every column. -/
theorem Row.combine_pick_cell {wanted : Ordering} {collation : Collation} {column : Nat}
    {total row next : Row}
    (h : total.combine (pickPartial wanted collation) column row = .ok next) (c : Nat) :
    next.cell c = total.cell c ∨ next.cell c = row.cell c := by
  rcases Row.combine_eq_ok h with ⟨x, hx, rfl⟩
  rcases Row.cell_set_cases total column c x with hsame | ⟨rfl, hset⟩
  · exact .inl hsame
  · rw [hset]
    rcases pickPartial_cases hx with rfl | rfl
    · exact .inl rfl
    · exact .inr rfl

namespace Aggregate

/-- The columns that an aggregate fills with cells of its own: sums, averages and what they are made
from.  The least and the greatest cell of a column are cells of the rows. -/
def computed (a : Aggregate) : List Nat :=
  match a.kind with
  | .count | .sum => [a.column]
  | .min | .max => []
  | .average sumColumn countColumn => [a.column, sumColumn, countColumn]

variable {a : Aggregate} {total next : Row} {c : Nat}

/-- Adding a row keeps one of the two cells of a column that is not computed. -/
theorem accumulate_keeps {collation : Collation} {row : Row}
    (h : a.accumulate collation total row = .ok next) (hc : c ∉ a.computed) :
    next.cell c = total.cell c ∨ next.cell c = row.cell c := by
  unfold accumulate at h
  unfold computed at hc
  cases hkind : a.kind with
  | count | sum =>
      simp only [hkind, List.mem_singleton] at h hc
      exact .inl (Row.combine_cell_of_ne h hc)
  | min | max =>
      rw [hkind] at h
      exact Row.combine_pick_cell h c
  | average sumColumn countColumn =>
      simp only [hkind, List.mem_cons, List.not_mem_nil, or_false, not_or] at h hc
      rcases Except.bind_eq_ok.mp h with ⟨between, hsum, hcount⟩
      left
      rw [Row.combine_cell_of_ne hcount hc.2.2, Row.combine_cell_of_ne hsum hc.2.1]

/-- Finishing leaves a column as it is that no average is put into. -/
theorem finish_cell_of_ne (h : a.finish total = .ok next)
    (hc : ∀ sumColumn countColumn, a.kind = .average sumColumn countColumn → a.column ≠ c) :
    next.cell c = total.cell c := by
  rcases finish_cases h with ⟨-, rfl⟩ | ⟨sumColumn, countColumn, mean, hkind, -, rfl⟩
  · rfl
  · exact Row.cell_set_of_ne (hc sumColumn countColumn hkind) mean

/-- Finishing leaves columns that are not computed as they are. -/
theorem finish_keeps (h : a.finish total = .ok next) (hc : c ∉ a.computed) :
    next.cell c = total.cell c := by
  refine finish_cell_of_ne h fun sumColumn countColumn hkind heq => hc ?_
  simp [computed, hkind, heq]

end Aggregate

namespace Grouping

variable {g : Grouping} {rows : List Row} {key : List UInt8} {merged : Row} {c : Nat}

/-- The columns that the aggregates compute. -/
def computed (g : Grouping) : List Nat :=
  g.aggregates.flatMap (·.computed)

/-- What no aggregate computes, a single one does not. -/
theorem notMem_computed {a : Aggregate} (ha : a ∈ g.aggregates) (hc : c ∉ g.computed) :
    c ∉ a.computed :=
  fun hmem => hc (List.mem_flatMap.mpr ⟨a, ha, hmem⟩)

/-- A cell that is not computed comes from the total or from the row. -/
theorem accumulate_keeps {total row next : Row} (h : g.accumulate total row = .ok next)
    (hc : c ∉ g.computed) : next.cell c = total.cell c ∨ next.cell c = row.cell c := by
  have hstep : ∀ a ∈ g.aggregates, ∀ b b' : Row,
      (b.cell c = total.cell c ∨ b.cell c = row.cell c) →
      a.accumulate g.collation b row = .ok b' →
      b'.cell c = total.cell c ∨ b'.cell c = row.cell c := by
    intro a ha b b' hb hb'
    rcases Aggregate.accumulate_keeps hb' (notMem_computed ha hc) with hsame | hrow
    · rw [hsame]
      exact hb
    · exact .inr hrow
  exact foldlM_preserves hstep (.inl rfl) h

/-- The total of some rows holds a cell of one of them. -/
theorem sumOf_keeps {members : List Row} (hsome : members ≠ []) {total : Row}
    (h : g.sumOf members = .ok total) (hc : c ∉ g.computed) :
    ∃ row ∈ members, total.cell c = row.cell c := by
  cases members with
  | nil => exact absurd rfl hsome
  | cons first others =>
      have hstep : ∀ row ∈ others, ∀ b b' : Row,
          (∃ r ∈ first :: others, b.cell c = r.cell c) → g.accumulate b row = .ok b' →
          ∃ r ∈ first :: others, b'.cell c = r.cell c := by
        rintro row hrow b b' ⟨r, hr, hb⟩ hb'
        rcases accumulate_keeps hb' hc with hsame | hnew
        · exact ⟨r, hr, hsame.trans hb⟩
        · exact ⟨row, List.mem_cons_of_mem _ hrow, hnew⟩
      exact foldlM_preserves hstep ⟨first, List.mem_cons_self, rfl⟩ h

/-- A merged row holds a cell of a row of its group in a column that is not computed. -/
theorem mergedRow_keeps (hkey : key ∈ g.keysOf rows) (h : g.mergedRow rows key = .ok merged)
    (hc : c ∉ g.computed) : ∃ row ∈ g.partials rows key, merged.cell c = row.cell c := by
  rcases Except.bind_eq_ok.mp h with ⟨total, htotal, hfinish⟩
  have hsome : g.partials rows key ≠ [] := fun hnil => partials_eq_nil.mp hnil hkey
  rcases sumOf_keeps hsome htotal hc with ⟨row, hrow, hcell⟩
  have hstep : ∀ a ∈ g.aggregates, ∀ b b' : Row, b.cell c = total.cell c → a.finish b = .ok b' →
      b'.cell c = total.cell c := by
    intro a ha b b' hb hb'
    rw [Aggregate.finish_keeps hb' (notMem_computed ha hc), hb]
  have hsame : merged.cell c = total.cell c := foldlM_preserves hstep rfl hfinish
  exact ⟨row, hrow, hsame.trans hcell⟩

/-- The key of a merged row is that of its group, if no group column is computed. -/
theorem key_mergedRow (hcomputed : ∀ c ∈ g.columns, c ∉ g.computed)
    (hshort : ∀ row ∈ rows, ∀ c ∈ g.columns, (row.cell c).Short g.collation)
    (hkey : key ∈ g.keysOf rows) (h : g.mergedRow rows key = .ok merged) : g.key merged = key := by
  rcases mem_keysOf.mp hkey with ⟨first, hfirst, rfl⟩
  have hcells : ∀ c ∈ g.columns,
      (merged.cell c).groupKey g.collation = (first.cell c).groupKey g.collation := by
    intro c hc
    rcases mergedRow_keeps hkey h (hcomputed c hc) with ⟨row, hrow, hcell⟩
    rcases List.mem_filter.mp hrow with ⟨hrow, hsame⟩
    rw [hcell]
    exact groupKey_eq_of_keys_eq (hshort row hrow) (hshort first hfirst) (eq_of_beq hsame) c hc
  unfold Grouping.key
  rw [List.flatMap_def, List.flatMap_def, List.map_congr_left hcells]

/-- The merged rows of all groups have their keys. -/
theorem map_key_mergedRows (hcomputed : ∀ c ∈ g.columns, c ∉ g.computed)
    (hshort : ∀ row ∈ rows, ∀ c ∈ g.columns, (row.cell c).Short g.collation) {all : List Row}
    (h : (g.keysOf rows).mapM (g.mergedRow rows) = .ok all) : all.map g.key = g.keysOf rows := by
  have hall := (List.forall₂_and_left _ _).mpr
    ⟨fun key (hkey : key ∈ g.keysOf rows) => hkey, mapM_eq_ok_iff.mp h⟩
  have hkeys : List.Forall₂ (fun key row => key = g.key row) (g.keysOf rows) all :=
    hall.imp fun key row hrow => (key_mergedRow hcomputed hshort hrow.1 hrow.2).symm
  rw [← List.forall₂_eq_eq_eq, List.forall₂_map_left_iff]
  exact hkeys.flip.imp fun _ _ h => h.symm

end Grouping

namespace Shape

variable {s : Shape} {width : Nat} {collation : Collation} {rows merged : List Row}

/-- No two merged rows have the same key, if no group column is computed. -/
theorem map_key_groupwise
    (hcomputed : ∀ c ∈ s.groupColumns width, c ∉ (s.grouping width collation).computed)
    (hshort : ∀ row ∈ rows, ∀ c ∈ s.groupColumns width, (row.cell c).Short collation)
    (h : s.groupwise width collation rows = .ok merged) :
    (merged.map (s.grouping width collation).key).Nodup := by
  rcases groupwise_perm h with ⟨all, hall, hperm⟩
  rw [(hperm.map _).nodup_iff, Grouping.map_key_mergedRows hcomputed hshort hall]
  exact nodup_distinctly _

/-- Merged rows hold cells of the rows in every column that is not computed. -/
theorem groupwise_keeps (h : s.groupwise width collation rows = .ok merged) {row : Row}
    (hrow : row ∈ merged) {c : Nat} (hc : c ∉ (s.grouping width collation).computed) :
    ∃ r ∈ rows, row.cell c = r.cell c := by
  rcases groupwise_perm h with ⟨all, hall, hperm⟩
  rcases mem_of_mapM hall row (hperm.mem_iff.mp hrow) with ⟨key, hkey, hmerged⟩
  rcases Grouping.mergedRow_keeps hkey hmerged hc with ⟨r, hr, hcell⟩
  exact ⟨r, (List.mem_filter.mp hr).1, hcell⟩

end Shape

end ShardedSql
