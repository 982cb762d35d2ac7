import ShardedSql.Proofs.Cell.GroupKey
import ShardedSql.Proofs.Merge.Accumulation

/-!
# Totals of groups

Grouping finds the rows of a group by their key bytes.  Where the key bytes tell cells apart, the
groups are those of the rows that agree on the group columns up to the collation, and each merged
row holds the totals of the columns of its group.

Main results:

- Theorem `Grouping.keysOf_eq`: there is one group for every row that agrees with no earlier one.
- Theorem `Grouping.mergedRow_cases`: the merged row of a group summarises its rows, unless a
  running sum leaves the range of integers.
- Theorem `groupRows_totals`: the same for all groups of several results.
-/

namespace ShardedSql

namespace Grouping

/-- Whether two rows agree on the group columns up to the collation. -/
def alike (g : Grouping) (a b : Row) : Bool :=
  g.columns.all fun c =>
    match Cell.equals g.collation (a.cell c) (b.cell c) with
    | .ok same => same
    | .error _ => false

/-- The first row of each group, in order of appearance. -/
def leaders (g : Grouping) : List Row → List Row
  | [] => []
  | row :: rows => row :: (leaders g rows).filter fun other => !g.alike row other

/-- The rows of the group of a row. -/
def members (g : Grouping) (rows : List Row) (leader : Row) : List Row :=
  rows.filter (g.alike leader)

/-- Rows whose groups can be told apart and whose columns can be accumulated. -/
structure Mergeable (g : Grouping) (width : Nat) (rows : List Row) : Prop where
  separate : g.Separate width
  length_eq : ∀ row ∈ rows, row.length = width
  keyable : ∀ row ∈ rows, ∀ c ∈ g.columns, (row.cell c).Keyable g.collation
  accepts : ∀ x ∈ g.accumulations, x.2.Accepts (rows.map (·.cell x.1))

/-- What the merged row of a group holds. -/
structure Summarises (g : Grouping) (members : List Row) (leader merged : Row) : Prop where
  length_eq : merged.length = leader.length
  accumulated : ∀ x ∈ g.accumulations,
    x.2.IsTotal g.collation (members.map (·.cell x.1)) (merged.cell x.1)
  averaged : ∀ a ∈ g.aggregates, ∀ sumColumn countColumn,
    a.kind = .average sumColumn countColumn →
      average (merged.cell sumColumn) (merged.cell countColumn) = .ok (merged.cell a.column)
  untouched : ∀ c ∉ g.aggregateColumns, merged.cell c = leader.cell c

/-- The running sum of some column leaves the range of integers. -/
def Overflows (g : Grouping) (members : List Row) : Prop :=
  ∃ c, (c, .sum) ∈ g.accumulations ∧ Cell.SumOverflows (members.map (·.cell c))

/-- The running sum of some column of some group leaves the range of integers. -/
def AnyOverflows (g : Grouping) (rows : List Row) : Prop :=
  ∃ leader ∈ g.leaders rows, g.Overflows (g.members rows leader)

/-- The merged rows of all groups, each in its place. -/
def SummarisedBy (g : Grouping) (rows merged : List Row) : Prop :=
  List.Forall₂ (fun leader row => g.Summarises (g.members rows leader) leader row)
    (g.leaders rows) merged

variable {g : Grouping} {width : Nat} {rows : List Row}

/-! ## Groups -/

/-- Rows are alike exactly if they are equal in the group columns. -/
theorem alike_iff {a b : Row} :
    g.alike a b ↔ ∀ c ∈ g.columns, Cell.equals g.collation (a.cell c) (b.cell c) = .ok true := by
  unfold alike
  rw [List.all_eq_true]
  refine forall₂_congr fun c _ => ?_
  cases Cell.equals g.collation (a.cell c) (b.cell c) with
  | error e => simp
  | ok same => simp

/-- Mergeable rows are alike exactly if they have the same key. -/
theorem Mergeable.alike_iff_key (h : g.Mergeable width rows) {a b : Row} (ha : a ∈ rows)
    (hb : b ∈ rows) : g.alike a b ↔ g.key a = g.key b := by
  rw [alike_iff]
  exact (groupKeys_inj (h.keyable a ha) (h.keyable b hb)).symm

/-- Fewer rows are mergeable as well. -/
theorem Mergeable.subset (h : g.Mergeable width rows) {rows' : List Row}
    (hsub : ∀ row ∈ rows', row ∈ rows) : g.Mergeable width rows' := by
  refine ⟨h.separate, fun row hrow => h.length_eq row (hsub row hrow),
    fun row hrow => h.keyable row (hsub row hrow), fun x hx => (h.accepts x hx).subset ?_⟩
  intro c hc
  rcases List.mem_map.mp hc with ⟨row, hrow, rfl⟩
  exact List.mem_map_of_mem (hsub row hrow)

/-- The leaders are some of the rows. -/
theorem leaders_subset : ∀ leader ∈ g.leaders rows, leader ∈ rows := by
  induction rows with
  | nil => simp [leaders]
  | cons row rows ih =>
      intro leader h
      rcases List.mem_cons.mp h with rfl | h
      · exact List.mem_cons_self
      · exact List.mem_cons_of_mem _ (ih leader (List.mem_filter.mp h).1)

/-- There is one group for every row that agrees with no earlier one. -/
theorem keysOf_eq (h : g.Mergeable width rows) : g.keysOf rows = (g.leaders rows).map g.key := by
  induction rows with
  | nil => rfl
  | cons row rows ih =>
      have hlater : distinctly (rows.map g.key) = (g.leaders rows).map g.key :=
        ih (h.subset fun r hr => List.mem_cons_of_mem _ hr)
      rw [keysOf, List.map_cons, distinctly_cons, hlater, leaders, List.map_cons, List.filter_map]
      congr 2
      apply List.filter_congr
      intro leader hleader
      have hkey := h.alike_iff_key List.mem_cons_self
        (List.mem_cons_of_mem _ (leaders_subset leader hleader))
      have hdecide : g.alike row leader = decide (g.key row = g.key leader) := by
        rw [Bool.eq_iff_iff, hkey, decide_eq_true_eq]
      simp [hdecide, eq_comm]

/-- The rows with the key of a row are those of its group. -/
theorem partials_eq (h : g.Mergeable width rows) {leader : Row} (hleader : leader ∈ rows) :
    g.partials rows (g.key leader) = g.members rows leader := by
  apply List.filter_congr
  intro row hrow
  rw [Bool.eq_iff_iff, h.alike_iff_key hleader hrow, beq_iff_eq, eq_comm]

/-- The rows of a group begin with the one that leads it. -/
theorem members_eq_cons (h : g.Mergeable width rows) {leader : Row}
    (hleader : leader ∈ g.leaders rows) : ∃ others, g.members rows leader = leader :: others := by
  induction rows with
  | nil => cases hleader
  | cons row rows ih =>
      have hlater := h.subset fun r hr => List.mem_cons_of_mem row hr
      rcases List.mem_cons.mp hleader with rfl | hleader
      · have hself : g.alike leader leader :=
          (h.alike_iff_key List.mem_cons_self List.mem_cons_self).mpr rfl
        exact ⟨rows.filter (g.alike leader), List.filter_cons_of_pos hself⟩
      · rcases List.mem_filter.mp hleader with ⟨hleader, hapart⟩
        have hmem := List.mem_cons_of_mem row (leaders_subset leader hleader)
        have hother : ¬ g.alike leader row := by
          rw [h.alike_iff_key hmem List.mem_cons_self, eq_comm,
            ← h.alike_iff_key List.mem_cons_self hmem]
          simpa using hapart
        rcases ih hlater hleader with ⟨others, hothers⟩
        refine ⟨others, ?_⟩
        rw [members, List.filter_cons_of_neg hother]
        exact hothers

/-! ## Merged rows -/

/-- The total of a group is made into a row that summarises it. -/
theorem finish_summarises (hg : g.Separate width) {members : List Row} {leader total : Row}
    (hlength : total.length = leader.length) (hleader : leader.length = width)
    (htotals : ∀ x ∈ g.accumulations,
      x.2.IsTotal g.collation (members.map (·.cell x.1)) (total.cell x.1))
    (hrest : ∀ c ∉ g.accumulations.map (·.1), total.cell c = leader.cell c) (key : List UInt8) :
    ∃ merged, g.finish ⟨key, total⟩ = .ok merged ∧ g.Summarises members leader merged := by
  have hint : ∀ c, (c, .sum) ∈ g.accumulations → (total.cell c).isOf .int := fun c hc =>
    Cell.IsSum.isOf_int (htotals _ hc)
  have hranged : ∀ c ∈ g.aggregateColumns, c < total.length := by
    rw [hlength, hleader]
    exact hg.inRange
  rcases finishAll_eq_ok hg.apart hranged fun a ha sumColumn countColumn hkind =>
      average_eq_ok (hint _ (mem_accumulations_of_average ha hkind).1)
        (hint _ (mem_accumulations_of_average ha hkind).2) with
    ⟨merged, hmerged, haverages, hsame⟩
  have hfinish : g.finish ⟨key, total⟩ = .ok merged := hmerged
  have hkept : ∀ x ∈ g.accumulations, merged.cell x.1 = total.cell x.1 := fun x hx =>
    hsame x.1 fun a ha _ _ hkind => hg.ne_average ha hkind hx
  refine ⟨merged, hfinish, ?_, ?_, ?_, ?_⟩
  · rw [← hlength]
    exact finish_length hfinish
  · intro x hx
    rw [hkept x hx]
    exact htotals x hx
  · intro a ha sumColumn countColumn hkind
    rcases mem_accumulations_of_average ha hkind with ⟨hsum, hcount⟩
    rw [hkept _ hsum, hkept _ hcount]
    exact haverages a ha _ _ hkind
  · intro c hc
    have hfilled : ∀ a ∈ g.aggregates, ∀ sumColumn countColumn,
        a.kind = .average sumColumn countColumn → c ≠ a.column := by
      intro a ha _ _ _ heq
      exact hc (List.mem_flatMap.mpr ⟨a, ha, heq ▸ a.column_mem_columns⟩)
    rw [hsame c hfilled]
    exact hrest c fun hmem => hc (g.accumulations_sublist.subset hmem)

/-- The rows of a group are merged into one that summarises them, unless a running sum leaves the
range. -/
theorem sumOf_cases (hg : g.Separate width) {first : Row} (hfirst : first.length = width)
    {others : List Row}
    (haccepts : ∀ x ∈ g.accumulations, x.2.Accepts ((first :: others).map (·.cell x.1)))
    (key : List UInt8) :
    (∃ merged, (g.sumOf (first :: others) >>= fun total => g.finish ⟨key, total⟩) = .ok merged ∧
      g.Summarises (first :: others) first merged ∧ ¬ g.Overflows (first :: others)) ∨
    ∃ e, (g.sumOf (first :: others) >>= fun total => g.finish ⟨key, total⟩) = .error e ∧
      g.Overflows (first :: others) := by
  have hcolumn : ∀ x : Nat × Accumulation,
      ((first :: others).map (·.cell x.1)).foldlM (x.2.add g.collation) .null =
        (others.map (·.cell x.1)).foldlM (x.2.add g.collation) (first.cell x.1) := by
    intro x
    rw [List.map_cons, List.foldlM_cons, Accumulation.add_null]
    rfl
  rw [sumOf]
  rcases addAll_cases hg hfirst others with
    ⟨total, htotal, hadded, hrest⟩ | ⟨e, he, x, hx, hfault⟩
  · have htotals : ∀ x ∈ g.accumulations,
        x.2.IsTotal g.collation ((first :: others).map (·.cell x.1)) (total.cell x.1) ∧
          ¬ (x.2 = .sum ∧ Cell.SumOverflows ((first :: others).map (·.cell x.1))) := by
      intro x hx
      rcases (haccepts x hx).total_cases g.collation with ⟨sum, hsum, hisTotal, hfits⟩ | ⟨e, he, -⟩
      · rw [hcolumn, hadded x hx, Except.ok.injEq] at hsum
        rw [hsum]
        exact ⟨hisTotal, hfits⟩
      · rw [hcolumn, hadded x hx] at he
        cases he
    have hlength : total.length = first.length :=
      foldlM_preserves (P := fun t => t.length = first.length)
        (fun _ _ _ _ ht hnext => (accumulate_length hnext).trans ht) rfl htotal
    rcases finish_summarises hg hlength hfirst (fun x hx => (htotals x hx).1) hrest key with
      ⟨merged, hmerged, hsummary⟩
    refine .inl ⟨merged, by rw [htotal]; exact hmerged, hsummary, ?_⟩
    rintro ⟨c, hc, hover⟩
    exact (htotals _ hc).2 ⟨rfl, hover⟩
  · refine .inr ⟨e, by rw [he]; rfl, ?_⟩
    rcases (haccepts x hx).total_cases g.collation with ⟨sum, hsum, -⟩ | ⟨-, -, hkind, hover⟩
    · rw [hcolumn, hfault] at hsum
      cases hsum
    · exact ⟨x.1, hkind ▸ hx, hover⟩

/-- The merged row of a group summarises its rows, unless a running sum leaves the range. -/
theorem mergedRow_cases (h : g.Mergeable width rows) {leader : Row}
    (hleader : leader ∈ g.leaders rows) :
    (∃ merged, g.mergedRow rows (g.key leader) = .ok merged ∧
      g.Summarises (g.members rows leader) leader merged ∧
      ¬ g.Overflows (g.members rows leader)) ∨
    ∃ e, g.mergedRow rows (g.key leader) = .error e ∧ g.Overflows (g.members rows leader) := by
  have hmembers : g.Mergeable width (g.members rows leader) :=
    h.subset fun row hrow => (List.mem_filter.mp hrow).1
  rw [mergedRow, totalOf, partials_eq h (leaders_subset leader hleader)]
  rcases members_eq_cons h hleader with ⟨others, hothers⟩
  rw [hothers] at hmembers ⊢
  exact sumOf_cases h.separate (hmembers.length_eq _ List.mem_cons_self) hmembers.accepts _

/-- The rows are merged group by group, unless a running sum leaves the range. -/
theorem mergedRows_cases (h : g.Mergeable width rows) :
    (∃ merged, (g.keysOf rows).mapM (g.mergedRow rows) = .ok merged ∧
      g.SummarisedBy rows merged ∧ ¬ g.AnyOverflows rows) ∨
    ∃ e, (g.keysOf rows).mapM (g.mergedRow rows) = .error e ∧ g.AnyOverflows rows := by
  rw [keysOf_eq h, List.mapM_map]
  rcases mapM_cases (g.mergedRow rows ∘ g.key) (g.leaders rows) with
    ⟨merged, hmerged, hall, -⟩ | ⟨leader, hleader, e, he, herror⟩
  · have hsummary : ∀ leader ∈ g.leaders rows, ∀ row, g.mergedRow rows (g.key leader) = .ok row →
        g.Summarises (g.members rows leader) leader row ∧
          ¬ g.Overflows (g.members rows leader) := by
      intro leader hleader row hrow
      rcases mergedRow_cases h hleader with ⟨row', hrow', hsummary⟩ | ⟨e, he, -⟩
      · rw [hrow, Except.ok.injEq] at hrow'
        rw [hrow']
        exact hsummary
      · rw [hrow] at he
        cases he
    refine .inl ⟨merged, hmerged, ?_, ?_⟩
    · have hplaced := (List.forall₂_and_left _ _).mpr
        ⟨fun leader hleader => hsummary leader hleader, mapM_eq_ok_iff.mp hmerged⟩
      exact hplaced.imp fun leader row hrow => (hrow.1 row hrow.2).1
    · rintro ⟨leader, hleader, hover⟩
      rcases hall leader hleader with ⟨row, hrow⟩
      exact (hsummary leader hleader row hrow).2 hover
  · refine .inr ⟨e, herror, leader, hleader, ?_⟩
    rcases mergedRow_cases h hleader with ⟨row, hrow, -⟩ | ⟨-, -, hover⟩
    · rw [Function.comp_apply, hrow] at he
      cases he
    · exact hover

end Grouping

/-- Several results are merged into one row for each group, in order of first appearance, which
summarises the rows of the group; the merge fails exactly when a running sum leaves the range of
integers. -/
theorem groupRows_totals {results : List ResultCursor} {shape : Shape} {width : Nat}
    {collation : Collation} (hnever : ∀ r ∈ results, r.NeverFails) (horder : shape.orderBy = [])
    (hcolumns : ∀ c ∈ shape.groupColumns width, c < width)
    (h : (shape.grouping width collation).Mergeable width (results.flatMap (·.rows.rest))) :
    ((∃ e, groupRows results shape width collation = .error e) ↔
      (shape.grouping width collation).AnyOverflows (results.flatMap (·.rows.rest))) ∧
    ∀ merged, groupRows results shape width collation = .ok merged →
      (shape.grouping width collation).SummarisedBy (results.flatMap (·.rows.rest)) merged := by
  have hwidth : ∀ r ∈ results, ∀ row ∈ r.rows.rest, row.length = width := fun r hr row hrow =>
    h.length_eq row (List.mem_flatMap.mpr ⟨r, hr, hrow⟩)
  have hrange : shape.ColumnsInRange width := by
    intro c hc
    rw [Shape.columnsUsed, horder, List.map_nil, List.append_nil, List.mem_append] at hc
    exact hc.elim (hcolumns c) (h.separate.inRange c)
  have hunsorted : shape.hasOrder = false := by
    rw [Shape.hasOrder, horder]
    rfl
  have hiff : ∀ merged, groupRows results shape width collation = .ok merged ↔
      ((shape.grouping width collation).keysOf (results.flatMap (·.rows.rest))).mapM
        ((shape.grouping width collation).mergedRow (results.flatMap (·.rows.rest))) =
          .ok merged := by
    intro merged
    rw [groupRows_eq_ok_iff hnever hwidth, Shape.groupwise]
    simp [hrange, hunsorted]
  rcases Grouping.mergedRows_cases h with ⟨merged, hmerged, hsummary, hfits⟩ | ⟨e, he, hover⟩
  · have hgroups := (hiff merged).mpr hmerged
    refine ⟨⟨?_, fun hover => absurd hover hfits⟩, ?_⟩
    · rintro ⟨e, he⟩
      rw [hgroups] at he
      cases he
    · intro merged' hmerged'
      rw [hgroups, Except.ok.injEq] at hmerged'
      exact hmerged' ▸ hsummary
  · have hnot : ∀ merged, groupRows results shape width collation ≠ .ok merged := by
      intro merged hmerged
      rw [hiff, he] at hmerged
      cases hmerged
    refine ⟨⟨fun _ => hover, fun _ => ?_⟩, fun merged hmerged => absurd hmerged (hnot merged)⟩
    cases hgroups : groupRows results shape width collation with
    | error e' => exact ⟨e', rfl⟩
    | ok merged => exact absurd hgroups (hnot merged)

/-- Amounts by customer. -/
def amountShape : Shape :=
  { Shape.plain with groupBy := [0], aggregates := [⟨1, .sum⟩, ⟨2, .max⟩] }

/-- Amounts of two customers, one of whom is written in two ways. -/
def amountResults : List ResultCursor :=
  [.ofRows [⟨"name", "name"⟩, ⟨"sum", "sum"⟩, ⟨"max", "max"⟩]
    [[.text "ann", .int 4, .int 7], [.text "Bob", .null, .int 1]],
  .ofRows [⟨"name", "name"⟩, ⟨"sum", "sum"⟩, ⟨"max", "max"⟩] [[.text "ANN", .int 3, .int 9]]]

/-- Amounts of customers are grouped by their names in any case. -/
theorem groupRows_totals_amounts :
    (∀ r ∈ amountResults, r.NeverFails) ∧ amountShape.orderBy = [] ∧
    (∀ c ∈ amountShape.groupColumns 3, c < 3) ∧
    (amountShape.grouping 3 .caseInsensitive).Mergeable 3 (amountResults.flatMap (·.rows.rest)) ∧
    groupRows amountResults amountShape 3 .caseInsensitive =
      .ok [[.text "ann", .int 7, .int 9], [.text "Bob", .null, .int 1]] ∧
    (amountShape.grouping 3 .caseInsensitive).SummarisedBy (amountResults.flatMap (·.rows.rest))
      [[.text "ann", .int 7, .int 9], [.text "Bob", .null, .int 1]] := by
  have hnever : ∀ r ∈ amountResults, r.NeverFails := by
    intro r hr
    simp only [amountResults, List.mem_cons, List.not_mem_nil, or_false] at hr
    rcases hr with rfl | rfl <;> exact (ResultCursor.ofRows_uninterrupted _ _).neverFails
  have hcolumns : ∀ c ∈ amountShape.groupColumns 3, c < 3 := by decide
  have hmergeable : (amountShape.grouping 3 .caseInsensitive).Mergeable 3
      (amountResults.flatMap (·.rows.rest)) := by
    refine ⟨⟨by decide, by decide⟩, by decide, by decide +kernel, ?_⟩
    intro x hx
    have hcases : x = (1, .sum) ∨ x = (2, .greatest) := by
      simpa [Grouping.accumulations, Shape.grouping, amountShape, Aggregate.accumulations] using hx
    rcases hcases with rfl | rfl
    · show ∀ c ∈ _, _
      decide
    · exact ⟨.int, rfl, by decide⟩
  have hmerged : groupRows amountResults amountShape 3 .caseInsensitive =
      .ok [[.text "ann", .int 7, .int 9], [.text "Bob", .null, .int 1]] := by
    apply eq_ok_of_toOption
    decide +kernel
  exact ⟨hnever, rfl, hcolumns, hmergeable, hmerged,
    (groupRows_totals hnever rfl hcolumns hmergeable).2 _ hmerged⟩

end ShardedSql
