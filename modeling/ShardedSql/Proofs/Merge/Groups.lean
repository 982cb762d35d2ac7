import ShardedSql.Proofs.Distinctly
import ShardedSql.Proofs.Merge.Table
import ShardedSql.Proofs.Sorting.Stable
import ShardedSql.Proofs.Traversal

/-!
# Groups, one at a time

Rows are grouped while they are read, each being added to the total of its group.  The outcome can
be computed group by group: the groups are the keys in order of first appearance, and the total of
a group is its first row, to which its other rows are added in order.

Main results:

- Theorem `Grouping.addRows_cases`: what grouping rows comes to, group by group.
- Theorem `groupRows_cases`: merging fails as the total of a group does, or goes group by group.
- Theorem `groupRows_eq_ok_iff`: the merged rows of several results are those of `Shape.groupwise`.
-/

namespace ShardedSql

open Cursor

/-! ## Replaced cells

Totals and merged rows are rows in which some cells are replaced, so that they are as wide. -/

/-- Combining changes one cell. -/
theorem Row.combine_eq_ok {f : Cell → Cell → Except Fault Cell} {column : Nat}
    {total addend merged : Row} (h : total.combine f column addend = .ok merged) :
    ∃ c, f (total.cell column) (addend.cell column) = .ok c ∧ merged = total.set column c := by
  unfold Row.combine at h
  cases hcell : f (total.cell column) (addend.cell column) with
  | error e => simp [hcell, Except.map] at h
  | ok c =>
      simp only [hcell, Except.map, Except.ok.injEq] at h
      exact ⟨c, rfl, h.symm⟩

/-- Combining a column keeps the width of the total. -/
theorem Row.combine_length {f : Cell → Cell → Except Fault Cell} {column : Nat}
    {total addend merged : Row} (h : Row.combine f column total addend = .ok merged) :
    merged.length = total.length := by
  rcases Row.combine_eq_ok h with ⟨c, -, rfl⟩
  exact List.length_set

/-- So does adding a row for an aggregate. -/
theorem Aggregate.accumulate_length {a : Aggregate} {collation : Collation}
    {total row merged : Row} (h : a.accumulate collation total row = .ok merged) :
    merged.length = total.length := by
  unfold Aggregate.accumulate at h
  cases hkind : a.kind with
  | count | sum | min | max =>
      rw [hkind] at h
      exact Row.combine_length h
  | average sumColumn countColumn =>
      rw [hkind] at h
      cases hsum : total.combine addPartial sumColumn row with
      | error e => simp [hsum, bind, Except.bind] at h
      | ok next =>
          simp only [hsum, bind, Except.bind] at h
          rw [Row.combine_length h, Row.combine_length hsum]

/-- Finishing puts the mean into the column of an average. -/
theorem Aggregate.finish_cases {a : Aggregate} {total next : Row}
    (h : a.finish total = .ok next) :
    ((∀ sumColumn countColumn, a.kind ≠ .average sumColumn countColumn) ∧ next = total) ∨
    ∃ sumColumn countColumn mean, a.kind = .average sumColumn countColumn ∧
      average (total.cell sumColumn) (total.cell countColumn) = .ok mean ∧
      next = total.set a.column mean := by
  unfold finish at h
  cases hkind : a.kind with
  | count | sum | min | max =>
      rw [hkind] at h
      cases h
      exact .inl ⟨by simp, rfl⟩
  | average sumColumn countColumn =>
      rw [hkind] at h
      cases haverage : average (total.cell sumColumn) (total.cell countColumn) with
      | error e => simp [haverage, Except.map] at h
      | ok mean =>
          simp only [haverage, Except.map, Except.ok.injEq] at h
          exact .inr ⟨sumColumn, countColumn, mean, rfl, haverage, h.symm⟩

/-- Finishing an aggregate keeps the width of the total. -/
theorem Aggregate.finish_length {a : Aggregate} {total merged : Row}
    (h : a.finish total = .ok merged) : merged.length = total.length := by
  rcases Aggregate.finish_cases h with ⟨-, rfl⟩ | ⟨-, -, mean, -, -, rfl⟩
  · rfl
  · exact List.length_set

/-! ## Groups -/

namespace Grouping

/-- The rows of a group. -/
def partials (g : Grouping) (rows : List Row) (key : List UInt8) : List Row :=
  rows.filter fun row => g.key row == key

/-- The keys of all groups, in order of first appearance. -/
def keysOf (g : Grouping) (rows : List Row) : List (List UInt8) :=
  distinctly (rows.map g.key)

/-- The sum of rows of one group: the first one, to which the others are added. -/
def sumOf (g : Grouping) : List Row → Except Fault Row
  | [] => .ok []
  | first :: others => others.foldlM g.accumulate first

/-- The total of a group. -/
def totalOf (g : Grouping) (rows : List Row) (key : List UInt8) : Except Fault Row :=
  g.sumOf (g.partials rows key)

/-- The merged row of a group. -/
def mergedRow (g : Grouping) (rows : List Row) (key : List UInt8) : Except Fault Row :=
  g.totalOf rows key >>= fun total => g.finish ⟨key, total⟩

/-- The groups of the rows read so far. -/
structure Collected (g : Grouping) (rows : List Row) (groups : List Group) : Prop where
  keys : groups.map (·.key) = g.keysOf rows
  totals : ∀ group ∈ groups, g.totalOf rows group.key = .ok group.total

/-- The keys are those of the rows. -/
theorem mem_keysOf {g : Grouping} {rows : List Row} {key : List UInt8} :
    key ∈ g.keysOf rows ↔ ∃ row ∈ rows, g.key row = key := by
  rw [keysOf, mem_distinctly, List.mem_map]

/-- A key has no rows exactly if it is not among the keys. -/
theorem partials_eq_nil {g : Grouping} {rows : List Row} {key : List UInt8} :
    g.partials rows key = [] ↔ key ∉ g.keysOf rows := by
  simp [partials, mem_keysOf]

/-- One more row has its key at the end, unless it is there. -/
theorem keysOf_concat (g : Grouping) (rows : List Row) (row : Row) :
    g.keysOf (rows ++ [row]) =
      if g.key row ∈ g.keysOf rows then g.keysOf rows else g.keysOf rows ++ [g.key row] := by
  have hmem : g.key row ∈ rows.map g.key ↔ g.key row ∈ g.keysOf rows := mem_distinctly.symm
  rw [keysOf, List.map_append, List.map_singleton, distinctly_concat]
  by_cases h : g.key row ∈ g.keysOf rows
  · rw [if_pos h, if_pos (hmem.mpr h)]
    rfl
  · rw [if_neg h, if_neg fun hrow => h (hmem.mp hrow)]
    rfl

/-- A row of another group does not change a total. -/
theorem totalOf_concat_of_ne {g : Grouping} {rows : List Row} {row : Row} {key : List UInt8}
    (h : g.key row ≠ key) : g.totalOf (rows ++ [row]) key = g.totalOf rows key := by
  simp [totalOf, partials, List.filter_append, h]

/-- The first row of a group is its total. -/
theorem totalOf_concat_new {g : Grouping} {rows : List Row} {row : Row}
    (h : g.key row ∉ g.keysOf rows) : g.totalOf (rows ++ [row]) (g.key row) = .ok row := by
  have hnil := partials_eq_nil.mpr h
  unfold partials at hnil
  simp [totalOf, partials, List.filter_append, hnil, sumOf, pure, Except.pure]

/-- One more row is added to the total of those before. -/
theorem sumOf_concat {g : Grouping} {rows : List Row} (h : rows ≠ []) (row : Row) :
    g.sumOf (rows ++ [row]) = g.sumOf rows >>= fun total => g.accumulate total row := by
  cases rows with
  | nil => exact absurd rfl h
  | cons first others => simp [sumOf, List.foldlM_append]

/-- A later row of a group is added to its total. -/
theorem totalOf_concat_old {g : Grouping} {rows : List Row} {row : Row}
    (h : g.key row ∈ g.keysOf rows) :
    g.totalOf (rows ++ [row]) (g.key row) =
      g.totalOf rows (g.key row) >>= fun total => g.accumulate total row := by
  have hsome : g.partials rows (g.key row) ≠ [] := fun hnil => partials_eq_nil.mp hnil h
  rw [totalOf, totalOf, ← sumOf_concat hsome]
  simp [partials, List.filter_append]

/-- A group that cannot be added up stays so. -/
theorem totalOf_append_of_error {g : Grouping} {rows : List Row} {key : List UInt8} {e : Fault}
    (h : g.totalOf rows key = .error e) (more : List Row) :
    g.totalOf (rows ++ more) key = .error e := by
  unfold totalOf partials at h ⊢
  rw [List.filter_append]
  cases hkept : rows.filter fun row => g.key row == key with
  | nil =>
      rw [hkept] at h
      cases h
  | cons first others =>
      rw [hkept] at h
      have hsum : others.foldlM g.accumulate first = .error e := h
      simp [sumOf, List.foldlM_append, hsum, bind, Except.bind]

/-- A row whose key is new starts a group at the end. -/
theorem addKeyed_new {g : Grouping} {groups : List Group} {key : List UInt8} {row : Row}
    (h : key ∉ groups.map (·.key)) : g.addKeyed key row groups = .ok (groups ++ [⟨key, row⟩]) := by
  induction groups with
  | nil => rfl
  | cons group groups ih =>
      have hgroup : ¬ (group.key == key) = true := by
        intro heq
        exact h (by simp [eq_of_beq heq])
      rw [addKeyed, if_neg hgroup, ih fun hmem => h (by simp [hmem])]
      rfl

/-- A row of a group that is there is added to its total. -/
theorem addKeyed_old {g : Grouping} {before after : List Group} {group : Group} {row : Row}
    (h : group.key ∉ before.map (·.key)) :
    g.addKeyed group.key row (before ++ group :: after) =
      (g.accumulate group.total row).map fun total => before ++ { group with total } :: after := by
  induction before with
  | nil =>
      rw [List.nil_append, addKeyed, if_pos (beq_self_eq_true _)]
      rfl
  | cons first before ih =>
      have hfirst : ¬ (first.key == group.key) = true := by
        intro heq
        exact h (by simp [eq_of_beq heq])
      rw [List.cons_append, addKeyed, if_neg hfirst, ih fun hmem => h (by simp [hmem])]
      cases g.accumulate group.total row <;> rfl

/-- One more row: its group is made or added to, or it cannot be added. -/
theorem Collected.addRow_cases {g : Grouping} {rows : List Row} {groups : List Group}
    (h : g.Collected rows groups) (row : Row) :
    (∃ later, g.addRow groups row = .ok later ∧ g.Collected (rows ++ [row]) later) ∨
    ∃ e, g.addRow groups row = .error e ∧
      g.totalOf (rows ++ [row]) (g.key row) = .error e := by
  have hother : ∀ group ∈ groups, group.key ≠ g.key row →
      g.totalOf (rows ++ [row]) group.key = .ok group.total := by
    intro group hgroup hne
    rw [totalOf_concat_of_ne fun heq => hne heq.symm]
    exact h.totals group hgroup
  unfold addRow
  by_cases hnew : g.key row ∈ g.keysOf rows
  · have hmem : g.key row ∈ groups.map (·.key) := by
      rw [h.keys]
      exact hnew
    rcases List.mem_map.mp hmem with ⟨group, hgroup, hkey⟩
    rcases List.append_of_mem hgroup with ⟨before, after, rfl⟩
    have hnodup : ((before ++ group :: after).map (·.key)).Nodup := by
      rw [h.keys]
      exact nodup_distinctly _
    rw [List.map_append, List.map_cons, List.nodup_append, List.nodup_cons] at hnodup
    rcases hnodup with ⟨-, ⟨hafter, -⟩, hbefore⟩
    have hapart : ∀ other ∈ before ++ after, other.key ≠ g.key row := by
      intro other hmem heq
      rw [← hkey] at heq
      rcases List.mem_append.mp hmem with hmem | hmem
      · exact hbefore other.key (List.mem_map_of_mem hmem) group.key List.mem_cons_self heq
      · exact hafter (heq ▸ List.mem_map_of_mem hmem)
    have htotal := totalOf_concat_old hnew
    rw [← hkey, h.totals group hgroup] at htotal
    have htotal : g.totalOf (rows ++ [row]) group.key = g.accumulate group.total row := htotal
    rw [← hkey, addKeyed_old fun hmem =>
      hbefore group.key hmem group.key List.mem_cons_self rfl]
    cases hsum : g.accumulate group.total row with
    | error e => exact .inr ⟨e, rfl, by rw [htotal, hsum]⟩
    | ok total =>
        refine .inl ⟨_, rfl, ?_, ?_⟩
        · rw [keysOf_concat, if_pos hnew, ← h.keys]
          simp
        · intro other hmem
          rcases List.mem_append.mp hmem with hmem | hmem
          · exact hother other (by simp [hmem]) (hapart other (by simp [hmem]))
          · rcases List.mem_cons.mp hmem with rfl | hmem
            · rw [← hsum]
              exact htotal
            · exact hother other (by simp [hmem]) (hapart other (by simp [hmem]))
  · have hnot : g.key row ∉ groups.map (·.key) := by
      rw [h.keys]
      exact hnew
    refine .inl ⟨groups ++ [⟨g.key row, row⟩], addKeyed_new hnot, ?_, ?_⟩
    · rw [keysOf_concat, if_neg hnew, List.map_append, h.keys]
      rfl
    · intro other hmem
      rcases List.mem_append.mp hmem with hmem | hmem
      · exact hother other hmem fun heq => hnot (heq ▸ List.mem_map_of_mem hmem)
      · rw [List.mem_singleton.mp hmem]
        exact totalOf_concat_new hnew

/-- Grouping rows succeeds with the totals of all groups, or fails as the total of one of them
does. -/
theorem addRows_cases (g : Grouping) (rows : List Row) :
    (∃ groups, rows.foldlM g.addRow [] = .ok groups ∧ g.Collected rows groups) ∨
    ∃ key ∈ g.keysOf rows, ∃ e, rows.foldlM g.addRow [] = .error e ∧
      g.totalOf rows key = .error e := by
  have hfold : ∀ (later done : List Row) (groups : List Group), g.Collected done groups →
      (∃ all, later.foldlM g.addRow groups = .ok all ∧ g.Collected (done ++ later) all) ∨
      ∃ key ∈ g.keysOf (done ++ later), ∃ e, later.foldlM g.addRow groups = .error e ∧
        g.totalOf (done ++ later) key = .error e := by
    intro later
    induction later with
    | nil =>
        intro done groups h
        exact .inl ⟨groups, rfl, by simpa using h⟩
    | cons row later ih =>
        intro done groups h
        have hrows : done ++ row :: later = done ++ [row] ++ later := by simp
        rw [hrows]
        simp only [List.foldlM_cons, bind, Except.bind]
        rcases h.addRow_cases row with ⟨next, hnext, hcollected⟩ | ⟨e, he, htotal⟩
        · rw [hnext]
          exact ih (done ++ [row]) next hcollected
        · rw [he]
          refine .inr ⟨g.key row, mem_keysOf.mpr ⟨row, by simp, rfl⟩, e, rfl, ?_⟩
          exact totalOf_append_of_error htotal later
  exact hfold rows [] [] ⟨rfl, by simp⟩

/-- Reading results whose rows have the width is reading all their rows. -/
theorem collect_eq (g : Grouping) {width : Nat} {results : List ResultCursor}
    (hnever : ∀ r ∈ results, r.NeverFails)
    (hwidth : ∀ r ∈ results, ∀ row ∈ r.rows.rest, row.length = width) :
    g.collect width results = (results.flatMap (·.rows.rest)).foldlM g.addRow [] := by
  have hresult : ∀ r ∈ results, ∀ groups,
      (Cursor.foldRows width g.addRow groups r).1 = r.rows.rest.foldlM g.addRow groups := by
    intro r hr groups
    have hwide : Wide width r.rows.rest := fun row hrow => Nat.le_of_eq (hwidth r hr row hrow).symm
    have hrows : r.rows.rest.map (·.take width) = r.rows.rest := by
      conv => rhs; rw [← List.map_id r.rows.rest]
      exact List.map_congr_left fun row hrow =>
        List.take_of_length_le (Nat.le_of_eq (hwidth r hr row hrow))
    rw [(hnever r hr).delivers.foldRows g.addRow hwide (Nat.le_refl _), ← List.foldlM_map, hrows]
  have hfold : ∀ (later : List ResultCursor) (groups : List Group), (∀ r ∈ later, r ∈ results) →
      later.foldlM (fun groups r => (Cursor.foldRows width g.addRow groups r).1) groups =
        (later.flatMap (·.rows.rest)).foldlM g.addRow groups := by
    intro later
    induction later with
    | nil => intro groups _; rfl
    | cons r later ih =>
        intro groups hlater
        rw [List.foldlM_cons, List.flatMap_cons, List.foldlM_append,
          hresult r (hlater r List.mem_cons_self)]
        congr 1
        funext next
        exact ih next fun x hx => hlater x (List.mem_cons_of_mem _ hx)
  exact hfold results [] fun _ hr => hr

/-- The groups of rows have merged rows when their totals do. -/
theorem Collected.mapM_finish {g : Grouping} {rows : List Row} {groups : List Group}
    (h : g.Collected rows groups) :
    groups.mapM g.finish = (g.keysOf rows).mapM (g.mergedRow rows) := by
  have hgroups : ∀ some : List Group, (∀ group ∈ some, group ∈ groups) →
      some.mapM g.finish = (some.map (·.key)).mapM (g.mergedRow rows) := by
    intro some
    induction some with
    | nil => intro _; rfl
    | cons group some ih =>
        intro hsome
        have hmerged : g.mergedRow rows group.key = g.finish group := by
          rw [mergedRow, h.totals group (hsome group List.mem_cons_self)]
          rfl
        rw [List.mapM_cons, List.map_cons, List.mapM_cons, hmerged,
          ih fun x hx => hsome x (List.mem_cons_of_mem _ hx)]
  rw [← h.keys]
  exact hgroups groups fun _ hgroup => hgroup

/-- Adding a row keeps the width of the total. -/
theorem accumulate_length {g : Grouping} {total row merged : Row}
    (h : g.accumulate total row = .ok merged) : merged.length = total.length := by
  have hstep : ∀ a ∈ g.aggregates, ∀ b b' : Row, b.length = total.length →
      a.accumulate g.collation b row = .ok b' → b'.length = total.length := by
    intro a _ b b' hb hb'
    rw [Aggregate.accumulate_length hb', hb]
  exact foldlM_preserves hstep rfl h

/-- So does finishing a group. -/
theorem finish_length {g : Grouping} {group : Group} {merged : Row}
    (h : g.finish group = .ok merged) : merged.length = group.total.length := by
  have hstep : ∀ a ∈ g.aggregates, ∀ b b' : Row, b.length = group.total.length →
      a.finish b = .ok b' → b'.length = group.total.length := by
    intro a _ b b' hb hb'
    rw [Aggregate.finish_length hb', hb]
  exact foldlM_preserves hstep rfl h

/-- The total of some rows is as wide as they are. -/
theorem sumOf_length {g : Grouping} {rows : List Row} {width : Nat} (hsome : rows ≠ [])
    (hrows : ∀ row ∈ rows, row.length = width) {total : Row} (h : g.sumOf rows = .ok total) :
    total.length = width := by
  cases rows with
  | nil => exact absurd rfl hsome
  | cons first others =>
      have hstep : ∀ row ∈ others, ∀ b b' : Row, b.length = width →
          g.accumulate b row = .ok b' → b'.length = width := by
        intro row _ b b' hb hb'
        rw [accumulate_length hb', hb]
      exact foldlM_preserves hstep (hrows first List.mem_cons_self) h

/-- The merged row of a group is as wide as the rows. -/
theorem mergedRow_length {g : Grouping} {rows : List Row} {width : Nat}
    (hrows : ∀ row ∈ rows, row.length = width) {key : List UInt8} (hkey : key ∈ g.keysOf rows)
    {merged : Row} (h : g.mergedRow rows key = .ok merged) : merged.length = width := by
  rcases Except.bind_eq_ok.mp h with ⟨total, htotal, hfinish⟩
  rw [finish_length hfinish]
  refine sumOf_length (fun hnil => partials_eq_nil.mp hnil hkey) (fun row hrow => ?_) htotal
  exact hrows row (List.mem_filter.mp hrow).1

end Grouping

/-! ## Merged rows -/

namespace Shape

/-- All columns that grouping refers to are there. -/
def ColumnsInRange (s : Shape) (width : Nat) : Prop :=
  ∀ column ∈ s.columnsUsed width, column < width

/-- The merged rows of all groups of some rows, computed group by group and sorted if the shape asks
for it. -/
def groupwise (s : Shape) (width : Nat) (collation : Collation) (rows : List Row) :
    Except Fault (List Row) := do
  let grouping := s.grouping width collation
  let merged ← (grouping.keysOf rows).mapM (grouping.mergedRow rows)
  if s.hasOrder then sortRising (Row.order collation s.orderBy) merged else return merged

/-- The merged rows of all groups, in some order. -/
theorem groupwise_perm {s : Shape} {width : Nat} {collation : Collation} {rows merged : List Row}
    (h : s.groupwise width collation rows = .ok merged) :
    ∃ all, ((s.grouping width collation).keysOf rows).mapM
      ((s.grouping width collation).mergedRow rows) = .ok all ∧ merged.Perm all := by
  unfold groupwise at h
  rcases Except.bind_eq_ok.mp h with ⟨all, hall, hsorted⟩
  refine ⟨all, hall, ?_⟩
  split at hsorted
  · exact sortRising_perm hsorted
  · cases hsorted
    exact List.Perm.refl _

/-- The merged rows are as wide as the rows. -/
theorem groupwise_length {s : Shape} {width : Nat} {collation : Collation} {rows merged : List Row}
    (hrows : ∀ row ∈ rows, row.length = width)
    (h : s.groupwise width collation rows = .ok merged) : ∀ row ∈ merged, row.length = width := by
  intro row hrow
  rcases groupwise_perm h with ⟨all, hall, hperm⟩
  rcases mem_of_mapM hall row (hperm.mem_iff.mp hrow) with ⟨key, hkey, hmerged⟩
  exact Grouping.mergedRow_length hrows hkey hmerged

end Shape

/-- Merging several results fails when a column is not there. -/
theorem groupRows_of_not_inRange {shape : Shape} {width : Nat} (h : ¬ shape.ColumnsInRange width)
    (results : List ResultCursor) (collation : Collation) :
    ∃ column, groupRows results shape width collation = .error (.columnRange column width) := by
  unfold groupRows
  cases hfind : (shape.columnsUsed width).find? (width ≤ ·) with
  | some column => exact ⟨column, rfl⟩
  | none =>
      refine absurd (fun column hcolumn => ?_) h
      simpa using List.find?_eq_none.mp hfind column hcolumn

/-- Merging several results whose rows have the width fails as the total of a group does, or goes
group by group. -/
theorem groupRows_cases {shape : Shape} {width : Nat} (collation : Collation)
    {results : List ResultCursor} (hnever : ∀ r ∈ results, r.NeverFails)
    (hwidth : ∀ r ∈ results, ∀ row ∈ r.rows.rest, row.length = width)
    (hrange : shape.ColumnsInRange width) :
    (∃ key ∈ (shape.grouping width collation).keysOf (results.flatMap (·.rows.rest)), ∃ e,
      groupRows results shape width collation = .error e ∧
      (shape.grouping width collation).totalOf (results.flatMap (·.rows.rest)) key = .error e) ∨
    (∀ key ∈ (shape.grouping width collation).keysOf (results.flatMap (·.rows.rest)), ∃ total,
      (shape.grouping width collation).totalOf (results.flatMap (·.rows.rest)) key = .ok total) ∧
      groupRows results shape width collation =
        shape.groupwise width collation (results.flatMap (·.rows.rest)) := by
  have hfind : (shape.columnsUsed width).find? (width ≤ ·) = none := by
    refine List.find?_eq_none.mpr fun column hcolumn => ?_
    simpa using hrange column hcolumn
  unfold groupRows
  rw [hfind]
  simp only [Grouping.collect_eq _ hnever hwidth, Shape.groupwise]
  rcases (shape.grouping width collation).addRows_cases (results.flatMap (·.rows.rest)) with
    ⟨groups, hgroups, hcollected⟩ | ⟨key, hkey, e, he, htotal⟩
  · refine .inr ⟨fun key hkey => ?_, ?_⟩
    · rw [← hcollected.keys] at hkey
      rcases List.mem_map.mp hkey with ⟨group, hgroup, rfl⟩
      exact ⟨group.total, hcollected.totals group hgroup⟩
    · simp only [hgroups, bind, Except.bind]
      rw [hcollected.mapM_finish]
  · refine .inl ⟨key, hkey, e, ?_, htotal⟩
    rw [he]
    rfl

/-- Several results whose rows have the width are merged group by group. -/
theorem groupRows_eq_ok_iff {shape : Shape} {width : Nat} {collation : Collation}
    {results : List ResultCursor} (hnever : ∀ r ∈ results, r.NeverFails)
    (hwidth : ∀ r ∈ results, ∀ row ∈ r.rows.rest, row.length = width) {merged : List Row} :
    groupRows results shape width collation = .ok merged ↔
      shape.ColumnsInRange width ∧
        shape.groupwise width collation (results.flatMap (·.rows.rest)) = .ok merged := by
  by_cases hrange : shape.ColumnsInRange width
  · rcases groupRows_cases collation hnever hwidth hrange with
      ⟨key, hkey, e, he, htotal⟩ | ⟨-, hgroupwise⟩
    · -- The total of one group is a fault, so that its merged row is one too.
      refine iff_of_false (by simp [he]) fun h => ?_
      rcases Shape.groupwise_perm h.2 with ⟨all, hall, -⟩
      rcases step_of_mapM hall key hkey with ⟨row, hrow⟩
      rw [Grouping.mergedRow, htotal] at hrow
      cases hrow
    · rw [hgroupwise, and_iff_right hrange]
  · rcases groupRows_of_not_inRange hrange results collation with ⟨column, hfault⟩
    simp [hfault, hrange]

end ShardedSql
