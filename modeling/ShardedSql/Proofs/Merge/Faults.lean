import ShardedSql.Merge
import ShardedSql.Proofs.FailsOnly

/-!
# Faults of merging

Merging fails with faults of its own, or with those that interrupt the results it reads.

Main results:

- Theorem `Cursor.foldRows_failsOnly`: the faults of reading a result.
- Theorem `Merger.merge_failsOnly`: the faults of merging.
-/

namespace ShardedSql

/-- A fault of merging, or one that interrupts one of some results. -/
def ReadingOnly (results : List ResultCursor) (fault : Fault) : Prop :=
  fault.isMerging = true ∨ ∃ r ∈ results, some fault ∈ r.interruptions

/-- A fault of some results is a fault of more of them. -/
theorem ReadingOnly.mono {results others : List ResultCursor} {fault : Fault}
    (hfault : ReadingOnly results fault) (hsubset : results ⊆ others) :
    ReadingOnly others fault :=
  hfault.imp_right fun ⟨r, hr, hmem⟩ => ⟨r, hsubset hr, hmem⟩

/-! ## Cells and rows

Only sums overflow. -/

section

variable {kind : Fault → Prop}
  (hkind : ∀ fault, fault.isMerging = true → fault.isOverflow = false → kind fault)

include hkind

/-- Comparing cells fails with faults of merging only. -/
theorem Cell.order_failsOnly (collation : Collation) (a b : Cell) :
    FailsOnly kind (Cell.order collation a b) := by
  have hnumbers : ∀ x y, FailsOnly kind (orderNumbers x y) := by
    intro x y
    unfold orderNumbers
    split
    · exact failsOnly_ok _
    · exact failsOnly_error (hkind _ rfl rfl)
  unfold order
  split
  all_goals first
    | exact failsOnly_ok _
    | exact hnumbers _ _
    | exact failsOnly_error (hkind _ rfl rfl)

/-- So does comparing rows, if their cells can be read. -/
theorem orderRows_failsOnly (collation : Collation) {left right : Nat → Except Fault Cell}
    (hleft : ∀ c, FailsOnly kind (left c)) (hright : ∀ c, FailsOnly kind (right c))
    (items : List OrderItem) : FailsOnly kind (orderRows collation left right items) := by
  have hitem : ∀ (item : OrderItem) a b, FailsOnly kind (item.order collation a b) := by
    intro item a b
    unfold OrderItem.order
    split
    all_goals first
      | exact failsOnly_ok _
      | exact (Cell.order_failsOnly hkind collation a b).map _
  induction items with
  | nil => exact failsOnly_ok _
  | cons item items ih =>
      unfold orderRows
      refine (hleft _).bind fun a => (hright _).bind fun b => (hitem item a b).bind fun o => ?_
      split
      · exact ih
      · exact failsOnly_ok _

/-- So does picking the least or the greatest cell. -/
theorem pickPartial_failsOnly (wanted : Ordering) (collation : Collation)
    (current candidate : Cell) :
    FailsOnly kind (pickPartial wanted collation current candidate) := by
  unfold pickPartial
  repeat' split
  all_goals first
    | exact failsOnly_ok _
    | exact (Cell.order_failsOnly hkind collation _ _).map _

/-- So does finishing an aggregate. -/
theorem Aggregate.finish_failsOnly (a : Aggregate) (total : Row) :
    FailsOnly kind (a.finish total) := by
  have haverage : ∀ x y, FailsOnly kind (average x y) := by
    intro x y
    unfold average
    repeat' split
    all_goals first | exact failsOnly_ok _ | exact failsOnly_error (hkind _ rfl rfl)
  unfold finish
  split
  · exact (haverage _ _).map _
  · exact failsOnly_ok _

/-- So does finishing a group. -/
theorem Grouping.finish_failsOnly (g : Grouping) (group : Group) :
    FailsOnly kind (g.finish group) :=
  FailsOnly.foldlM (fun a _ total => a.finish_failsOnly hkind total) group.total

end

/-- Sorting fails only as comparing does. -/
theorem sortRising_failsOnly {α : Type} {kind : Fault → Prop}
    {order : α → α → Except Fault Ordering} (horder : ∀ a b, FailsOnly kind (order a b))
    (xs : List α) :
    FailsOnly kind (sortRising order xs) := by
  have hinsert : ∀ x sorted, FailsOnly kind (insertFalling order x sorted) := by
    intro x sorted
    induction sorted with
    | nil => exact failsOnly_ok _
    | cons y ys ih =>
        unfold insertFalling
        refine (horder x y).bind fun o => ?_
        split
        · exact ih.bind fun _ => failsOnly_ok _
        · exact failsOnly_ok _
  exact (FailsOnly.foldlM (fun x _ sorted => hinsert x sorted) []).map _

/-! ## Totals -/

section

variable {kind : Fault → Prop} (hkind : ∀ fault, fault.isMerging = true → kind fault)

include hkind

/-- Adding a row to a total fails with faults of merging only. -/
theorem Aggregate.accumulate_failsOnly (a : Aggregate) (collation : Collation) (total row : Row) :
    FailsOnly kind (a.accumulate collation total row) := by
  have hadd : ∀ x y, FailsOnly kind (addPartial x y) := by
    intro x y
    unfold addPartial
    dsimp only
    repeat' split
    all_goals first | exact failsOnly_ok _ | exact failsOnly_error (hkind _ rfl)
  have hpick : ∀ wanted x y, FailsOnly kind (pickPartial wanted collation x y) := fun wanted =>
    pickPartial_failsOnly (fun fault h _ => hkind fault h) wanted collation
  unfold accumulate
  split
  · exact (hadd _ _).map _
  · exact (hadd _ _).map _
  · exact (hpick _ _ _).map _
  · exact (hpick _ _ _).map _
  · exact FailsOnly.bind ((hadd _ _).map _) fun _ => (hadd _ _).map _

/-- So does adding a row to its group. -/
theorem Grouping.addRow_failsOnly (g : Grouping) (groups : List Group) (row : Row) :
    FailsOnly kind (g.addRow groups row) := by
  have haccumulate : ∀ total, FailsOnly kind (g.accumulate total row) := fun total =>
    FailsOnly.foldlM (fun a _ total => a.accumulate_failsOnly hkind g.collation total row) total
  unfold addRow
  induction groups with
  | nil => exact failsOnly_ok _
  | cons group groups ih =>
      unfold addKeyed
      split
      · exact (haccumulate _).map _
      · exact ih.map _

end

/-! ## Results -/

namespace ResultCursor

/-- A move fails only with a fault of the result itself. -/
theorem next_failsOnly (r : ResultCursor) : FailsOnly (ReadingOnly [r]) r.next.1 := by
  unfold next
  split
  · rename_i fault later hinterruptions
    refine failsOnly_error (.inr ⟨r, List.mem_singleton_self r, ?_⟩)
    rw [hinterruptions]
    exact List.mem_cons_self
  · exact failsOnly_ok _
  · exact failsOnly_ok _

/-- The faults that are still to come. -/
theorem interruptions_next_subset (r : ResultCursor) :
    r.next.2.interruptions ⊆ r.interruptions := by
  unfold next
  split
  · rename_i hinterruptions
    rw [hinterruptions]
    exact List.subset_cons_self _ _
  · rename_i hinterruptions
    rw [hinterruptions]
    exact List.subset_cons_self _ _
  · exact List.Subset.refl _

/-- A fault after a move is one of the result before it. -/
theorem readingOnly_next {r : ResultCursor} {fault : Fault}
    (hfault : ReadingOnly [r.next.2] fault) : ReadingOnly [r] fault := by
  refine hfault.imp_right fun ⟨later, hlater, hmem⟩ => ⟨r, List.mem_singleton_self r, ?_⟩
  rw [List.mem_singleton.mp hlater] at hmem
  exact r.interruptions_next_subset hmem

/-- Reading a cell fails with a fault of merging only. -/
theorem cell_failsOnly {kind : Fault → Prop} (hkind : ∀ fault, fault.isMerging = true → kind fault)
    (r : ResultCursor) (column : Nat) : FailsOnly kind (Cursor.cell r column) := by
  show FailsOnly kind (r.rows.position.cell column)
  unfold Position.cell
  repeat' split
  all_goals first | exact failsOnly_ok _ | exact failsOnly_error (hkind _ rfl)

end ResultCursor

/-- A result that is read fails with the faults that interrupt it, and with those of what is done
with its rows. -/
theorem Cursor.foldRows_failsOnly {α : Type} (width : Nat) {f : α → Row → Except Fault α}
    (r : ResultCursor) (hf : ∀ a row, FailsOnly (fun fault => fault.isMerging = true) (f a row))
    (a : α) : FailsOnly (ReadingOnly [r]) (foldRows width f a r).1 := by
  unfold foldRows
  generalize bound r + 1 = fuel
  induction fuel generalizing a r with
  | zero => exact failsOnly_ok a
  | succ fuel ih =>
      have hmove : FailsOnly (ReadingOnly [r]) (next r).1 := r.next_failsOnly
      have hlater : ∀ a, FailsOnly (ReadingOnly [r]) (foldUpTo width f fuel a (next r).2).1 :=
        fun a => (ih (next r).2 a).mono fun _ => ResultCursor.readingOnly_next
      unfold foldUpTo
      cases hnext : next r with
      | mk moved later =>
          rw [hnext] at hmove hlater
          match moved, hmove with
          | .error e, hmove => exact failsOnly_error (hmove e rfl)
          | .ok false, _ => exact failsOnly_ok a
          | .ok true, _ =>
              have hstep : FailsOnly (ReadingOnly [r]) (readRow width later >>= f a) := by
                refine FailsOnly.bind (FailsOnly.mapM fun column _ => ?_) fun row => ?_
                · exact later.cell_failsOnly (fun _ => .inl) column
                · exact (hf a row).mono fun _ => .inl
              dsimp only
              cases hread : readRow width later >>= f a with
              | error e => exact failsOnly_error (hstep e hread)
              | ok a => exact hlater a

/-! ## Merged results -/

/-- Grouping fails only with faults of merging, or of a result that is read. -/
theorem groupRows_failsOnly (results : List ResultCursor) (shape : Shape) (width : Nat)
    (collation : Collation) :
    FailsOnly (ReadingOnly results) (groupRows results shape width collation) := by
  have hkind : ∀ fault, fault.isMerging = true → fault.isOverflow = false →
      ReadingOnly results fault := fun _ h _ => .inl h
  have hcollect : ∀ g : Grouping, FailsOnly (ReadingOnly results) (g.collect width results) := by
    intro g
    refine FailsOnly.foldlM (fun r hr groups => ?_) []
    refine (Cursor.foldRows_failsOnly width r (g.addRow_failsOnly fun _ h => h) groups).mono ?_
    exact fun _ hfault => hfault.mono (List.cons_subset.mpr ⟨hr, List.nil_subset _⟩)
  have hsort : ∀ rows, FailsOnly (ReadingOnly results)
      (sortRising (Row.order collation shape.orderBy) rows) := fun rows =>
    sortRising_failsOnly (fun _ _ => orderRows_failsOnly hkind collation (fun _ => failsOnly_ok _)
      (fun _ => failsOnly_ok _) shape.orderBy) rows
  unfold groupRows
  split
  · exact failsOnly_error (.inl rfl)
  · refine (hcollect _).bind fun groups => ?_
    refine (FailsOnly.mapM fun group _ => Grouping.finish_failsOnly hkind _ group).bind
      fun rows => ?_
    split
    · exact hsort rows
    · exact failsOnly_ok rows

/-- So does merging by order. -/
theorem OrderedCursor.ofResults_failsOnly (results : List ResultCursor) (items : List OrderItem)
    (collation : Collation) :
    FailsOnly (ReadingOnly results) (ofResults results items collation) := by
  refine FailsOnly.bind (FailsOnly.mapM fun r hr => ?_) fun _ => failsOnly_ok _
  have hmove := r.next_failsOnly
  unfold startInput
  split
  · exact failsOnly_ok _
  · rename_i e later hnext
    rw [hnext] at hmove
    exact failsOnly_error ((hmove e rfl).mono (List.cons_subset.mpr ⟨hr, List.nil_subset _⟩))

/-- Merging fails with faults of its own, or with those that interrupt the results. -/
theorem Merger.merge_failsOnly (m : Merger) (results : List ResultCursor) (statement : Statement) :
    FailsOnly (ReadingOnly results) (m.merge results statement) := by
  have hcombined : ∀ shape width, FailsOnly (ReadingOnly results)
      (CombinedCursor.ofResults results shape width m.collation) := by
    intro shape width
    unfold CombinedCursor.ofResults
    split
    · exact (groupRows_failsOnly results shape width m.collation).map _
    · split
      · exact (OrderedCursor.ofResults_failsOnly results _ _).map _
      · exact failsOnly_ok _
  have hmerged : ∀ shape width, FailsOnly (ReadingOnly results)
      (MergedCursor.ofResults results shape width m.collation) := by
    intro shape width
    unfold MergedCursor.ofResults
    split
    · exact failsOnly_ok _
    · exact failsOnly_ok _
    · exact (hcombined shape width).map _
  unfold merge
  dsimp only
  split
  · exact failsOnly_error (.inl rfl)
  · exact (hmerged _ _).bind fun _ => failsOnly_ok _

end ShardedSql
