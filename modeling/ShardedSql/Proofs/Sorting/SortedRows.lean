import ShardedSql.Proofs.Sorting.RowOrder
import ShardedSql.Proofs.Sorting.Stable

/-!
# Sorted rows

The stable sort of rows by sort criteria, as the merger compares them.  On rows with sortable
columns it is the stable sort by the total preorder.

Main results:

- Theorem `sortRows_eq_stableSort`: both sorts agree.
- Theorem `sortRows_stablySorted`: the sorted rows are the given ones, in order, ties being left as
  they were and nulls where the criteria want them.
-/

namespace ShardedSql

/-- Whether two rows are equal under sort criteria. -/
def Row.ties (collation : Collation) (items : List OrderItem) (a b : Row) : Bool :=
  match Row.order collation items a b with
  | .ok o => o == .eq
  | .error _ => false

/-- The stable sort of rows by sort criteria. -/
def sortRows (collation : Collation) (items : List OrderItem) (rows : List Row) : List Row :=
  rows.mergeSort (Row.mayPrecede collation items)

/-- What a stable sort makes of rows. -/
structure StablySorted (collation : Collation) (items : List OrderItem)
    (rows sorted : List Row) : Prop where
  perm : sorted.Perm rows
  ordered : sorted.Pairwise fun a b => Row.mayPrecede collation items a b
  /-- Ties are left in their order. -/
  ties_eq : ∀ x ∈ rows,
    sorted.filter (Row.ties collation items x) = rows.filter (Row.ties collation items x)
  nulls : sorted.Pairwise (NullsPlaced collation items)

/-- Without criteria rows stay in order. -/
theorem sortRows_nil_items (collation : Collation) (rows : List Row) :
    sortRows collation [] rows = rows := by
  apply List.mergeSort_of_pairwise
  exact List.pairwise_of_forall fun _ _ => rfl

section Sortable

variable {collation : Collation} {items : List OrderItem} {rows : List Row}

/-- Any two of sortable rows are sortable. -/
theorem Sortable.pair (h : Sortable items rows) {a b : Row} (ha : a ∈ rows) (hb : b ∈ rows) :
    Sortable items [a, b] :=
  h.subset (by simp [ha, hb])

/-- On rows with sortable columns the sort is that by the total preorder. -/
theorem sortRows_eq_stableSort (h : Sortable items rows) :
    sortRows collation items rows = stableSort (Row.totalOrder collation items) rows := by
  apply mergeSort_congr
  intro a ha b hb
  exact mayPrecede_eq_isLE collation (h.pair ha hb)

/-- Sortable rows are in order exactly if they are in the total order. -/
theorem pairwise_mayPrecede_iff (h : Sortable items rows) :
    (rows.Pairwise fun a b => Row.mayPrecede collation items a b) ↔
      rows.Pairwise fun a b => (Row.totalOrder collation items a b).isLE := by
  apply List.Pairwise.iff_of_mem
  intro a b ha hb
  rw [mayPrecede_eq_isLE collation (h.pair ha hb)]

/-- Sortable rows tie exactly if they are equal in the total order. -/
theorem ties_eq_totalOrder (h : Sortable items rows) {a b : Row} (ha : a ∈ rows) (hb : b ∈ rows) :
    Row.ties collation items a b = (Row.totalOrder collation items a b == .eq) := by
  have horder : Row.order collation items a b = .ok (Row.totalOrder collation items a b) :=
    orderRows_eq_totalOrder collation (h.pair ha hb) (fun _ _ => rfl) (fun _ _ => rfl)
  simp [Row.ties, horder]

/-- The sorted rows are the given ones, in order, ties being left as they were. -/
theorem sortRows_stablySorted (h : Sortable items rows) :
    StablySorted collation items rows (sortRows collation items rows) := by
  have hperm : (sortRows collation items rows).Perm rows := List.mergeSort_perm _ _
  have hsortable : Sortable items (sortRows collation items rows) :=
    h.subset fun row hrow => hperm.mem_iff.mp hrow
  have hordered : (sortRows collation items rows).Pairwise fun a b =>
      Row.mayPrecede collation items a b := by
    rw [pairwise_mayPrecede_iff hsortable, sortRows_eq_stableSort h]
    exact stableSort_pairwise _
  refine ⟨hperm, hordered, ?_, ?_⟩
  · intro x hx
    have hpeers : peers (Row.totalOrder collation items) x
        (stableSort (Row.totalOrder collation items) rows) = _ := peers_stableSort x rows
    rw [← sortRows_eq_stableSort h] at hpeers
    have hfilter : ∀ sub : List Row, (∀ y ∈ sub, y ∈ rows) →
        sub.filter (Row.ties collation items x) =
          peers (Row.totalOrder collation items) x sub := by
      intro sub hsub
      exact List.filter_congr fun y hy => ties_eq_totalOrder h hx (hsub y hy)
    rw [hfilter _ fun y hy => hperm.mem_iff.mp hy, hfilter rows fun _ hy => hy]
    exact hpeers
  · exact hordered.imp nullsPlaced_of_mayPrecede

/-- Sorting by insertion, as grouped rows are sorted, comes to the same. -/
theorem sortRising_eq_sortRows (h : Sortable items rows) :
    sortRising (Row.order collation items) rows = .ok (sortRows collation items rows) := by
  rw [sortRows_eq_stableSort h]
  apply sortRising_eq_stableSort
  intro a ha b hb
  exact orderRows_eq_totalOrder collation (h.pair ha hb) (fun _ _ => rfl) (fun _ _ => rfl)

end Sortable

end ShardedSql
