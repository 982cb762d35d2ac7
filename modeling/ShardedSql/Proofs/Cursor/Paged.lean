import ShardedSql.Proofs.Cursor.Delivery

/-!
# Pages of delivered rows

Skipping and limiting the moves of a cursor cuts the page from the rows it delivers.

Main results:

- Theorem `Paged.delivers`: a page of a cursor delivers the slice of the rows the cursor delivers.
- Theorem `Page.take_prefix_cut`: the rows up to the end of a page are among those that are pushed
  down.
-/

namespace ShardedSql

open Cursor

/-- The rows of a page: some are dropped and, optionally, only so many of the others are kept. -/
def Page.slice {α : Type} (p : Page) (rows : List α) : List α :=
  match p.rowCount with
  | some n => (rows.drop p.offset.toNat).take n.toNat
  | none => rows.drop p.offset.toNat

/-- The rows a target delivers that is asked for no more than are pushed down. -/
def Page.cut {α : Type} (p : Page) (rows : List α) : List α :=
  match p.pushedDown with
  | some n => rows.take n
  | none => rows

/-- A slice leaves rows out and keeps the order of the others. -/
theorem Page.slice_sublist {α : Type} (p : Page) (rows : List α) :
    (p.slice rows).Sublist rows := by
  unfold Page.slice
  split
  · exact (List.take_sublist _ _).trans (List.drop_sublist _ _)
  · exact List.drop_sublist _ _

/-- A cut keeps rows from the first one on. -/
theorem Page.cut_prefix {α : Type} (p : Page) (rows : List α) : p.cut rows <+: rows := by
  unfold Page.cut
  split
  · exact List.take_prefix _ _
  · exact List.prefix_refl _

/-- What is cut off lies behind the last row of the page, also where the count that is pushed down
is the largest one that can be written. -/
theorem Page.take_prefix_cut {α : Type} (p : Page) {rows : List α}
    (hlength : rows.length < Nat.pow 2 64) {n : UInt64} (hn : p.rowCount = some n) :
    rows.take (p.offset.toNat + n.toNat) <+: p.cut rows := by
  have hpushed : p.pushedDown = some (min (n.toNat + p.offset.toNat) (Nat.pow 2 64 - 1)) := by
    simp [Page.pushedDown, hn]
  unfold Page.cut
  rw [hpushed]
  by_cases hsmall : n.toNat + p.offset.toNat ≤ Nat.pow 2 64 - 1
  · have hsame : rows.take (min (n.toNat + p.offset.toNat) (Nat.pow 2 64 - 1)) =
        rows.take (p.offset.toNat + n.toNat) := by
      rw [Nat.min_eq_left hsmall, Nat.add_comm]
    exact hsame ▸ List.prefix_refl _
  · have hall : rows.take (min (n.toNat + p.offset.toNat) (Nat.pow 2 64 - 1)) = rows :=
      List.take_of_length_le (by omega)
    show _ <+: rows.take _
    rw [hall]
    exact List.take_prefix _ _

/-- The slice depends on the rows up to the end of the page only. -/
theorem Page.slice_eq_of_take_eq {α : Type} {p : Page} {rows rows' : List α} {n : UInt64}
    (hn : p.rowCount = some n)
    (h : rows.take (p.offset.toNat + n.toNat) = rows'.take (p.offset.toNat + n.toNat)) :
    p.slice rows = p.slice rows' := by
  unfold Page.slice
  rw [hn]
  simp only [List.take_drop, h]

namespace Paged

variable {σ : Type}

/-- What is left of a page whose skipped rows are behind. -/
def remaining (p : Paged σ) (rows : List Row) : List Row :=
  match p.page.rowCount with
  | some n => rows.take (n.toNat - p.returned)
  | none => rows

/-- Nothing remains of a full page. -/
theorem remaining_of_isFull {p : Paged σ} (h : p.isFull = true) (rows : List Row) :
    p.remaining rows = [] := by
  unfold isFull at h
  unfold remaining
  cases hcount : p.page.rowCount with
  | none => simp [hcount] at h
  | some n =>
      simp only [hcount, decide_eq_true_eq] at h
      simp [Nat.sub_eq_zero_of_le h]

/-- A page that is not full takes the next row. -/
theorem remaining_cons {p : Paged σ} (h : p.isFull = false) (inner : σ) (row : Row)
    (rows : List Row) :
    p.remaining (row :: rows) =
      row :: remaining { p with inner, returned := p.returned + 1 } rows := by
  unfold isFull at h
  unfold remaining
  cases hcount : p.page.rowCount with
  | none => rfl
  | some n =>
      simp only [hcount, decide_eq_false_iff_not, Nat.not_le] at h
      have hsub : n.toNat - p.returned = n.toNat - (p.returned + 1) + 1 := by omega
      simp only [hsub, List.take_succ_cons]

variable [Cursor σ]

/-- A page moves in the phase of delivery. -/
structure Delivering (p : Paged σ) : Prop where
  skipped : p.skipped = true
  exhausted : p.exhausted = false

/-- A page that delivers does so with every move. -/
theorem Delivering.next {p : Paged σ} (h : p.Delivering) : Cursor.next p = p.deliver := by
  show Paged.next p = _
  simp [Paged.next, h.skipped, h.exhausted]

/-- In the phase of delivery as many rows are delivered as are left of the page. -/
theorem Delivering.delivers {p : Paged σ} (h : p.Delivering) {rows : List Row}
    (hinner : Delivers p.inner rows) : Delivers p (p.remaining rows) := by
  induction rows generalizing p with
  | nil =>
      have hend : Cursor.next p.inner = (.ok false, (Cursor.next p.inner).2) :=
        Prod.ext hinner rfl
      have hremaining : p.remaining [] = [] := by
        unfold remaining
        split <;> simp
      rw [hremaining, Delivers, h.next, deliver]
      by_cases hfull : p.isFull = true
      · rw [if_pos hfull]
        rfl
      · rw [if_neg hfull, hend]
        rfl
  | cons row rows ih =>
      rcases hinner with ⟨hmove, hshows, hrest⟩
      have hnext : Cursor.next p.inner = (.ok true, (Cursor.next p.inner).2) :=
        Prod.ext hmove rfl
      cases hfull : p.isFull with
      | true =>
          rw [remaining_of_isFull hfull, Delivers, h.next, deliver, if_pos hfull]
          rfl
      | false =>
          have hdeliver : p.deliver =
              (.ok true, { p with
                inner := (Cursor.next p.inner).2, returned := p.returned + 1 }) := by
            rw [deliver, if_neg (by simp [hfull]), hnext]
          rw [remaining_cons hfull (Cursor.next p.inner).2, Delivers, h.next, hdeliver]
          refine ⟨rfl, ?_, ih ⟨h.skipped, h.exhausted⟩ hrest⟩
          intro column
          show Paged.cell _ column = _
          simp only [Paged.cell, h.exhausted, Bool.false_eq_true, if_false]
          exact hshows column

section FirstMove

variable {inner : σ} {page : Page}

/-- The first move of a page goes on to delivery when the skipped rows are behind. -/
theorem next_of_skip_true (h : (skip page.offset.toNat inner).1 = .ok true) :
    Cursor.next ({ inner, page } : Paged σ) =
      Cursor.next ({ inner := (skip page.offset.toNat inner).2, page, skipped := true }
        : Paged σ) := by
  have hpair : skip page.offset.toNat inner = (.ok true, (skip page.offset.toNat inner).2) :=
    Prod.ext h rfl
  have hphase : ({ inner := (skip page.offset.toNat inner).2, page, skipped := true }
      : Paged σ).Delivering := ⟨rfl, rfl⟩
  rw [hphase.next]
  show Paged.next _ = _
  simp only [Paged.next, Bool.false_eq_true, if_false]
  rw [hpair]

/-- A page has no row when the rows come to an end while they are skipped. -/
theorem next_of_skip_false (h : (skip page.offset.toNat inner).1 = .ok false) :
    (Cursor.next ({ inner, page } : Paged σ)).1 = .ok false := by
  have hpair : skip page.offset.toNat inner = (.ok false, (skip page.offset.toNat inner).2) :=
    Prod.ext h rfl
  show (Paged.next _).1 = _
  simp only [Paged.next, Bool.false_eq_true, if_false]
  rw [hpair]
  rfl

/-- Skipping that fails counts as done. -/
theorem next_of_skip_error {e : Fault} (h : (skip page.offset.toNat inner).1 = .error e) :
    Cursor.next ({ inner, page } : Paged σ) =
      (.error e, { inner := (skip page.offset.toNat inner).2, page, skipped := true }) := by
  have hpair : skip page.offset.toNat inner = (.error e, (skip page.offset.toNat inner).2) :=
    Prod.ext h rfl
  show Paged.next _ = _
  simp only [Paged.next, Bool.false_eq_true, if_false]
  rw [hpair]

end FirstMove

/-- A page of a cursor delivers the slice of the rows the cursor delivers. -/
theorem delivers {inner : σ} {rows : List Row} (page : Page) (h : Delivers inner rows) :
    Delivers ({ inner, page } : Paged σ) (page.slice rows) := by
  rcases h.skip page.offset.toNat with ⟨-, hskip, hrest⟩ | ⟨hshort, hskip⟩
  · let p : Paged σ :=
      { inner := (skip page.offset.toNat inner).2, page, skipped := true }
    have hphase : p.Delivering := ⟨rfl, rfl⟩
    have hslice : p.remaining (rows.drop page.offset.toNat) = page.slice rows := rfl
    rw [← hslice]
    exact (hphase.delivers hrest).congr_next (next_of_skip_true hskip).symm
  · have hslice : page.slice rows = [] := by
      have hdrop : rows.drop page.offset.toNat = [] := List.drop_eq_nil_of_le (by omega)
      unfold Page.slice
      split <;> simp [hdrop]
    rw [hslice]
    exact next_of_skip_false hskip

end Paged

end ShardedSql
