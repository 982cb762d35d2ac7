import ShardedSql.Merge

/-!
# Delivered rows

A cursor delivers a list of rows when its moves succeed, stand on one row of the list after the
other, and then come to an end.  Every cursor of the merger is described by what it delivers, given
what its parts deliver.

Main results:

- Theorem `Delivers.foldRows`: a fold over a cursor is the fold over the rows it delivers.
- Theorem `Delivers.skip`: skipping drops rows.
- Theorems `ResultCursor.NeverFails.delivers` and `StreamCursor.delivers`: results in memory deliver
  their rows, a stream those of one result after the other.
- Theorems `MergedResult.delivers` and `MergedResult.rows_eq`: the sender of a statement sees the
  visible columns through the masks.
-/

namespace ShardedSql

/-- All rows have at least the given number of cells. -/
def Wide (width : Nat) (rows : List Row) : Prop :=
  ∀ row ∈ rows, width ≤ row.length

namespace Cursor

variable {σ τ : Type} [Cursor σ] [Cursor τ]

/-- The current row is the given one: its cells are read, and no others. -/
def Shows (s : σ) (row : Row) : Prop :=
  ∀ column, cell s column = (Position.onRow row).cell column

/-- The coming moves stand on the given rows in turn, and then there are no more. -/
def Delivers : σ → List Row → Prop
  | s, [] => (next s).1 = .ok false
  | s, row :: rows => (next s).1 = .ok true ∧ Shows (next s).2 row ∧ Delivers (next s).2 rows

/-- What is delivered depends on the coming move only. -/
theorem Delivers.congr_next {s s' : σ} {rows : List Row} (h : next s = next s')
    (hs : Delivers s rows) : Delivers s' rows := by
  cases rows with
  | nil =>
      rw [Delivers, h] at hs
      exact hs
  | cons row rows =>
      rw [Delivers, h] at hs
      exact hs

/-- Reading leading cells of the current row. -/
theorem Shows.readRow {s : σ} {row : Row} (h : Shows s row) {width : Nat}
    (hwidth : width ≤ row.length) : readRow width s = .ok (row.take width) := by
  unfold Cursor.readRow
  induction width with
  | zero => rfl
  | succ n ih =>
      have hcell : cell s n = .ok row[n] := by
        rw [h n]
        simp [Position.cell, List.getElem?_eq_getElem (show n < row.length by omega)]
      rw [List.range_succ, List.mapM_append, ih (by omega)]
      simp [List.mapM_cons, hcell, bind, Except.bind, pure, Except.pure]

/-- A fold with enough fuel is the fold over the delivered rows. -/
theorem Delivers.foldUpTo {α : Type} {width : Nat} (f : α → Row → Except Fault α)
    {rows : List Row} (hwide : Wide width rows) {fuel : Nat} (hfuel : rows.length < fuel) {a : α}
    {s : σ} (h : Delivers s rows) :
    (foldUpTo width f fuel a s).1 = rows.foldlM (fun a row => f a (row.take width)) a := by
  induction rows generalizing fuel a s with
  | nil =>
      cases fuel with
      | zero => simp at hfuel
      | succ fuel =>
          have hnext : next s = (.ok false, (next s).2) := Prod.ext h rfl
          rw [Cursor.foldUpTo, hnext]
          rfl
  | cons row rows ih =>
      cases fuel with
      | zero => simp at hfuel
      | succ fuel =>
          rcases h with ⟨hmove, hshows, hrest⟩
          have hnext : next s = (.ok true, (next s).2) := Prod.ext hmove rfl
          have hread := hshows.readRow (hwide row List.mem_cons_self)
          rw [Cursor.foldUpTo, hnext]
          simp only [hread, List.foldlM_cons]
          simp only [bind, Except.bind]
          cases hf : f a (row.take width) with
          | error e => rfl
          | ok b =>
              simp only [List.length_cons] at hfuel
              exact ih (fun r hr => hwide r (List.mem_cons_of_mem _ hr)) (by omega) hrest

/-- A fold over a cursor is the fold over the rows it delivers. -/
theorem Delivers.foldRows {α : Type} {width : Nat} (f : α → Row → Except Fault α)
    {rows : List Row} (hwide : Wide width rows) {s : σ} (hbound : rows.length ≤ bound s) {a : α}
    (h : Delivers s rows) :
    (foldRows width f a s).1 = rows.foldlM (fun a row => f a (row.take width)) a :=
  h.foldUpTo f hwide (by omega)

/-- A pass that never fails collects the rows in order. -/
theorem foldlM_snoc (g : Row → Row) (rows done : List Row) :
    rows.foldlM (fun done row => (.ok (done ++ [g row]) : Except Fault (List Row))) done =
      .ok (done ++ rows.map g) := by
  induction rows generalizing done with
  | nil => simp [pure, Except.pure]
  | cons row rows ih =>
      simp only [List.foldlM_cons, bind, Except.bind, ih]
      simp

/-- Draining a cursor yields the rows it delivers. -/
theorem Delivers.rows {width : Nat} {rows : List Row} (hwide : Wide width rows) {s : σ}
    (hbound : rows.length ≤ bound s) (h : Delivers s rows) :
    (Cursor.rows width s).1 = .ok (rows.map (·.take width)) := by
  rw [Cursor.rows, h.foldRows _ hwide hbound, foldlM_snoc (·.take width)]
  simp

/-- Skipping drops as many rows, or comes to the end. -/
theorem Delivers.skip (n : Nat) {rows : List Row} {s : σ} (h : Delivers s rows) :
    (n ≤ rows.length ∧ (skip n s).1 = .ok true ∧ Delivers (skip n s).2 (rows.drop n)) ∨
      (rows.length < n ∧ (skip n s).1 = .ok false) := by
  induction n generalizing rows s with
  | zero => exact .inl ⟨Nat.zero_le _, rfl, h⟩
  | succ n ih =>
      cases rows with
      | nil =>
          have hnext : next s = (.ok false, (next s).2) := Prod.ext h rfl
          refine .inr ⟨Nat.zero_lt_succ n, ?_⟩
          rw [Cursor.skip, hnext]
      | cons row rows =>
          rcases h with ⟨hmove, -, hrest⟩
          have hnext : next s = (.ok true, (next s).2) := Prod.ext hmove rfl
          have hskip : Cursor.skip (n + 1) s = Cursor.skip n (next s).2 := by
            rw [Cursor.skip, hnext]
          rw [hskip, List.length_cons, List.drop_succ_cons]
          rcases ih hrest with ⟨hle, hskipped⟩ | ⟨hlt, hend⟩
          · exact .inl ⟨by omega, hskipped⟩
          · exact .inr ⟨by omega, hend⟩

/-- A wrapper that moves as its inside does delivers the images of the inner rows. -/
theorem Delivers.image (wrap : σ → τ) (g : Row → Row)
    (hnext : ∀ s, next (wrap s) = wrapMove wrap (next s)) {rows : List Row}
    (hshows : ∀ s, ∀ row ∈ rows, Shows s row → Shows (wrap s) (g row))
    {s : σ} (h : Delivers s rows) : Delivers (wrap s) (rows.map g) := by
  induction rows generalizing s with
  | nil =>
      rw [List.map_nil, Delivers, hnext]
      exact h
  | cons row rows ih =>
      rcases h with ⟨hmove, hrow, hrest⟩
      rw [List.map_cons, Delivers, hnext]
      refine ⟨hmove, hshows _ row List.mem_cons_self hrow, ih ?_ hrest⟩
      exact fun s r hr => hshows s r (List.mem_cons_of_mem _ hr)

/-- A wrapper with the moves and the cells of its inside delivers the inner rows. -/
theorem Delivers.wrap (wrap : σ → τ) (hnext : ∀ s, next (wrap s) = wrapMove wrap (next s))
    (hcell : ∀ s c, cell (wrap s) c = cell s c)
    {rows : List Row} {s : σ} (h : Delivers s rows) : Delivers (wrap s) rows := by
  have himage := h.image wrap id hnext (by
    intro s row _ hrow column
    rw [hcell]
    exact hrow column)
  rwa [List.map_id] at himage

end Cursor

open Cursor

/-! ## Rows in memory -/

/-- Rows in memory are delivered as they are. -/
theorem RowCursor.delivers (position : Position) (rows : List Row) :
    Delivers (⟨position, rows⟩ : RowCursor) rows := by
  induction rows generalizing position with
  | nil => rfl
  | cons row rows ih => exact ⟨rfl, fun _ => rfl, ih (.onRow row)⟩

namespace ResultCursor

/-- No move of the result will be interrupted. -/
def Uninterrupted (c : ResultCursor) : Prop := c.interruptions = []

/-- Without interruptions a move goes to the next row, if there is one. -/
theorem Uninterrupted.next {c : ResultCursor} (h : c.Uninterrupted) :
    c.next = (.ok c.rows.advance.1, { c with rows := c.rows.advance.2 }) := by
  unfold ResultCursor.next
  rw [h]

/-- No move of the result will fail. -/
def NeverFails (c : ResultCursor) : Prop := ∀ i ∈ c.interruptions, i = none

/-- A move of a result that never fails stands on the next row. -/
theorem NeverFails.next_cases {c : ResultCursor} (h : c.NeverFails) :
    ∃ later, (∀ i ∈ later, i = none) ∧
      c.next = (.ok c.rows.advance.1,
        { c with rows := c.rows.advance.2, interruptions := later }) := by
  unfold NeverFails at h
  unfold ResultCursor.next
  cases hcoming : c.interruptions with
  | nil =>
      refine ⟨[], by simp, ?_⟩
      simp [← hcoming]
  | cons i later =>
      rw [hcoming, List.forall_mem_cons] at h
      rw [h.1]
      exact ⟨later, h.2, rfl⟩

/-- A result that never fails delivers its rows. -/
theorem NeverFails.delivers {c : ResultCursor} (h : c.NeverFails) : Delivers c c.rows.rest := by
  have hrows : ∀ (rows : List Row) (c : ResultCursor), c.NeverFails → c.rows.rest = rows →
      Delivers c rows := by
    intro rows
    induction rows with
    | nil =>
        intro c h hrest
        rcases h.next_cases with ⟨later, -, hnext⟩
        show c.next.1 = .ok false
        rw [hnext, RowCursor.advance, hrest]
    | cons row rows ih =>
        intro c h hrest
        rcases h.next_cases with ⟨later, hlater, hnext⟩
        rw [RowCursor.advance, hrest] at hnext
        have hmove : Cursor.next c =
            (.ok true, { c with rows := ⟨.onRow row, rows⟩, interruptions := later }) := hnext
        rw [Delivers, hmove]
        exact ⟨rfl, fun _ => rfl, ih _ hlater rfl⟩
  exact hrows c.rows.rest c h rfl

/-- Without interruptions no move ever fails. -/
theorem Uninterrupted.neverFails {c : ResultCursor} (h : c.Uninterrupted) : c.NeverFails := by
  intro i hi
  rw [h] at hi
  cases hi

theorem ofRows_uninterrupted (columns : List Column) (rows : List Row) :
    (ofRows columns rows).Uninterrupted := rfl

end ResultCursor

/-! ## Results one after the other -/

namespace StreamCursor

theorem next_eq (c : StreamCursor) : Cursor.next c = advance c.state c.results := rfl

/-- A stream delivers the rows of one result after the other. -/
theorem delivers {results : List ResultCursor} (hresults : ∀ r ∈ results, r.Uninterrupted)
    (state : StreamState) :
    Delivers (⟨results, state⟩ : StreamCursor) (results.flatMap (·.rows.rest)) := by
  induction results generalizing state with
  | nil => rfl
  | cons result results ih =>
      have hlater := ih fun r hr => hresults r (List.mem_cons_of_mem _ hr)
      -- The rows of the first result come one by one; when they are used up, the stream moves as
      -- the stream of the others does.
      have hfirst : ∀ (rows : List Row) (r : ResultCursor) (state : StreamState),
          r.rows.rest = rows → r.Uninterrupted →
          Delivers (⟨r :: results, state⟩ : StreamCursor)
            (rows ++ results.flatMap (·.rows.rest)) := by
        intro rows
        induction rows with
        | nil =>
            intro r state hr hun
            apply (hlater state).congr_next
            have hadvance : r.next.1 = .ok false := by
              rw [hun.next, RowCursor.advance, hr]
            have hnext : r.next = (.ok false, r.next.2) := Prod.ext hadvance rfl
            rw [next_eq, next_eq]
            show advance state results = advance state (r :: results)
            rw [advance, hnext]
        | cons row rows ihrows =>
            intro r state hr hun
            have hrnext : r.next = (.ok true, { r with rows := ⟨.onRow row, rows⟩ }) := by
              rw [hun.next, RowCursor.advance, hr]
            have hnext : Cursor.next (⟨r :: results, state⟩ : StreamCursor) =
                (.ok true, ⟨{ r with rows := ⟨.onRow row, rows⟩ } :: results, .onRow⟩) := by
              rw [next_eq]
              show advance state (r :: results) = _
              rw [advance, hrnext]
            rw [List.cons_append, Delivers, hnext]
            refine ⟨rfl, fun _ => rfl, ?_⟩
            apply ihrows
            · rfl
            · exact hun
      exact hfirst result.rows.rest result state rfl (hresults result List.mem_cons_self)

end StreamCursor

/-! ## Visible columns -/

/-- A row as the sender of a statement sees it: the visible cells, each through its mask. -/
def ColumnMasks.shown (masks : ColumnMasks) (visible : Nat) (row : Row) : Row :=
  (row.take visible).mapIdx masks.apply

/-- The sender of a statement sees the visible columns of the merged rows through the masks. -/
theorem MergedResult.delivers {r : MergedResult} {rows : List Row} (hwide : Wide r.width rows)
    (h : Delivers r.cursor.inner rows) :
    Delivers r (rows.map (r.cursor.masks.shown r.width)) := by
  have himage := h.image
    (fun inner => ({ r with cursor := { r.cursor with inner } } : MergedResult))
    (r.cursor.masks.shown r.width) (fun _ => rfl) (by
      intro inner row hmem hrow column
      have hlength : (r.cursor.masks.shown r.width row).length = r.width := by
        simp [ColumnMasks.shown, hwide row hmem]
      show (if r.width ≤ column then .error (.columnRange column r.width)
        else (Cursor.cell inner column).map (r.cursor.masks.apply column)) = _
      by_cases hcolumn : r.width ≤ column
      · have hnone : (r.cursor.masks.shown r.width row)[column]? = none :=
          List.getElem?_eq_none (by omega)
        rw [if_pos hcolumn, Position.cell, hnone, hlength]
      · have hlt : column < row.length := by
          have := hwide row hmem
          omega
        rw [if_neg hcolumn, hrow column]
        simp [Position.cell, ColumnMasks.shown, Except.map, List.getElem?_mapIdx,
          List.getElem?_take_of_lt (Nat.lt_of_not_le hcolumn), List.getElem?_eq_getElem hlt])
  exact himage

/-- Draining merged rows yields them as their sender sees them. -/
theorem MergedResult.rows_eq {r : MergedResult} {rows : List Row} (hwide : Wide r.width rows)
    (hbound : rows.length ≤ bound r) (h : Delivers r.cursor.inner rows) :
    r.rows.1 = .ok (rows.map (r.cursor.masks.shown r.width)) := by
  have hlength : ∀ row ∈ rows, (r.cursor.masks.shown r.width row).length = r.width := by
    intro row hrow
    simp [ColumnMasks.shown, hwide row hrow]
  have hwideShown : Wide r.width (rows.map (r.cursor.masks.shown r.width)) := by
    intro shown hshown
    rcases List.mem_map.mp hshown with ⟨row, hrow, rfl⟩
    exact Nat.le_of_eq (hlength row hrow).symm
  have hboundShown : (rows.map (r.cursor.masks.shown r.width)).length ≤ bound r := by
    rwa [List.length_map]
  rw [MergedResult.rows, (delivers hwide h).rows hwideShown hboundShown, List.map_map]
  refine congrArg Except.ok (List.map_congr_left fun row hrow => ?_)
  exact List.take_of_length_le (Nat.le_of_eq (hlength row hrow))

end ShardedSql
