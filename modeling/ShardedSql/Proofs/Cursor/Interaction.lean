import ShardedSql.Proofs.Cursor.Paged

/-!
# Interaction with cursors

Whoever holds a cursor moves it and reads visible cells of it in whatever order.  A cursor refines
a list of rows when it answers every such sequence of requests as the list does.  A list is before
its first row until it is moved, stands on one row after the other, and has come to an end for ever
after the last one.

Main results:

- Theorem `answers_wrap`: a wrapper answers as its inside does.
- Theorem `Lists.refines`: a cursor refines the rows it delivers, if it says where it stands before
  and after them.
- Theorems `RowCursor.lists`, `ResultCursor.lists` and `StreamCursor.lists`: rows in memory and
  results in memory, alone or one after the other.
- Theorems `Lists.page` and `MergedResult.lists`: the page of a list, and what its sender sees of
  it.
-/

namespace ShardedSql

/-! ## Requests and answers -/

/-- What is asked of a cursor with a number of visible columns. -/
inductive Request (width : Nat) where
  | move
  | read (column : Fin width)
  deriving DecidableEq, Repr

/-- What a cursor answers to a request. -/
inductive Answer where
  | moved (found : Except Fault Bool)
  | cell (content : Except Fault Cell)
  deriving Repr

/-- Where a list of rows stands after a number of moves. -/
def standing (rows : List Row) : Nat → Position
  | 0 => .beforeFirst
  | moves + 1 =>
      match rows[moves]? with
      | some row => .onRow row
      | none => .afterLast

/-- After a move to a row the list stands on it. -/
theorem standing_of_row {rows : List Row} {n : Nat} {row : Row} (h : rows[n]? = some row) :
    standing rows (n + 1) = .onRow row := by
  rw [standing, h]

/-- After more moves than rows the list is at its end. -/
theorem standing_of_length_lt {rows : List Row} {n : Nat} (h : rows.length < n) :
    standing rows n = .afterLast := by
  cases n with
  | zero => exact absurd h (Nat.not_lt_zero _)
  | succ n => rw [standing, List.getElem?_eq_none (Nat.le_of_lt_succ h)]

/-- What a list of rows answers that has been moved so many times. -/
def listAnswers {width : Nat} (rows : List Row) : Nat → List (Request width) → List Answer
  | _, [] => []
  | moves, .move :: requests =>
      .moved (.ok (decide (moves < rows.length))) :: listAnswers rows (moves + 1) requests
  | moves, .read column :: requests =>
      .cell ((standing rows moves).cell column) :: listAnswers rows moves requests

namespace Cursor

variable {σ τ : Type} [Cursor σ] [Cursor τ]

/-- What a cursor answers to requests in turn. -/
def answers {width : Nat} : List (Request width) → σ → List Answer
  | [], _ => []
  | .move :: requests, s => .moved (next s).1 :: answers requests (next s).2
  | .read column :: requests, s => .cell (cell s column) :: answers requests s

/-- The cursor answers every sequence of requests as a list of rows does. -/
def Refines (width : Nat) (s : σ) (rows : List Row) : Prop :=
  ∀ requests : List (Request width), answers requests s = listAnswers rows 0 requests

/-! ## Moves in a row -/

/-- A cursor after a number of moves, whatever they have come to. -/
def after : Nat → σ → σ
  | 0, s => s
  | n + 1, s => after n (next s).2

/-- Moves are made one after the other. -/
theorem after_add (m n : Nat) (s : σ) : after (m + n) s = after n (after m s) := by
  induction m generalizing s with
  | zero => rw [Nat.zero_add, after]
  | succ m ih => rw [Nat.succ_add, after, after, ih]

/-- The last of several moves comes after the others. -/
theorem after_succ (n : Nat) (s : σ) : after (n + 1) s = (next (after n s)).2 :=
  after_add n 1 s

/-- A wrapper that moves as its inside does. -/
theorem after_wrap (wrap : σ → τ) (hnext : ∀ s, next (wrap s) = wrapMove wrap (next s)) (n : Nat)
    (s : σ) : after n (wrap s) = wrap (after n s) := by
  induction n generalizing s with
  | zero => rfl
  | succ n ih =>
      rw [after, hnext]
      exact ih (next s).2

/-- A wrapper with the moves and the visible cells of its inside answers as its inside does. -/
theorem answers_wrap {width : Nat} (wrap : σ → τ)
    (hnext : ∀ s, next (wrap s) = wrapMove wrap (next s))
    (hcell : ∀ s, ∀ column < width, cell (wrap s) column = cell s column)
    (requests : List (Request width)) (s : σ) : answers requests (wrap s) = answers requests s := by
  induction requests generalizing s with
  | nil => rfl
  | cons request requests ih =>
      cases request with
      | move =>
          rw [answers, answers, hnext]
          exact congrArg (Answer.moved (next s).1 :: ·) (ih (next s).2)
      | read column => rw [answers, answers, hcell s column column.isLt, ih]

namespace Delivers

variable {s : σ} {rows : List Row}

/-- Up to the end of the rows each move finds one. -/
theorem next_after (h : Delivers s rows) {n : Nat} (hn : n ≤ rows.length) :
    (next (after n s)).1 = .ok (decide (n < rows.length)) := by
  induction n generalizing s rows with
  | zero =>
      cases rows with
      | nil => exact h
      | cons row rows => exact h.1
  | succ n ih =>
      cases rows with
      | nil => exact absurd hn (Nat.not_succ_le_zero n)
      | cons row rows =>
          have hrest := ih h.2.2 (Nat.le_of_succ_le_succ hn)
          rw [after, hrest, List.length_cons]
          simp only [Nat.add_lt_add_iff_right]

/-- A move that finds a row stands on it. -/
theorem shows_after (h : Delivers s rows) {n : Nat} {row : Row} (hrow : rows[n]? = some row) :
    Shows (after (n + 1) s) row := by
  induction n generalizing s rows with
  | zero =>
      cases rows with
      | nil => cases hrow
      | cons first rows =>
          cases hrow
          exact h.2.1
  | succ n ih =>
      cases rows with
      | nil => cases hrow
      | cons first rows => exact ih h.2.2 hrow

end Delivers

/-! ## Cursors that behave as lists -/

/-- The cursor has come to an end: it does not move any more and has no current row. -/
structure Ended (width : Nat) (s : σ) : Prop where
  move : next s = (.ok false, s)
  cell : ∀ column < width, Cursor.cell s column = .error (.position .exhausted)

/-- A cursor that has ended stays as it is. -/
theorem Ended.after_eq {width : Nat} {s : σ} (h : Ended width s) (n : Nat) : after n s = s := by
  induction n with
  | zero => rfl
  | succ n ih => rw [after, h.move, ih]

/-- The cursor says where it stands: before the rows it delivers, on one of them, or after them. -/
structure Lists (width : Nat) (s : σ) (rows : List Row) : Prop where
  fresh : ∀ column < width, cell s column = .error (.position .notStarted)
  delivers : Delivers s rows
  ended : Ended width (after (rows.length + 1) s)

/-- A cursor whose moves end it when they find no row. -/
theorem lists_of_ends {width : Nat} {s : σ} {rows : List Row}
    (hends : ∀ s : σ, (next s).1 = .ok false → Ended width (next s).2)
    (hfresh : ∀ column < width, cell s column = .error (.position .notStarted))
    (hdelivers : Delivers s rows) : Lists width s rows := by
  refine ⟨hfresh, hdelivers, ?_⟩
  have hlast := hdelivers.next_after (Nat.le_refl rows.length)
  rw [after_succ]
  apply hends
  rw [hlast, decide_eq_false (Nat.lt_irrefl _)]

namespace Lists

variable {width : Nat} {s : σ} {rows : List Row}

/-- A move finds a row as long as there are any. -/
theorem next_after (h : Lists width s rows) (n : Nat) :
    (next (after n s)).1 = .ok (decide (n < rows.length)) := by
  rcases Nat.le_total n rows.length with hn | hn
  · exact h.delivers.next_after hn
  · rcases Nat.eq_or_lt_of_le hn with rfl | hbehind
    · exact h.delivers.next_after (Nat.le_refl _)
    · rcases Nat.exists_eq_add_of_lt hbehind with ⟨more, rfl⟩
      rw [Nat.add_right_comm, after_add, h.ended.after_eq, h.ended.move]
      rw [decide_eq_false (by omega)]

/-- The cells are those of the list after as many moves. -/
theorem cell_after (h : Lists width s rows) (n : Nat) {column : Nat} (hcolumn : column < width) :
    cell (after n s) column = (standing rows n).cell column := by
  cases n with
  | zero => exact h.fresh column hcolumn
  | succ n =>
      cases hrow : rows[n]? with
      | some row =>
          rw [standing_of_row hrow]
          exact h.delivers.shows_after hrow column
      | none =>
          have hbehind : rows.length ≤ n := List.getElem?_eq_none_iff.mp hrow
          rw [standing_of_length_lt (Nat.lt_succ_of_le hbehind)]
          rcases Nat.exists_eq_add_of_le hbehind with ⟨more, rfl⟩
          rw [Nat.add_right_comm, after_add, h.ended.after_eq]
          exact h.ended.cell column hcolumn

/-- However moves and reads follow each other, the answers are those of the list. -/
theorem answers_after (h : Lists width s rows) (requests : List (Request width)) (n : Nat) :
    answers requests (after n s) = listAnswers rows n requests := by
  induction requests generalizing n with
  | nil => rfl
  | cons request requests ih =>
      cases request with
      | move => rw [answers, listAnswers, h.next_after, ← after_succ, ih]
      | read column => rw [answers, listAnswers, h.cell_after n column.isLt, ih]

/-- A cursor that says where it stands refines the rows it delivers. -/
theorem refines (h : Lists width s rows) : Refines width s rows :=
  fun requests => h.answers_after requests 0

/-- A wrapper that moves as its inside does and passes its errors on behaves as a list when it
delivers one of the same length. -/
theorem image (h : Lists width s rows) (wrap : σ → τ)
    (hnext : ∀ s, next (wrap s) = wrapMove wrap (next s))
    (herror : ∀ s, ∀ column < width, ∀ e, cell s column = .error e →
      cell (wrap s) column = .error e)
    {images : List Row} (hlength : images.length = rows.length)
    (hdelivers : Delivers (wrap s) images) : Lists width (wrap s) images := by
  refine ⟨fun column hcolumn => herror s column hcolumn _ (h.fresh column hcolumn), hdelivers,
    ?_⟩
  rw [hlength, after_wrap wrap hnext]
  refine ⟨?_, fun column hcolumn => herror _ column hcolumn _ (h.ended.cell column hcolumn)⟩
  rw [hnext, h.ended.move]
  rfl

/-- A wrapper with the moves and the cells of its inside. -/
theorem wrap (h : Lists width s rows) (wrap : σ → τ)
    (hnext : ∀ s, next (wrap s) = wrapMove wrap (next s))
    (hcell : ∀ s column, cell (wrap s) column = cell s column) : Lists width (wrap s) rows :=
  h.image wrap hnext (fun s column _ _ he => (hcell s column).trans he) rfl
    (h.delivers.wrap wrap hnext hcell)

end Lists

end Cursor

open Cursor

/-! ## Rows and results in memory -/

/-- Rows in memory behave as their list. -/
theorem RowCursor.lists (width : Nat) (rows : List Row) :
    Lists width (RowCursor.ofRows rows) rows := by
  refine lists_of_ends ?_ (fun _ _ => rfl) (RowCursor.delivers .beforeFirst rows)
  rintro ⟨position, rest⟩ hend
  cases rest with
  | nil => exact ⟨rfl, fun _ _ => rfl⟩
  | cons row rest => cases hend

/-- A result in memory behaves as the list of its rows. -/
theorem ResultCursor.lists (width : Nat) (columns : List Column) (rows : List Row) :
    Lists width (ResultCursor.ofRows columns rows) rows :=
  (RowCursor.lists width rows).wrap
    (fun rows => ({ columns, rows } : ResultCursor)) (fun _ => rfl) (fun _ _ => rfl)

namespace StreamCursor

/-- A stream that finds no row has ended. -/
theorem ended_of_next (width : Nat) {c : StreamCursor} (h : (Cursor.next c).1 = .ok false) :
    Ended width (Cursor.next c).2 := by
  rcases c with ⟨results, state⟩
  rw [next_eq] at h ⊢
  show Ended width (advance state results).2
  change (advance state results).1 = .ok false at h
  induction results with
  | nil => exact ⟨rfl, fun _ _ => rfl⟩
  | cons result results ih =>
      rw [advance] at h ⊢
      cases hmove : result.next with
      | mk found moved =>
          rw [hmove] at h
          rcases found with e | found
          · cases h
          · cases found with
            | true => cases h
            | false => exact ih h

/-- Results that are not interrupted behave, one after the other, as the list of all their rows. -/
theorem lists (width : Nat) {results : List ResultCursor}
    (hresults : ∀ r ∈ results, r.Uninterrupted) :
    Lists width (StreamCursor.ofResults results) (results.flatMap (·.rows.rest)) :=
  lists_of_ends (fun _ => ended_of_next width) (fun _ _ => rfl) (delivers hresults .beforeFirst)

end StreamCursor

/-! ## Pages and visible columns -/

namespace Paged

variable {σ : Type} [Cursor σ]

/-- A page that is exhausted has ended. -/
theorem ended_of_exhausted (width : Nat) {p : Paged σ} (h : p.exhausted = true) :
    Ended width p := by
  refine ⟨?_, fun column _ => ?_⟩
  · show p.next = _
    rw [Paged.next, if_pos h]
  · show p.cell column = _
    rw [Paged.cell, if_pos h]

/-- A page that delivers nothing has ended then. -/
theorem ended_of_deliver (width : Nat) {p : Paged σ} (h : p.deliver.1 = .ok false) :
    Ended width p.deliver.2 := by
  unfold deliver at h ⊢
  by_cases hfull : p.isFull = true
  · rw [if_pos hfull]
    exact ended_of_exhausted width rfl
  · rw [if_neg hfull] at h ⊢
    match Cursor.next p.inner, h with
    | (.ok false, _), _ => exact ended_of_exhausted width rfl

/-- A page that finds no row has ended. -/
theorem ended_of_next (width : Nat) {p : Paged σ} (h : (Cursor.next p).1 = .ok false) :
    Ended width (Cursor.next p).2 := by
  change p.next.1 = .ok false at h
  show Ended width p.next.2
  unfold Paged.next at h ⊢
  by_cases hexhausted : p.exhausted = true
  · rw [if_pos hexhausted]
    exact ended_of_exhausted width hexhausted
  · rw [if_neg hexhausted] at h ⊢
    by_cases hskipped : p.skipped = true
    · rw [if_pos hskipped] at h ⊢
      exact ended_of_deliver width h
    · rw [if_neg hskipped] at h ⊢
      match skip p.page.offset.toNat p.inner, h with
      | (.ok false, _), _ => exact ended_of_exhausted width rfl
      | (.ok true, _), h => exact ended_of_deliver width h

end Paged

/-- The page of a list behaves as its slice. -/
theorem Cursor.Lists.page {σ : Type} [Cursor σ] {width : Nat} {inner : σ} {rows : List Row}
    (h : Lists width inner rows) (page : Page) :
    Lists width ({ inner, page } : Paged σ) (page.slice rows) :=
  lists_of_ends (fun _ => Paged.ended_of_next width) h.fresh (Paged.delivers page h.delivers)

/-- The sender of a statement sees a list through the masks, cut to the visible columns. -/
theorem MergedResult.lists {r : MergedResult} {rows : List Row} (hwide : Wide r.width rows)
    (h : Lists r.width r.cursor.inner rows) :
    Lists r.width r (rows.map (r.cursor.masks.shown r.width)) := by
  refine h.image (fun inner => ({ r with cursor := { r.cursor with inner } } : MergedResult))
    (fun _ => rfl) ?_ (List.length_map _) (MergedResult.delivers hwide h.delivers)
  intro inner column hcolumn e he
  show (if r.width ≤ column then .error (.columnRange column r.width)
    else (Cursor.cell inner column).map (r.cursor.masks.apply column)) = _
  rw [if_neg (Nat.not_le.mpr hcolumn), he]
  rfl

end ShardedSql
