import ShardedSql.Proofs.Cursor.FailedMoves

/-!
# Pages of cursors that fail

A page skips rows at its first move and delivers rows at the later ones.  A move of the cursor that
fails while rows are delivered is made again at the next move of the page.  Skipping is not taken up
again: when a move fails in the midst of it, the page is cut from the rows behind the failure.

Main results:

- Theorem `Meets.skip_cases`: how far skipping gets among the outcomes of the moves.
- Theorem `Paged.Delivering.yields`: in the phase of delivery moves may fail.
- Theorem `Paged.yields_cases`: a page is found, or cut from the rows behind a fault.
- Theorem `Paged.yields_slice_iff`: when the rows of a page are found although moves fail.
-/

namespace ShardedSql

open Cursor

/-- The rows of a page that are kept when the skipped ones are behind. -/
def Page.kept {α : Type} (p : Page) (rows : List α) : List α :=
  p.rowCount.elim rows fun n => rows.take n.toNat

/-- A slice is what is kept behind the skipped rows. -/
theorem Page.slice_eq_kept {α : Type} (p : Page) (rows : List α) :
    p.slice rows = p.kept (rows.drop p.offset.toNat) := by
  unfold Page.slice Page.kept
  cases p.rowCount <;> rfl

theorem Page.kept_nil {α : Type} (p : Page) : p.kept ([] : List α) = [] := by
  unfold Page.kept
  cases p.rowCount <;> simp

namespace Cursor

variable {σ : Type} [Cursor σ]

/-- Rows that are found come first. -/
theorem rowsFound_append_ok (rows : List Row) (outcomes : List (Except Fault Row)) :
    rowsFound (rows.map .ok ++ outcomes) = rows ++ rowsFound outcomes := by
  induction rows with
  | nil => rfl
  | cons row rows ih => rw [List.map_cons, List.cons_append, rowsFound_ok, ih, List.cons_append]

theorem rowsFound_map_ok (rows : List Row) : rowsFound (rows.map .ok) = rows := by
  have happend := rowsFound_append_ok rows []
  rw [List.append_nil] at happend
  exact happend.trans (List.append_nil rows)

/-- Skipping gets past as many rows, comes to the end of the rows, or stops at the first move that
fails. -/
theorem Meets.skip_cases (n : Nat) {s : σ} {outcomes : List (Except Fault Row)}
    (h : Meets s outcomes) :
    (∃ (rows : List Row) (later : List (Except Fault Row)),
      outcomes = rows.map .ok ++ later ∧ rows.length = n ∧
      (skip n s).1 = .ok true ∧ Meets (skip n s).2 later) ∨
    (∃ rows : List Row, outcomes = rows.map .ok ∧ rows.length < n ∧ (skip n s).1 = .ok false) ∨
    ∃ (rows : List Row) (e : Fault) (later : List (Except Fault Row)),
      outcomes = rows.map .ok ++ .error e :: later ∧ rows.length < n ∧
      (skip n s).1 = .error e ∧ Meets (skip n s).2 later := by
  induction n generalizing s outcomes with
  | zero => exact .inl ⟨[], outcomes, rfl, rfl, rfl, h⟩
  | succ n ih =>
      cases outcomes with
      | nil =>
          have hnext : next s = (.ok false, (next s).2) := Prod.ext h rfl
          have hskip : skip (n + 1) s = (.ok false, (next s).2) := by
            rw [skip, hnext]
          exact .inr (.inl ⟨[], rfl, Nat.zero_lt_succ n, congrArg Prod.fst hskip⟩)
      | cons outcome outcomes =>
          cases outcome with
          | error e =>
              have hnext : next s = (.error e, (next s).2) := Prod.ext h.1 rfl
              have hskip : skip (n + 1) s = (.error e, (next s).2) := by
                rw [skip, hnext]
              refine .inr (.inr ⟨[], e, outcomes, rfl, Nat.zero_lt_succ n, ?_⟩)
              rw [hskip]
              exact ⟨rfl, h.2⟩
          | ok row =>
              have hnext : next s = (.ok true, (next s).2) := Prod.ext h.1 rfl
              have hskip : skip (n + 1) s = skip n (next s).2 := by
                rw [skip, hnext]
              rw [hskip]
              rcases ih h.2.2 with ⟨rows, later, rfl, hlength, hskipped⟩ |
                ⟨rows, rfl, hlength, hended⟩ | ⟨rows, e, later, rfl, hlength, hfailed⟩
              · exact .inl ⟨row :: rows, later, rfl, congrArg (· + 1) hlength, hskipped⟩
              · exact .inr (.inl ⟨row :: rows, rfl, Nat.succ_lt_succ hlength, hended⟩)
              · exact .inr (.inr ⟨row :: rows, e, later, rfl, Nat.succ_lt_succ hlength, hfailed⟩)

/-- Rows that are found without a fault come before the first fault. -/
theorem rows_before_failure {rows rows' : List Row} {e : Fault}
    {later later' : List (Except Fault Row)}
    (h : rows.map .ok ++ later = rows'.map .ok ++ .error e :: later') :
    ∃ more : List Row, rows' = rows ++ more ∧ later = more.map .ok ++ .error e :: later' := by
  induction rows generalizing rows' with
  | nil => exact ⟨rows', rfl, h⟩
  | cons row rows ih =>
      cases rows' with
      | nil => simp at h
      | cons row' rows' =>
          simp only [List.map_cons, List.cons_append, List.cons.injEq, Except.ok.injEq] at h
          rcases ih h.2 with ⟨more, rfl, hlater⟩
          exact ⟨more, by rw [h.1, List.cons_append], hlater⟩

end Cursor

namespace Paged

variable {σ : Type}

/-- Nothing of a page is behind before its first row. -/
theorem remaining_eq_kept {p : Paged σ} (h : p.returned = 0) (rows : List Row) :
    p.remaining rows = p.page.kept rows := by
  unfold remaining Page.kept
  rw [h]
  cases p.page.rowCount <;> rfl

variable [Cursor σ]

/-- In the phase of delivery as many rows are found as are left of the page, whatever moves fail. -/
theorem Delivering.yields {p : Paged σ} (h : p.Delivering) {rows : List Row}
    (hinner : Yields p.inner rows) : Yields p (p.remaining rows) := by
  rcases hinner with ⟨outcomes, hmeets, rfl⟩
  induction outcomes generalizing p with
  | nil =>
      have hends : Delivers p.inner [] := hmeets
      exact (h.delivers hends).yields
  | cons outcome outcomes ih =>
      cases hfull : p.isFull with
      | true =>
          rw [remaining_of_isFull hfull]
          refine .ended ?_
          rw [h.next, deliver, if_pos hfull]
          rfl
      | false =>
          have hroom : ¬ p.isFull = true := by simp [hfull]
          cases outcome with
          | error e =>
              -- Nothing is counted, so that the page is left as it was.
              have hmove : Cursor.next p.inner = (.error e, (Cursor.next p.inner).2) :=
                Prod.ext hmeets.1 rfl
              have hnext : Cursor.next p =
                  (.error e, { p with inner := (Cursor.next p.inner).2 }) := by
                rw [h.next, deliver, if_neg hroom, hmove]
              refine .failed (congrArg Prod.fst hnext) ?_
              rw [hnext]
              exact ih (p := { p with inner := (Cursor.next p.inner).2 })
                ⟨h.skipped, h.exhausted⟩ hmeets.2
          | ok row =>
              have hmove : Cursor.next p.inner = (.ok true, (Cursor.next p.inner).2) :=
                Prod.ext hmeets.1 rfl
              have hnext : Cursor.next p = (.ok true, { p with
                  inner := (Cursor.next p.inner).2, returned := p.returned + 1 }) := by
                rw [h.next, deliver, if_neg hroom, hmove]
              rw [rowsFound_ok, remaining_cons hfull (Cursor.next p.inner).2]
              refine .found (congrArg Prod.fst hnext) ?_ ?_
              · intro column
                rw [hnext]
                show Paged.cell _ column = _
                simp only [Paged.cell, h.exhausted, Bool.false_eq_true, if_false]
                exact hmeets.2.1 column
              · rw [hnext]
                exact ih (p := { p with
                    inner := (Cursor.next p.inner).2, returned := p.returned + 1 })
                  ⟨h.skipped, h.exhausted⟩ hmeets.2.2

/-- A page is found unless a move fails while rows are skipped.  Skipping counts as done then, and
the page is cut from the rows behind. -/
theorem yields_cases (page : Page) {inner : σ} {outcomes : List (Except Fault Row)}
    (h : Meets inner outcomes) :
    (Yields ({ inner, page } : Paged σ) (page.slice (rowsFound outcomes)) ∧
      ∀ (rows : List Row) (e : Fault) (later : List (Except Fault Row)),
        outcomes = rows.map .ok ++ .error e :: later → page.offset.toNat ≤ rows.length) ∨
    ∃ (rows : List Row) (e : Fault) (later : List (Except Fault Row)),
      outcomes = rows.map .ok ++ .error e :: later ∧ rows.length < page.offset.toNat ∧
      Yields ({ inner, page } : Paged σ) (page.kept (rowsFound later)) := by
  let p : Paged σ := { inner := (skip page.offset.toNat inner).2, page, skipped := true }
  have hphase : p.Delivering := ⟨rfl, rfl⟩
  have hkept : ∀ rows, p.remaining rows = page.kept rows := remaining_eq_kept rfl
  rcases Meets.skip_cases page.offset.toNat h with
    ⟨skipped, later, rfl, hlength, hskip, hlater⟩ | ⟨found, rfl, hlength, hskip⟩ |
    ⟨found, e, later, rfl, hlength, hskip, hlater⟩
  · have hslice : page.slice (rowsFound (skipped.map .ok ++ later)) =
        p.remaining (rowsFound later) := by
      rw [hkept, Page.slice_eq_kept, rowsFound_append_ok, ← hlength, List.drop_left]
    refine .inl ⟨?_, fun rows e later' heq => ?_⟩
    · rw [hslice]
      exact (hphase.yields ⟨later, hlater, rfl⟩).congr_next (next_of_skip_true hskip).symm
    · rcases rows_before_failure heq with ⟨more, rfl, -⟩
      rw [← hlength, List.length_append]
      exact Nat.le_add_right _ _
  · refine .inl ⟨?_, fun rows e later' heq => ?_⟩
    · rw [Page.slice_eq_kept, rowsFound_map_ok, List.drop_eq_nil_of_le (Nat.le_of_lt hlength),
        Page.kept_nil]
      exact .ended (next_of_skip_false hskip)
    · rw [← List.append_nil (found.map _)] at heq
      rcases rows_before_failure heq with ⟨more, -, hmore⟩
      simp at hmore
  · refine .inr ⟨found, e, later, rfl, hlength, ?_⟩
    have hnext := next_of_skip_error hskip
    refine .failed (congrArg Prod.fst hnext) ?_
    rw [hnext, ← hkept]
    exact hphase.yields ⟨later, hlater, rfl⟩

/-- A page is found although moves fail, exactly if no move fails while rows are skipped, or the
rows behind the first one that does happen to start with the page. -/
theorem yields_slice_iff (page : Page) {inner : σ} {outcomes : List (Except Fault Row)}
    (h : Meets inner outcomes) :
    Yields ({ inner, page } : Paged σ) (page.slice (rowsFound outcomes)) ↔
      ∀ (rows : List Row) (e : Fault) (later : List (Except Fault Row)),
        outcomes = rows.map .ok ++ .error e :: later → rows.length < page.offset.toNat →
          page.kept (rowsFound later) = page.slice (rowsFound outcomes) := by
  rcases yields_cases page h with ⟨hslice, hbehind⟩ | ⟨found, e, later, rfl, hshort, hkept⟩
  · refine iff_of_true hslice fun rows e later heq hshort => ?_
    exact absurd (hbehind rows e later heq) (Nat.not_le_of_lt hshort)
  · constructor
    · -- The first fault is where it is, so that `later` is the rest behind it.
      intro hslice rows e' later' heq _
      rcases rows_before_failure heq with ⟨more, rfl, hmore⟩
      cases more with
      | nil =>
          rw [List.map_nil, List.nil_append, List.cons.injEq] at hmore
          rw [← hmore.2]
          exact hkept.unique hslice
      | cons row more => simp at hmore
    · intro hsame
      rw [← hsame found e later rfl hshort]
      exact hkept

/-- Three rows.  The moves to the second and to the third one fail at first. -/
def laggingRows : ResultCursor :=
  { columns := [⟨"k", "k"⟩], rows := .ofRows [[.int 1], [.int 2], [.int 3]]
    interruptions := [none, some (.internal "lost"), none, some (.internal "lost")] }

/-- The second and the third row of `laggingRows` are found. -/
theorem yields_slice_iff_laggingRows :
    Meets laggingRows [.ok [.int 1], .error (.internal "lost"), .ok [.int 2],
      .error (.internal "lost"), .ok [.int 3]] ∧
    Yields ({ inner := laggingRows, page := ⟨1, some 2⟩ } : Paged ResultCursor)
      [[.int 2], [.int 3]] := by
  have hmeets : Meets laggingRows [.ok [.int 1], .error (.internal "lost"), .ok [.int 2],
      .error (.internal "lost"), .ok [.int 3]] :=
    ⟨rfl, fun _ => rfl, rfl, rfl, fun _ => rfl, rfl, rfl, fun _ => rfl, rfl⟩
  refine ⟨hmeets, (yields_slice_iff ⟨1, some 2⟩ hmeets).mpr ?_⟩
  intro rows e later heq hless
  have hnil : rows = [] := List.eq_nil_of_length_eq_zero (Nat.lt_one_iff.mp hless)
  rw [hnil, List.map_nil, List.nil_append, List.cons.injEq] at heq
  cases heq.1

/-- Two rows.  The move to the first one fails at first. -/
def lateRows : ResultCursor :=
  { columns := [⟨"k", "k"⟩], rows := .ofRows [[.int 1], [.int 2]]
    interruptions := [some (.internal "lost")] }

/-- The page of `lateRows` that consists of the second row shows the first one. -/
theorem not_yields_slice_lateRows :
    Meets lateRows [.error (.internal "lost"), .ok [.int 1], .ok [.int 2]] ∧
    Page.slice ⟨1, some 1⟩ [[Cell.int 1], [.int 2]] = [[.int 2]] ∧
    Yields ({ inner := lateRows, page := ⟨1, some 1⟩ } : Paged ResultCursor) [[.int 1]] ∧
    ¬ Yields ({ inner := lateRows, page := ⟨1, some 1⟩ } : Paged ResultCursor) [[.int 2]] := by
  have hfirst : Yields ({ inner := lateRows, page := ⟨1, some 1⟩ } : Paged ResultCursor)
      [[.int 1]] :=
    .failed rfl (.found rfl (fun _ => rfl) (.ended rfl))
  refine ⟨⟨rfl, rfl, fun _ => rfl, rfl, fun _ => rfl, rfl⟩, rfl, hfirst, fun hsecond => ?_⟩
  have hsame := hfirst.unique hsecond
  simp at hsame

end Paged

end ShardedSql
