import ShardedSql.Proofs.Cursor.Comparable

/-!
# Moves that fail

A move of a result may fail and leave the result where it is.  Whoever makes each failed move again
meets rows and faults in turn.  The rows are those of the same results without faults if a cursor
keeps its place: a move that fails changes nothing but the number of faults to come, any other move
is that of the cursor without faults.

Main results:

- Theorem `KeepsPlace.yields`: the rows of a cursor that keeps its place are those it delivers
  without faults.
- Theorems `ResultCursor.keepsPlace`, `StreamCursor.keepsPlace` and `OrderedCursor.keepsPlace`:
  which cursors keep their place.
- Theorem `failedMoves_listsAgain`: results one after the other and results merged by order are
  read to the same end, whatever moves fail.
-/

namespace ShardedSql

namespace Cursor

variable {σ : Type} [Cursor σ]

/-! ## Outcomes of moves -/

/-- The coming moves have the given outcomes in turn, each being a row that is found or a fault.
Then there are no more rows. -/
def Meets : σ → List (Except Fault Row) → Prop
  | s, [] => (next s).1 = .ok false
  | s, .ok row :: outcomes =>
      (next s).1 = .ok true ∧ Shows (next s).2 row ∧ Meets (next s).2 outcomes
  | s, .error e :: outcomes => (next s).1 = .error e ∧ Meets (next s).2 outcomes

/-- The rows among some outcomes. -/
def rowsFound (outcomes : List (Except Fault Row)) : List Row :=
  outcomes.filterMap Except.toOption

/-- Whoever makes each failed move again finds the given rows, and then there are no more. -/
def Yields (s : σ) (rows : List Row) : Prop :=
  ∃ outcomes, Meets s outcomes ∧ rowsFound outcomes = rows

@[simp]
theorem rowsFound_ok (row : Row) (outcomes : List (Except Fault Row)) :
    rowsFound (.ok row :: outcomes) = row :: rowsFound outcomes := rfl

section Steps

variable {s : σ} {row : Row} {rows : List Row}

/-- There are no rows if the move finds none. -/
theorem Yields.ended (h : (next s).1 = .ok false) : Yields s [] :=
  ⟨[], h, rfl⟩

/-- The row that a move finds comes first. -/
theorem Yields.found (h : (next s).1 = .ok true) (hrow : Shows (next s).2 row)
    (hlater : Yields (next s).2 rows) : Yields s (row :: rows) := by
  rcases hlater with ⟨outcomes, hmeets, rfl⟩
  exact ⟨.ok row :: outcomes, ⟨h, hrow, hmeets⟩, rfl⟩

/-- A move that fails is made again. -/
theorem Yields.failed {e : Fault} (h : (next s).1 = .error e) (hlater : Yields (next s).2 rows) :
    Yields s rows := by
  rcases hlater with ⟨outcomes, hmeets, rfl⟩
  exact ⟨.error e :: outcomes, ⟨h, hmeets⟩, rfl⟩

/-- The move after all outcomes finds no row. -/
theorem Meets.next_after {outcomes : List (Except Fault Row)} (h : Meets s outcomes) :
    (next (after outcomes.length s)).1 = .ok false := by
  induction outcomes generalizing s with
  | nil => exact h
  | cons outcome outcomes ih =>
      cases outcome with
      | error e => exact ih h.2
      | ok row => exact ih h.2.2

/-- What is met depends on the coming move only. -/
theorem Meets.congr_next {s' : σ} {outcomes : List (Except Fault Row)} (h : next s = next s')
    (hs : Meets s outcomes) : Meets s' outcomes := by
  match outcomes, hs with
  | [], hs =>
      rw [Meets, h] at hs
      exact hs
  | .ok _ :: _, hs =>
      rw [Meets, h] at hs
      exact hs
  | .error _ :: _, hs =>
      rw [Meets, h] at hs
      exact hs

/-- What is yielded depends on the next move only. -/
theorem Yields.congr_next {s' : σ} (h : next s = next s') (hs : Yields s rows) :
    Yields s' rows := by
  rcases hs with ⟨outcomes, hmeets, hfound⟩
  exact ⟨outcomes, hmeets.congr_next h, hfound⟩

/-- Moves that never fail have no faults among their outcomes. -/
theorem Delivers.yields (h : Delivers s rows) : Yields s rows := by
  induction rows generalizing s with
  | nil => exact .ended h
  | cons row rows ih => exact .found h.1 h.2.1 (ih h.2.2)

/-- A cursor shows one row only. -/
theorem Shows.unique {row' : Row} (h : Shows s row) (h' : Shows s row') : row = row' := by
  refine List.ext_getElem? fun column => ?_
  have hcells : (Position.onRow row).cell column = (Position.onRow row').cell column :=
    (h column).symm.trans (h' column)
  unfold Position.cell at hcells
  cases hx : row[column]? <;> cases hy : row'[column]? <;> simp_all

/-- The coming moves have one list of outcomes only. -/
theorem Meets.unique {outcomes outcomes' : List (Except Fault Row)} (h : Meets s outcomes)
    (h' : Meets s outcomes') : outcomes = outcomes' := by
  induction outcomes generalizing s outcomes' with
  | nil =>
      match outcomes', h' with
      | [], _ => rfl
      | .ok row :: _, h' => exact absurd (h.symm.trans h'.1) (by simp)
      | .error e :: _, h' => exact absurd (h.symm.trans h'.1) (by simp)
  | cons outcome outcomes ih =>
      cases outcome with
      | error e =>
          match outcomes', h' with
          | [], h' => exact absurd (h.1.symm.trans h') (by simp)
          | .ok row :: _, h' => exact absurd (h.1.symm.trans h'.1) (by simp)
          | .error e' :: _, h' => rw [Except.error.inj (h.1.symm.trans h'.1), ih h.2 h'.2]
      | ok row =>
          match outcomes', h' with
          | [], h' => exact absurd (h.1.symm.trans h') (by simp)
          | .ok row' :: _, h' => rw [h.2.1.unique h'.2.1, ih h.2.2 h'.2.2]
          | .error e :: _, h' => exact absurd (h.1.symm.trans h'.1) (by simp)

/-- The rows that are found are determined. -/
theorem Yields.unique {rows' : List Row} (h : Yields s rows) (h' : Yields s rows') :
    rows = rows' := by
  rcases h with ⟨outcomes, hmeets, rfl⟩
  rcases h' with ⟨outcomes', hmeets', rfl⟩
  rw [hmeets.unique hmeets']

end Steps

/-- The cursor behaves as a list to whoever makes each failed move again: it says that it has not
been moved, yields the rows, and has come to an end behind them. -/
structure ListsAgain (width : Nat) (s : σ) (rows : List Row) : Prop where
  fresh : ∀ column < width, cell s column = .error (.position .notStarted)
  /-- The rows are found, and the move that finds no more of them ends the cursor. -/
  yields : ∃ outcomes, Meets s outcomes ∧ rowsFound outcomes = rows ∧
    Ended width (after (outcomes.length + 1) s)

/-! ## Cursors that keep their place -/

/-- A cursor moves as it does without faults, unless a fault is used up and the move can be made
again. -/
structure KeepsPlace (calm : σ → σ) (faults : σ → Nat) : Prop where
  /-- The move is that of the cursor without faults, or one fault less is to come. -/
  move : ∀ s, next (calm s) = ((next s).1, calm (next s).2) ∨
    (∃ e, (next s).1 = .error e) ∧ next (calm (next s).2) = next (calm s) ∧
      faults (next s).2 < faults s
  cell : ∀ s column, cell (calm s) column = cell s column

namespace KeepsPlace

variable {calm : σ → σ} {faults : σ → Nat}

/-- Faults come to an end, so that only other moves have to be looked at. -/
theorem yields_of_moves (h : KeepsPlace calm faults) {s : σ} {rows : List Row}
    (hmoves : ∀ s', next (calm s') = next (calm s) →
      next (calm s') = ((next s').1, calm (next s').2) → Yields s' rows) : Yields s rows := by
  induction hn : faults s using Nat.strongRecOn generalizing s with
  | ind n ih =>
      rcases h.move s with hmove | ⟨⟨e, he⟩, hnext, hless⟩
      · exact hmoves s rfl hmove
      · refine .failed he (ih _ (hn ▸ hless) ?_ rfl)
        intro s' hs'
        exact hmoves s' (hs'.trans hnext)

/-- Whoever makes each failed move again finds the rows that are delivered without faults. -/
theorem yields (h : KeepsPlace calm faults) {s : σ} {rows : List Row}
    (hcalm : Delivers (calm s) rows) : Yields s rows := by
  induction rows generalizing s with
  | nil =>
      refine h.yields_of_moves fun s' hsame hmove => .ended ?_
      rw [hmove] at hsame
      have hend : (next (calm s)).1 = .ok false := hcalm
      rw [← hsame] at hend
      exact hend
  | cons row rows ih =>
      refine h.yields_of_moves fun s' hsame hmove => ?_
      have hmoved := hcalm.congr_next hsame.symm
      rw [Delivers, hmove] at hmoved
      rcases hmoved with ⟨hfound, hrow, hrest⟩
      refine .found hfound (fun column => ?_) (ih hrest)
      rw [← h.cell]
      exact hrow column

/-- A cursor that keeps its place is read to the same end with faults and without. -/
theorem listsAgain (h : KeepsPlace calm faults) {width : Nat} {s : σ} {rows : List Row}
    (hends : ∀ s : σ, (next s).1 = .ok false → Ended width (next s).2)
    (hcalm : Lists width (calm s) rows) : ListsAgain width s rows := by
  rcases h.yields hcalm.delivers with ⟨outcomes, hmeets, hfound⟩
  refine ⟨fun column hcolumn => ?_, outcomes, hmeets, hfound, ?_⟩
  · rw [← h.cell]
    exact hcalm.fresh column hcolumn
  · rw [after_succ]
    exact hends _ hmeets.next_after

end KeepsPlace

end Cursor

open Cursor

/-! ## Results -/

namespace ResultCursor

/-- The result without faults. -/
def calm (r : ResultCursor) : ResultCursor := { r with interruptions := [] }

/-- How many moves will be interrupted at most. -/
def faults (r : ResultCursor) : Nat := r.interruptions.length

/-- A result without its faults is not interrupted. -/
theorem calm_uninterrupted (r : ResultCursor) : r.calm.Uninterrupted := rfl

/-- A move of a result is that of the result without faults, or fails and leaves the result where it
is. -/
theorem next_calm (r : ResultCursor) :
    (∃ found, r.next.1 = .ok found ∧ r.calm.next = (.ok found, r.next.2.calm)) ∨
      ∃ e, r.next.1 = .error e ∧ r.next.2.calm = r.calm ∧ r.next.2.faults < r.faults := by
  unfold next faults
  cases hcoming : r.interruptions with
  | nil => exact .inl ⟨_, rfl, rfl⟩
  | cons coming later =>
      cases coming with
      | none => exact .inl ⟨_, rfl, rfl⟩
      | some e => exact .inr ⟨e, rfl, rfl, Nat.lt_succ_self _⟩

theorem keepsPlace : KeepsPlace calm faults where
  move r := by
    rcases r.next_calm with ⟨found, hfound, hcalm⟩ | ⟨e, he, hcalm, hless⟩
    · left
      show r.calm.next = (r.next.1, r.next.2.calm)
      rw [hfound, hcalm]
    · refine .inr ⟨⟨e, he⟩, ?_, hless⟩
      show r.next.2.calm.next = r.calm.next
      rw [hcalm]
  cell _ _ := rfl

end ResultCursor

/-! ## Results one after the other -/

namespace StreamCursor

/-- The stream without faults. -/
def calm (c : StreamCursor) : StreamCursor := { c with results := c.results.map ResultCursor.calm }

/-- How many moves will be interrupted at most. -/
def faults (c : StreamCursor) : Nat := (c.results.map ResultCursor.faults).foldr (· + ·) 0

/-- A stream keeps its place: it drops a result only when the result has come to its end. -/
theorem keepsPlace : KeepsPlace calm faults where
  move c := by
    rcases c with ⟨results, state⟩
    show advance state (results.map ResultCursor.calm) =
        ((advance state results).1, (advance state results).2.calm) ∨
      (∃ e, (advance state results).1 = .error e) ∧
        Cursor.next (advance state results).2.calm = advance state (results.map ResultCursor.calm) ∧
        (advance state results).2.faults < faults ⟨results, state⟩
    induction results with
    | nil => exact .inl rfl
    | cons r results ih =>
        rw [List.map_cons]
        rcases r.next_calm with ⟨found, hfound, hcalm⟩ | ⟨e, he, hcalm, hless⟩
        · have hnext : r.next = (.ok found, r.next.2) := Prod.ext hfound rfl
          cases found with
          | true =>
              left
              rw [advance, advance, hcalm, hnext]
              rfl
          | false =>
              -- The stream goes on to the other results, with and without faults.
              rw [advance, advance, hcalm, hnext]
              rcases ih with hmove | ⟨herror, hsame, hless⟩
              · exact .inl hmove
              · exact .inr ⟨herror, hsame, Nat.lt_of_lt_of_le hless (Nat.le_add_left _ _)⟩
        · have hnext : r.next = (.error e, r.next.2) := Prod.ext he rfl
          have hadvance : advance state (r :: results) =
              (.error e, ⟨r.next.2 :: results, state⟩) := by
            rw [advance, hnext]
          rw [hadvance]
          refine .inr ⟨⟨e, rfl⟩, ?_, Nat.add_lt_add_right hless _⟩
          show advance state (r.next.2.calm :: results.map ResultCursor.calm) = _
          rw [hcalm]
  cell c column := by
    rcases c with ⟨results, state⟩
    cases state <;> cases results <;> rfl

end StreamCursor

/-! ## Results merged by order -/

namespace OrderedInput

/-- The input without faults. -/
def calm (i : OrderedInput) : OrderedInput := { i with result := i.result.calm }

/-- How many moves will be interrupted at most. -/
def faults (i : OrderedInput) : Nat := i.result.faults

/-- An input advances as its result moves. -/
theorem advance_of_ok {i : OrderedInput} {found : Bool} {r : ResultCursor}
    (h : i.result.next = (.ok found, r)) : i.advance = (.ok (), ⟨r, found⟩) := by
  rw [advance, h]

/-- An input whose result fails to move stays where it is. -/
theorem advance_of_error {i : OrderedInput} {e : Fault} {r : ResultCursor}
    (h : i.result.next = (.error e, r)) : i.advance = (.error e, { i with result := r }) := by
  rw [advance, h]

/-- An input advances as it does without faults, or fails and stands where it stood. -/
theorem advance_calm (i : OrderedInput) :
    i.advance.1 = .ok () ∧ i.calm.advance = (.ok (), i.advance.2.calm) ∨
      (∃ e, i.advance.1 = .error e) ∧ i.advance.2.calm = i.calm ∧
        i.advance.2.faults < i.faults := by
  rcases i.result.next_calm with ⟨found, hfound, hcalm⟩ | ⟨e, he, hcalm, hless⟩
  · left
    rw [advance_of_ok (Prod.ext hfound rfl), advance_of_ok hcalm]
    exact ⟨rfl, rfl⟩
  · right
    rw [advance_of_error (Prod.ext he rfl)]
    refine ⟨⟨e, rfl⟩, ?_, hless⟩
    rw [calm, calm, hcalm]

end OrderedInput

namespace OrderedCursor

/-- The merge without faults. -/
def calm (c : OrderedCursor) : OrderedCursor := { c with inputs := c.inputs.map OrderedInput.calm }

/-- How many moves will be interrupted at most. -/
def faults (c : OrderedCursor) : Nat := (c.inputs.map OrderedInput.faults).foldr (· + ·) 0

/-- One of the inputs advances as it does without faults, or fails and stands where it stood. -/
theorem advanceInput_calm (index : Nat) (inputs : List OrderedInput) :
    (advanceInput index inputs).1 = .ok () ∧
        advanceInput index (inputs.map OrderedInput.calm) =
          (.ok (), (advanceInput index inputs).2.map OrderedInput.calm) ∨
      (∃ e, (advanceInput index inputs).1 = .error e) ∧
        (advanceInput index inputs).2.map OrderedInput.calm = inputs.map OrderedInput.calm ∧
        ((advanceInput index inputs).2.map OrderedInput.faults).foldr (· + ·) 0 <
          (inputs.map OrderedInput.faults).foldr (· + ·) 0 := by
  induction inputs generalizing index with
  | nil =>
      left
      rw [List.map_nil, advanceInput]
      exact ⟨rfl, rfl⟩
  | cons i inputs ih =>
      cases index with
      | zero =>
          rcases i.advance_calm with ⟨hok, hcalm⟩ | ⟨herror, hcalm, hless⟩
          · refine .inl ⟨hok, ?_⟩
            simp only [List.map_cons, advanceInput, hcalm]
          · refine .inr ⟨herror, ?_, Nat.add_lt_add_right hless _⟩
            simp only [List.map_cons, advanceInput, hcalm]
      | succ index =>
          rcases ih index with ⟨hok, hcalm⟩ | ⟨herror, hcalm, hless⟩
          · refine .inl ⟨hok, ?_⟩
            simp only [List.map_cons, advanceInput, hcalm]
          · refine .inr ⟨herror, ?_, Nat.add_lt_add_left hless _⟩
            simp only [List.map_cons, advanceInput, hcalm]

/-- A comparison that fails ends the search. -/
theorem leastFrom_compare_error {c : OrderedCursor} {p best : OrderedInput × Nat}
    (h : p.1.active = true) {e : Fault} (he : c.compareInputs p.1 best.1 = .error e)
    (ps : List (OrderedInput × Nat)) : c.leastFrom (some best) (p :: ps) = .error e := by
  rw [leastFrom]
  simp only [h, he, Bool.not_true, Bool.false_eq_true, if_false, bind, Except.bind]

/-- Faults to come do not change which input is the least. -/
theorem leastFrom_calm (c : OrderedCursor) (best : Option (OrderedInput × Nat))
    (ps : List (OrderedInput × Nat)) :
    c.calm.leastFrom (best.map (Prod.map OrderedInput.calm id))
        (ps.map (Prod.map OrderedInput.calm id)) =
      (c.leastFrom best ps).map (Option.map (Prod.map OrderedInput.calm id)) := by
  induction ps generalizing best with
  | nil => cases best <;> rfl
  | cons p ps ih =>
      rw [List.map_cons]
      cases hactive : p.1.active with
      | false =>
          have hcalm : (Prod.map OrderedInput.calm id p).1.active = false := hactive
          rw [leastFrom_inactive hcalm, leastFrom_inactive hactive, ih]
      | true =>
          have hcalm : (Prod.map OrderedInput.calm id p).1.active = true := hactive
          cases best with
          | none =>
              rw [leastFrom_active hactive, ← ih (some p)]
              exact leastFrom_active hcalm _
          | some b =>
              -- Inputs are compared by the rows they stand on, with and without faults.
              have hsame : c.calm.compareInputs (Prod.map OrderedInput.calm id p).1
                  (Prod.map OrderedInput.calm id b).1 = c.compareInputs p.1 b.1 := rfl
              rw [Option.map_some]
              cases ho : c.compareInputs p.1 b.1 with
              | error e =>
                  rw [leastFrom_compare_error hactive ho,
                    leastFrom_compare_error hcalm (hsame.trans ho)]
                  rfl
              | ok o =>
                  rw [leastFrom_compare hactive ho, leastFrom_compare hcalm (hsame.trans ho),
                    ← ih]
                  split <;> rfl

/-- The least input is the same without faults. -/
theorem least?_calm (c : OrderedCursor) : c.calm.least? = c.least? := by
  have hindices : c.calm.inputs.zipIdx =
      c.inputs.zipIdx.map (Prod.map OrderedInput.calm id) := List.zipIdx_map
  have hleast : c.calm.leastFrom none (c.inputs.zipIdx.map (Prod.map OrderedInput.calm id)) =
      (c.leastFrom none c.inputs.zipIdx).map (Option.map (Prod.map OrderedInput.calm id)) :=
    c.leastFrom_calm none c.inputs.zipIdx
  rw [least?, least?, hindices, hleast]
  rcases c.leastFrom none c.inputs.zipIdx with e | best
  · rfl
  · cases best <;> rfl

/-- Selecting the least row is not concerned with faults of moves. -/
theorem select_calm (c : OrderedCursor) : select c.calm = ((select c).1, (select c).2.calm) := by
  have hleast : least? { c.calm with started := true } = least? { c with started := true } :=
    least?_calm { c with started := true }
  rw [select, select]
  simp only [hleast]
  cases least? { c with started := true } <;> rfl

/-- A merge that stands on an input lets the input advance before it selects a row. -/
theorem next_of_advanceInput {c : OrderedCursor} {index : Nat} (hstarted : c.started = true)
    (hcurrent : c.current = some index) (h : (advanceInput index c.inputs).1 = .ok ()) :
    c.next = select { c with inputs := (advanceInput index c.inputs).2 } := by
  have hadvance : advanceInput index c.inputs = (.ok (), (advanceInput index c.inputs).2) :=
    Prod.ext h rfl
  rw [OrderedCursor.next, if_pos hstarted]
  simp only [hcurrent]
  rw [hadvance]

/-- A merge whose current input fails to advance fails. -/
theorem next_of_advanceInput_error {c : OrderedCursor} {index : Nat} {e : Fault}
    (hstarted : c.started = true) (hcurrent : c.current = some index)
    (h : (advanceInput index c.inputs).1 = .error e) :
    c.next = (.error e, { c with inputs := (advanceInput index c.inputs).2 }) := by
  have hadvance : advanceInput index c.inputs = (.error e, (advanceInput index c.inputs).2) :=
    Prod.ext h rfl
  rw [OrderedCursor.next, if_pos hstarted]
  simp only [hcurrent]
  rw [hadvance]

/-- A move of a merge is that of the merge without faults, or the input of the current row fails to
advance and stays the current one. -/
theorem next_calm (c : OrderedCursor) :
    c.calm.next = (c.next.1, c.next.2.calm) ∨
      (∃ e, c.next.1 = .error e) ∧ c.next.2.calm = c.calm ∧ c.next.2.faults < c.faults := by
  cases hstarted : c.started with
  | false =>
      have hnext : c.next = select c := by
        rw [OrderedCursor.next, if_neg (by simp [hstarted])]
      have hcalm : c.calm.next = select c.calm := by
        rw [OrderedCursor.next, if_neg (by simp [calm, hstarted])]
      left
      rw [hnext, hcalm, select_calm]
  | true =>
      have hcalmStarted : c.calm.started = true := hstarted
      cases hcurrent : c.current with
      | none =>
          have hnext : c.next = (.ok false, c) := by
            simp only [OrderedCursor.next, hstarted, hcurrent, if_true]
          left
          rw [hnext]
          simp only [OrderedCursor.next, calm, hstarted, hcurrent, if_true]
      | some index =>
          have hcalmCurrent : c.calm.current = some index := hcurrent
          rcases advanceInput_calm index c.inputs with ⟨hok, hcalm⟩ | ⟨⟨e, he⟩, hcalm, hless⟩
          · left
            have hcalmOk : (advanceInput index c.calm.inputs).1 = .ok () := congrArg Prod.fst hcalm
            rw [next_of_advanceInput hstarted hcurrent hok,
              next_of_advanceInput hcalmStarted hcalmCurrent hcalmOk, ← select_calm]
            exact congrArg (fun inputs => select { c.calm with inputs }) (congrArg Prod.snd hcalm)
          · right
            rw [next_of_advanceInput_error hstarted hcurrent he]
            refine ⟨⟨e, rfl⟩, ?_, hless⟩
            exact congrArg (fun inputs => { c with inputs }) hcalm

/-- A merge keeps its place: the input of the current row advances when the next row is asked for,
and stays the current one if it cannot. -/
theorem keepsPlace : KeepsPlace calm faults where
  move c := by
    rcases c.next_calm with hmove | ⟨herror, hcalm, hless⟩
    · exact .inl hmove
    · refine .inr ⟨herror, ?_, hless⟩
      show c.next.2.calm.next = c.calm.next
      rw [hcalm]
  cell c column := by
    show c.calm.cell column = c.cell column
    have hinputs : c.calm.inputs = c.inputs.map OrderedInput.calm := rfl
    have hcurrent : c.calm.current = c.current := rfl
    rw [OrderedCursor.cell, OrderedCursor.cell, hinputs, hcurrent]
    cases c.current with
    | none => rfl
    | some index =>
        simp only [Option.bind_some, List.getElem?_map]
        cases c.inputs[index]? <;> rfl

/-- A result whose first move succeeds is started as it is without faults. -/
theorem startInput_calm {r : ResultCursor} (hstart : ∃ found, r.next.1 = .ok found) :
    ∃ i, startInput r = .ok i ∧ startInput r.calm = .ok i.calm := by
  rcases hstart with ⟨found, hfound⟩
  have hnext : r.next = (.ok found, r.next.2) := Prod.ext hfound rfl
  refine ⟨⟨r.next.2, found⟩, by rw [startInput, hnext], ?_⟩
  rcases r.next_calm with ⟨found', hfound', hcalm⟩ | ⟨e, he, -⟩
  · rw [hfound, Except.ok.injEq] at hfound'
    subst hfound'
    rw [startInput, hcalm]
    rfl
  · rw [hfound] at he
    cases he

/-- Results whose first moves succeed are merged as they are without faults. -/
theorem ofResults_calm {results : List ResultCursor} (items : List OrderItem)
    (collation : Collation) (hstart : ∀ r ∈ results, ∃ found, r.next.1 = .ok found) :
    ∃ c, ofResults results items collation = .ok c ∧
      ofResults (results.map ResultCursor.calm) items collation = .ok c.calm := by
  have hinputs : ∃ inputs, results.mapM startInput = .ok inputs ∧
      (results.map ResultCursor.calm).mapM startInput = .ok (inputs.map OrderedInput.calm) := by
    induction results with
    | nil => exact ⟨[], rfl, rfl⟩
    | cons r results ih =>
        rw [List.forall_mem_cons] at hstart
        rcases startInput_calm hstart.1 with ⟨i, hi, hcalm⟩
        rcases ih hstart.2 with ⟨inputs, hinputs, hcalms⟩
        refine ⟨i :: inputs, ?_, ?_⟩
        · rw [List.mapM_cons, hi, hinputs]
          rfl
        · rw [List.map_cons, List.mapM_cons, hcalm, hcalms]
          rfl
  rcases hinputs with ⟨inputs, hinputs, hcalms⟩
  refine ⟨{ items, collation, inputs, current := none, started := false }, ?_, ?_⟩
  · rw [ofResults, hinputs]
    rfl
  · rw [ofResults, hcalms]
    rfl

end OrderedCursor

/-- Results without their faults have the same rows. -/
theorem rows_calm (results : List ResultCursor) :
    (results.map ResultCursor.calm).flatMap (·.rows.rest) = results.flatMap (·.rows.rest) := by
  rw [List.flatMap_map]
  rfl

/-- Results one after the other, and results merged by order, are read to the end by whoever makes
each failed move again: each row is found once, in the order in which it is delivered when nothing
fails, and the end is the same.  The merge by order makes the first moves of its results before it
is there; these have to succeed. -/
theorem failedMoves_listsAgain (width : Nat) (results : List ResultCursor) :
    (Lists width (StreamCursor.ofResults (results.map ResultCursor.calm))
        (results.flatMap (·.rows.rest)) ∧
      ListsAgain width (StreamCursor.ofResults results) (results.flatMap (·.rows.rest))) ∧
    ∀ items collation, Comparable collation items (results.flatMap (·.rows.rest)) →
      (∀ r ∈ results, ∃ found, r.next.1 = .ok found) →
      ∃ c calm rows, OrderedCursor.ofResults results items collation = .ok c ∧
        OrderedCursor.ofResults (results.map ResultCursor.calm) items collation = .ok calm ∧
        rows.Perm (results.flatMap (·.rows.rest)) ∧ Lists width calm rows ∧
        ListsAgain width c rows := by
  have hcalm : ∀ r ∈ results.map ResultCursor.calm, r.Uninterrupted := by
    intro r hr
    rcases List.mem_map.mp hr with ⟨r, -, rfl⟩
    exact r.calm_uninterrupted
  constructor
  · have hlists := StreamCursor.lists width hcalm
    rw [rows_calm] at hlists
    exact ⟨hlists, StreamCursor.keepsPlace.listsAgain
      (s := StreamCursor.ofResults results) (fun _ => StreamCursor.ended_of_next width) hlists⟩
  · intro items collation hcomparable hstart
    rcases OrderedCursor.ofResults_calm items collation hstart with ⟨c, hc, hcalmed⟩
    rw [← rows_calm] at hcomparable
    rcases OrderedCursor.lists_of_comparable width hcalm hcomparable with
      ⟨calm, rows, hcalm, hperm, hlists⟩
    rw [hcalmed, Except.ok.injEq] at hcalm
    subst hcalm
    rw [rows_calm] at hperm
    exact ⟨c, c.calm, rows, hc, hcalmed, hperm, hlists,
      OrderedCursor.keepsPlace.listsAgain (fun _ => OrderedCursor.ended_of_next width) hlists⟩

/-- Two sorted results.  Moves of both of them fail behind the first row. -/
def brokenResults : List ResultCursor :=
  [{ columns := [⟨"k", "k"⟩], rows := .ofRows [[.int 1], [.int 3]]
     interruptions := [none, some (.internal "lost"), some (.internal "lost")] },
    { columns := [⟨"k", "k"⟩], rows := .ofRows [[.int 2]]
      interruptions := [none, some (.internal "lost")] }]

/-- The rows of `brokenResults` are all found. -/
theorem failedMoves_listsAgain_broken :
    (∀ r ∈ brokenResults, ¬ r.NeverFails) ∧
    Comparable .binary [⟨0, .ascending, .first⟩] (brokenResults.flatMap (·.rows.rest)) ∧
    (∀ r ∈ brokenResults, ∃ found, r.next.1 = .ok found) ∧
    ListsAgain 1 (StreamCursor.ofResults brokenResults) [[.int 1], [.int 3], [.int 2]] ∧
    ∃ c rows, OrderedCursor.ofResults brokenResults [⟨0, .ascending, .first⟩] .binary = .ok c ∧
      rows.Perm [[.int 1], [.int 3], [.int 2]] ∧ ListsAgain 1 c rows := by
  have hfails : ∀ r ∈ brokenResults, ¬ r.NeverFails := by
    intro r hr hnever
    simp only [brokenResults, List.mem_cons, List.not_mem_nil, or_false] at hr
    rcases hr with rfl | rfl
    · cases hnever (some (.internal "lost")) (by simp)
    · cases hnever (some (.internal "lost")) (by simp)
  have hcomparable : Comparable .binary [⟨0, .ascending, .first⟩]
      (brokenResults.flatMap (·.rows.rest)) := by
    apply comparable_of_columns
    intro item hitem a ha b hb
    rw [List.mem_singleton.mp hitem]
    have hrows : ∀ row ∈ brokenResults.flatMap (·.rows.rest), ∃ n, row = [.int n] := by
      intro row hrow
      simp only [brokenResults, RowCursor.ofRows, List.flatMap_cons, List.flatMap_nil,
        List.append_nil, List.cons_append, List.nil_append, List.mem_cons, List.not_mem_nil,
        or_false] at hrow
      rcases hrow with rfl | rfl | rfl <;> exact ⟨_, rfl⟩
    rcases hrows a ha with ⟨m, rfl⟩
    rcases hrows b hb with ⟨n, rfl⟩
    exact ⟨.int m, .int n, _, rfl, rfl, rfl⟩
  have hstart : ∀ r ∈ brokenResults, ∃ found, r.next.1 = .ok found := by
    intro r hr
    simp only [brokenResults, List.mem_cons, List.not_mem_nil, or_false] at hr
    rcases hr with rfl | rfl <;> exact ⟨_, rfl⟩
  rcases failedMoves_listsAgain 1 brokenResults with ⟨⟨-, hstream⟩, hordered⟩
  rcases hordered _ _ hcomparable hstart with ⟨c, -, rows, hc, -, hperm, -, hagain⟩
  exact ⟨hfails, hcomparable, hstart, hstream, c, rows, hc, hperm, hagain⟩

end ShardedSql
