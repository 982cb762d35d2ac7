import ShardedSql.Proofs.Cursor.Delivery
import ShardedSql.Proofs.Sorting.SortedInputs
import ShardedSql.Proofs.Sorting.SortedRows

/-!
# The ordered merge

The inputs of an ordered merge stand on their least rows that have not been delivered.  A move
takes the first of the least ones, and the input it stems from advances at the move after that.
Each move so splits the undelivered rows as `LeastSplit` describes, which is a step of the stable
sort.

Main results:

- Theorem `OrderedCursor.least?_spec`: which input a move takes its row from.
- Theorem `OrderedCursor.Ready.move`: what a move leaves of the undelivered rows.
- Theorem `OrderedCursor.delivers`: sorted results are delivered as the stable sort of all their
  rows.
- Theorem `OrderedCursor.ofResults_stablySorted`: the same for results in memory, with the order of
  ties and the places of nulls.
-/

namespace ShardedSql

open Cursor

/-! ## Inputs -/

namespace OrderedInput

/-- The rows an input has not delivered, the one it stands on first. -/
def pending (i : OrderedInput) : List Row :=
  match i.active, i.result.rows.position with
  | true, .onRow row => row :: i.result.rows.rest
  | _, _ => []

/-- An input whose moves succeed and that stands on a row while it is active. -/
structure Settled (i : OrderedInput) : Prop where
  uninterrupted : i.result.Uninterrupted
  pending_ne_nil : i.active → i.pending ≠ []

/-- An input with a first row is active and stands on it. -/
theorem standing_of_pending {i : OrderedInput} {row : Row} (h : row ∈ i.pending.head?) :
    i.active = true ∧ i.result.rows.position = .onRow row ∧
      i.pending = row :: i.result.rows.rest := by
  unfold pending at h ⊢
  cases hactive : i.active <;> cases hposition : i.result.rows.position <;> simp_all

/-- An input without rows is not active. -/
theorem active_eq_false {i : OrderedInput} (hi : i.Settled) (h : i.pending = []) :
    i.active = false := by
  cases hactive : i.active with
  | false => rfl
  | true => exact absurd h (hi.pending_ne_nil hactive)

/-- A result moved to its next row. -/
def ofMove (r : ResultCursor) : OrderedInput :=
  ⟨{ r with rows := r.rows.advance.2 }, r.rows.advance.1⟩

/-- A result that is moved becomes a settled input with the same rows. -/
theorem ofMove_spec {r : ResultCursor} (h : r.Uninterrupted) :
    (ofMove r).Settled ∧ (ofMove r).pending = r.rows.rest := by
  cases hrest : r.rows.rest with
  | nil => exact ⟨⟨h, by simp [ofMove, RowCursor.advance, hrest]⟩,
      by simp [ofMove, pending, RowCursor.advance, hrest]⟩
  | cons row rest => exact ⟨⟨h, by simp [ofMove, pending, RowCursor.advance, hrest]⟩,
      by simp [ofMove, pending, RowCursor.advance, hrest]⟩

/-- A settled input advances to the rows behind the one it stands on. -/
theorem Settled.advance {i : OrderedInput} (hi : i.Settled) :
    i.advance = (.ok (), ofMove i.result) := by
  unfold OrderedInput.advance
  rw [hi.uninterrupted.next]
  rfl

end OrderedInput

open OrderedInput

namespace OrderedCursor

/-- Starting an input moves its result once. -/
theorem startInput_eq {r : ResultCursor} (h : r.Uninterrupted) :
    startInput r = .ok (ofMove r) := by
  unfold startInput
  rw [h.next]
  rfl

/-- A merge of results that are never interrupted can be started. -/
theorem ofResults_eq {results : List ResultCursor} (h : ∀ r ∈ results, r.Uninterrupted)
    (items : List OrderItem) (collation : Collation) :
    ofResults results items collation =
      .ok { items, collation, inputs := results.map ofMove, current := none
            started := false } := by
  have hinputs : results.mapM startInput = .ok (results.map ofMove) := by
    induction results with
    | nil => rfl
    | cons r results ih =>
        have hrest := ih fun x hx => h x (List.mem_cons_of_mem _ hx)
        simp [List.mapM_cons, startInput_eq (h r List.mem_cons_self), hrest, bind, Except.bind,
          pure, Except.pure]
  simp [ofResults, hinputs, bind, Except.bind, pure, Except.pure]

/-! ## The least row -/

/-- The undelivered rows of the inputs of a merge. -/
def pendings (c : OrderedCursor) : List (List Row) := c.inputs.map pending

/-- A merge whose inputs are settled and sorted and whose rows can be compared. -/
structure Ready (c : OrderedCursor) : Prop where
  settled : ∀ i ∈ c.inputs, i.Settled
  sorted : SortedLists (Row.totalOrder c.collation c.items) c.pendings
  sortable : Sortable c.items c.pendings.flatten

/-- Inputs that stand on rows with sortable columns compare as the rows do. -/
theorem compareInputs_eq (c : OrderedCursor) {rows : List Row} (h : Sortable c.items rows)
    {a b : OrderedInput} {x y : Row} (hx : x ∈ a.pending.head?) (hy : y ∈ b.pending.head?)
    (hxrows : x ∈ rows) (hyrows : y ∈ rows) :
    c.compareInputs a b = .ok (Row.totalOrder c.collation c.items x y) := by
  have hread : ∀ {i : OrderedInput} {row : Row}, row ∈ i.pending.head? → row ∈ rows →
      ∀ item ∈ c.items, Cursor.cell i.result item.column = .ok (row.cell item.column) := by
    intro i row hrow hmem item hitem
    rcases h item hitem with ⟨kind, -, hcells⟩
    rcases hcells row hmem with ⟨z, hz, -⟩
    show i.result.rows.position.cell item.column = _
    rw [(standing_of_pending hrow).2.1, Position.cell, hz, Row.cell_of_getElem? hz]
  have hpair : Sortable c.items [x, y] := h.subset (by simp [hxrows, hyrows])
  exact orderRows_eq_totalOrder c.collation hpair (hread hx hxrows) (hread hy hyrows)

section Least

/-- A settled input whose first row is among the given ones. -/
structure Stands (rows : List Row) (i : OrderedInput) : Prop where
  settled : i.Settled
  head_mem : ∀ y ∈ i.pending.head?, y ∈ rows

variable {c : OrderedCursor} {rows : List Row}

/-- Inactive inputs are passed over. -/
theorem leastFrom_inactive {p : OrderedInput × Nat} (h : p.1.active = false)
    (best : Option (OrderedInput × Nat)) (ps : List (OrderedInput × Nat)) :
    c.leastFrom best (p :: ps) = c.leastFrom best ps := by
  cases best <;> rw [leastFrom] <;> simp [h]

/-- The first active input is the best one so far. -/
theorem leastFrom_active {p : OrderedInput × Nat} (h : p.1.active = true)
    (ps : List (OrderedInput × Nat)) : c.leastFrom none (p :: ps) = c.leastFrom (some p) ps := by
  rw [leastFrom]
  simp [h]

/-- A later input is better only if it is less. -/
theorem leastFrom_compare {p best : OrderedInput × Nat} (h : p.1.active = true)
    {o : Ordering} (ho : c.compareInputs p.1 best.1 = .ok o) (ps : List (OrderedInput × Nat)) :
    c.leastFrom (some best) (p :: ps) = c.leastFrom (some (if o = .lt then p else best)) ps := by
  rw [leastFrom]
  simp only [h, ho, Bool.not_true, Bool.false_eq_true, if_false, bind, Except.bind]
  cases o <;> rfl

/-- There is no least input among inactive ones. -/
theorem leastFrom_none {ps : List (OrderedInput × Nat)} (h : ∀ p ∈ ps, p.1.active = false) :
    c.leastFrom none ps = .ok none := by
  induction ps with
  | nil => rfl
  | cons p ps ih =>
      rw [leastFrom_inactive (h p List.mem_cons_self)]
      exact ih fun q hq => h q (List.mem_cons_of_mem _ hq)

/-- The least input so far stays when no later one is less. -/
theorem leastFrom_some (hsortable : Sortable c.items rows) {best : OrderedInput × Nat} {x : Row}
    (hx : x ∈ best.1.pending.head?) (hxrows : x ∈ rows) {ps : List (OrderedInput × Nat)}
    (hps : ∀ p ∈ ps, Stands rows p.1)
    (hle : ∀ p ∈ ps, ∀ y ∈ p.1.pending.head?,
      (Row.totalOrder c.collation c.items x y).isLE) :
    c.leastFrom (some best) ps = .ok (some best) := by
  induction ps with
  | nil => rfl
  | cons p ps ih =>
      have hp := hps p List.mem_cons_self
      have hrest := ih (fun q hq => hps q (List.mem_cons_of_mem _ hq))
        (fun q hq => hle q (List.mem_cons_of_mem _ hq))
      cases hpending : p.1.pending with
      | nil => rw [leastFrom_inactive (active_eq_false hp.settled hpending), hrest]
      | cons y ys =>
          have hy : y ∈ p.1.pending.head? := by rw [hpending]; rfl
          have hxy := hle p List.mem_cons_self y hy
          have hyx : Row.totalOrder c.collation c.items y x ≠ .lt := by
            have hswap : Row.totalOrder c.collation c.items y x =
                (Row.totalOrder c.collation c.items x y).swap := Std.OrientedCmp.eq_swap
            rw [hswap]
            cases ho : Row.totalOrder c.collation c.items x y <;> simp [ho] at hxy ⊢
          have hcompare := c.compareInputs_eq hsortable hy hx (hp.head_mem y hy) hxrows
          rw [leastFrom_compare (standing_of_pending hy).1 hcompare, if_neg hyx, hrest]

/-- The first of the least inputs is found, given that it is less than the least one before. -/
theorem leastFrom_append (hsortable : Sortable c.items rows) {p : OrderedInput × Nat} {x : Row}
    (hx : x ∈ p.1.pending.head?) {before after : List (OrderedInput × Nat)}
    (hps : ∀ q ∈ before ++ p :: after, Stands rows q.1)
    (hlt : ∀ q ∈ before, ∀ y ∈ q.1.pending.head?, Row.totalOrder c.collation c.items x y = .lt)
    (hle : ∀ q ∈ after, ∀ y ∈ q.1.pending.head?,
      (Row.totalOrder c.collation c.items x y).isLE)
    {best : Option (OrderedInput × Nat)}
    (hbest : ∀ b ∈ best, ∃ y ∈ b.1.pending.head?, y ∈ rows ∧
      Row.totalOrder c.collation c.items x y = .lt) :
    c.leastFrom best (before ++ p :: after) = .ok (some p) := by
  have hxrows : x ∈ rows := (hps p (by simp)).head_mem x hx
  have hactive := (standing_of_pending hx).1
  induction before generalizing best with
  | nil =>
      have hrest := leastFrom_some hsortable hx hxrows
        (fun q hq => hps q (List.mem_cons_of_mem _ hq)) hle
      cases best with
      | none => rw [List.nil_append, leastFrom_active hactive, hrest]
      | some b =>
          rcases hbest b rfl with ⟨y, hy, hyrows, hxy⟩
          have hcompare := c.compareInputs_eq hsortable hx hy hxrows hyrows
          rw [List.nil_append, leastFrom_compare hactive hcompare, if_pos hxy, hrest]
  | cons q before ih =>
      have hq := hps q (by simp)
      have hrest := @ih (fun q hq => hps q (List.mem_cons_of_mem _ hq))
        (fun q hq => hlt q (List.mem_cons_of_mem _ hq))
      cases hpending : q.1.pending with
      | nil =>
          rw [List.cons_append, leastFrom_inactive (active_eq_false hq.settled hpending)]
          exact hrest hbest
      | cons y ys =>
          have hy : y ∈ q.1.pending.head? := by rw [hpending]; rfl
          have hyrows := hq.head_mem y hy
          have hxy := hlt q List.mem_cons_self y hy
          have hqactive := (standing_of_pending hy).1
          rw [List.cons_append]
          cases best with
          | none =>
              rw [leastFrom_active hqactive]
              apply hrest
              intro b hb
              exact Option.mem_some_iff.mp hb ▸ ⟨y, hy, hyrows, hxy⟩
          | some b =>
              rcases hbest b rfl with ⟨z, hz, hzrows, hxz⟩
              rw [leastFrom_compare hqactive (c.compareInputs_eq hsortable hy hz hyrows hzrows)]
              apply hrest
              -- Whichever of the two is kept, the least input lies below it.
              intro b' hb
              rw [← Option.mem_some_iff.mp hb]
              by_cases ho : Row.totalOrder c.collation c.items y z = .lt
              · rw [if_pos ho]
                exact ⟨y, hy, hyrows, hxy⟩
              · rw [if_neg ho]
                exact ⟨z, hz, hzrows, hxz⟩

/-- The least input of a merge is the one a least split of the undelivered rows chooses. -/
theorem least?_spec (h : c.Ready) :
    (c.pendings.flatten = [] ∧ c.least? = .ok none) ∨
      ∃ before i after x rest, c.inputs = before ++ i :: after ∧
        c.least? = .ok (some before.length) ∧ i.pending = x :: rest ∧
        LeastSplit (Row.totalOrder c.collation c.items) (before.map pending) x rest
          (after.map pending) := by
  have hstands : ∀ i ∈ c.inputs, Stands c.pendings.flatten i := by
    intro i hi
    refine ⟨h.settled i hi, ?_⟩
    intro y hy
    exact List.mem_flatten.mpr ⟨i.pending, List.mem_map_of_mem hi, List.mem_of_mem_head? hy⟩
  rcases exists_leastSplit (Row.totalOrder c.collation c.items) c.pendings with
    hempty | ⟨lefts, x, rest, rights, hlists, hsplit⟩
  · refine .inl ⟨List.flatten_eq_nil_iff.mpr hempty, ?_⟩
    have hleast : c.leastFrom none c.inputs.zipIdx = .ok none := by
      apply leastFrom_none
      intro p hp
      have hmem := List.fst_mem_of_mem_zipIdx hp
      exact active_eq_false (h.settled _ hmem) (hempty _ (List.mem_map_of_mem hmem))
    rw [least?, hleast]
    rfl
  · rcases List.map_eq_append_iff.mp hlists with ⟨before, others, hinputs, rfl, hothers⟩
    rcases List.map_eq_cons_iff.mp hothers with ⟨i, after, rfl, hi, rfl⟩
    have hx : x ∈ i.pending.head? := by rw [hi]; rfl
    have hleast : c.leastFrom none c.inputs.zipIdx = .ok (some (i, before.length)) := by
      rw [hinputs, List.zipIdx_append, List.zipIdx_cons, Nat.zero_add]
      apply leastFrom_append h.sortable hx
      · intro q hq
        have hmem : q ∈ c.inputs.zipIdx := by
          rw [hinputs, List.zipIdx_append, List.zipIdx_cons, Nat.zero_add]
          exact hq
        exact hstands _ (List.fst_mem_of_mem_zipIdx hmem)
      · intro q hq
        exact hsplit.before_lt _ (List.mem_map_of_mem (List.fst_mem_of_mem_zipIdx hq))
      · intro q hq
        exact hsplit.after_le _ (List.mem_map_of_mem (List.fst_mem_of_mem_zipIdx hq))
      · simp
    refine .inr ⟨before, i, after, x, rest, hinputs, ?_, hi, hsplit⟩
    rw [least?, hleast]
    rfl

end Least

/-! ## Moves -/

/-- Taking the head of one list leaves rows that were there before. -/
theorem flatten_tail_subset (lefts : List (List Row)) (x : Row) (rest : List Row)
    (rights : List (List Row)) :
    (lefts ++ rest :: rights).flatten ⊆ (lefts ++ (x :: rest) :: rights).flatten := by
  intro row hrow
  simp only [List.flatten_append, List.flatten_cons, List.mem_append, List.mem_cons] at hrow ⊢
  rcases hrow with hrow | hrow | hrow
  · exact .inl hrow
  · exact .inr (.inl (.inr hrow))
  · exact .inr (.inr hrow)

/-- Taking the head of one list leaves fewer rows. -/
theorem length_flatten_tail_lt (lefts : List (List Row)) (x : Row) (rest : List Row)
    (rights : List (List Row)) :
    (lefts ++ rest :: rights).flatten.length < (lefts ++ (x :: rest) :: rights).flatten.length := by
  simp only [List.flatten_append, List.flatten_cons, List.length_append, List.length_cons]
  omega

/-- Advancing one input moves its result and leaves the others alone. -/
theorem advanceInput_append (before after : List OrderedInput) {i : OrderedInput}
    (hi : i.Settled) :
    advanceInput before.length (before ++ i :: after) =
      (.ok (), before ++ ofMove i.result :: after) := by
  induction before with
  | nil => simp [advanceInput, hi.advance]
  | cons j before ih => simp [advanceInput, ih]

/-- A merge stands on an input and its inputs are settled. -/
structure StandsOn (c : OrderedCursor) (before : List OrderedInput) (i : OrderedInput)
    (after : List OrderedInput) : Prop where
  inputs_eq : c.inputs = before ++ i :: after
  current_eq : c.current = some before.length
  started : c.started = true

/-- After a row has been taken, its input moves on before the next selection. -/
theorem StandsOn.next {c : OrderedCursor} {before after : List OrderedInput} {i : OrderedInput}
    (h : c.StandsOn before i after) (hi : i.Settled) :
    Cursor.next c = select { c with inputs := before ++ ofMove i.result :: after } := by
  show OrderedCursor.next c = _
  unfold OrderedCursor.next
  rw [h.started, h.current_eq, h.inputs_eq]
  simp [advanceInput_append before after hi]

/-- A cursor that stands on an input shows its row. -/
theorem StandsOn.shows {c : OrderedCursor} {before after : List OrderedInput} {i : OrderedInput}
    (h : c.StandsOn before i after) {row : Row} (hrow : row ∈ i.pending.head?) : Shows c row := by
  intro column
  show OrderedCursor.cell c column = _
  unfold OrderedCursor.cell
  rw [h.current_eq, h.inputs_eq]
  simp only [Option.bind_some, List.getElem?_append_right (Nat.le_refl _), Nat.sub_self,
    List.getElem?_cons_zero]
  show i.result.rows.position.cell column = _
  rw [(standing_of_pending hrow).2.1]

/-- The undelivered rows of a merge whose inputs are given. -/
theorem pendings_of_inputs {c : OrderedCursor} {before after : List OrderedInput}
    {i : OrderedInput} (hinputs : c.inputs = before ++ i :: after) :
    c.pendings = before.map pending ++ i.pending :: after.map pending := by
  rw [pendings, hinputs, List.map_append, List.map_cons]

section Move

variable {c : OrderedCursor} {before after : List OrderedInput} {i : OrderedInput} {x : Row}
  {rest : List Row} (hinputs : c.inputs = before ++ i :: after)
  (hsettled : ∀ j ∈ c.inputs, j.Settled) (hi : i.pending = x :: rest)

include hinputs

include hsettled hi in
/-- An input that has moved on is settled and has delivered its first row. -/
theorem settled_move :
    (∀ j ∈ before ++ ofMove i.result :: after, j.Settled) ∧ (ofMove i.result).pending = rest := by
  rw [hinputs] at hsettled
  have hmoved := ofMove_spec (hsettled i (by simp)).uninterrupted
  have hhead : x ∈ i.pending.head? := by rw [hi]; rfl
  have hstands := (standing_of_pending hhead).2.2
  rw [hi] at hstands
  refine ⟨fun j hj => ?_, hmoved.2.trans (List.cons.inj hstands).2.symm⟩
  rcases List.mem_append.mp hj with hj | hj
  · exact hsettled j (List.mem_append_left _ hj)
  · rcases List.mem_cons.mp hj with rfl | hj
    · exact hmoved.1
    · exact hsettled j (List.mem_append_right _ (List.mem_cons_of_mem _ hj))

include hsettled hi in
/-- The merge before and after the input of the current row has moved on. -/
theorem pendings_move :
    c.pendings = before.map pending ++ (x :: rest) :: after.map pending ∧
    pendings { c with inputs := before ++ ofMove i.result :: after } =
      before.map pending ++ rest :: after.map pending := by
  have hrest := (settled_move hinputs hsettled hi).2
  exact ⟨hi ▸ pendings_of_inputs hinputs, hrest ▸ pendings_of_inputs rfl⟩

include hsettled in
/-- After a row has been taken, its input moves on before the next selection. -/
theorem next_taken : Cursor.next { c with started := true, current := some before.length } =
    select { c with
      inputs := before ++ ofMove i.result :: after, started := true,
      current := some before.length } := by
  have hstands : StandsOn { c with started := true, current := some before.length } before i
      after := ⟨hinputs, rfl, rfl⟩
  exact hstands.next (hsettled i (hinputs ▸ List.mem_append_right _ List.mem_cons_self))

include hi in
/-- A merge that takes a row delivers it. -/
theorem delivers_of_least {c' : OrderedCursor} (hnext : Cursor.next c' = select c)
    (hleast : least? { c with started := true } = .ok (some before.length)) {rows : List Row}
    (hlater : Delivers { c with started := true, current := some before.length } rows) :
    Delivers c' (x :: rows) := by
  have hstands : StandsOn { c with started := true, current := some before.length } before i
      after := ⟨hinputs, rfl, rfl⟩
  have hselect : select c =
      (.ok true, { c with started := true, current := some before.length }) := by
    rw [select, hleast]
    rfl
  rw [Delivers, hnext, hselect]
  exact ⟨rfl, hstands.shows (by rw [hi]; rfl), hlater⟩

end Move

/-- A merge that finds no row delivers none. -/
theorem delivers_nil_of_least {c c' : OrderedCursor} (hnext : Cursor.next c' = select c)
    (hleast : least? { c with started := true } = .ok none) : Delivers c' [] := by
  rw [Delivers, hnext, select, hleast]
  rfl

/-- Once the input of the current row has moved on, the merge is ready again. -/
theorem Ready.move {c : OrderedCursor} (h : c.Ready) {before after : List OrderedInput}
    {i : OrderedInput} (hinputs : c.inputs = before ++ i :: after) {x : Row} {rest : List Row}
    (hi : i.pending = x :: rest) :
    Ready { c with inputs := before ++ ofMove i.result :: after } := by
  rcases pendings_move hinputs h.settled hi with ⟨hpendings, hmoved⟩
  refine ⟨(settled_move hinputs h.settled hi).1, ?_, ?_⟩
  · intro l hl
    have hsorted := h.sorted
    rw [hpendings] at hsorted
    rw [hmoved] at hl
    rcases List.mem_append.mp hl with hl | hl
    · exact hsorted l (by simp [hl])
    · rcases List.mem_cons.mp hl with rfl | hl
      · exact (List.pairwise_cons.mp (hsorted (x :: l) (by simp))).2
      · exact hsorted l (by simp [hl])
  · refine Sortable.subset h.sortable ?_
    rw [hpendings, hmoved]
    exact flatten_tail_subset _ x rest _

/-- The moves of a merge that is ready deliver the stable sort of its undelivered rows. -/
theorem Ready.delivers {c : OrderedCursor} (h : c.Ready) {c' : OrderedCursor}
    (hnext : Cursor.next c' = select c) :
    Delivers c' (stableSort (Row.totalOrder c.collation c.items) c.pendings.flatten) := by
  induction hn : c.pendings.flatten.length using Nat.strongRecOn generalizing c c' with
  | ind n ih =>
      have hstarted : Ready { c with started := true } := ⟨h.settled, h.sorted, h.sortable⟩
      rcases least?_spec hstarted with
        ⟨hempty, hleast⟩ | ⟨before, i, after, x, rest, hinputs, hleast, hi, hsplit⟩
      · have hempty : c.pendings.flatten = [] := hempty
        have hsort : stableSort (Row.totalOrder c.collation c.items) [] = [] :=
          stableSort_of_pairwise List.Pairwise.nil
        rw [hempty, hsort]
        exact delivers_nil_of_least hnext hleast
      · have hinputs : c.inputs = before ++ i :: after := hinputs
        rcases pendings_move hinputs h.settled hi with ⟨hpendings, hmoved⟩
        have hready : Ready { c with
            inputs := before ++ ofMove i.result :: after, started := true,
            current := some before.length } :=
          ⟨(h.move hinputs hi).settled, (h.move hinputs hi).sorted, (h.move hinputs hi).sortable⟩
        have hsorted := h.sorted
        rw [hpendings] at hsorted
        rw [hpendings, hsplit.stableSort_flatten hsorted, ← hmoved]
        refine delivers_of_least hinputs hi hnext hleast ?_
        refine ih _ ?_ hready (next_taken hinputs h.settled) rfl
        show (pendings { c with inputs := before ++ ofMove i.result :: after }).flatten.length < n
        rw [hmoved, ← hn, hpendings]
        exact length_flatten_tail_lt _ x rest _

/-! ## Whole merges -/

/-- The inputs have no more rows than their bounds allow. -/
theorem length_pending_le (inputs : List OrderedInput) :
    (inputs.map pending).flatten.length ≤
      (inputs.map fun i => bound i.result + 1).foldr (· + ·) 0 := by
  induction inputs with
  | nil => exact Nat.le_refl 0
  | cons i inputs ih =>
      have hfirst : i.pending.length ≤ bound i.result + 1 := by
        unfold pending
        split
        · exact Nat.le_refl _
        · exact Nat.zero_le _
      simp only [List.map_cons, List.flatten_cons, List.length_append, List.foldr_cons]
      omega

/-- Once each result has been moved to its first row, all of its rows are undelivered. -/
theorem pending_start {results : List ResultCursor} (hun : ∀ r ∈ results, r.Uninterrupted) :
    (∀ i ∈ results.map ofMove, i.Settled) ∧
      (results.map ofMove).map pending = results.map (·.rows.rest) := by
  refine ⟨fun i hi => ?_, ?_⟩
  · rcases List.mem_map.mp hi with ⟨r, hr, rfl⟩
    exact (ofMove_spec (hun r hr)).1
  · rw [List.map_map]
    exact List.map_congr_left fun r hr => (ofMove_spec (hun r hr)).2

/-- Sorted results are delivered as the stable sort of all their rows. -/
theorem delivers {results : List ResultCursor} {items : List OrderItem} {collation : Collation}
    (hun : ∀ r ∈ results, r.Uninterrupted)
    (hsorted : ∀ r ∈ results,
      r.rows.rest.Pairwise fun a b => Row.mayPrecede collation items a b)
    (hsortable : Sortable items (results.flatMap (·.rows.rest))) :
    ∃ c, ofResults results items collation = .ok c ∧
      (results.flatMap (·.rows.rest)).length ≤ bound c ∧
      Delivers c (sortRows collation items (results.flatMap (·.rows.rest))) := by
  let c : OrderedCursor :=
    { items, collation, inputs := results.map ofMove, current := none, started := false }
  have hpendings : c.pendings = results.map (·.rows.rest) := (pending_start hun).2
  have hready : c.Ready := by
    refine ⟨(pending_start hun).1, ?_, ?_⟩
    · rw [hpendings]
      intro l hl
      rcases List.mem_map.mp hl with ⟨r, hr, rfl⟩
      have hrows : Sortable items r.rows.rest :=
        hsortable.subset fun row hrow => List.mem_flatMap.mpr ⟨r, hr, hrow⟩
      exact (pairwise_mayPrecede_iff hrows).mp (hsorted r hr)
    · rw [hpendings, ← List.flatMap_def]
      exact hsortable
  refine ⟨c, ofResults_eq hun items collation, ?_, ?_⟩
  · rw [List.flatMap_def, ← hpendings]
    exact length_pending_le c.inputs
  · have hdelivers : Delivers c (stableSort (Row.totalOrder collation items) c.pendings.flatten) :=
      hready.delivers rfl
    rw [hpendings, ← List.flatMap_def] at hdelivers
    rw [sortRows_eq_stableSort hsortable]
    exact hdelivers

/-- An ordered merge of sorted inputs never fails and delivers the stable sort of all their rows:
every row once, ties in the order of the inputs, nulls where the criteria want them. -/
theorem ofResults_stablySorted {collation : Collation} {items : List OrderItem}
    {inputs : List (List Column × List Row)}
    (hsorted : ∀ input ∈ inputs,
      input.2.Pairwise fun a b => Row.mayPrecede collation items a b)
    (hsortable : Sortable items (inputs.flatMap (·.2))) :
    ∃ c, ofResults (inputs.map fun input => .ofRows input.1 input.2) items collation = .ok c ∧
      Delivers c (sortRows collation items (inputs.flatMap (·.2))) ∧
      (∀ width, Wide width (inputs.flatMap (·.2)) →
        (Cursor.rows width c).1 =
          .ok ((sortRows collation items (inputs.flatMap (·.2))).map (·.take width))) ∧
      StablySorted collation items (inputs.flatMap (·.2))
        (sortRows collation items (inputs.flatMap (·.2))) := by
  let results := inputs.map fun input => ResultCursor.ofRows input.1 input.2
  have hrows : results.flatMap (·.rows.rest) = inputs.flatMap (·.2) := by
    rw [List.flatMap_map]
    rfl
  have hun : ∀ r ∈ results, r.Uninterrupted := by
    intro r hr
    rcases List.mem_map.mp hr with ⟨input, _, rfl⟩
    exact ResultCursor.ofRows_uninterrupted input.1 input.2
  have hresults : ∀ r ∈ results,
      r.rows.rest.Pairwise fun a b => Row.mayPrecede collation items a b := by
    intro r hr
    rcases List.mem_map.mp hr with ⟨input, hinput, rfl⟩
    exact hsorted input hinput
  rcases delivers hun hresults (hrows ▸ hsortable) with ⟨c, hc, hbound, hdelivers⟩
  rw [hrows] at hbound hdelivers
  have hstable : StablySorted collation items _ _ := sortRows_stablySorted hsortable
  refine ⟨c, hc, hdelivers, ?_, hstable⟩
  intro width hwide
  apply Delivers.rows _ _ hdelivers
  · intro row hrow
    exact hwide row (hstable.perm.mem_iff.mp hrow)
  · rw [hstable.perm.length_eq]
    exact hbound

/-- Two inputs and an empty one, sorted downwards by the first column with nulls in front. -/
def downwardInputs : List (List Column × List Row) :=
  [([⟨"k", "k"⟩, ⟨"v", "v"⟩], [[.null, .int 1], [.int 7, .int 2], [.int 3, .int 3]]),
    ([], []),
    ([⟨"k", "k"⟩, ⟨"v", "v"⟩], [[.int 7, .int 4], [.int 5, .int 5]])]

/-- Ties and nulls of `downwardInputs`, whose merge keeps them in the order of the inputs. -/
theorem ofResults_stablySorted_downward :
    (∀ input ∈ downwardInputs,
      input.2.Pairwise fun a b => Row.mayPrecede .binary [⟨0, .descending, .first⟩] a b) ∧
    Sortable [⟨0, .descending, .first⟩] (downwardInputs.flatMap (·.2)) ∧
    ∃ c, ofResults (downwardInputs.map fun input => .ofRows input.1 input.2)
        [⟨0, .descending, .first⟩] .binary = .ok c ∧
      Delivers c [[.null, .int 1], [.int 7, .int 2], [.int 7, .int 4], [.int 5, .int 5],
        [.int 3, .int 3]] := by
  have hsorted : ∀ input ∈ downwardInputs,
      input.2.Pairwise fun a b => Row.mayPrecede .binary [⟨0, .descending, .first⟩] a b := by
    decide
  have hsortable : Sortable [⟨0, .descending, .first⟩] (downwardInputs.flatMap (·.2)) := by
    intro item hitem
    rw [List.mem_singleton.mp hitem]
    exact ⟨.int, rfl, by decide⟩
  have hrising : sortRising (Row.order .binary [⟨0, .descending, .first⟩])
      (downwardInputs.flatMap (·.2)) = .ok [[.null, .int 1], [.int 7, .int 2], [.int 7, .int 4],
        [.int 5, .int 5], [.int 3, .int 3]] := by
    rfl
  rw [sortRising_eq_sortRows hsortable] at hrising
  rcases ofResults_stablySorted hsorted hsortable with ⟨c, hc, hdelivers, -, -⟩
  rw [Except.ok.inj hrising] at hdelivers
  exact ⟨hsorted, hsortable, c, hc, hdelivers⟩

end OrderedCursor

end ShardedSql
