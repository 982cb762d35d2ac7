import ShardedSql.Proofs.Cursor.Interaction
import ShardedSql.Proofs.Cursor.Ordered

/-!
# Ordered merges of rows that are not sorted

An ordered merge takes the least of the rows its inputs stand on.  It needs no sorted inputs for
that, only rows that can be compared: then every move finds a row as long as one is left, and each
row is delivered once.  Sorted inputs decide in which order, and that is all they decide.

Main results:

- Theorem `comparable_of_columns`: rows are comparable when the columns of the criteria are.
- Theorem `OrderedCursor.least?_cases`: comparable inputs have a least one, if any stands on a row.
- Theorem `OrderedCursor.lists_of_comparable`: comparable results behave as a list of their rows.
-/

namespace ShardedSql

open Cursor

/-- Any two of the rows can be compared by the criteria. -/
def Comparable (collation : Collation) (items : List OrderItem) (rows : List Row) : Prop :=
  ∀ a ∈ rows, ∀ b ∈ rows, ∃ o,
    orderRows collation (Position.onRow a).cell (Position.onRow b).cell items = .ok o

/-- Fewer rows are comparable as well. -/
theorem Comparable.subset {collation : Collation} {items : List OrderItem} {rows rows' : List Row}
    (h : Comparable collation items rows) (hrows : rows' ⊆ rows) :
    Comparable collation items rows' :=
  fun a ha b hb => h a (hrows ha) b (hrows hb)

/-- Rows are comparable when they have the columns of the criteria and the cells of each column
are comparable. -/
theorem comparable_of_columns {collation : Collation} {items : List OrderItem} {rows : List Row}
    (h : ∀ item ∈ items, ∀ a ∈ rows, ∀ b ∈ rows, ∃ x y o,
      a[item.column]? = some x ∧ b[item.column]? = some y ∧ item.order collation x y = .ok o) :
    Comparable collation items rows := by
  intro a ha b hb
  induction items with
  | nil => exact ⟨.eq, rfl⟩
  | cons item items ih =>
      rcases h item List.mem_cons_self a ha b hb with ⟨x, y, o, hx, hy, ho⟩
      rcases ih fun other hother => h other (List.mem_cons_of_mem _ hother) with ⟨later, hlater⟩
      have hleft : (Position.onRow a).cell item.column = .ok x := by
        rw [Position.cell, hx]
      have hright : (Position.onRow b).cell item.column = .ok y := by
        rw [Position.cell, hy]
      simp only [orderRows, hleft, hright, ho, bind, Except.bind]
      cases o with
      | eq => exact ⟨later, hlater⟩
      | lt => exact ⟨.lt, rfl⟩
      | gt => exact ⟨.gt, rfl⟩

namespace OrderedCursor

open OrderedInput

/-- A merge whose inputs are settled and whose rows can be compared. -/
structure Comparing (c : OrderedCursor) : Prop where
  settled : ∀ i ∈ c.inputs, i.Settled
  comparable : Comparable c.collation c.items c.pendings.flatten

section Least

variable {c : OrderedCursor}

/-- Active inputs of the merge can be compared. -/
theorem Comparing.compareInputs_eq_ok (h : c.Comparing) {a b : OrderedInput} (ha : a ∈ c.inputs)
    (hb : b ∈ c.inputs) (haactive : a.active = true) (hbactive : b.active = true) :
    ∃ o, c.compareInputs a b = .ok o := by
  have hstands : ∀ {i : OrderedInput}, i ∈ c.inputs → i.active = true →
      ∃ row ∈ c.pendings.flatten, Cursor.cell i.result = (Position.onRow row).cell := by
    intro i hi hactive
    cases hpending : i.pending with
    | nil => exact absurd hpending ((h.settled i hi).pending_ne_nil hactive)
    | cons row rest =>
        refine ⟨row, List.mem_flatten.mpr ⟨i.pending, List.mem_map_of_mem hi, ?_⟩, ?_⟩
        · rw [hpending]
          exact List.mem_cons_self
        · have hhead : row ∈ i.pending.head? := by rw [hpending]; rfl
          show i.result.rows.position.cell = _
          rw [(standing_of_pending hhead).2.1]
  rcases hstands ha haactive with ⟨x, hx, hxcell⟩
  rcases hstands hb hbactive with ⟨y, hy, hycell⟩
  rw [compareInputs, hxcell, hycell]
  exact h.comparable x hx y hy

/-- The selection succeeds: it finds none of the inputs when none is active, and an active one
otherwise. -/
theorem Comparing.leastFrom_cases (h : c.Comparing) {ps : List (OrderedInput × Nat)}
    (hps : ∀ p ∈ ps, p.1 ∈ c.inputs) {best : Option (OrderedInput × Nat)}
    (hbest : ∀ b ∈ best, b.1 ∈ c.inputs ∧ b.1.active = true) :
    (c.leastFrom best ps = .ok none ∧ best = none ∧ ∀ p ∈ ps, p.1.active = false) ∨
      ∃ p, c.leastFrom best ps = .ok (some p) ∧ p.1.active = true ∧ (p ∈ best ∨ p ∈ ps) := by
  induction ps generalizing best with
  | nil =>
      cases best with
      | none => exact .inl ⟨rfl, rfl, by simp⟩
      | some b => exact .inr ⟨b, rfl, (hbest b rfl).2, .inl rfl⟩
  | cons p ps ih =>
      have hp := hps p List.mem_cons_self
      have hlater := @ih fun q hq => hps q (List.mem_cons_of_mem _ hq)
      cases hactive : p.1.active with
      | false =>
          rw [leastFrom_inactive hactive]
          rcases hlater hbest with ⟨hnone, hempty, hall⟩ | ⟨q, hq, hqactive, hmem⟩
          · exact .inl ⟨hnone, hempty, List.forall_mem_cons.mpr ⟨hactive, hall⟩⟩
          · exact .inr ⟨q, hq, hqactive, hmem.imp_right (List.mem_cons_of_mem p)⟩
      | true =>
          -- Whether the input is taken or the best one so far is kept, an active one is found.
          have htaken : ∀ b : OrderedInput × Nat, b.1 ∈ c.inputs → b.1.active = true →
              (b ∈ best ∨ b = p) → ∃ q, c.leastFrom (some b) ps = .ok (some q) ∧
                q.1.active = true ∧ (q ∈ best ∨ q ∈ p :: ps) := by
            intro b hb hbactive hfrom
            have hsome : ∀ b' ∈ some b, b'.1 ∈ c.inputs ∧ b'.1.active = true := by
              intro b' hb'
              cases hb'
              exact ⟨hb, hbactive⟩
            rcases hlater hsome with ⟨-, hempty, -⟩ | ⟨q, hq, hqactive, hmem | hmem⟩
            · cases hempty
            · cases hmem
              refine ⟨b, hq, hqactive, hfrom.imp_right fun hsame => ?_⟩
              rw [hsame]
              exact List.mem_cons_self
            · exact ⟨q, hq, hqactive, .inr (List.mem_cons_of_mem p hmem)⟩
          refine .inr ?_
          cases best with
          | none =>
              rw [leastFrom_active hactive]
              exact htaken p hp hactive (.inr rfl)
          | some b =>
              rcases hbest b rfl with ⟨hb, hbactive⟩
              rcases h.compareInputs_eq_ok hp hb hactive hbactive with ⟨o, ho⟩
              rw [leastFrom_compare hactive ho]
              by_cases hless : o = .lt
              · rw [if_pos hless]
                exact htaken p hp hactive (.inr rfl)
              · rw [if_neg hless]
                exact htaken b hb hbactive (.inl rfl)

/-- Comparable inputs have a least one, unless no row is left. -/
theorem Comparing.least?_cases (h : c.Comparing) :
    (c.pendings.flatten = [] ∧ c.least? = .ok none) ∨
      ∃ before i after x rest, c.inputs = before ++ i :: after ∧
        c.least? = .ok (some before.length) ∧ i.pending = x :: rest := by
  have hinputs : ∀ p ∈ c.inputs.zipIdx, p.1 ∈ c.inputs := fun p hp => List.fst_mem_of_mem_zipIdx hp
  have hnothing : ∀ b ∈ (none : Option (OrderedInput × Nat)),
      b.1 ∈ c.inputs ∧ b.1.active = true := fun b hb => nomatch hb
  rcases h.leastFrom_cases hinputs hnothing with
    ⟨hnone, -, hall⟩ | ⟨p, hsome, hactive, hbest | hp⟩
  · refine .inl ⟨List.flatten_eq_nil_iff.mpr fun l hl => ?_, by rw [least?, hnone]; rfl⟩
    rcases List.mem_map.mp hl with ⟨i, hi, rfl⟩
    rcases List.mem_iff_getElem.mp hi with ⟨n, hn, rfl⟩
    have hinactive := hall (c.inputs[n], n) (List.mem_zipIdx_iff_getElem?.mpr
      (List.getElem?_eq_getElem hn))
    unfold pending
    rw [hinactive]
  · cases hbest
  · have hat := List.mem_zipIdx_iff_getElem?.mp hp
    rcases List.getElem?_eq_some_iff.mp hat with ⟨hn, hi⟩
    have hsplit : c.inputs = c.inputs.take p.2 ++ p.1 :: c.inputs.drop (p.2 + 1) := by
      rw [← hi, List.getElem_cons_drop, List.take_append_drop]
    cases hpending : p.1.pending with
    | nil => exact absurd hpending ((h.settled _ (hinputs p hp)).pending_ne_nil hactive)
    | cons x rest =>
        refine .inr ⟨_, p.1, _, x, rest, hsplit, ?_, hpending⟩
        rw [least?, hsome, List.length_take, Nat.min_eq_left (Nat.le_of_lt hn)]
        rfl

end Least

/-! ## Moves -/

/-- The moves of a merge of comparable rows deliver each of them once. -/
theorem Comparing.delivers {c : OrderedCursor} (h : c.Comparing) {c' : OrderedCursor}
    (hnext : Cursor.next c' = select c) :
    ∃ rows, Delivers c' rows ∧ rows.Perm c.pendings.flatten := by
  induction hn : c.pendings.flatten.length using Nat.strongRecOn generalizing c c' with
  | ind n ih =>
      have hstarted : Comparing { c with started := true } := ⟨h.settled, h.comparable⟩
      rcases hstarted.least?_cases with
        ⟨hempty, hleast⟩ | ⟨before, i, after, x, rest, hinputs, hleast, hi⟩
      · have hempty : c.pendings.flatten = [] := hempty
        exact ⟨[], delivers_nil_of_least hnext hleast, hempty ▸ .refl _⟩
      · have hinputs : c.inputs = before ++ i :: after := hinputs
        rcases pendings_move hinputs h.settled hi with ⟨hpendings, hmoved⟩
        let moved : OrderedCursor := { c with
          inputs := before ++ ofMove i.result :: after, started := true,
          current := some before.length }
        have hmoved : moved.pendings = before.map pending ++ rest :: after.map pending := hmoved
        have hcomparing : moved.Comparing := by
          refine ⟨(settled_move hinputs h.settled hi).1, h.comparable.subset ?_⟩
          rw [hpendings, hmoved]
          exact flatten_tail_subset _ x rest _
        have hshorter : moved.pendings.flatten.length < n := by
          rw [hmoved, ← hn, hpendings]
          exact length_flatten_tail_lt _ x rest _
        rcases ih _ hshorter hcomparing (next_taken hinputs h.settled) rfl with
          ⟨rows, hrows, hperm⟩
        refine ⟨x :: rows, delivers_of_least hinputs hi hnext hleast hrows, ?_⟩
        rw [hmoved] at hperm
        rw [hpendings, List.flatten_append, List.flatten_cons, List.cons_append]
        rw [List.flatten_append, List.flatten_cons] at hperm
        exact (hperm.cons x).trans List.perm_middle.symm

/-- A merge that finds no row has ended. -/
theorem ended_of_select (width : Nat) {c : OrderedCursor} (h : (select c).1 = .ok false) :
    Ended width (select c).2 := by
  cases hleast : least? { c with started := true } with
  | error e =>
      rw [select, hleast] at h
      cases h
  | ok current =>
      have hselect : select c = (.ok current.isSome, { c with started := true, current }) := by
        rw [select, hleast]
      rw [hselect] at h ⊢
      cases current with
      | none => exact ⟨rfl, fun _ _ => rfl⟩
      | some index => cases h

/-- A move that finds nothing ends the cursor. -/
theorem ended_of_next (width : Nat) {c : OrderedCursor} (h : (Cursor.next c).1 = .ok false) :
    Ended width (Cursor.next c).2 := by
  change c.next.1 = .ok false at h
  show Ended width c.next.2
  unfold OrderedCursor.next at h ⊢
  by_cases hstarted : c.started = true
  · rw [if_pos hstarted] at h ⊢
    cases hcurrent : c.current with
    | none =>
        refine ⟨?_, fun column _ => ?_⟩
        · show c.next = _
          simp only [OrderedCursor.next, hstarted, hcurrent, if_true]
        · show c.cell column = _
          simp only [cell, hstarted, hcurrent, Option.bind_none, if_true]
    | some index =>
        simp only [hcurrent] at h ⊢
        match advanceInput index c.inputs, h with
        | (.ok (), _), h => exact ended_of_select width h
  · rw [if_neg hstarted] at h ⊢
    exact ended_of_select width h

/-! ## Whole merges -/

/-- Results with comparable rows behave as a list that has each of these rows once. -/
theorem lists_of_comparable (width : Nat) {results : List ResultCursor}
    (hun : ∀ r ∈ results, r.Uninterrupted) {items : List OrderItem} {collation : Collation}
    (h : Comparable collation items (results.flatMap (·.rows.rest))) :
    ∃ c rows, ofResults results items collation = .ok c ∧
      rows.Perm (results.flatMap (·.rows.rest)) ∧ Lists width c rows := by
  let c : OrderedCursor :=
    { items, collation, inputs := results.map ofMove, current := none, started := false }
  have hpendings : c.pendings.flatten = results.flatMap (·.rows.rest) := by
    rw [List.flatMap_def, ← (pending_start hun).2]
    rfl
  have hcomparing : c.Comparing := ⟨(pending_start hun).1, hpendings.symm ▸ h⟩
  have hnext : Cursor.next c = select c := rfl
  rcases hcomparing.delivers hnext with ⟨rows, hrows, hperm⟩
  exact ⟨c, rows, ofResults_eq hun items collation, hpendings ▸ hperm,
    lists_of_ends (fun _ => ended_of_next width) (fun _ _ => rfl) hrows⟩

end OrderedCursor

end ShardedSql
