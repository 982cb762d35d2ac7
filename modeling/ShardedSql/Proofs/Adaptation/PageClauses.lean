import ShardedSql.Proofs.Adaptation.Renaming
import ShardedSql.Proofs.Traversal

/-!
# Page clauses for shards

The page clause that a shard gets depends only on the clause of the statement.  Numbered parameters
among its bounds stay where they are and are assigned values; the clause is a plain limit if it has
none.

Main results:

- Theorem `getElem?_assign`: the value of a parameter after some assignments.
- Theorem `view_of_clauseForShard`: the page clause for a shard.
- Theorem `exists_clauseForShard`: when there is one.
- Theorem `spec_of_commandsForShard`: several commands for a shard.
- Theorem `adapterFor_widened`: statements with pages for shards.
-/

namespace ShardedSql

open Sql

/-! ## Assignments to parameters -/

/-- Assigns values to parameters, one after the other. -/
def assign (parameters : List Cell) (assignments : List (Nat × Cell)) : List Cell :=
  assignments.foldl (fun parameters a => parameters.set a.1 a.2) parameters

/-- The value that is assigned last at a position, if one is. -/
def assigned? (assignments : List (Nat × Cell)) (position : Nat) : Option Cell :=
  assignments.reverse.lookup position

@[simp]
theorem assign_nil (parameters : List Cell) : assign parameters [] = parameters := rfl

/-- Later assignments come on top of earlier ones. -/
theorem assign_append (parameters : List Cell) (assignments later : List (Nat × Cell)) :
    assign parameters (assignments ++ later) = assign (assign parameters assignments) later :=
  List.foldl_append

/-- A position is left alone exactly if no assignment names it. -/
theorem assigned_eq_none_iff {assignments : List (Nat × Cell)} {position : Nat} :
    assigned? assignments position = none ↔ ∀ a ∈ assignments, a.1 ≠ position := by
  rw [assigned?, List.lookup_eq_none_iff]
  simp only [List.mem_reverse, bne_iff_ne, ne_comm]

theorem length_assign (parameters : List Cell) (assignments : List (Nat × Cell)) :
    (assign parameters assignments).length = parameters.length := by
  induction assignments generalizing parameters with
  | nil => rfl
  | cons a assignments ih => exact (ih _).trans List.length_set

/-- A parameter has the value that is assigned to it last, or the one it had. -/
theorem getElem?_assign {parameters : List Cell} (assignments : List (Nat × Cell)) {position : Nat}
    (hposition : position < parameters.length) :
    (assign parameters assignments)[position]? =
      (assigned? assignments position).or parameters[position]? := by
  induction assignments generalizing parameters with
  | nil => rfl
  | cons a assignments ih =>
      rcases a with ⟨i, value⟩
      have hset : position < (parameters.set i value).length := by rwa [List.length_set]
      show (assign (parameters.set i value) assignments)[position]? = _
      rw [ih hset, assigned?, assigned?, List.reverse_cons, List.lookup_append, Option.or_assoc,
        List.getElem?_set]
      by_cases heq : i = position
      · rw [if_pos heq, if_pos (heq ▸ hposition), heq, List.lookup_cons_self, Option.some_or]
      · have hne : (position == i) = false := beq_eq_false_iff_ne.mpr (Ne.symm heq)
        simp only [if_neg heq, List.lookup_cons, hne, List.lookup_nil, Option.none_or]

/-- A parameter is set exactly if there is one at the position. -/
theorem setParameter_eq_ok {parameters changed : List Cell} {position : Nat} {value : Cell} :
    setParameter parameters position value = .ok changed ↔
      position < parameters.length ∧ changed = assign parameters [(position, value)] := by
  unfold setParameter
  split
  · rename_i hposition
    simp [hposition, assign, eq_comm]
  · rename_i hposition
    simp [hposition]

/-! ## Bounds -/

namespace Sql.ExprView

/-- The position of the numbered parameter that a bound is, if it is one. -/
def position? (v : ExprView) : Option Nat := (parameterPosition? v).toOption.join

/-- A bound can be changed: it is no parameter, or a numbered one. -/
def IsAdjustable (v : ExprView) : Prop := ∃ position, parameterPosition? v = .ok position

/-- A change of dotted names changes no parameter. -/
theorem position_onCompound (g : List Ident → List Ident) (v : ExprView) :
    (v.onCompound g).position? = v.position? := by
  cases v <;> rfl

end Sql.ExprView

/-- The position of the parameter that a bound refers to, if there is a bound and it is one. -/
def boundPosition? : Option ExprView → Except Fault (Option Nat)
  | some v => parameterPosition? v
  | none => .ok none

/-- The place that is adjusted is that of the bound. -/
theorem bind_position_of_boundPosition {bound : Option ExprView} {position : Option Nat}
    (h : boundPosition? bound = .ok position) : bound.bind (·.position?) = position := by
  cases bound with
  | none =>
      cases h
      rfl
  | some v =>
      have hv : parameterPosition? v = .ok position := h
      show (parameterPosition? v).toOption.join = position
      rw [hv]
      rfl

/-- A bound that can be adjusted has a place to adjust, unless it is a number. -/
theorem boundPosition_of_isAdjustable {bound : Option ExprView}
    (h : ∀ v ∈ bound, v.IsAdjustable) :
    boundPosition? bound = .ok (bound.bind (·.position?)) := by
  cases bound with
  | none => rfl
  | some v =>
      rcases h v rfl with ⟨position, hposition⟩
      have hbound : boundPosition? (some v) = .ok position := hposition
      rw [bind_position_of_boundPosition hbound, hbound]

/-! ## Page clauses -/

namespace Sql.PageClause

/-- How many rows are kept, if that is said. -/
def limit? {E : Type} : PageClause E → Option E
  | bounds limit _ _ => limit
  | commaBounds _ limit => some limit

/-- How many rows are skipped, if that is said. -/
def offset? {E : Type} : PageClause E → Option E
  | bounds _ offset _ => offset.map (·.value)
  | commaBounds offset _ => some offset

/-- The groups within which rows are counted, if they are. -/
def groups {E : Type} : PageClause E → List E
  | bounds _ _ groups => groups
  | commaBounds _ _ => []

/-- The position of the parameter that a named limit is, if it is one. -/
def limitPosition? : PageClause ExprView → Option Nat
  | bounds limit _ _ => limit.bind (·.position?)
  | commaBounds _ _ => none

/-- The position of the parameter that a named offset is, if it is one. -/
def offsetPosition? : PageClause ExprView → Option Nat
  | bounds _ offset _ => (offset.map (·.value)).bind (·.position?)
  | commaBounds _ _ => none

/-- The named bounds of a clause can be changed. -/
def IsAdjustable : PageClause ExprView → Prop
  | bounds limit offset _ =>
      (∀ v ∈ limit, v.IsAdjustable) ∧ ∀ v ∈ offset.map (·.value), v.IsAdjustable
  | commaBounds _ _ => True

/-- What the parameters among the named bounds are assigned when a number of rows is to be kept. -/
def assigned (clause : PageClause ExprView) (count : Option Nat) : List (Nat × Cell) :=
  (clause.limitPosition?.bind fun i => count.map fun n => (i, .int (Int64.ofNat n))).toList ++
    (clause.offsetPosition?.map fun i => (i, .int 0)).toList

/-- The limit that keeps a number of rows. -/
def numberView (count : Nat) : ExprView := .number (toString count)

/-- The clause that keeps a number of rows and has no other bound. -/
def plain (count : Option Nat) : Option (PageClause ExprView) :=
  count.map fun n => .bounds (some (numberView n)) none []

/-- The clause that is left when a number of rows is to be kept. -/
def widened (clause : PageClause ExprView) (count : Option Nat) : Option (PageClause ExprView) :=
  match clause with
  | commaBounds _ _ => plain count
  | bounds limit offset groups =>
      if clause.limitPosition?.isNone && clause.offsetPosition?.isNone then plain count
      else
        some (bounds
          (if clause.limitPosition?.isSome && count.isSome then limit
            else limit.bind fun _ => count.map numberView)
          (if clause.offsetPosition?.isSome then offset else none)
          groups)

variable (g : List Ident → List Ident) (clause : PageClause ExprView)

/-- A change of dotted names keeps the limit that is a parameter. -/
theorem limitPosition_map :
    (clause.map (·.onCompound g)).limitPosition? = clause.limitPosition? := by
  rcases clause with ⟨_ | limit, offset, groups⟩ | ⟨offset, limit⟩
  · rfl
  · exact limit.position_onCompound g
  · rfl

/-- A change of dotted names keeps the offset that is a parameter. -/
theorem offsetPosition_map :
    (clause.map (·.onCompound g)).offsetPosition? = clause.offsetPosition? := by
  rcases clause with ⟨limit, _ | offset, groups⟩ | ⟨offset, limit⟩
  · rfl
  · exact offset.value.position_onCompound g
  · rfl

/-- A visitor of dotted names does not change what is assigned. -/
theorem assigned_map (count : Option Nat) :
    (clause.map (·.onCompound g)).assigned count = clause.assigned count := by
  rw [assigned, limitPosition_map, offsetPosition_map]
  rfl

end Sql.PageClause

section Library

variable {L : Library}

/-- A clause with named bounds for a shard. -/
theorem clauseForShard_bounds (limit : Option L.Expr) (offset : Option (Offset L.Expr))
    (groups : List L.Expr) (count : Option Nat) (parameters : List Cell) :
    clauseForShard L (.bounds limit offset groups) count parameters = (do
      let limitPosition ← boundPosition? (limit.map L.view)
      let offsetPosition ← boundPosition? (offset.map fun o => L.view o.value)
      if limitPosition.isNone && offsetPosition.isNone then
        return (plainLimit L count, parameters)
      else
        let changed ← limitForShard L count limit limitPosition parameters
        let dropped ← offsetForShard L offset offsetPosition changed.2
        return (some (.bounds changed.1 dropped.1 groups), dropped.2)) := by
  cases limit <;> cases offset <;> rfl

/-- When a limit can be changed, and what it is changed to. -/
theorem limitForShard_eq_ok {count : Option Nat} {limit : Option L.Expr} {position : Option Nat}
    {parameters : List Cell} {changed : Option L.Expr × List Cell} :
    limitForShard L count limit position parameters = .ok changed ↔
      (∀ i ∈ position, count.isSome → i < parameters.length) ∧
      changed = (if position.isSome && count.isSome then limit
          else limit.bind fun _ => count.map (numberExpr L),
        assign parameters
          (position.bind fun i => count.map fun n => (i, .int (Int64.ofNat n))).toList) := by
  unfold limitForShard
  cases position with
  | none => simp [@eq_comm _ changed]
  | some i =>
      cases count with
      | none => simp [@eq_comm _ changed]
      | some n =>
          simp only [Except.bind_eq_ok, setParameter_eq_ok]
          constructor
          · rintro ⟨_, ⟨hi, rfl⟩, heq⟩
            cases heq
            exact ⟨fun j hj _ => Option.some.inj hj ▸ hi, rfl⟩
          · rintro ⟨hi, rfl⟩
            exact ⟨_, ⟨hi i rfl rfl, rfl⟩, rfl⟩

/-- When an offset can be changed, and what it is changed to. -/
theorem offsetForShard_eq_ok {offset : Option (Offset L.Expr)} {position : Option Nat}
    {parameters : List Cell} {changed : Option (Offset L.Expr) × List Cell} :
    offsetForShard L offset position parameters = .ok changed ↔
      (∀ i ∈ position, i < parameters.length) ∧
      changed = (if position.isSome then offset else none,
        assign parameters (position.map fun i => (i, .int 0)).toList) := by
  unfold offsetForShard
  cases position with
  | none => simp [@eq_comm _ changed]
  | some i =>
      simp only [Except.bind_eq_ok, setParameter_eq_ok]
      constructor
      · rintro ⟨_, ⟨hi, rfl⟩, heq⟩
        cases heq
        exact ⟨fun j hj => Option.some.inj hj ▸ hi, rfl⟩
      · rintro ⟨hi, rfl⟩
        exact ⟨_, ⟨hi i rfl, rfl⟩, rfl⟩

variable {R : Reading L} {clause : PageClause L.Expr} {count : Option Nat} {parameters : List Cell}

/-- A plain limit is read as one. -/
theorem view_plainLimit (hR : R.Lawful) (count : Option Nat) :
    (plainLimit L count).map (·.map L.view) = PageClause.plain count := by
  cases count with
  | none => rfl
  | some n =>
      exact congrArg (fun v => some (PageClause.bounds (some v) none [])) (hR.view_number n)

/-- The page clause for a shard, and the parameters. -/
theorem view_of_clauseForShard (hR : R.Lawful)
    {changed : Option (PageClause L.Expr) × List Cell}
    (h : clauseForShard L clause count parameters = .ok changed) :
    changed.1.map (·.map L.view) = (clause.map L.view).widened count ∧
      changed.2 = assign parameters ((clause.map L.view).assigned count) := by
  cases clause with
  | commaBounds offset limit =>
      cases h
      exact ⟨view_plainLimit hR count, rfl⟩
  | bounds limit offset groups =>
      simp only [clauseForShard_bounds, Except.bind_eq_ok] at h
      rcases h with ⟨limitPosition, hlimit, offsetPosition, hoffset, h⟩
      have hlimitPosition : (PageClause.bounds (limit.map L.view) (offset.map (·.map L.view))
          (groups.map L.view)).limitPosition? = limitPosition :=
        bind_position_of_boundPosition hlimit
      have hoffsetPosition : (PageClause.bounds (limit.map L.view) (offset.map (·.map L.view))
          (groups.map L.view)).offsetPosition? = offsetPosition := by
        rw [← bind_position_of_boundPosition hoffset]
        cases offset <;> rfl
      have hclause : (PageClause.bounds limit offset groups).map L.view =
          .bounds (limit.map L.view) (offset.map (·.map L.view)) (groups.map L.view) := rfl
      simp only [hclause, PageClause.widened, PageClause.assigned, hlimitPosition, hoffsetPosition]
      split at h
      · rename_i hnone
        cases h
        rw [Bool.and_eq_true, Option.isNone_iff_eq_none, Option.isNone_iff_eq_none] at hnone
        simp [hnone.1, hnone.2, view_plainLimit hR count]
      · rename_i hsome
        simp only [Except.bind_eq_ok, limitForShard_eq_ok, offsetForShard_eq_ok] at h
        rcases h with ⟨_, ⟨-, rfl⟩, _, ⟨-, rfl⟩, h⟩
        cases h
        rw [if_neg hsome, assign_append]
        refine ⟨congrArg some (congrArg₂ (PageClause.bounds · · _) ?_ ?_), rfl⟩
        · split
          · rfl
          · cases limit with
            | none => rfl
            | some l => cases count with
              | none => rfl
              | some n => exact congrArg some (hR.view_number n)
        · cases offsetPosition <;> rfl

/-- There is a page clause for a shard if its bounds can be changed and its parameters have
values. -/
theorem exists_clauseForShard (hclause : (clause.map L.view).IsAdjustable) (count : Option Nat)
    (hlimit : ∀ i ∈ (clause.map L.view).limitPosition?, i < parameters.length)
    (hoffset : ∀ i ∈ (clause.map L.view).offsetPosition?, i < parameters.length) :
    ∃ changed, clauseForShard L clause count parameters = .ok changed := by
  cases clause with
  | commaBounds offset limit => exact ⟨_, rfl⟩
  | bounds limit offset groups =>
      have hvalue : offset.map (fun o => L.view o.value) =
          (offset.map (·.map L.view)).map (·.value) := by
        cases offset <;> rfl
      rw [clauseForShard_bounds, hvalue, boundPosition_of_isAdjustable hclause.1,
        boundPosition_of_isAdjustable hclause.2]
      have hkept : ∃ kept, limitForShard L count limit ((limit.map L.view).bind (·.position?))
          parameters = .ok kept :=
        ⟨_, limitForShard_eq_ok.mpr ⟨fun i hi _ => hlimit i hi, rfl⟩⟩
      rcases hkept with ⟨kept, hkept⟩
      have hlength : kept.2.length = parameters.length := by
        rw [(limitForShard_eq_ok.mp hkept).2, length_assign]
      have hdropped : ∃ dropped, offsetForShard L offset
          (((offset.map (·.map L.view)).map (·.value)).bind (·.position?)) kept.2 = .ok dropped :=
        ⟨_, offsetForShard_eq_ok.mpr ⟨fun i hi => hlength.symm ▸ hoffset i hi, rfl⟩⟩
      rcases hdropped with ⟨dropped, hdropped⟩
      dsimp only [bind, Except.bind]
      split
      · exact ⟨_, rfl⟩
      · rw [hkept]
        dsimp only
        rw [hdropped]
        exact ⟨_, rfl⟩

end Library

/-! ## Commands -/

namespace Sql.Cut

/-- The page clause that cuts rows, if there is one. -/
def clause? (cut : Cut) : Option (PageClause ExprView) := cut.page.join

/-- What the parameters among the bounds are assigned when a number of rows is to be kept. -/
def assigned (cut : Cut) (count : Option Nat) : List (Nat × Cell) :=
  (cut.clause?.map fun clause => clause.assigned count).getD []

/-- The bounds that are left when a number of rows is to be kept. -/
def widened (cut : Cut) (count : Option Nat) : Cut :=
  { cut with page := cut.page.map (·.bind (·.widened count)) }

/-- A change of dotted names changes no assignment. -/
theorem assigned_map (g : List Ident → List Ident) (cut : Cut) (count : Option Nat) :
    (cut.map (·.onCompound g)).assigned count = cut.assigned count := by
  rcases cut with ⟨_ | _ | clause, fetch⟩
  · rfl
  · rfl
  · exact clause.assigned_map g count

end Sql.Cut

section Commands

variable {L : Library} {R : Reading L} (hR : R.Lawful) {page : Page} {parameters : List Cell}
include hR

/-- A command for a shard: its bounds, what is outside of them, and the parameters. -/
theorem spec_of_commandForShard {c : L.Command} {changed : L.Command × List Cell}
    (h : commandForShard L page parameters c = .ok changed) :
    R.cut changed.1 = (R.cut c).widened page.pushedDown ∧
      L.setPage none changed.1 = L.setPage none c ∧
      changed.2 = assign parameters ((R.cut c).assigned page.pushedDown) := by
  have hcut : R.cut c =
    { page := (L.page? c).map (·.map (·.map L.view)), fetch := (R.fetch? c).map (·.map L.view) } :=
      rfl
  unfold commandForShard at h
  split at h
  · rename_i clause hpage
    rw [Except.bind_eq_ok] at h
    rcases h with ⟨kept, hclause, h⟩
    cases h
    rcases view_of_clauseForShard hR hclause with ⟨hview, hassign⟩
    rw [hpage] at hcut
    rw [hR.cut_setPage kept.1 c (by rw [hpage]; rfl), hcut]
    exact ⟨congrArg (fun page => (⟨some page, _⟩ : Cut)) hview, hR.setPage_setPage _ _ c, hassign⟩
  · rename_i hpage
    cases h
    rw [hcut, hpage]
    exact ⟨rfl, rfl, rfl⟩
  · rename_i hpage
    cases h
    rw [hcut, hpage]
    exact ⟨rfl, rfl, rfl⟩

/-- Several commands for a shard, and the parameters. -/
theorem spec_of_commandsForShard {cs : List L.Command} {changed : List L.Command × List Cell}
    (h : commandsForShard L page parameters cs = .ok changed) :
    List.Forall₂ (fun c c' => R.cut c' = (R.cut c).widened page.pushedDown ∧
      L.setPage none c' = L.setPage none c) cs changed.1 ∧
    changed.2 = assign parameters (cs.flatMap fun c => (R.cut c).assigned page.pushedDown) := by
  induction cs generalizing parameters changed with
  | nil =>
      cases h
      exact ⟨.nil, rfl⟩
  | cons c cs ih =>
      unfold commandsForShard at h
      simp only [Except.bind_eq_ok] at h
      rcases h with ⟨first, hfirst, later, hlater, h⟩
      cases h
      rcases spec_of_commandForShard hR hfirst with ⟨hcut, hkept, hassign⟩
      rcases ih hlater with ⟨hcuts, hassigns⟩
      refine ⟨.cons ⟨hcut, hkept⟩ hcuts, ?_⟩
      rw [hassigns, hassign, List.flatMap_cons, assign_append]

/-- Renaming the tables of a unit does not change what is assigned. -/
theorem assigned_actual (u : RouteUnit) (c : L.Command) :
    (R.cut (u.actual L c)).assigned page.pushedDown = (R.cut c).assigned page.pushedDown := by
  rcases u.cut_actual hR c with ⟨g, hg⟩
  rw [hg, Cut.assigned_map]

end Commands

/-! ## Statements -/

/-- A statement with the page for a shard. -/
theorem adapterFor_widened {L : Library} {statement : Statement} {u : RouteUnit} {page : Page}
    (hpage : statement.shape.page = some page) {bound : BoundSql} :
    adapterFor L statement u true = .ok bound ↔ ∃ commands changed,
      L.parse? statement.sql = some commands ∧
      commandsForShard L page statement.parameters (commands.map (u.actual L)) = .ok changed ∧
      bound = { sql := L.renderAll changed.1, parameters := changed.2 } := by
  have hwidened : statement.shape.page.filter (fun _ => true) = some page := by rw [hpage]; rfl
  unfold adapterFor
  simp only [hwidened, Except.bind_eq_ok, actualCommands_eq_ok]
  constructor
  · rintro ⟨_, ⟨commands, hparse, rfl⟩, changed, hchanged, hbound⟩
    cases hbound
    exact ⟨commands, changed, hparse, hchanged, rfl⟩
  · rintro ⟨commands, changed, hparse, hchanged, rfl⟩
    exact ⟨_, ⟨commands, hparse, rfl⟩, changed, hchanged, rfl⟩

end ShardedSql
