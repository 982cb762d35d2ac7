import ShardedSql.Proofs.Adaptation.PageClauses
import ShardedSql.Proofs.FailsOnly

/-!
# Faults of adaptation

An adapter that uses a library fails only with faults of adaptation: the text is no SQL, or the
bounds of its page cannot be changed.

Main result:

- Theorem `adapterFor_failsOnly`: the faults of an adapter that uses a library.
-/

namespace ShardedSql

/-- Only faults of adaptation. -/
abbrev adaptationOnly (fault : Fault) : Prop := fault.isAdaptation = true

/-- The place of a bound is looked for with faults of adaptation only. -/
theorem parameterPosition_failsOnly (bound : Sql.ExprView) :
    FailsOnly adaptationOnly (parameterPosition? bound) := by
  unfold parameterPosition?
  repeat' split
  all_goals first | exact failsOnly_ok _ | exact failsOnly_error rfl

/-- A parameter is set with faults of adaptation only. -/
theorem setParameter_failsOnly (parameters : List Cell) (position : Nat) (value : Cell) :
    FailsOnly adaptationOnly (setParameter parameters position value) := by
  unfold setParameter
  split
  · exact failsOnly_ok _
  · exact failsOnly_error rfl

section Library

variable (L : Sql.Library)

/-- A page clause for a shard fails only where a parameter is not numbered or is missing. -/
theorem clauseForShard_failsOnly (clause : Sql.PageClause L.Expr) (count : Option Nat)
    (parameters : List Cell) :
    FailsOnly adaptationOnly (clauseForShard L clause count parameters) := by
  have hlimit : ∀ limit position, FailsOnly adaptationOnly
      (limitForShard L count limit position parameters) := by
    intro limit position
    unfold limitForShard
    split
    · exact (setParameter_failsOnly _ _ _).bind fun _ => failsOnly_ok _
    · exact failsOnly_ok _
  have hoffset : ∀ offset position later, FailsOnly adaptationOnly
      (offsetForShard L offset position later) := by
    intro offset position later
    unfold offsetForShard
    split
    · exact (setParameter_failsOnly _ _ _).bind fun _ => failsOnly_ok _
    · exact failsOnly_ok _
  cases clause with
  | commaBounds offset limit => exact failsOnly_ok _
  | bounds limit offset groups =>
      have hposition : ∀ bound, FailsOnly adaptationOnly (boundPosition? bound) := by
        intro bound
        cases bound with
        | none => exact failsOnly_ok _
        | some p => exact parameterPosition_failsOnly p
      rw [clauseForShard_bounds]
      refine (hposition _).bind fun limitPosition => (hposition _).bind fun offsetPosition => ?_
      split
      · exact failsOnly_ok _
      · exact (hlimit _ _).bind fun _ => (hoffset _ _ _).bind fun _ => failsOnly_ok _

/-- The page of a command is widened with faults of adaptation only. -/
theorem commandForShard_failsOnly (page : Page) (parameters : List Cell) (command : L.Command) :
    FailsOnly adaptationOnly (commandForShard L page parameters command) := by
  unfold commandForShard
  split
  · exact (clauseForShard_failsOnly L _ _ _).bind fun _ => failsOnly_ok _
  · exact failsOnly_ok _
  · exact failsOnly_ok _

theorem commandsForShard_failsOnly (page : Page) (parameters : List Cell)
    (commands : List L.Command) :
    FailsOnly adaptationOnly (commandsForShard L page parameters commands) := by
  induction commands generalizing parameters with
  | nil => exact failsOnly_ok _
  | cons c cs ih =>
      unfold commandsForShard
      exact (commandForShard_failsOnly L page parameters c).bind fun _ =>
        (ih _).bind fun _ => failsOnly_ok _

/-- An adapter that uses a library fails only with faults of adaptation. -/
theorem adapterFor_failsOnly (statement : Statement) (u : RouteUnit) (widened : Bool) :
    FailsOnly adaptationOnly (adapterFor L statement u widened) := by
  have hactual : FailsOnly adaptationOnly (actualCommands L statement u) := by
    unfold actualCommands
    split
    · exact failsOnly_error rfl
    · split <;> exact failsOnly_ok _
  unfold adapterFor
  dsimp only
  split
  · split
    · exact hactual.bind fun _ => failsOnly_ok _
    · exact failsOnly_ok _
  · exact hactual.bind fun commands =>
      (commandsForShard_failsOnly L _ _ commands).bind fun _ => failsOnly_ok _

end Library

end ShardedSql
