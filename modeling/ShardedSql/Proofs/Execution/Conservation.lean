import ShardedSql.Proofs.Execution.Acquisition
import ShardedSql.Proofs.Execution.Run

/-!
# Conservation of connections

A run begins with the connections of its lanes at hand and ends without any, in whatever order its
lanes go on and whatever fails.  Together with the ledger of opening lanes this accounts for every
connection that a statement or a batch acquires.

Main results:

- Theorem `Runner.run_leaves`: a run releases the connections of its lanes.
- Theorem `Session.conserves_connections`: statements and batches release exactly the connections
  they acquire.
-/

namespace ShardedSql

variable {υ α β : Type}

/-! ## Runs -/

/-- Work that acquires and releases nothing. -/
def UnitWork.IsQuiet (work : UnitWork υ α) : Prop :=
  ∀ lane u atHand h, Balanced atHand h (work lane u h).2 atHand

/-- The connection of a lane that is not closed. -/
def Course.leases (c : Course υ α) : List Lease :=
  match c.stage with
  | .closed => []
  | .waiting | .between _ | .running _ _ _ => [c.lane.lease]

/-- The connections at hand in the course of a run. -/
def Progress.leases (p : Progress υ α) : List Lease :=
  p.courses.flatMap (·.leases)

section

variable {b : Backend} {report : Report} {work : UnitWork υ α}

/-- A move of a lane hands back its connection when it closes the lane, and keeps it otherwise. -/
theorem Course.Moves.balanced (hwork : work.IsQuiet) {isCancelled : Bool} {c c' : Course υ α}
    {h h' : History} (hmove : c.Moves b report work isCancelled h c' h') :
    Balanced c.leases h h' c'.leases := by
  cases hmove with
  | takeUp hstage =>
      simp only [leases, hstage]
      exact .refl _ h
  | close hstage =>
      have hopen : c.leases = [c.lane.lease] := by
        rcases hstage with hstage | ⟨-, hstage | ⟨left, hstage⟩⟩ <;> simp [leases, hstage]
      rw [hopen]
      exact balanced_released c.lane.lease [] h
  | expire hstage | start hstage =>
      simp only [leases, hstage, note_stage, note_lane]
      exact .refl _ h
  | finish hstage =>
      simp only [leases, hstage, note_stage, note_lane]
      exact hwork _ _ _ h

/-- A step of a run does the same for one of its lanes. -/
theorem Progress.Steps.balanced (hwork : work.IsQuiet) {policy : FailurePolicy}
    {p p' : Progress υ α} {h h' : History} (hstep : p.Steps b report work policy h p' h') :
    Balanced p.leases h h' p'.leases := by
  cases hstep with
  | @move before after c c' _ hcourses hmove =>
      have hrest := (hmove.balanced hwork).frame
        (before.flatMap (·.leases) ++ after.flatMap (·.leases))
      simp only [leases, hcourses, List.flatMap_append, List.flatMap_cons]
      refine hrest.perm ?_ ?_
      · exact List.perm_append_comm_assoc ..
      · exact List.perm_append_comm_assoc ..

theorem Progress.leases_start (lanes : List (Lane υ)) :
    (start lanes : Progress υ α).leases = Lane.leases lanes := by
  rw [leases, start, List.flatMap_map]
  exact List.map_eq_flatMap.symm

/-- A run releases the connections of its lanes, in whatever order these go on. -/
theorem Runner.run_leaves (r : Runner) (hwork : work.IsQuiet) (lanes : List (Lane υ))
    (h : History) :
    (r.run b report work lanes).Leaves h (Lane.leases lanes) (fun _ => []) [] := by
  have hstep : ∀ (p : Progress υ α) (h₁ : History) (p' : Progress υ α) (h₂ : History),
      p.Steps b report work r.policy h₁ p' h₂ →
        Balanced (Lane.leases lanes) h h₁ p.leases → Balanced (Lane.leases lanes) h h₂ p'.leases :=
    fun _ _ _ _ hstep hbalanced => hbalanced.trans (hstep.balanced hwork)
  have hstart : Balanced (Lane.leases lanes) h h (Progress.start lanes : Progress υ α).leases := by
    rw [Progress.leases_start]
    exact .refl _ h
  have hdone := r.advance_induction b report work hstep
    (Progress.start lanes : Progress υ α).stepsLeft hstart
  have hclosed := r.closed_of_advance b report work
    (Nat.le_refl (Progress.start lanes : Progress υ α).stepsLeft) h
  have hnone : (r.advance b report work (Progress.start lanes : Progress υ α).stepsLeft
      (.start lanes) h).1.leases = [] := by
    rw [Progress.leases, List.flatMap_eq_nil_iff]
    intro c hc
    rw [Course.leases, hclosed c hc]
  rw [hnone] at hdone
  unfold Action.Leaves
  split <;> exact hdone

end

/-! ## Work -/

/-- Asking a target neither acquires nor releases a connection. -/
theorem UnitWork.asking_quiet (purpose : Purpose) (answer : History → Call → Except String α) :
    (asking purpose answer).IsQuiet :=
  fun _ _ atHand h => balanced_concat rfl atHand h

/-- Steps one after the other keep what each of them keeps. -/
theorem balanced_bind {ε : Type} {x : ExceptT ε (StateM History) α}
    {f : α → ExceptT ε (StateM History) β} {atHand : List Lease}
    (hx : ∀ h, Balanced atHand h (x h).2 atHand)
    (hf : ∀ a h, Balanced atHand h (f a h).2 atHand) (h : History) :
    Balanced atHand h ((x >>= f) h).2 atHand := by
  have hfirst := hx h
  rw [bind_apply]
  cases hpair : x h with
  | mk answer h' =>
      rw [hpair] at hfirst
      cases answer with
      | error e => exact hfirst
      | ok a => exact hfirst.trans (hf a h')

theorem Batch.updating_quiet (b : Backend) : (Batch.updating b).IsQuiet := by
  intro lane u atHand h
  unfold Batch.updating
  generalize u.parameterSets = sets
  induction sets generalizing h with
  | nil => exact .refl atHand h
  | cons set sets ih =>
      rw [List.mapM_cons]
      refine balanced_bind ?_ ?_ h
      · refine balanced_bind (fun h => balanced_concat rfl atHand h) ?_
        exact fun _ h => .refl atHand h
      · intro _
        exact balanced_bind ih fun _ h => .refl atHand h

/-! ## Statements -/

/-- An outcome without effects keeps what is at hand. -/
theorem Action.ofExcept_leaves (x : Except Fault α) (atHand : List Lease) (h : History) :
    (Action.ofExcept x).Leaves h atHand (fun _ => atHand) atHand := by
  unfold Leaves
  split <;> exact .refl atHand h

/-- An attempt keeps what is at hand, whether it succeeds or not. -/
theorem Action.ofAttempt_leaves (fault : String → Fault) {x : Attempt α} {atHand : List Lease}
    (hx : ∀ h, Balanced atHand h (x h).2 atHand) (h : History) :
    (Action.ofAttempt fault x).Leaves h atHand (fun _ => atHand) atHand := by
  unfold Leaves
  split <;> exact hx h

namespace Database

variable (db : Database) (b : Backend) (statement : Statement) (destination : Destination)

/-- Opened lanes come to run. -/
theorem executing_leaves {h h' : History} {lanes : List (Lane ExecutionUnit)}
    (hok : db.openLanes b statement destination h = (.ok lanes, h')) :
    (Action.enter .executing).Leaves h' (Lane.leases lanes) (fun _ => Lane.leases lanes) [] := by
  unfold Action.Leaves
  rw [Action.enter_executing (db.phase_of_openLanes b statement destination hok)]
  exact balanced_concat rfl _ h'

/-- A query hands back all of its connections. -/
theorem query_leaves (h : History) :
    (db.query b statement destination).Leaves h [] (fun _ => []) [] := by
  refine (db.openLanes_leaves b statement destination h).bind ?_
  intro lanes h₁ hlanes
  refine (db.executing_leaves b statement destination hlanes).bind ?_
  intro _ h₂ _
  refine (db.runner.run_leaves (UnitWork.asking_quiet .query b.query) lanes h₂).bind ?_
  intro results h₃ _
  refine (Action.enter_leaves .merging h₃ []).bind ?_
  intro _ h₄ _
  refine (Action.ofExcept_leaves _ [] h₄).bind ?_
  intro merged h₅ _
  exact (Action.enter_leaves .done h₅ []).bind fun _ h₆ _ => Balanced.refl [] h₆

/-- So does an update. -/
theorem update_leaves (h : History) :
    (db.update b statement destination).Leaves h [] (fun _ => []) [] := by
  refine (db.openLanes_leaves b statement destination h).bind ?_
  intro lanes h₁ hlanes
  refine (db.executing_leaves b statement destination hlanes).bind ?_
  intro _ h₂ _
  refine (db.runner.run_leaves (UnitWork.asking_quiet .update b.update) lanes h₂).bind ?_
  intro results h₃ _
  exact (Action.enter_leaves .done h₃ []).bind fun _ h₄ _ => Balanced.refl [] h₄

end Database

/-- So does a batch. -/
theorem Batch.execute_leaves (batch : Batch) (limits : LaneLimits) (runner : Runner) (b : Backend)
    (report : Report) (accumulates : Bool) (h : History) :
    (batch.execute limits runner b report accumulates).Leaves h [] (fun _ => []) [] := by
  unfold execute
  split
  · exact Balanced.refl [] h
  · refine (limits.openFor_leaves b _ batch.units h).bind ?_
    intro lanes h₁ _
    exact (runner.run_leaves (Batch.updating_quiet b) lanes h₁).bind fun _ h₂ _ =>
      Balanced.refl [] h₂

/-! ## Transactions -/

namespace Action

variable {b : Backend} {work : Action α}

/-- An action that leaves nothing is one that is balanced. -/
theorem leaves_nothing_iff {x : Action α} {h : History} :
    x.Leaves h [] (fun _ => []) [] ↔ Balanced [] h (x h).2 [] := by
  unfold Leaves
  cases (x h).1 <;> exact Iff.rfl

theorem markFailed_balanced (h : History) : Balanced [] h (markFailed h).2 [] := by
  unfold markFailed
  split
  · exact balanced_concat rfl [] h
  · exact .refl [] h

/-- Transaction steps need no connections of their own. -/
theorem take_balanced (b : Backend) (step : TransactionStep) (h : History) :
    Balanced [] h (b.take step h).2 [] :=
  balanced_concat rfl [] h

theorem rollBack_balanced (b : Backend) (fault : Fault) (h : History) :
    Balanced [] h (rollBack b fault h).2 [] := by
  have htaken := take_balanced b .rollback h
  unfold rollBack
  simp only [bind, StateT.bind]
  cases hpair : b.take .rollback h with
  | mk answer h' =>
      rw [hpair] at htaken
      cases answer with
      | ok _ => exact htaken
      | error reason => exact htaken.trans (balanced_concat rfl [] h')

/-- Work that leaves nothing still does when a transaction is concluded after it. -/
theorem concludeTransaction_leaves (hwork : ∀ h, work.Leaves h [] (fun _ => []) []) (h : History) :
    (concludeTransaction b work).Leaves h [] (fun _ => []) [] := by
  have hcommitted : (do
      let a ← work
      ofAttempt (fun reason => .transaction (.commit reason)) (b.take .commit)
      return a : Action α).Leaves h [] (fun _ => []) [] :=
    (hwork h).bind fun a h₁ _ =>
      (ofAttempt_leaves _ (take_balanced b .commit) h₁).bind fun _ h₂ _ => Balanced.refl [] h₂
  rw [leaves_nothing_iff] at hcommitted ⊢
  unfold concludeTransaction
  dsimp only
  split
  · next a h' heq =>
      rw [heq] at hcommitted
      exact hcommitted
  · next fault h' heq =>
      rw [heq] at hcommitted
      exact hcommitted.trans (rollBack_balanced b fault h')

theorem startTransaction_leaves (b : Backend) (h : History) :
    (startTransaction b).Leaves h [] (fun _ => []) [] :=
  ofAttempt_leaves _ (take_balanced b .start) h

/-- Work that leaves nothing does so in a transaction of its own too. -/
theorem inOwnTransaction_leaves (hwork : ∀ h, work.Leaves h [] (fun _ => []) []) (h : History) :
    (inOwnTransaction b work).Leaves h [] (fun _ => []) [] :=
  (startTransaction_leaves b h).bind fun _ h' _ => concludeTransaction_leaves hwork h'

end Action

/-- Work that leaves nothing does so with or without such a transaction. -/
theorem Database.write_leaves (db : Database) (b : Backend) (kind : StatementKind)
    (dataSources : List String) {work : Action α}
    (hwork : ∀ h, work.Leaves h [] (fun _ => []) []) (h : History) :
    (db.write b kind dataSources work).Leaves h [] (fun _ => []) [] := by
  unfold Action.Leaves write
  split
  · exact Action.inOwnTransaction_leaves hwork h
  · exact hwork h

namespace Session

variable (db : Database) (b : Backend)

/-- A session that executes its batch hands back all connections. -/
theorem executeBatch_balanced (s : Session) (h : History) :
    Balanced [] h (s.executeBatch db b h).history [] := by
  unfold executeBatch
  cases hmode : s.batchMode with
  | none => exact .refl [] h
  | some mode =>
      have hwork := s.batch.execute_leaves db.limits db.runner b db.report mode.accumulates
      by_cases htransaction : needsTransaction db.implicitCommit mode.kind
          (s.batch.units.map (·.dataSource)) (b.inTransaction h)
      · have hstarted := Action.leaves_nothing_iff.mp (Action.startTransaction_leaves b h)
        simp only [htransaction, if_true]
        cases hpair : Action.startTransaction b h with
        | mk answer h' =>
            rw [hpair] at hstarted
            cases answer with
            | error fault => exact hstarted
            | ok _ =>
                have hconcluded := Action.concludeTransaction_leaves (b := b) hwork h'
                exact hstarted.trans (Action.leaves_nothing_iff.mp hconcluded)
      · simp only [htransaction]
        exact Action.leaves_nothing_iff.mp (hwork h)

/-- A session that executes a statement hands back all connections, if the work does. -/
theorem request_balanced (statement : Statement) {work : Destination → Action α}
    (hwork : ∀ destination h, (work destination).Leaves h [] (fun _ => []) []) (s : Session)
    (h : History) :
    Balanced [] h (request db b statement work s h).history [] := by
  have haction : ∀ destination : Except Fault Destination, ∀ h',
      ((do
        let destination ← Action.ofExcept destination
        Action.enter .routed
        work destination : Action α).onFault Action.markFailed).Leaves h' [] (fun _ => []) [] := by
    intro destination h'
    refine Action.Leaves.onFault ?_ Action.markFailed_balanced
    exact (Action.ofExcept_leaves destination [] h').bind fun target h₁ _ =>
      (Action.enter_leaves .routed h₁ []).bind fun _ h₂ _ => hwork target h₂
  have hentered : Balanced [] h (h ++ [.entered .idle]) [] := balanced_concat rfl [] h
  exact hentered.trans (Action.leaves_nothing_iff.mp (haction _ _))

/-- Statements and batches release exactly the connections they acquire, whatever fails. -/
theorem conserves_connections (statement : Statement) (s : Session) (h : History) :
    (∃ events, (s.query db b statement h).history = h ++ events ∧ Conserves events) ∧
    (∃ events, (s.update db b statement h).history = h ++ events ∧ Conserves events) ∧
    ∃ events, (s.executeBatch db b h).history = h ++ events ∧ Conserves events := by
  have hconserves : ∀ h', Balanced [] h h' [] → ∃ events, h' = h ++ events ∧ Conserves events :=
    fun h' hbalanced => hbalanced.imp fun _ hevents => ⟨hevents.1, hevents.2.conserves⟩
  refine ⟨hconserves _ ?_, hconserves _ ?_, hconserves _ ?_⟩
  · exact request_balanced db b statement (db.query_leaves b statement) s h
  · exact request_balanced db b statement (fun destination h' =>
      db.write_leaves b _ _ (db.update_leaves b statement destination) h') s h
  · exact executeBatch_balanced db b s h

end Session

end ShardedSql
