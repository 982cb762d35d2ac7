import ShardedSql.Proofs.Execution.Statements

/-!
# Execution of a single unit

A statement with one unit is executed on one connection and one lane, whatever the scheduler of the
workers chooses.  The unit is handed to its target once, unless the connection is denied or the time
is up before.

Main results:

- Theorem `LaneLimits.openFor_single`: one unit is given one lane.
- Theorem `Runner.run_single`: the run of one lane with one unit.
- Theorem `Database.executed_handsOver`: what executing the only unit of a statement comes to.
-/

namespace ShardedSql

variable {υ α : Type}

/-- How a run reports the fault of its only unit. -/
def FailurePolicy.reported : FailurePolicy → Fault → Fault
  | .failFast, fault => fault
  | .collectAll, fault => .several [fault]

/-! ## One lane -/

/-- The lane of a single unit. -/
def Lane.single (dataSource : String) (connection : ConnectionId) (u : υ) : Lane υ :=
  { dataSource, connection, mode := .perUnit, units := [(0, u)] }

/-- One unit is a group of its own. -/
theorem byDataSource_single (dataSource : υ → String) (u : υ) :
    byDataSource dataSource [u] = [(dataSource u, [(0, u)])] := by
  simp [byDataSource, distinctly]

theorem deal_single (x : α) : deal 1 [x] = [[x]] := by
  simp [deal, List.range_succ]

namespace LaneLimits

variable (limits : LaneLimits) (b : Backend)

/-- One unit has one lane, which it shares with no other. -/
theorem plan_single : limits.plan 1 = (1, .perUnit) := by
  unfold plan
  dsimp only
  rw [if_pos (Nat.le_max_left 1 limits.maxConnections)]

/-- One unit is given one lane, for which one connection is acquired. -/
theorem openFor_single (dataSource : υ → String) (u : υ) (h : History) :
    limits.openFor b dataSource [u] h =
      match b.acquireWithin limits.wait (dataSource u) h with
      | (.ok connection, h) => (.ok [Lane.single (dataSource u) connection u], h)
      | (.error fault, h) => (.error fault, h) := by
  unfold openFor
  rw [byDataSource_single]
  simp only [openEach, openOn, List.length_singleton, plan_single, acquire, deal_single,
    bind_apply, Action.onFault]
  cases hpair : b.acquireWithin limits.wait (dataSource u) h with
  | mk answer h' =>
      cases answer with
      | error fault => simp [Lane.releaseAll, Action.recordAll]
      | ok connection => rfl

end LaneLimits

/-! ## One run -/

namespace Runner

variable (r : Runner) (b : Backend) (report : Report) (work : UnitWork υ α)

/-- A lane that is not closed is the only choice. -/
theorem advance_open {c : Course υ α} (hopen : c.stage.isUnderWay = true ∨ c.stage.isWaiting = true)
    (first : Option Fault) (fuel : Nat) (h : History) :
    r.advance b report work (fuel + 1) ⟨[c], first⟩ h =
      let next := c.step b report work (Progress.isCancelled ⟨[c], first⟩ r.policy) h
      r.advance b report work fuel ⟨[next.1], first.or next.1.faults.head?⟩ next.2 := by
  have hchoices : Progress.choices ⟨[c], first⟩ r.workerCount = [(c, 0)] := by
    have hworkers : 0 < r.workerCount := Nat.lt_of_lt_of_le Nat.zero_lt_one (Nat.le_max_left ..)
    cases hstage : c.stage <;>
      simp_all [Progress.choices, Stage.isUnderWay, Stage.isWaiting]
  rw [advance]
  simp only [hchoices, List.length_singleton, Nat.mod_one, List.getElem?_cons_zero]
  rfl

/-- A run whose lane is closed is over. -/
theorem advance_closed {c : Course υ α} (hclosed : c.stage = .closed) (first : Option Fault)
    (fuel : Nat) (h : History) :
    r.advance b report work fuel ⟨[c], first⟩ h = (⟨[c], first⟩, h) := by
  cases fuel with
  | zero => rfl
  | succ fuel =>
      have hchoices : Progress.choices ⟨[c], first⟩ r.workerCount = [] := by
        simp [Progress.choices, Stage.isUnderWay, Stage.isWaiting, hclosed]
      rw [advance]
      simp only [hchoices]
      rfl

/-- A lane without further units is closed. -/
theorem advance_close {c : Course υ α} (hstage : c.stage = .between []) (first : Option Fault)
    (fuel : Nat) (h : History) :
    r.advance b report work (fuel + 1) ⟨[c], first⟩ h =
      (⟨[{ c with stage := .closed }], first.or c.faults.head?⟩,
        h ++ [.released c.lane.dataSource c.lane.connection]) := by
  have hstep : ∀ isCancelled, c.step b report work isCancelled h =
      ({ c with stage := .closed }, h ++ [.released c.lane.dataSource c.lane.connection]) := by
    intro isCancelled
    unfold Course.step
    rw [hstage]
    rfl
  rw [r.advance_open b report work (.inl (by rw [hstage]; rfl))]
  simp only [hstep]
  exact r.advance_closed b report work rfl _ _ _

/-- The run of one lane with one unit: the unit is not begun when the time is up, and the connection
is handed back in any case. -/
theorem run_single (dataSource : String) (connection : ConnectionId) (u : υ) (h : History) :
    r.run b report work [Lane.single dataSource connection u] h =
      if report.isExpired (b.elapsed h) then
        (.error (r.policy.reported (.deadline dataSource (report.timeout.getD 0))),
          h ++ [.released dataSource connection])
      else
        match work (Lane.single dataSource connection u) u h with
        | (.ok a, h) => (.ok [a], h ++ [.released dataSource connection])
        | (.error reason, h) =>
            (.error (r.policy.reported (.unit dataSource reason)),
              h ++ [.released dataSource connection]) := by
  let lane := Lane.single dataSource connection u
  have hcalm : ∀ c : Course υ α, Progress.isCancelled ⟨[c], none⟩ r.policy = false := by
    simp [Progress.isCancelled]
  have htaken : r.advance b report work 4 (.start [lane]) h =
      r.advance b report work 3 ⟨[{ lane, stage := .between [(0, u)] }], none⟩ h := by
    show r.advance b report work (3 + 1) ⟨[{ lane }], none⟩ h = _
    rw [r.advance_open b report work (.inr rfl)]
    simp only [Course.step, hcalm]
    rfl
  rw [run_apply]
  show (Progress.settle (r.advance b report work 4 (.start [lane]) h).1 r.policy 1,
    (r.advance b report work 4 (.start [lane]) h).2) = _
  rw [htaken, r.advance_open b report work (.inl rfl)]
  by_cases htime : report.isExpired (b.elapsed h) = true
  · simp only [Course.step, hcalm, htime, if_true, Bool.false_eq_true, if_false, Course.note]
    rw [r.advance_close b report work rfl]
    cases r.policy <;> rfl
  · simp only [Course.step, hcalm, htime, if_false, Bool.false_eq_true]
    rw [r.advance_open b report work (.inl rfl)]
    cases hwork : work lane u h with
    | mk outcome h' =>
        cases outcome with
        | ok a =>
            simp only [Course.step, Action.ofAttempt, hwork, Course.note]
            rw [r.advance_close b report work rfl]
            rfl
        | error reason =>
            simp only [Course.step, Action.ofAttempt, hwork, Course.note]
            rw [r.advance_close b report work rfl]
            cases r.policy <;> rfl

end Runner

/-! ## One unit of a statement -/

/-- The call of a unit on a connection of its own. -/
def ExecutionUnit.callOn (u : ExecutionUnit) (purpose : Purpose) (connection : ConnectionId) :
    Call :=
  { purpose, connection, mode := .perUnit, unit := u }

/-- What happens until a unit can be run on a connection of its own. -/
def ExecutionUnit.readied (u : ExecutionUnit) (connection : ConnectionId) : History :=
  [.acquired u.dataSource connection, .entered .prepared, .entered .executing]

/-- What executing the only unit of a statement comes to, from a history on. -/
inductive HandsOver (b : Backend) (report : Report) (policy : FailurePolicy) (purpose : Purpose)
    (answerTo : History → Call → Except String α) (u : ExecutionUnit) (h : History) :
    Except Fault (List α) → History → Prop
  | denied {cause : AcquisitionCause}
      (hdenied : ∀ connection, b.acquire h u.dataSource ≠ .granted connection) :
      HandsOver b report policy purpose answerTo u h (.error (.acquisition u.dataSource cause))
        [.denied u.dataSource]
  /-- The time is up before the unit is begun. -/
  | expired {connection : ConnectionId}
      (hgranted : b.acquire h u.dataSource = .granted connection)
      (htime : report.isExpired (b.elapsed (h ++ u.readied connection)) = true) :
      HandsOver b report policy purpose answerTo u h
        (.error (policy.reported (.deadline u.dataSource (report.timeout.getD 0))))
        (u.readied connection ++ [.released u.dataSource connection])
  | failed {connection : ConnectionId} {reason : String}
      (hgranted : b.acquire h u.dataSource = .granted connection)
      (hanswer : answerTo (h ++ u.readied connection) (u.callOn purpose connection) =
        .error reason) :
      HandsOver b report policy purpose answerTo u h
        (.error (policy.reported (.unit u.dataSource reason)))
        (u.readied connection ++
          [.ran (u.callOn purpose connection) (some reason), .released u.dataSource connection])
  | answered {connection : ConnectionId} {a : α}
      (hgranted : b.acquire h u.dataSource = .granted connection)
      (hanswer : answerTo (h ++ u.readied connection) (u.callOn purpose connection) = .ok a) :
      HandsOver b report policy purpose answerTo u h (.ok [a])
        (u.readied connection ++
          [.ran (u.callOn purpose connection) none, .released u.dataSource connection])

namespace Database

variable (db : Database) (b : Backend) (statement : Statement) (u : ExecutionUnit)
  (work : UnitWork ExecutionUnit α) {h : History}

/-- Nothing is run without a connection. -/
theorem executed_of_denied {fault : Fault} {h' : History}
    (hdenied : b.acquireWithin db.limits.wait u.dataSource h = (.error fault, h')) :
    db.executed b statement (.units [u]) work h = (.error fault, h') := by
  simp only [executed, openLanes, bind_apply, db.limits.openFor_single, hdenied]

/-- The only unit is run in the executing phase. -/
theorem executed_of_granted (hphase : h.phase = .routed) {connection : ConnectionId}
    (hgranted : b.acquire h u.dataSource = .granted connection) :
    db.executed b statement (.units [u]) work h =
      db.runner.run b db.report work [Lane.single u.dataSource connection u]
        (h ++ u.readied connection) := by
  have hacquired : b.acquireWithin db.limits.wait u.dataSource h =
      (.ok connection, h ++ [.acquired u.dataSource connection]) := by
    rw [Backend.acquireWithin, hgranted]
  have hleased : (h ++ [Event.acquired u.dataSource connection]).phase = .routed := by
    rw [History.phase_append_singleton, hphase]
    rfl
  have hprepared : Action.enter .prepared (h ++ [.acquired u.dataSource connection]) =
      (.ok (), h ++ [.acquired u.dataSource connection] ++ [.entered .prepared]) := by
    rw [Action.enter, hleased]
    rfl
  have hexecuting : Action.enter .executing
      (h ++ [.acquired u.dataSource connection] ++ [.entered .prepared]) =
      (.ok (), h ++ u.readied connection) := by
    rw [Action.enter, History.phase_append_singleton]
    simp [History.phaseAfter, Phase.move, Phase.canMove, ExecutionUnit.readied]
  simp only [executed, openLanes, bind_apply, db.limits.openFor_single, hacquired, Lane.enterWith,
    Action.onFault, hprepared]
  have hlanes : ∀ h', (pure [Lane.single u.dataSource connection u] :
      Action (List (Lane ExecutionUnit))) h' = (.ok [Lane.single u.dataSource connection u], h') :=
    fun _ => rfl
  simp only [hlanes, hexecuting]

/-- What executing the only unit of a statement comes to. -/
theorem executed_handsOver (purpose : Purpose) (answerTo : History → Call → Except String α)
    (hphase : h.phase = .routed) :
    Adds (db.executed b statement (.units [u]) (.asking purpose answerTo)) h
      (HandsOver b db.report db.runner.policy purpose answerTo u h) := by
  unfold Adds
  cases hgrant : b.acquire h u.dataSource with
  | refused reason =>
      have hdenied : b.acquireWithin db.limits.wait u.dataSource h =
          (.error (.acquisition u.dataSource (.refused reason)), h ++ [.denied u.dataSource]) := by
        rw [Backend.acquireWithin, hgrant]
      rw [db.executed_of_denied b statement u _ hdenied]
      exact ⟨_, rfl, .denied fun connection heq => by rw [hgrant] at heq; cases heq⟩
  | silent =>
      have hdenied : b.acquireWithin db.limits.wait u.dataSource h =
          (.error (.acquisition u.dataSource (.unanswered db.limits.wait)),
            h ++ [.denied u.dataSource]) := by
        rw [Backend.acquireWithin, hgrant]
      rw [db.executed_of_denied b statement u _ hdenied]
      exact ⟨_, rfl, .denied fun connection heq => by rw [hgrant] at heq; cases heq⟩
  | granted connection =>
      rw [db.executed_of_granted b statement u _ hphase hgrant, Runner.run_single]
      by_cases htime : db.report.isExpired (b.elapsed (h ++ u.readied connection)) = true
      · rw [if_pos htime, List.append_assoc]
        exact ⟨_, rfl, .expired hgrant htime⟩
      · have hasked : UnitWork.asking purpose answerTo (Lane.single u.dataSource connection u) u
            (h ++ u.readied connection) =
          (answerTo (h ++ u.readied connection) (u.callOn purpose connection),
            h ++ u.readied connection ++ [.ran (u.callOn purpose connection)
              (failure? (answerTo (h ++ u.readied connection) (u.callOn purpose connection)))]) :=
          rfl
        rw [if_neg htime, hasked]
        cases hanswer : answerTo (h ++ u.readied connection) (u.callOn purpose connection) with
        | ok a =>
            refine ⟨_, ?_, .answered hgrant hanswer⟩
            simp [failure?]
        | error reason =>
            refine ⟨_, ?_, .failed hgrant hanswer⟩
            simp [failure?]

end Database

end ShardedSql
