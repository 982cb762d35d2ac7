import ShardedSql.Proofs.Execution.Atomicity
import ShardedSql.Proofs.FailsOnly

/-!
# Where statements are run

Executing a routed statement runs its units once its lanes are open, or fails before any of them.
Nothing is run elsewhere in the course of a request, so that a statement is only run where it goes.

Main results:

- Theorem `Database.executed_cases`: what executing a routed statement comes to.
- Theorem `Session.request_runsOnly`: a statement is only run where it goes.
-/

namespace ShardedSql

variable {α : Type}

/-! ## Executions -/

/-- Lanes are not opened only for lack of a connection or of something to run. -/
theorem Database.openLanes_failsOnly (db : Database) (b : Backend) (statement : Statement)
    (destination : Destination) {h : History} (hphase : h.phase = .routed) :
    Adds (db.openLanes b statement destination) h fun answer _ =>
      FailsOnly (fun fault => fault.isExecution = true) answer := by
  have hopened : ∀ (action : Action (List (Lane ExecutionUnit))),
      (Adds action h fun answer events => (∀ e ∈ events, e.isLeasing = true) ∧
        FailsOnly (fun fault => fault.isExecution = true) answer) →
      Adds (action >>= Lane.enterWith .prepared) h fun answer _ =>
        FailsOnly (fun fault => fault.isExecution = true) answer := by
    intro action haction
    refine haction.bind (fun lanes events hevents => ?_) fun fault events hevents => hevents.2
    have hstays : (h ++ events).phase = .routed := by
      rw [History.phase_append, hphase]
      exact History.phaseFrom_of_isWork
        (fun e he => Event.isWork_of_isLeasing (hevents.1 e he)) _
    exact Lane.enterWith_adds hstays lanes (failsOnly_ok _)
  have hunits : ∀ units : List ExecutionUnit,
      Adds (db.limits.openFor b (·.dataSource) units) h fun answer events =>
        (∀ e ∈ events, e.isLeasing = true) ∧
          FailsOnly (fun fault => fault.isExecution = true) answer := by
    intro units
    refine (db.limits.openFor_adds b (·.dataSource) units h).mono fun answer events hevents => ?_
    refine ⟨hevents.leasing, fun fault hfault => ?_⟩
    rcases hevents.denied fault hfault with ⟨-, -, -, rfl, -⟩
    rfl
  cases destination with
  | units us => exact hopened _ (hunits us)
  | computeInstance id =>
      refine hopened _ ?_
      unfold LaneLimits.openRedirected
      split
      · exact ⟨[], (List.append_nil h).symm, List.forall_mem_nil _, failsOnly_error rfl⟩
      · exact hunits _

/-- What executing a routed statement comes to. -/
inductive Destination.Executed (destination : Destination) (statement : Statement) (b : Backend)
    (report : Report) (purpose : Purpose) (answerTo : History → Call → Except String α) :
    Except Fault (List α) → History → Prop
  | ran {jobs : List (Job ExecutionUnit α)} {missed : List (Nat × ExecutionUnit)}
      {answer : Except Fault (List α)} {leases run : History}
      (hleases : ∀ e ∈ leases, e.isLeasing = true)
      (hcarries : Carries b report (·.dataSource) (.asking purpose answerTo)
        (destination.unitsOf statement) jobs missed answer run) :
      Executed destination statement b report purpose answerTo answer
        (leases ++ .entered .prepared :: .entered .executing :: run)
  | unopened {fault : Fault} {leases : History} (hfault : fault.isExecution = true)
      (hleases : ∀ e ∈ leases, e.isLeasing = true) :
      Executed destination statement b report purpose answerTo (.error fault) leases

/-- What executing a routed statement comes to. -/
theorem Database.executed_cases (db : Database) (b : Backend) (statement : Statement)
    (destination : Destination) (purpose : Purpose)
    (answerTo : History → Call → Except String α) {h : History} (hphase : h.phase = .routed) :
    Adds (db.executed b statement destination (.asking purpose answerTo)) h
      (destination.Executed statement b db.report purpose answerTo) := by
  have hopen := (db.openLanes_adds b statement destination hphase).and
    (db.openLanes_failsOnly b statement destination hphase)
  refine hopen.bind ?_ ?_
  · rintro lanes opening ⟨hopening, -⟩
    rcases hopening.ok lanes rfl with ⟨leases, rfl, hleases, hhold⟩
    have hprepared : (h ++ (leases ++ [Event.entered .prepared])).phase = .prepared := by
      rw [← List.append_assoc, History.phase_append_singleton]
      rfl
    refine Action.enter_bind_adds (by rw [hprepared]; rfl) ?_
    refine (db.runner.run_adds b db.report (UnitWork.asking_works purpose answerTo) hhold _).mono ?_
    rintro answer run ⟨jobs, missed, hcarries⟩
    rw [List.append_assoc]
    exact .ran hleases hcarries
  · rintro fault leases ⟨hopening, hfault⟩
    exact .unopened (hfault fault rfl) (hopening.error fault rfl).1

/-! ## Units that are run -/

/-- Only some units are run in the course of events. -/
def History.RunsOnly (units : List ExecutionUnit) (events : History) : Prop :=
  ∀ call ∈ events.calls, call.unit ∈ units

namespace History

variable {units : List ExecutionUnit} {events later : History}

/-- Where nothing is run, nothing else is. -/
theorem runsOnly_of_runs_eq_nil (hruns : runs events = []) : RunsOnly units events := by
  unfold RunsOnly
  rw [calls_eq, hruns]
  exact List.forall_mem_nil _

/-- A history runs these units only if its parts do. -/
theorem runsOnly_append :
    RunsOnly units (events ++ later) ↔ RunsOnly units events ∧ RunsOnly units later := by
  unfold RunsOnly
  rw [calls_append, List.forall_mem_append]

theorem runsOnly_cons {e : Event} (he : runs [e] = []) :
    RunsOnly units (e :: events) ↔ RunsOnly units events := by
  rw [← List.singleton_append, runsOnly_append]
  exact and_iff_right (runsOnly_of_runs_eq_nil he)

end History

namespace Action

/-- Entering a phase runs nothing. -/
theorem enter_runsOnly (units : List ExecutionUnit) (next : Phase) (h : History) :
    Adds (enter next) h fun _ events => History.RunsOnly units events := by
  unfold Adds enter
  cases h.phase.move next with
  | ok phase => exact ⟨_, rfl, History.runsOnly_of_runs_eq_nil rfl⟩
  | error fault => exact ⟨[], (List.append_nil h).symm, History.runsOnly_of_runs_eq_nil rfl⟩

/-- Steps one after the other run these units only if each of them does. -/
theorem bind_runsOnly {β : Type} {units : List ExecutionUnit} {x : Action α} {f : α → Action β}
    {h : History} (hx : Adds x h fun _ events => History.RunsOnly units events)
    (hf : ∀ a h', Adds (f a) h' fun _ events => History.RunsOnly units events) :
    Adds (x >>= f) h fun _ events => History.RunsOnly units events :=
  hx.bind (fun a _ hevents => (hf a _).mono fun _ _ hlater =>
    History.runsOnly_append.mpr ⟨hevents, hlater⟩) fun _ _ hevents => hevents

end Action

namespace Database

variable (db : Database) (b : Backend) (statement : Statement) (destination : Destination)

/-- Executing a statement runs it where it goes. -/
theorem executed_runsOnly (purpose : Purpose) (answerTo : History → Call → Except String α)
    {h : History} (hphase : h.phase = .routed) :
    Adds (db.executed b statement destination (.asking purpose answerTo)) h fun _ events =>
      History.RunsOnly (destination.unitsOf statement) events := by
  refine (db.executed_cases b statement destination purpose answerTo hphase).mono ?_
  rintro answer events (⟨hleases, hcarries⟩ | ⟨-, hleases⟩)
  · rcases hcarries.performs with ⟨skipped, hperforms⟩
    refine History.runsOnly_append.mpr
      ⟨History.runsOnly_of_runs_eq_nil (History.runs_of_isLeasing hleases), ?_⟩
    rw [History.runsOnly_cons rfl, History.runsOnly_cons rfl]
    intro call hcall
    exact hperforms.units.subset (List.mem_append_left _ (List.mem_map_of_mem hcall))
  · exact History.runsOnly_of_runs_eq_nil (History.runs_of_isLeasing hleases)

/-- A query runs the units of its statement only. -/
theorem query_runsOnly {h : History} (hphase : h.phase = .routed) :
    Adds (db.query b statement destination) h fun _ events =>
      History.RunsOnly (destination.unitsOf statement) events := by
  have hnothing : ∀ h', h' = h' ++ ([] : History) := fun h' => (List.append_nil h').symm
  rw [query_eq]
  refine Action.bind_runsOnly (db.executed_runsOnly b statement destination .query b.query hphase)
    fun results _ => Action.bind_runsOnly (Action.enter_runsOnly _ _ _) fun _ h' => ?_
  refine Action.bind_runsOnly ⟨[], hnothing h', History.runsOnly_of_runs_eq_nil rfl⟩
    fun merged _ => Action.bind_runsOnly (Action.enter_runsOnly _ _ _) fun _ h' => ?_
  exact ⟨[], hnothing h', History.runsOnly_of_runs_eq_nil rfl⟩

/-- So does an update. -/
theorem update_runsOnly {h : History} (hphase : h.phase = .routed) :
    Adds (db.update b statement destination) h fun _ events =>
      History.RunsOnly (destination.unitsOf statement) events := by
  rw [update_eq]
  refine Action.bind_runsOnly (db.executed_runsOnly b statement destination .update b.update hphase)
    fun results _ => Action.bind_runsOnly (Action.enter_runsOnly _ _ _) fun _ h' => ?_
  exact ⟨[], (List.append_nil h').symm, History.runsOnly_of_runs_eq_nil rfl⟩

end Database

/-- A transaction runs nothing but the work that is done in it. -/
theorem Transacts.runsOnly {units : List ExecutionUnit} {answer : Except Fault α}
    {events : History}
    (htransacts : Transacts (fun _ events => History.RunsOnly units events) answer events) :
    History.RunsOnly units events := by
  cases htransacts with
  | notStarted => exact History.runsOnly_of_runs_eq_nil rfl
  | started hends =>
      refine (History.runsOnly_cons rfl).mpr ?_
      cases hends with
      | committed hwork =>
          exact History.runsOnly_append.mpr ⟨hwork, History.runsOnly_of_runs_eq_nil rfl⟩
      | notCommitted hwork hending =>
          exact History.runsOnly_append.mpr ⟨hwork, (History.runsOnly_cons rfl).mpr
            (History.runsOnly_of_runs_eq_nil hending.runs_eq)⟩
      | failed hwork hending =>
          exact History.runsOnly_append.mpr
            ⟨hwork, History.runsOnly_of_runs_eq_nil hending.runs_eq⟩

/-- A reply for which one unit is run and no other. -/
def Reply.RunsOnly (r : Reply α) (h : History) (units : List ExecutionUnit) : Prop :=
  ∃ events, r.history = h ++ events ∧ History.RunsOnly units events

namespace Session

variable {db : Database} {b : Backend} {statement : Statement} {s : Session} {h : History}

/-- A statement is only run where it goes. -/
theorem request_runsOnly {work : Destination → Action α} {destination : Destination}
    (hroute : (s.route db (b.inTransaction (h ++ [.entered .idle])) statement).1 = .ok destination)
    (hwork : ∀ h', h'.phase = .routed → Adds (work destination) h' fun _ events =>
      History.RunsOnly (destination.unitsOf statement) events) :
    (request db b statement work s h).RunsOnly h (destination.unitsOf statement) := by
  rcases request_of_ok work hroute (hwork _ (phase_routed h)) with ⟨events, hevents, hhistory⟩
  rw [List.append_assoc, List.append_assoc] at hhistory
  refine ⟨_, hhistory, History.runsOnly_append.mpr ⟨History.runsOnly_of_runs_eq_nil rfl,
    History.runsOnly_append.mpr ⟨hevents, fun call hcall => ?_⟩⟩⟩
  rw [calls_marked] at hcall
  cases hcall

theorem query_runsOnly {destination : Destination}
    (hroute : (s.route db (b.inTransaction (h ++ [.entered .idle])) statement).1 =
      .ok destination) :
    (s.query db b statement h).RunsOnly h (destination.unitsOf statement) :=
  request_runsOnly hroute fun _ hphase => db.query_runsOnly b statement destination hphase

theorem update_runsOnly {destination : Destination}
    (hroute : (s.route db (b.inTransaction (h ++ [.entered .idle])) statement).1 =
      .ok destination) :
    (s.update db b statement h).RunsOnly h (destination.unitsOf statement) := by
  refine request_runsOnly hroute fun h' hphase => ?_
  refine (db.write_adds b statement.kind destination.dataSources fun h'' hsame =>
    db.update_runsOnly b statement destination (hsame.trans hphase)).mono ?_
  intro answer events hevents
  split at hevents
  · exact hevents.runsOnly
  · exact hevents

end Session

end ShardedSql
