import ShardedSql.Proofs.Execution.Atomicity

/-!
# Success

Where all connections are granted, all transaction steps are taken, no update fails and the time is
never up, the work on data sources has an answer, in a transaction of its own or not.

Main results:

- Theorem `Carries.exists_ok`: a run without failures has results.
- Theorem `Database.write_succeeds`: work that succeeds is written.
- Theorem `Session.update_succeeds`: a routed statement has an update count.
-/

namespace ShardedSql

variable {υ α : Type}

/-- Nothing fails. -/
structure Backend.Steady (b : Backend) (report : Report) : Prop where
  grants : b.GrantsAll
  controls : ∀ h step, b.control h step = .ok ()
  updates : ∀ h call, ∃ result, b.update h call = .ok result
  inTime : ∀ h, report.isExpired (b.elapsed h) = false

/-- An action has an answer. -/
def Succeeds {ε : Type} (x : ExceptT ε (StateM History) α) (h : History) : Prop :=
  Adds x h fun answer _ => ∃ a, answer = .ok a

/-- What is added by an action that succeeds comes with an answer. -/
theorem Adds.and_ok {ε : Type} {x : ExceptT ε (StateM History) α} {h : History}
    {mid : Except ε α → History → Prop} (hx : Adds x h mid) (hok : ∃ a, (x h).1 = .ok a) :
    Adds x h fun answer events => mid answer events ∧ ∃ a, answer = .ok a :=
  hx.imp fun _ hevents => ⟨hevents.1, hevents.2, hok⟩

/-- An action that succeeds has an answer. -/
theorem Succeeds.exists_ok {ε : Type} {x : ExceptT ε (StateM History) α} {h : History}
    (hx : Succeeds x h) : ∃ a, (x h).1 = .ok a :=
  hx.elim fun _ hevents => hevents.2

/-- A run without failures has results. -/
theorem Carries.exists_ok {b : Backend} {report : Report} {dataSource : υ → String}
    {work : UnitWork υ α} {units : List υ} {jobs : List (Job υ α)} {missed : List (Nat × υ)}
    {answer : Except Fault (List α)} {events : History}
    (hcarries : Carries b report dataSource work units jobs missed answer events)
    (hwork : ∀ lane u h, Succeeds (work lane u) h)
    (htime : ∀ h, report.isExpired (b.elapsed h) = false) : ∃ results, answer = .ok results := by
  cases answer with
  | ok results => exact ⟨results, rfl⟩
  | error fault =>
      rcases (hcarries.error fault rfl).exists_base with ⟨cause, hcause⟩
      cases hcause with
      | @failed job reason hjob houtcome =>
          rcases (hcarries.isOf job hjob).post (hwork job.lane job.unit job.before) with ⟨a, ha⟩
          cases houtcome.symm.trans ha
      | expired hx hexpired => cases (htime _).symm.trans hexpired

section

variable {b : Backend} {report : Report}

/-- Lanes are opened for all units. -/
theorem LaneLimits.openFor_succeeds (hgrants : b.GrantsAll) (limits : LaneLimits)
    (dataSource : υ → String) (units : List υ) (h : History) :
    Adds (limits.openFor b dataSource units) h fun answer events =>
      Opens dataSource units answer events ∧ ∃ lanes, answer = .ok lanes := by
  refine (limits.openFor_adds b dataSource units h).and_ok ?_
  rcases limits.openFor_granted hgrants dataSource units h with ⟨lanes, h', hlanes, -⟩
  exact ⟨lanes, congrArg Prod.fst hlanes⟩

/-- Units that succeed are run. -/
theorem Runner.run_succeeds (htime : ∀ h, report.isExpired (b.elapsed h) = false) (r : Runner)
    {work : UnitWork υ α} (hworks : work.Works) (hwork : ∀ lane u h, Succeeds (work lane u) h)
    {dataSource : υ → String} {lanes : List (Lane υ)} {units : List υ}
    (hhold : Lane.Hold dataSource lanes (placed units)) (h : History) :
    Succeeds (r.run b report work lanes) h :=
  (r.run_adds b report hworks hhold h).mono fun _ _ ⟨_, _, hcarries⟩ =>
    hcarries.exists_ok hwork htime

variable (hsteady : b.Steady report)

include hsteady

/-- A transaction is concluded with a commit when its work succeeds. -/
theorem Action.concludeTransaction_succeeds {work : Action α} {h : History}
    (hwork : Succeeds work h) : Succeeds (concludeTransaction b work) h := by
  have hcommitted : Succeeds (do
      let a ← work
      ofAttempt (fun reason => .transaction (.commit reason)) (b.take .commit)
      return a : Action α) h := by
    refine hwork.bind (fun a events _ => take_bind_adds (.pure ⟨a, rfl⟩) fun reason heq => ?_) ?_
    · cases (hsteady.controls _ _).symm.trans heq
    · rintro _ _ ⟨_, ⟨⟩⟩
  have hadds := concludeTransaction_adds (b := b) hwork
  refine (hadds.and_ok ?_).mono fun _ _ hevents => hevents.2
  rcases hcommitted.exists_ok with ⟨a, ha⟩
  refine ⟨a, ?_⟩
  unfold concludeTransaction
  dsimp only
  split
  · next heq =>
      rw [heq] at ha
      exact ha
  · next heq =>
      rw [heq] at ha
      cases ha

/-- Work that succeeds does so in a transaction of its own too. -/
theorem Action.inOwnTransaction_succeeds {work : Action α} {h : History}
    (hwork : ∀ h', h'.phase = h.phase → Succeeds work h') :
    Succeeds (inOwnTransaction b work) h := by
  refine take_bind_adds ?_ fun reason heq => ?_
  · refine concludeTransaction_succeeds hsteady (hwork _ ?_)
    exact History.phase_append_singleton ..
  · cases (hsteady.controls _ _).symm.trans heq

/-- Work that succeeds is written, in a transaction of its own or not. -/
theorem Database.write_succeeds (db : Database) (kind : StatementKind) (dataSources : List String)
    {work : Action α} {h : History} (hwork : ∀ h', h'.phase = h.phase → Succeeds work h') :
    Succeeds (db.write b kind dataSources work) h := by
  unfold Succeeds Adds write
  split
  · exact Action.inOwnTransaction_succeeds hsteady hwork
  · exact hwork h rfl

/-! ## Statements -/

/-- A steady backend answers every update. -/
theorem UnitWork.updating_succeeds (lane : Lane ExecutionUnit) (u : ExecutionUnit) (h : History) :
    Succeeds (b.updating lane u) h :=
  Action.ask_adds (hsteady.updates h _)

/-- The lanes of routed units are open in the prepared phase. -/
theorem Database.openLanes_succeeds (db : Database) (statement : Statement)
    (units : List ExecutionUnit) {h : History} (hphase : h.phase = .routed) :
    Succeeds (db.openLanes b statement (.units units)) h := by
  refine (LaneLimits.openFor_succeeds hsteady.grants db.limits (·.dataSource) units h).bind ?_ ?_
  · rintro lanes events ⟨hopens, -⟩
    refine Lane.enterWith_adds ?_ lanes ⟨lanes, rfl⟩
    rw [History.phase_append, hphase]
    exact History.phaseFrom_of_isWork
      (fun e he => Event.isWork_of_isLeasing (hopens.leasing e he)) _
  · rintro _ _ ⟨-, _, ⟨⟩⟩

end

namespace Database

variable (db : Database) {b : Backend} (hsteady : b.Steady db.report) (statement : Statement)
  (units : List ExecutionUnit)

include hsteady

/-- Routed units have results. -/
theorem executed_succeeds {h : History} (hphase : h.phase = .routed) :
    Succeeds (db.executed b statement (.units units) b.updating) h := by
  have hopened := (db.openLanes_adds b statement (.units units) hphase).and_ok
    (openLanes_succeeds hsteady db statement units hphase).exists_ok
  refine hopened.bind ?_ ?_
  · rintro lanes _ ⟨hopens, -⟩
    rcases hopens.ok lanes rfl with ⟨leases, rfl, hleases, hhold⟩
    refine Action.enter_bind_adds ?_ ?_
    · rw [← List.append_assoc, History.phase_append_singleton]
      rfl
    · exact Runner.run_succeeds hsteady.inTime db.runner (UnitWork.asking_works _ _)
        (UnitWork.updating_succeeds hsteady) hhold _
  · rintro _ _ ⟨-, _, ⟨⟩⟩

/-- Routed units have an update count. -/
theorem update_succeeds {h : History} (hphase : h.phase = .routed) :
    Succeeds (db.update b statement (.units units)) h := by
  rw [update_eq]
  have hexecuted := (db.executed_adds b statement (.units units) .update b.update hphase).and_ok
    (db.executed_succeeds hsteady statement units hphase).exists_ok
  refine hexecuted.bind ?_ ?_
  · rintro results events ⟨hevents, -⟩
    refine Action.enter_bind_adds ?_ (.pure ⟨_, rfl⟩)
    rw [History.phase_append, hphase, hevents.executing results rfl]
    rfl
  · rintro _ _ ⟨-, _, ⟨⟩⟩

end Database

/-- A statement that is routed to units has an update count. -/
theorem Session.update_succeeds {db : Database} {b : Backend} (hsteady : b.Steady db.report)
    {statement : Statement} {s : Session} {h : History} {units : List ExecutionUnit}
    (hroute : (s.route db (b.inTransaction (h ++ [.entered .idle])) statement).1 =
      .ok (.units units)) :
    ∃ result, (s.update db b statement h).answer = .ok result := by
  rcases request_of_ok (fun destination =>
      db.write b statement.kind destination.dataSources (db.update b statement destination)) hroute
    (Database.write_succeeds hsteady db statement.kind _ fun _ hphase =>
      db.update_succeeds hsteady statement units (hphase.trans (phase_routed h)))
    with ⟨events, hok, -⟩
  exact hok

end ShardedSql
