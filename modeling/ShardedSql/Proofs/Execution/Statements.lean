import ShardedSql.Session
import ShardedSql.Proofs.Execution.Account
import ShardedSql.Proofs.Execution.Opening

/-!
# Execution of routed statements

A routed statement opens its lanes, runs its units and ends.  It leads to the last phase when it has
an answer, and otherwise to a phase in which it can fail; its units are run at most once each; and a
fault is that of a denied connection, of a unit that has failed, or of the time that was up.

Main results:

- Theorem `Carries.serves`: which units are run in the course of a run.
- Theorem `Database.executed_adds`: what executing the units of a statement comes to.
- Theorems `Database.query_adds` and `Database.update_adds`: what the two kinds of requests come to.
-/

namespace ShardedSql

variable {υ α : Type}

/-! ## Units that are run -/

/-- Units are run at most once each, and the others are skipped; with an answer all of them have
been run, and none has failed. -/
structure Serves {ε : Type} (units skipped : List ExecutionUnit) (answer : Except ε α)
    (events : History) : Prop where
  units : (events.calls.map (·.unit) ++ skipped).Perm units
  ok : ∀ a, answer = .ok a → skipped = [] ∧ ∀ run ∈ events.runs, run.2 = none

namespace Serves

variable {ε : Type} {units skipped others : List ExecutionUnit} {events later : History}

/-- Other units are run after some that have succeeded. -/
theorem append {β : Type} {a : β} {answer : Except ε α}
    (hserves : Serves units [] (.ok a : Except ε β) events)
    (hothers : Serves others skipped answer later) :
    Serves (units ++ others) skipped answer (events ++ later) := by
  refine ⟨?_, fun a' ha' => ⟨(hothers.ok a' ha').1, ?_⟩⟩
  · rw [History.calls_append, List.map_append, List.append_assoc]
    have hunits := hserves.units
    rw [List.append_nil] at hunits
    exact hunits.append hothers.units
  · rw [History.runs_append, List.forall_mem_append]
    exact ⟨(hserves.ok a rfl).2, (hothers.ok a' ha').2⟩

/-- What the answer is does not matter. -/
theorem answer {ε' β : Type} {a : β} (hserves : Serves units skipped (.ok a : Except ε β) events)
    (a' : α) : Serves units skipped (.ok a' : Except ε' α) events :=
  ⟨hserves.units, fun _ _ => hserves.ok a rfl⟩

/-- What the fault is does not matter. -/
theorem error {ε' β : Type} {answer : Except ε β} {e : ε'}
    (hserves : Serves units skipped answer events) :
    Serves units skipped (.error e : Except ε' α) events :=
  ⟨hserves.units, fun _ heq => (nomatch heq)⟩

/-- Other units are skipped after one has failed. -/
theorem fail {ε' β : Type} {e : ε} {e' : ε'}
    (hserves : Serves units skipped (.error e : Except ε β) events)
    (others : List ExecutionUnit) :
    Serves (units ++ others) (skipped ++ others) (.error e' : Except ε' α) events := by
  refine ⟨?_, fun _ heq => (nomatch heq)⟩
  rw [← List.append_assoc]
  exact hserves.units.append_right others

/-- Events that are no calls may come before and after. -/
theorem frame {answer : Except ε α} (hserves : Serves units skipped answer events)
    {earlier : History} (hearlier : History.runs earlier = []) (hlater : History.runs later = []) :
    Serves units skipped answer (earlier ++ events ++ later) := by
  have hruns := History.runs_frame hearlier hlater events
  refine ⟨?_, ?_⟩
  · rw [History.calls_eq, hruns, ← History.calls_eq]
    exact hserves.units
  · rw [hruns]
    exact hserves.ok

end Serves

/-- Asking a target runs the unit once. -/
theorem UnitWork.asking_serves (purpose : Purpose) (answer : History → Call → Except String α)
    (lane : Lane ExecutionUnit) (u : ExecutionUnit) (h : History) :
    Adds (asking purpose answer lane u) h (Serves [u] []) := by
  refine Action.ask_adds ⟨.refl _, fun a ha => ⟨rfl, ?_⟩⟩
  rw [ha]
  exact List.forall_mem_singleton.mpr rfl

theorem UnitWork.asking_works (purpose : Purpose) (answer : History → Call → Except String α) :
    (asking purpose answer).Works :=
  fun _ _ _ => Action.ask_adds (List.forall_mem_singleton.mpr rfl)

/-- What is true of the work done for a unit is true of its job. -/
theorem Job.IsOf.post {job : Job υ α} {work : UnitWork υ α} (hjob : job.IsOf work)
    {post : Except String α → History → Prop}
    (hwork : Adds (work job.lane job.unit) job.before post) : post job.outcome job.events := by
  rcases hwork with ⟨events, hhistory, hpost⟩
  rw [hjob] at hhistory hpost
  rw [List.append_cancel_left hhistory]
  exact hpost

/-- The units that are run by some jobs, and those that they skip. -/
theorem Job.serves_all {unitsOf : υ → List ExecutionUnit} {jobs : List (Job υ α)}
    (hjobs : ∀ job ∈ jobs, ∃ skipped, Serves (unitsOf job.unit) skipped job.outcome job.events) :
    ∃ skipped,
      ((jobs.flatMap (·.events.runs)).map (·.1.unit) ++ skipped).Perm
        (jobs.flatMap fun job => unitsOf job.unit) ∧
      ((∀ job ∈ jobs, ∃ a, job.outcome = .ok a) →
        skipped = [] ∧ ∀ run ∈ jobs.flatMap (·.events.runs), run.2 = none) := by
  induction jobs with
  | nil => exact ⟨[], .refl _, fun _ => ⟨rfl, List.forall_mem_nil _⟩⟩
  | cons job jobs ih =>
      rw [List.forall_mem_cons] at hjobs
      rcases hjobs.1 with ⟨own, hown⟩
      rcases ih hjobs.2 with ⟨others, hothers, hok⟩
      have hunits := hown.units
      rw [History.calls_eq, List.map_map] at hunits
      refine ⟨own ++ others, ?_, fun hall => ?_⟩
      · simp only [List.flatMap_cons, List.map_append]
        refine List.Perm.trans ?_ (hunits.append hothers)
        rw [List.append_assoc, List.append_assoc]
        refine List.Perm.append_left _ ?_
        rw [← List.append_assoc, ← List.append_assoc]
        exact List.perm_append_comm.append_right _
      · rw [List.forall_mem_cons] at hall
        rcases hall.1 with ⟨a, ha⟩
        rcases hown.ok a ha with ⟨rfl, hownRuns⟩
        rcases hok hall.2 with ⟨rfl, hotherRuns⟩
        refine ⟨rfl, ?_⟩
        rw [List.flatMap_cons]
        exact List.forall_mem_append.mpr ⟨hownRuns, hotherRuns⟩

section

variable {b : Backend} {report : Report} {dataSource : υ → String} {work : UnitWork υ α}
  {units : List υ} {jobs : List (Job υ α)} {missed : List (Nat × υ)}
  {answer : Except Fault (List α)} {events : History}

/-- Which units are run in the course of a run, and which are skipped: those of the missed ones are
among them. -/
theorem Carries.serves
    (hcarries : Carries b report dataSource work units jobs missed answer events)
    {unitsOf : υ → List ExecutionUnit}
    (hwork : ∀ lane u h, Adds (work lane u) h fun answer events =>
      ∃ skipped, Serves (unitsOf u) skipped answer events) :
    ∃ skipped, Serves (units.flatMap unitsOf) skipped answer events ∧
      ∀ x ∈ missed, unitsOf x.2 ⊆ skipped := by
  rcases Job.serves_all fun job hjob =>
    (hcarries.isOf job hjob).post (hwork job.lane job.unit job.before) with ⟨left, hleft, hok⟩
  refine ⟨left ++ missed.flatMap fun x => unitsOf x.2, ⟨?_, ?_⟩, ?_⟩
  · have hunits := ((hcarries.entries.map (·.2)).flatMap_right unitsOf)
    rw [map_snd_placed, List.map_append, List.flatMap_append, List.map_map, List.flatMap_map,
      List.flatMap_map] at hunits
    rw [History.calls_eq, hcarries.runs, List.map_map, ← List.append_assoc]
    exact (hleft.append_right _).trans hunits
  · intro results hresults
    rcases hcarries.ok results hresults with ⟨rfl, -, hall⟩
    rcases hok fun job hjob => (hall job hjob).imp fun _ ha => ha.1 with ⟨rfl, hruns⟩
    refine ⟨rfl, ?_⟩
    rw [hcarries.runs]
    exact hruns
  · intro x hx u hu
    exact List.mem_append_right _ (List.mem_flatMap.mpr ⟨x, hx, hu⟩)

/-- What the results of units depend on, in the order of the units. -/
theorem Carries.map_results {γ : Type} {g : α → γ} {f : υ → γ} {results : List α}
    (hcarries : Carries b report dataSource work units jobs missed (.ok results) events)
    (hwork : ∀ lane u h, Adds (work lane u) h fun answer _ => ∀ a, answer = .ok a → g a = f u) :
    results.map g = units.map f := by
  rcases hcarries.ok results rfl with ⟨rfl, hlength, hall⟩
  have hentries := hcarries.entries
  rw [List.append_nil] at hentries
  refine List.ext_getElem? fun place => ?_
  rw [List.getElem?_map, List.getElem?_map]
  cases hunit : units[place]? with
  | none =>
      have hnone : results[place]? = none := by
        rw [List.getElem?_eq_none_iff] at hunit ⊢
        rwa [hlength]
      rw [hnone]
      rfl
  | some u =>
      rcases List.mem_map.mp (hentries.mem_iff.mpr ((mem_placed units).mpr hunit))
        with ⟨job, hjob, hentry⟩
      rcases hall job hjob with ⟨a, ha, hat⟩
      have hgf := (hcarries.isOf job hjob).post (hwork job.lane job.unit job.before) a ha
      have hplace : job.place = place := congrArg Prod.fst hentry
      have hsame : job.unit = u := congrArg Prod.snd hentry
      rw [← hplace, hat, Option.map_some, Option.map_some, hgf, hsame]

end

/-! ## Units of a statement -/

/-- The faults of the steps that can fail in the execution of a statement. -/
inductive StemsFrom (b : Backend) (report : Report) (skipped : List ExecutionUnit)
    (events : History) : Fault → Prop
  | denied {u : ExecutionUnit} {cause : AcquisitionCause} (hu : u ∈ skipped)
      (hdenied : .denied u.dataSource ∈ events) :
      StemsFrom b report skipped events (.acquisition u.dataSource cause)
  | failed {call : Call} {reason : String} (hran : .ran call (some reason) ∈ events) :
      StemsFrom b report skipped events (.unit call.unit.dataSource reason)
  /-- The time was up before a unit could be begun. -/
  | expired {u : ExecutionUnit} {h : History} (hu : u ∈ skipped)
      (htime : report.isExpired (b.elapsed h) = true) :
      StemsFrom b report skipped events (.deadline u.dataSource (report.timeout.getD 0))

/-- What executing units comes to.  There is an answer if every unit has been run and none has
failed; a fault is that of a step that has failed. -/
structure Performs (b : Backend) (report : Report) (units skipped : List ExecutionUnit)
    (answer : Except Fault α) (events : History) : Prop where
  units : (events.calls.map (·.unit) ++ skipped).Perm units
  ok_iff : (∃ a, answer = .ok a) ↔ skipped = [] ∧ ∀ run ∈ events.runs, run.2 = none
  fault : ∀ fault, answer = .error fault → fault.Joins (StemsFrom b report skipped events)

/-- Units that are served are performed, if a fault stems from one of them. -/
theorem Serves.performs {b : Backend} {report : Report} {units skipped : List ExecutionUnit}
    {answer : Except Fault α} {events : History} (hserves : Serves units skipped answer events)
    (hfault : ∀ fault, answer = .error fault →
      fault.Joins (StemsFrom b report skipped events)) :
    Performs b report units skipped answer events := by
  refine ⟨hserves.units, ⟨fun ⟨a, ha⟩ => hserves.ok a ha, ?_⟩, hfault⟩
  rintro ⟨rfl, hruns⟩
  cases answer with
  | ok a => exact ⟨a, rfl⟩
  | error fault =>
      rcases (hfault fault rfl).exists_base with ⟨cause, hcause⟩
      cases hcause with
      | denied hu _ | expired hu _ => cases hu
      | failed hran => cases hruns _ (History.mem_runs.mpr hran)

section

variable {b : Backend} {report : Report} {purpose : Purpose}
  {answerTo : History → Call → Except String α} {units : List ExecutionUnit}
  {jobs : List (Job ExecutionUnit α)} {missed : List (Nat × ExecutionUnit)}
  {answer : Except Fault (List α)} {events : History}

/-- A unit that has failed was run. -/
theorem Job.IsOf.failed {job : Job ExecutionUnit α} (hjob : job.IsOf (.asking purpose answerTo))
    {reason : String} (houtcome : job.outcome = .error reason) :
    ∃ call, call.unit = job.unit ∧ .ran call (some reason) ∈ job.events := by
  have hasked : Adds (UnitWork.asking purpose answerTo job.lane job.unit) job.before
      fun outcome events => outcome = .error reason →
        ∃ call, call.unit = job.unit ∧ .ran call (some reason) ∈ events := by
    refine Action.ask_adds fun herror => ⟨job.lane.call purpose job.unit, rfl, ?_⟩
    rw [herror]
    exact List.mem_singleton_self _
  exact hjob.post hasked houtcome

/-- Running units that are handed to their targets performs them. -/
theorem Carries.performs
    (hcarries : Carries b report (·.dataSource) (.asking purpose answerTo) units jobs missed answer
      events) :
    ∃ skipped, Performs b report units skipped answer events := by
  rcases hcarries.serves fun lane u h =>
    (UnitWork.asking_serves purpose answerTo lane u h).mono fun _ _ hserves => ⟨[], hserves⟩
    with ⟨skipped, hserves, hmissed⟩
  rw [List.flatMap_singleton'] at hserves
  refine ⟨skipped, hserves.performs fun fault hfault =>
    (hcarries.error fault hfault).mono fun cause hcause => ?_⟩
  cases hcause with
  | @failed job reason hjob houtcome =>
      rcases (hcarries.isOf job hjob).failed houtcome with ⟨call, hunit, hran⟩
      rw [← hunit]
      refine .failed (History.mem_runs.mp ?_)
      rw [hcarries.runs]
      exact List.mem_flatMap.mpr ⟨job, hjob, History.mem_runs.mpr hran⟩
  | @expired x h hx htime =>
      exact .expired (hmissed x hx (List.mem_singleton_self x.2)) htime

end

/-! ## Executed statements -/

/-- An execution that has been routed is done with its answer, and can fail otherwise. -/
structure Concludes (answer : Except Fault α) (events : History) : Prop where
  done : ∀ a, answer = .ok a → History.phaseFrom .routed events = .done
  /-- A fault comes in a phase that can fail. -/
  canFail : ∀ fault, answer = .error fault →
    (History.phaseFrom .routed events).canMove .failed = true

/-- What executing the units of a statement comes to. -/
structure Destination.Executes (destination : Destination) (statement : Statement) (b : Backend)
    (report : Report) (purpose : Purpose) (answerTo : History → Call → Except String α)
    (answer : Except Fault (List α)) (events : History) : Prop where
  executing : ∀ results, answer = .ok results → History.phaseFrom .routed events = .executing
  /-- A fault comes in a phase that can fail. -/
  canFail : ∀ fault, answer = .error fault →
    (History.phaseFrom .routed events).canMove .failed = true
  uncontrolled : ∀ e ∈ events, e.isControl = false
  /-- Results are those of a run of the units. -/
  carries : ∀ results, answer = .ok results → ∃ jobs ran,
    Carries b report (·.dataSource) (.asking purpose answerTo) (destination.unitsOf statement) jobs
      [] answer ran
  /-- The units of the statement are performed. -/
  performs : ∀ units, destination = .units units →
    ∃ skipped, Performs b report units skipped answer events

/-- Events that are no calls may come before and after. -/
theorem Performs.frame {b : Backend} {report : Report} {units skipped : List ExecutionUnit}
    {answer : Except Fault α} {events : History}
    (hperforms : Performs b report units skipped answer events) {earlier later : History}
    (hearlier : History.runs earlier = []) (hlater : History.runs later = []) :
    Performs b report units skipped answer (earlier ++ events ++ later) := by
  have hruns := History.runs_frame hearlier hlater events
  have hmem : ∀ e ∈ events, e ∈ earlier ++ events ++ later :=
    fun e he => List.mem_append_left _ (List.mem_append_right _ he)
  refine ⟨?_, ?_, fun fault hfault => (hperforms.fault fault hfault).mono fun cause hcause => ?_⟩
  · rw [History.calls_eq, hruns, ← History.calls_eq]
    exact hperforms.units
  · rw [hruns]
    exact hperforms.ok_iff
  · cases hcause with
    | denied hu hdenied => exact .denied hu (hmem _ hdenied)
    | failed hran => exact .failed (hmem _ hran)
    | expired hu htime => exact .expired hu htime

/-- A denied connection, before any unit is run. -/
theorem Performs.of_denied {b : Backend} {report : Report} {units : List ExecutionUnit}
    {fault : Fault} {events : History} (hevents : ∀ e ∈ events, e.isLeasing = true)
    {u : ExecutionUnit} (hu : u ∈ units) {cause : AcquisitionCause}
    (hfault : fault = .acquisition u.dataSource cause) (hdenied : .denied u.dataSource ∈ events) :
    Performs (α := α) b report units units (.error fault) events := by
  have hruns := History.runs_of_isLeasing hevents
  have hserves : Serves (α := α) units units (.error fault) events := by
    refine ⟨?_, fun _ heq => (nomatch heq)⟩
    rw [History.calls_eq, hruns]
    exact .refl _
  refine hserves.performs fun fault' heq => ?_
  cases heq
  rw [hfault]
  exact .one (.denied hu hdenied)

section

variable {destination : Destination} {statement : Statement} {b : Backend} {report : Report}
  {purpose : Purpose} {answerTo : History → Call → Except String α}

/-- The units of a statement are run once its lanes are open. -/
theorem Carries.executes {jobs : List (Job ExecutionUnit α)} {missed : List (Nat × ExecutionUnit)}
    {answer : Except Fault (List α)} {leases ran : History}
    (hcarries : Carries b report (·.dataSource) (.asking purpose answerTo)
      (destination.unitsOf statement) jobs missed answer ran)
    (hleases : ∀ e ∈ leases, e.isLeasing = true) :
    destination.Executes statement b report purpose answerTo answer
      (leases ++ .entered .prepared :: .entered .executing :: ran) := by
  have hexecuting : History.phaseFrom .routed
      (leases ++ .entered .prepared :: .entered .executing :: ran) = .executing := by
    simp only [History.phaseFrom_append, History.phaseFrom_cons, History.phaseAfter]
    exact History.phaseFrom_of_isWork hcarries.isWork _
  refine ⟨fun _ _ => hexecuting, fun _ _ => by rw [hexecuting]; rfl, ?_, ?_, ?_⟩
  · rw [List.forall_mem_append, List.forall_mem_cons, List.forall_mem_cons]
    refine ⟨fun e he => ?_, rfl, rfl, fun e he => ?_⟩
    · exact Event.isControl_of_isWork (Event.isWork_of_isLeasing (hleases e he))
    · exact Event.isControl_of_isWork (hcarries.isWork e he)
  · intro results hresults
    rcases hcarries.ok results hresults with ⟨rfl, -⟩
    exact ⟨jobs, ran, hcarries⟩
  · rintro units rfl
    rcases hcarries.performs with ⟨skipped, hperforms⟩
    have hopening : History.runs (leases ++ [.entered .prepared, .entered .executing]) = [] := by
      rw [History.runs_append, History.runs_of_isLeasing hleases]
      rfl
    have hframed := hperforms.frame hopening (rfl : History.runs [] = [])
    rw [List.append_nil, List.append_assoc] at hframed
    exact ⟨skipped, hframed⟩

/-- Nothing is run when the lanes of a statement cannot be opened. -/
theorem Destination.Opens.executes {fault : Fault} {events : History}
    (hopens : destination.Opens statement (.error fault) events) :
    destination.Executes statement b report purpose answerTo (.error fault) events := by
  rcases hopens.error fault rfl with ⟨hleases, hdenied⟩
  have hwork : ∀ e ∈ events, e.isWork = true :=
    fun e he => Event.isWork_of_isLeasing (hleases e he)
  refine ⟨fun _ heq => (nomatch heq), ?_, ?_, fun _ heq => (nomatch heq), ?_⟩
  · intro _ _
    rw [History.phaseFrom_of_isWork hwork]
    rfl
  · exact fun e he => Event.isControl_of_isWork (hwork e he)
  · intro units heq
    rcases hdenied units heq with ⟨u, hu, cause, hfault, hmem⟩
    exact ⟨units, .of_denied hleases hu hfault hmem⟩

end

namespace Database

variable (db : Database) (b : Backend) (statement : Statement) (destination : Destination)

/-- Opens the lanes of a routed statement and runs its units. -/
def executed (work : UnitWork ExecutionUnit α) : Action (List α) := do
  let lanes ← db.openLanes b statement destination
  Action.enter .executing
  db.runner.run b db.report work lanes

/-- A query executes its units and then merges their results. -/
theorem query_eq : db.query b statement destination =
    (db.executed b statement destination b.querying >>= fun results => do
      Action.enter .merging
      let merged ← Action.ofExcept (db.merger.merge results statement)
      Action.enter .done
      return merged) := by
  simp only [query, executed, bind_assoc]

/-- An update executes its units and then adds up their counts. -/
theorem update_eq : db.update b statement destination =
    (db.executed b statement destination b.updating >>= fun results => do
      Action.enter .done
      return db.addUp statement results) := by
  simp only [update, executed, bind_assoc]

/-- What executing the units of a routed statement comes to. -/
theorem executed_adds (purpose : Purpose) (answerTo : History → Call → Except String α)
    {h : History} (hphase : h.phase = .routed) :
    Adds (db.executed b statement destination (.asking purpose answerTo)) h
      (destination.Executes statement b db.report purpose answerTo) := by
  refine (db.openLanes_adds b statement destination hphase).bind ?_ ?_
  · intro lanes opening hopening
    rcases hopening.ok lanes rfl with ⟨leases, rfl, hleases, hhold⟩
    have hprepared : (h ++ (leases ++ [Event.entered .prepared])).phase = .prepared := by
      rw [← List.append_assoc, History.phase_append_singleton]
      rfl
    refine Action.enter_bind_adds (by rw [hprepared]; rfl) ?_
    refine (db.runner.run_adds b db.report (UnitWork.asking_works purpose answerTo) hhold _).mono ?_
    rintro answer ran ⟨jobs, missed, hcarries⟩
    rw [List.append_assoc]
    exact hcarries.executes hleases
  · exact fun fault events hevents => hevents.executes

/-- What a routed request for rows comes to. -/
theorem query_adds {h : History} (hphase : h.phase = .routed) :
    Adds (db.query b statement destination) h Concludes := by
  rw [query_eq]
  refine (db.executed_adds b statement destination .query b.query hphase).bind ?_ ?_
  · intro results events hevents
    have hexecuting : (h ++ events).phase = .executing := by
      rw [History.phase_append, hphase, hevents.executing results rfl]
    refine Action.enter_bind_adds (by rw [hexecuting]; rfl) ?_
    refine Action.ofExcept_bind_adds (fun merged _ => ?_) fun fault _ => ?_
    · refine Action.enter_bind_adds (by rw [History.phase_append_singleton]; rfl) ?_
      refine .pure ⟨fun _ _ => ?_, fun _ heq => (nomatch heq)⟩
      rw [History.phaseFrom_append]
      rfl
    · refine ⟨fun _ heq => (nomatch heq), fun _ _ => ?_⟩
      rw [History.phaseFrom_append]
      rfl
  · exact fun fault events hevents =>
      ⟨fun _ heq => (nomatch heq), fun _ _ => hevents.canFail fault rfl⟩

end Database

/-- What a routed request for an update count comes to. -/
structure Destination.Updates (destination : Destination) (db : Database) (statement : Statement)
    (b : Backend) (answer : Except Fault UpdateResult) (events : History) : Prop where
  concludes : Concludes answer events
  uncontrolled : ∀ e ∈ events, e.isControl = false
  /-- An answer adds up the results of a run of the units. -/
  addsUp : ∀ result, answer = .ok result → ∃ jobs results ran,
    Carries b db.report (·.dataSource) b.updating (destination.unitsOf statement) jobs []
      (.ok results) ran ∧ result = db.addUp statement results
  /-- The units of the statement are performed. -/
  performs : ∀ units, destination = .units units →
    ∃ skipped, Performs b db.report units skipped answer events

/-- Units are performed whatever is made of the answer. -/
theorem Performs.map {b : Backend} {report : Report} {units skipped : List ExecutionUnit} {β : Type}
    {answer : Except Fault α} {events : History}
    (hperforms : Performs b report units skipped answer events) (f : α → β) :
    Performs b report units skipped (answer.map f) events := by
  refine ⟨hperforms.units, ?_, ?_⟩
  · rw [← hperforms.ok_iff]
    cases answer <;> simp [Except.map]
  · intro fault hfault
    cases answer with
    | ok a => cases hfault
    | error _ =>
        cases hfault
        exact hperforms.fault _ rfl

/-- What a routed request for an update count comes to. -/
theorem Database.update_adds (db : Database) (b : Backend) (statement : Statement)
    (destination : Destination) {h : History} (hphase : h.phase = .routed) :
    Adds (db.update b statement destination) h (destination.Updates db statement b) := by
  rw [update_eq]
  refine (db.executed_adds b statement destination .update b.update hphase).bind ?_ ?_
  · intro results events hevents
    have hexecuting : (h ++ events).phase = .executing := by
      rw [History.phase_append, hphase, hevents.executing results rfl]
    refine Action.enter_bind_adds (by rw [hexecuting]; rfl) (.pure ?_)
    refine ⟨⟨fun _ _ => ?_, fun _ heq => (nomatch heq)⟩, ?_, ?_, ?_⟩
    · rw [History.phaseFrom_append]
      rfl
    · exact List.forall_mem_append.mpr ⟨hevents.uncontrolled, List.forall_mem_singleton.mpr rfl⟩
    · intro result heq
      cases heq
      rcases hevents.carries results rfl with ⟨jobs, ran, hcarries⟩
      exact ⟨jobs, results, ran, hcarries, rfl⟩
    · intro units hunits
      rcases hevents.performs units hunits with ⟨skipped, hperforms⟩
      rw [← List.nil_append (events ++ _), ← List.append_assoc]
      exact ⟨skipped, (hperforms.map (db.addUp statement)).frame rfl rfl⟩
  · intro fault events hevents
    refine ⟨⟨fun _ heq => (nomatch heq), fun _ _ => hevents.canFail fault rfl⟩,
      hevents.uncontrolled, fun _ heq => (nomatch heq), fun units hunits => ?_⟩
    rcases hevents.performs units hunits with ⟨skipped, hperforms⟩
    exact ⟨skipped, hperforms.map (db.addUp statement)⟩

/-! ## Requests -/

/-- How a request ends that leads to a phase: a fault is marked where the phase can fail. -/
def marked (answer : Except Fault α) (phase : Phase) : History :=
  match answer with
  | .ok _ => []
  | .error _ => if phase.canMove .failed then [.entered .failed] else []

theorem calls_marked (answer : Except Fault α) (phase : Phase) :
    History.calls (marked answer phase) = [] := by
  cases answer with
  | ok a => rfl
  | error fault =>
      unfold marked
      dsimp only
      split <;> rfl

/-- A fault is marked after what the action has added. -/
theorem Action.onFault_markFailed_adds {x : Action α} {h : History}
    {mid : Except Fault α → History → Prop} (hx : Adds x h mid) :
    Adds (x.onFault markFailed) h fun answer events => ∃ own,
      events = own ++ marked answer (History.phaseFrom h.phase own) ∧ mid answer own := by
  refine onFault_adds hx ?_ ?_
  · exact fun a events hmid => ⟨events, (List.append_nil events).symm, hmid⟩
  · intro fault events hmid
    refine ⟨marked (.error fault : Except Fault α) (History.phaseFrom h.phase events), ?_, events,
      rfl, hmid⟩
    unfold markFailed marked
    rw [History.phase_append]
    dsimp only
    split
    · rfl
    · exact (List.append_nil _).symm

namespace Session

variable {db : Database} {b : Backend} {statement : Statement} (work : Destination → Action α)
  {s : Session} {h : History}

/-- A statement that cannot be routed is not begun. -/
theorem request_of_error {fault : Fault}
    (hroute : (s.route db (b.inTransaction (h ++ [.entered .idle])) statement).1 = .error fault) :
    (request db b statement work s h).answer = .error fault ∧
      (request db b statement work s h).history = h ++ [.entered .idle] := by
  have hmarked : (Action.markFailed (h ++ [.entered .idle])).2 = h ++ [.entered .idle] := by
    unfold Action.markFailed
    rw [History.phase_append_singleton]
    rfl
  unfold request
  dsimp only
  rw [hroute]
  exact ⟨rfl, hmarked⟩

/-- What a routed statement comes to. -/
theorem request_of_ok {destination : Destination}
    (hroute : (s.route db (b.inTransaction (h ++ [.entered .idle])) statement).1 = .ok destination)
    {mid : Except Fault α → History → Prop}
    (hwork : Adds (work destination) (h ++ [.entered .idle, .entered .routed]) mid) :
    ∃ events, mid (request db b statement work s h).answer events ∧
      (request db b statement work s h).history =
        h ++ [.entered .idle, .entered .routed] ++ events ++
          marked (request db b statement work s h).answer (History.phaseFrom .routed events) := by
  have hidle : (h ++ [Event.entered .idle]).phase = .idle := History.phase_append_singleton ..
  have hrouted : Adds (do
      let destination ← Action.ofExcept (.ok destination)
      Action.enter .routed
      work destination : Action α) (h ++ [Event.entered .idle]) fun answer events =>
        ∃ later, events = .entered .routed :: later ∧ mid answer later := by
    refine Action.ofExcept_bind_adds (fun target heq => ?_) fun _ heq => nomatch heq
    cases heq
    refine Action.enter_bind_adds (by rw [hidle]; rfl) ?_
    rw [List.append_assoc]
    exact hwork.mono fun answer later hmid => ⟨later, rfl, hmid⟩
  rcases Action.onFault_markFailed_adds hrouted with ⟨_, hhistory, _, rfl, later, rfl, hmid⟩
  unfold request
  dsimp only
  rw [hroute]
  refine ⟨later, hmid, hhistory.trans ?_⟩
  rw [hidle]
  simp only [List.append_assoc, List.cons_append, List.nil_append]
  rfl

theorem phase_routed (h : History) :
    (h ++ [Event.entered .idle, Event.entered .routed]).phase = .routed :=
  History.phase_append ..

end Session

end ShardedSql
