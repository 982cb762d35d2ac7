import ShardedSql.Proofs.Batch.Collected
import ShardedSql.Proofs.Execution.Success

/-!
# Runs of batches

A batch is run like the units of a statement, each text once for every set of parameters.  Its
execution is done in a transaction if it needs one; unless that transaction cannot be started, the
batch is taken.

Main results:

- Theorem `Batch.execute_adds`: what running a batch comes to.
- Theorem `Session.executeBatch_ends`: how the execution of a batch ends.
- Theorem `Session.executeBatch_adds`: what the execution of a batch comes to.
-/

namespace ShardedSql

/-- Updates never fail, and their counts depend only on the unit. -/
def Backend.CountsBy (b : Backend) (count : ExecutionUnit → UInt64) : Prop :=
  ∀ h call, ∃ keys, b.update h call = .ok ⟨count call.unit, keys⟩

namespace Batch

variable (b : Backend) (lane : Lane BatchUnit) (u : BatchUnit)

/-- What running one set of parameters on a lane comes to. -/
theorem updating_set_adds (set : Nat × List Cell) (h : History) :
    Adds (do
        let result ← Action.ask b.update (lane.call .update (u.bound set.2))
        return (set.1, result.count) : Attempt (Nat × UInt64)) h fun answer events =>
      (∀ e ∈ events, e.isWork = true) ∧ Serves [u.bound set.2] [] answer events ∧
      ∀ count, b.CountsBy count → answer = .ok (set.1, count (u.bound set.2)) := by
  have hasked : Adds (Action.ask b.update (lane.call .update (u.bound set.2))) h
      fun answer events => answer = b.update h (lane.call .update (u.bound set.2)) ∧
        events = [.ran (lane.call .update (u.bound set.2)) (failure? answer)] :=
    Action.ask_adds ⟨rfl, rfl⟩
  refine hasked.bind ?_ ?_
  · rintro result _ ⟨hresult, rfl⟩
    refine .pure ⟨List.forall_mem_singleton.mpr rfl, ⟨.refl _, fun _ _ => ⟨rfl, ?_⟩⟩, ?_⟩
    · exact List.forall_mem_singleton.mpr rfl
    · intro count hcount
      rcases hcount h (lane.call .update (u.bound set.2)) with ⟨keys, hkeys⟩
      rw [hkeys] at hresult
      cases hresult
      rfl
  · rintro reason _ ⟨hreason, rfl⟩
    refine ⟨List.forall_mem_singleton.mpr rfl, ⟨.refl _, fun _ heq => (nomatch heq)⟩, ?_⟩
    intro count hcount
    rcases hcount h (lane.call .update (u.bound set.2)) with ⟨keys, hkeys⟩
    rw [hkeys] at hreason
    cases hreason

/-- What running some sets of parameters on a lane comes to. -/
theorem updating_sets_adds (sets : List (Nat × List Cell)) (h : History) :
    Adds (sets.mapM fun set => do
        let result ← Action.ask b.update (lane.call .update (u.bound set.2))
        return (set.1, result.count)) h fun answer events =>
      (∀ e ∈ events, e.isWork = true) ∧
      (∃ skipped, Serves (sets.map fun set => u.bound set.2) skipped answer events) ∧
      ∀ count, b.CountsBy count →
        answer = .ok (sets.map fun set => (set.1, count (u.bound set.2))) := by
  induction sets generalizing h with
  | nil =>
      refine .pure ⟨List.forall_mem_nil _, ⟨[], .refl _, fun _ _ => ⟨rfl, ?_⟩⟩, fun _ _ => rfl⟩
      exact List.forall_mem_nil _
  | cons set sets ih =>
      rw [List.mapM_cons]
      refine (updating_set_adds b lane u set h).bind ?_ ?_
      · rintro first events ⟨hwork, hserves, hfirst⟩
        refine (ih _).bind ?_ ?_
        · rintro others later ⟨hlater, ⟨skipped, hothers⟩, hrest⟩
          refine .pure ?_
          rw [List.append_nil]
          refine ⟨List.forall_mem_append.mpr ⟨hwork, hlater⟩,
            ⟨skipped, (hserves.append hothers).answer _⟩, fun count hcount => ?_⟩
          cases hfirst count hcount
          cases hrest count hcount
          rfl
        · rintro reason later ⟨hlater, ⟨skipped, hothers⟩, hrest⟩
          refine ⟨List.forall_mem_append.mpr ⟨hwork, hlater⟩, ⟨skipped, hserves.append hothers⟩, ?_⟩
          exact fun count hcount => nomatch hrest count hcount
      · rintro reason events ⟨hwork, hserves, hfirst⟩
        exact ⟨hwork, ⟨_, hserves.fail _⟩, fun count hcount => nomatch hfirst count hcount⟩

/-- What running the sets of parameters of a text on a lane comes to. -/
theorem updating_adds (h : History) :
    Adds (updating b lane u) h fun answer events =>
      (∀ e ∈ events, e.isWork = true) ∧
      (∃ skipped, Serves (u.sets.map (·.2)) skipped answer events) ∧
      ∀ count, b.CountsBy count → answer = .ok (u.sets.map fun set => (set.1, count set.2)) := by
  have hsets := updating_sets_adds b lane u u.parameterSets h
  simp only [BatchUnit.sets, List.map_map]
  exact hsets

theorem updating_works : (updating b).Works :=
  fun lane u h => (updating_adds b lane u h).mono fun _ _ hevents => hevents.1

/-- What running a batch comes to. -/
structure Executes (batch : Batch) (b : Backend) (accumulates : Bool)
    (answer : Except Fault (List UInt64)) (events : History) : Prop where
  serves : batch.size ≠ 0 → ∃ skipped, Serves batch.bounds skipped answer events
  length : ∀ counts, answer = .ok counts → counts.length = batch.size
  /-- Counts that depend only on the unit are gathered by entry. -/
  counts : ∀ count, b.CountsBy count → ∀ counts, answer = .ok counts →
    counts = entryCounts accumulates batch.size (batch.sets.map fun set => (set.1, count set.2))

variable {b} {batch : Batch} {accumulates : Bool}

/-- A batch without an answer. -/
theorem executes_error {fault : Fault} {events : History}
    (hserves : batch.size ≠ 0 → ∃ skipped,
      Serves batch.bounds skipped (.error fault : Except Fault (List UInt64)) events) :
    batch.Executes b accumulates (.error fault) events :=
  ⟨hserves, fun _ heq => (nomatch heq), fun _ _ _ heq => (nomatch heq)⟩

/-- The answer of a batch without entries. -/
theorem executes_of_isEmpty (hempty : batch.isEmpty = true) :
    batch.Executes b accumulates (.ok []) [] := by
  have hsize : batch.size = 0 := by simpa [isEmpty] using hempty
  refine ⟨fun hne => absurd hsize hne, ?_, ?_⟩
  · rintro _ ⟨⟩
    exact hsize.symm
  · rintro count - _ ⟨⟩
    rw [hsize]
    rfl

/-- The counts that are gathered from the results of a run. -/
theorem executes_entryCounts {report : Report} {jobs : List (Job BatchUnit (List (Nat × UInt64)))}
    {missed : List (Nat × BatchUnit)} {results : List (List (Nat × UInt64))} {ran events : History}
    (hcarries : Carries b report (·.dataSource) (updating b) batch.units jobs missed (.ok results)
      ran)
    (hserves : ∃ skipped, Serves batch.bounds skipped (.ok results : Except Fault _) events) :
    batch.Executes b accumulates (.ok (entryCounts accumulates batch.size results.flatten))
      events := by
  refine ⟨fun _ => hserves.imp fun _ hserves => hserves.answer _, ?_, ?_⟩
  · rintro _ ⟨⟩
    rw [entryCounts, List.length_map, List.length_range]
  · rintro count hcount _ ⟨⟩
    have hresults : results.map id =
        batch.units.map fun u => u.sets.map fun set => (set.1, count set.2) := by
      refine hcarries.map_results fun lane u h =>
        (updating_adds b lane u h).mono fun answer events hevents a ha => ?_
      exact Except.ok.inj (ha.symm.trans (hevents.2.2 count hcount))
    rw [List.map_id] at hresults
    rw [hresults, sets, List.map_flatMap]
    rfl

/-- What is run of a batch whose lanes are open. -/
theorem serves_bounds {report : Report} {jobs : List (Job BatchUnit (List (Nat × UInt64)))}
    {missed : List (Nat × BatchUnit)} {answer : Except Fault (List (List (Nat × UInt64)))}
    {opening ran : History}
    (hcarries : Carries b report (·.dataSource) (updating b) batch.units jobs missed answer ran)
    (hopening : ∀ e ∈ opening, e.isLeasing = true) :
    (∀ e ∈ opening ++ ran, e.isControl = false) ∧
      ∃ skipped, Serves batch.bounds skipped answer (opening ++ ran) := by
  rcases hcarries.serves fun lane u h =>
    (updating_adds b lane u h).mono fun _ _ hevents => hevents.2.1 with ⟨skipped, hserves, -⟩
  refine ⟨List.forall_mem_append.mpr ⟨fun e he => ?_, fun e he => ?_⟩, skipped, ?_⟩
  · exact Event.isControl_of_isWork (Event.isWork_of_isLeasing (hopening e he))
  · exact Event.isControl_of_isWork (hcarries.isWork e he)
  · have hframed := hserves.frame (History.runs_of_isLeasing hopening)
      (rfl : History.runs [] = [])
    rw [List.append_nil] at hframed
    rw [bounds, sets, List.map_flatMap]
    exact hframed

/-- What running a batch comes to, without a transaction step. -/
theorem execute_adds (b : Backend) (batch : Batch) (limits : LaneLimits) (runner : Runner)
    (report : Report) (accumulates : Bool) (h : History) :
    Adds (batch.execute limits runner b report accumulates) h fun answer events =>
      (∀ e ∈ events, e.isControl = false) ∧ batch.Executes b accumulates answer events := by
  unfold execute
  split
  · next hempty => exact .pure ⟨List.forall_mem_nil _, executes_of_isEmpty hempty⟩
  · refine (limits.openFor_adds b (·.dataSource) batch.units h).bind ?_ ?_
    · intro lanes opening hopening
      refine (runner.run_adds b report (updating_works b) (hopening.hold lanes rfl) _).bind ?_ ?_
      · rintro results ran ⟨jobs, missed, hcarries⟩
        refine .pure ?_
        rw [List.append_nil]
        rcases serves_bounds hcarries hopening.leasing with ⟨hcalm, hserves⟩
        exact ⟨hcalm, executes_entryCounts hcarries hserves⟩
      · rintro fault ran ⟨jobs, missed, hcarries⟩
        rcases serves_bounds hcarries hopening.leasing with ⟨hcalm, skipped, hserves⟩
        exact ⟨hcalm, executes_error fun _ => ⟨skipped, hserves.error⟩⟩
    · intro fault events hevents
      refine ⟨fun e he => ?_,
        executes_error fun _ => ⟨batch.bounds, ?_, fun _ heq => (nomatch heq)⟩⟩
      · exact Event.isControl_of_isWork (Event.isWork_of_isLeasing (hevents.leasing e he))
      · rw [History.calls_eq, History.runs_of_isLeasing hevents.leasing]
        exact .refl _

/-- Events that are no calls may come before and after. -/
theorem Executes.frame {answer : Except Fault (List UInt64)} {events earlier later : History}
    (hexecutes : batch.Executes b accumulates answer events)
    (hearlier : History.runs earlier = []) (hlater : History.runs later = []) :
    batch.Executes b accumulates answer (earlier ++ events ++ later) :=
  ⟨fun hsize => (hexecutes.serves hsize).imp fun _ hserves => hserves.frame hearlier hlater,
    hexecutes.length, hexecutes.counts⟩

/-- The fault of a transaction takes the place of the answer. -/
theorem Executes.error {answer : Except Fault (List UInt64)} {events : History}
    (hexecutes : batch.Executes b accumulates answer events) (fault : Fault) :
    batch.Executes b accumulates (.error fault) events :=
  executes_error fun hsize => (hexecutes.serves hsize).imp fun _ hserves => hserves.error

/-- A batch may be run in a transaction. -/
theorem Executes.of_ends {answer : Except Fault (List UInt64)} {events : History}
    (hends : Ends (batch.Executes b accumulates) answer events) :
    batch.Executes b accumulates answer (.controlled .start none :: events) := by
  rw [← List.singleton_append]
  cases hends with
  | committed hwork =>
      rw [← List.append_assoc]
      exact hwork.frame rfl rfl
  | @notCommitted a _ ending reason hwork hending =>
      have hlater : History.runs (.controlled .commit (some reason) :: ending) = [] :=
        hending.runs_eq
      rw [← List.append_assoc]
      exact (hwork.frame rfl hlater).error _
  | failed hwork hending =>
      rw [← List.append_assoc]
      exact hwork.frame rfl hending.runs_eq

/-- Units that have counts are run. -/
theorem execute_succeeds (hgrants : b.GrantsAll) {report : Report}
    (htime : ∀ h, report.isExpired (b.elapsed h) = false)
    {count : ExecutionUnit → UInt64} (hcount : b.CountsBy count) (batch : Batch)
    (limits : LaneLimits) (runner : Runner) (accumulates : Bool) (h : History) :
    Succeeds (batch.execute limits runner b report accumulates) h := by
  have hwork : ∀ lane u h, Succeeds (updating b lane u) h := fun lane u h =>
    (updating_adds b lane u h).mono fun _ _ hevents => ⟨_, hevents.2.2 count hcount⟩
  unfold execute
  split
  · exact .pure ⟨_, rfl⟩
  · refine (LaneLimits.openFor_succeeds hgrants limits (·.dataSource) batch.units h).bind ?_ ?_
    · rintro lanes opening ⟨hopening, -⟩
      refine (Runner.run_succeeds htime runner (updating_works b) hwork
        (hopening.hold lanes rfl) _).bind ?_ ?_
      · exact fun results events _ => .pure ⟨_, rfl⟩
      · rintro _ _ ⟨_, ⟨⟩⟩
    · rintro _ _ ⟨-, _, ⟨⟩⟩

end Batch

/-! ## Executions -/

/-- A transaction is started, or the attempt fails and leaves its reason. -/
theorem Action.startTransaction_cases (b : Backend) (h : History) :
    (∃ reason, startTransaction b h =
      (.error (.transaction (.start reason)), h ++ [.controlled .start (some reason)])) ∨
    startTransaction b h = (.ok (), h ++ [.controlled .start none]) := by
  unfold startTransaction ofAttempt Backend.take
  cases b.control h .start with
  | error reason => exact .inl ⟨reason, rfl⟩
  | ok _ => exact .inr rfl

/-- How the execution of a batch ends whose work has a property. -/
inductive Session.BatchEnds (s : Session) (db : Database) (b : Backend) (mode : BatchMode)
    (work : Except Fault (List UInt64) → History → Prop) (h : History) : Reply (List UInt64) → Prop
  /-- The transaction cannot be started; the batch is kept, without its mode. -/
  | kept {reason : String} {session : Session}
      (hneeds : needsTransaction db.implicitCommit mode.kind (s.batch.units.map (·.dataSource))
        (b.inTransaction h) = true)
      (hbatch : session.batch = s.batch) (hmode : session.batchMode = none) :
      BatchEnds s db b mode work h
        ⟨.error (.transaction (.start reason)), session, h ++ [.controlled .start (some reason)]⟩
  /-- The batch is taken, and its units are run in a transaction that has been started. -/
  | concluded {answer : Except Fault (List UInt64)} {session : Session} {events : History}
      (hbatch : session.batch = .empty) (hmode : session.batchMode = none)
      (hends : Ends work answer events) :
      BatchEnds s db b mode work h ⟨answer, session, h ++ .controlled .start none :: events⟩
  /-- The batch is taken, and its units are run without a transaction. -/
  | plain {answer : Except Fault (List UInt64)} {session : Session} {events : History}
      (hbatch : session.batch = .empty) (hmode : session.batchMode = none)
      (hwork : work answer events) :
      BatchEnds s db b mode work h ⟨answer, session, h ++ events⟩

namespace Session

variable {s : Session} (db : Database) (b : Backend) (h : History)

/-- A batch without mode is empty, so that nothing is run. -/
theorem executeBatch_of_none (hmode : s.batchMode = none) :
    s.executeBatch db b h = ⟨.ok [], { s with batch := .empty }, h⟩ := by
  unfold executeBatch
  rw [hmode]

/-- How the execution of a batch ends. -/
theorem executeBatch_ends {mode : BatchMode} (hmode : s.batchMode = some mode)
    {work : Except Fault (List UInt64) → History → Prop}
    (hwork : ∀ h',
      Adds (s.batch.execute db.limits db.runner b db.report mode.accumulates) h' work) :
    s.BatchEnds db b mode work h (s.executeBatch db b h) := by
  unfold executeBatch
  rw [hmode]
  dsimp only
  split
  · next hneeds =>
      rcases Action.startTransaction_cases b h with ⟨reason, hstart⟩ | hstart
      · rw [hstart]
        exact .kept hneeds rfl rfl
      · rw [hstart]
        dsimp only
        rcases Action.concludeTransaction_adds (b := b) (hwork (h ++ [.controlled .start none]))
          with ⟨events, hhistory, hends⟩
        cases hpair : Action.concludeTransaction b
            (s.batch.execute db.limits db.runner b db.report mode.accumulates)
            (h ++ [.controlled .start none]) with
        | mk answer h' =>
            rw [hpair] at hhistory hends
            rw [List.append_assoc] at hhistory
            cases hhistory
            exact .concluded rfl rfl hends
  · rcases hwork h with ⟨events, hhistory, hmid⟩
    cases hpair : s.batch.execute db.limits db.runner b db.report mode.accumulates h with
    | mk answer h' =>
        rw [hpair] at hhistory hmid
        cases hhistory
        exact .plain rfl rfl hmid

/-- What the execution of a batch comes to. -/
theorem executeBatch_adds {mode : BatchMode} (hmode : s.batchMode = some mode) :
    ∃ events, (s.executeBatch db b h).history = h ++ events ∧
      s.batch.Executes b mode.accumulates (s.executeBatch db b h).answer events := by
  have hends := executeBatch_ends db b h hmode fun h' =>
    s.batch.execute_adds b db.limits db.runner db.report mode.accumulates h'
  generalize s.executeBatch db b h = reply at hends
  cases hends with
  | kept =>
      refine ⟨_, rfl, Batch.executes_error fun _ => ⟨s.batch.bounds, .refl _, ?_⟩⟩
      exact fun _ heq => (nomatch heq)
  | concluded _ _ hends => exact ⟨_, rfl, .of_ends (hends.mono fun _ _ hwork => hwork.2)⟩
  | plain _ _ hwork => exact ⟨_, rfl, hwork.2⟩

/-- A batch is written like a statement. -/
theorem executeBatch_answer {mode : BatchMode} (hmode : s.batchMode = some mode) :
    (s.executeBatch db b h).answer =
      (db.write b mode.kind (s.batch.units.map (·.dataSource))
        (s.batch.execute db.limits db.runner b db.report mode.accumulates) h).1 := by
  unfold executeBatch Database.write Action.inOwnTransaction
  rw [hmode, bind_apply]
  dsimp only
  split
  · rcases Action.startTransaction_cases b h with ⟨reason, hstart⟩ | hstart
    · rw [hstart]
    · rw [hstart]
      rfl
  · rfl

/-- A batch has counts where nothing fails. -/
theorem executeBatch_succeeds (hsteady : b.Steady db.report) {count : ExecutionUnit → UInt64}
    (hcount : b.CountsBy count) : ∃ counts, (s.executeBatch db b h).answer = .ok counts := by
  cases hmode : s.batchMode with
  | none =>
      rw [executeBatch_of_none db b h hmode]
      exact ⟨[], rfl⟩
  | some mode =>
      rw [executeBatch_answer db b h hmode]
      have hsucceeds : ∀ h', Succeeds
          (s.batch.execute db.limits db.runner b db.report mode.accumulates) h' :=
        Batch.execute_succeeds hsteady.grants hsteady.inTime hcount s.batch db.limits db.runner
          mode.accumulates
      exact (Database.write_succeeds hsteady db mode.kind _ fun h' _ => hsucceeds h').exists_ok

end Session

end ShardedSql
