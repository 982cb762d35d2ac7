import ShardedSql.Proofs.Execution.SingleWorker

/-!
# Failing fast

A single worker that fails fast runs the units up to the first one that fails.  Then it only closes
lanes, the one of that unit and all after it.

Main results:

- Theorem `Progress.Unfailing.step`: what is true of a run until a unit fails.
- Theorem `Progress.FailedAt.step`: what is true of a run after a unit has failed.
- Theorem `Runner.run_failFast`: the run of a single worker in which some unit fails.
-/

namespace ShardedSql

variable {α : Type}

/-! ## Units in turn -/

/-- What a unit that was run leaves in the history. -/
def UnitRun.event (run : UnitRun) (answer : History → Call → Except String α) : Event :=
  .ran run.call (failure? (answer run.before run.call))

/-- A unit is the first of several that fails, for a reason; others come before it. -/
structure UnitRun.FirstFailing (answer : History → Call → Except String α) (runs : List UnitRun)
    (others : List UnitRun) (first : UnitRun) (reason : String) : Prop where
  split : ∃ after, runs = others ++ first :: after
  succeed : ∀ run ∈ others, run.Succeeds answer
  failed : answer first.before first.call = .error reason

section

variable (purpose : Purpose) (answer : History → Call → Except String α)

/-- Units of a lane that are run one after the other from a history on, whatever they come to. -/
def Lane.runsFrom (lane : Lane ExecutionUnit) : List (Nat × ExecutionUnit) → History → List UnitRun
  | [], _ => []
  | (place, u) :: left, h =>
      let run : UnitRun := { place, before := h, call := lane.call purpose u }
      run :: lane.runsFrom left (h ++ [run.event answer])

/-- The units of lanes that are run lane by lane from a history on, whatever they come to; each lane
is closed before the next one is taken up. -/
def Lane.inTurn : List (Lane ExecutionUnit) → History → List UnitRun
  | [], _ => []
  | lane :: lanes, h =>
      let runs := lane.runsFrom purpose answer lane.units h
      runs ++ inTurn lanes
        (h ++ runs.map (·.event answer) ++ [.released lane.dataSource lane.connection])

/-- The units of lanes that have not come to an end, in turn. -/
def Course.ahead : List (Course ExecutionUnit α) → History → List UnitRun
  | [], _ => []
  | c :: courses, h =>
      let runs := c.lane.runsFrom purpose answer c.pending h
      runs ++ ahead courses
        (h ++ runs.map (·.event answer) ++ [.released c.lane.dataSource c.lane.connection])

/-- At the start all units are ahead, in the order of the lanes. -/
theorem Course.ahead_start (lanes : List (Lane ExecutionUnit)) (h : History) :
    ahead purpose answer (Progress.start lanes).courses h = Lane.inTurn purpose answer lanes h := by
  induction lanes generalizing h with
  | nil => rfl
  | cons lane lanes ih => exact congrArg (lane.runsFrom purpose answer lane.units h ++ ·) (ih _)

end

/-! ## Invariants -/

namespace Progress

section

variable (purpose : Purpose) (answer : History → Call → Except String α)
  (lanes : List (Lane ExecutionUnit)) (h₀ : History)

/-- All units that have been run have succeeded. -/
structure Unfailing (p : Progress ExecutionUnit α) (h : History)
    (done left : List (Course ExecutionUnit α)) (runs : List UnitRun) : Prop where
  inOrder : p.InOrder lanes h₀ h done left runs
  firstFault : p.firstFault = none
  faults : p.faults = []
  succeed : ∀ run ∈ runs, run.Succeeds answer
  inTurn : Lane.inTurn purpose answer lanes h₀ = runs ++ Course.ahead purpose answer left h

/-- The first unit that fails has been run, and none after it. -/
structure FailedAt (p : Progress ExecutionUnit α) (h : History)
    (done left : List (Course ExecutionUnit α)) (others : List UnitRun) (first : UnitRun)
    (reason : String) : Prop where
  inOrder : p.InOrder lanes h₀ h done left (others ++ [first])
  failing : UnitRun.FirstFailing answer (Lane.inTurn purpose answer lanes h₀) others first reason
  firstFault : p.firstFault = some (.unit first.call.unit.dataSource reason)
  faults : p.faults ≠ []
  stopped : ∀ c ∈ left, ∀ place u units, c.stage ≠ .running place u units

end

section

variable {purpose : Purpose} {answer : History → Call → Except String α}
  {lanes : List (Lane ExecutionUnit)} {h₀ h : History} {p : Progress ExecutionUnit α}
  {c c' : Course ExecutionUnit α} {done left : List (Course ExecutionUnit α)}
  {runs others : List UnitRun} {first : UnitRun} {reason : String} (b : Backend) {report : Report}

/-- At the start no unit has failed. -/
theorem unfailing_start (purpose : Purpose) (answer : History → Call → Except String α)
    (hown : ∀ lane ∈ lanes, ∀ x ∈ lane.units, x.2.dataSource = lane.dataSource) (h : History) :
    (start lanes : Progress ExecutionUnit α).Unfailing purpose answer lanes h h []
      (start lanes : Progress ExecutionUnit α).courses [] := by
  have hlanes : (start lanes : Progress ExecutionUnit α).courses.map (·.lane) = lanes := by
    simp [start, Function.comp_def]
  refine ⟨⟨alone_start lanes, hlanes, ?_, [], (List.append_nil h).symm, rfl, rfl⟩, rfl, ?_,
    List.forall_mem_nil _, (Course.ahead_start purpose answer lanes h).symm⟩
  · intro c hc
    rcases List.mem_map.mp hc with ⟨lane, hlane, rfl⟩
    exact hown lane hlane
  · simp [start, Progress.faults]

/-- A lane without faults replaces another one. -/
theorem faults_replaced (c' : Course ExecutionUnit α) (hcourses : p.courses = done ++ c :: left)
    (hfaults : p.faults = []) (first : Option Fault) :
    c.faults = [] ∧
      (⟨done ++ c' :: left, first⟩ : Progress ExecutionUnit α).faults = c'.faults := by
  simp only [Progress.faults, hcourses, List.flatMap_append, List.flatMap_cons,
    List.append_eq_nil_iff] at hfaults ⊢
  rcases hfaults with ⟨hdone, hc, hleft⟩
  exact ⟨hc, by rw [hdone, hleft, List.append_nil, List.nil_append]⟩

/-- A lane goes on, and no unit comes to its end. -/
theorem Unfailing.goOn (hp : p.Unfailing purpose answer lanes h₀ h done (c :: left) runs)
    (hlane : c'.lane = c.lane) (hopen : c'.stage ≠ .closed) (hpending : c'.pending = c.pending)
    (hfaults : c'.faults = c.faults) :
    (⟨done ++ c' :: left, p.firstFault.or c'.faults.head?⟩ : Progress ExecutionUnit α).Unfailing
      purpose answer lanes h₀ h done (c' :: left) runs := by
  rcases faults_replaced c' hp.inOrder.alone.courses_eq hp.faults
    (p.firstFault.or c'.faults.head?) with ⟨hnone, hsame⟩
  have hinOrder := hp.inOrder.goOn [] [] hlane hopen
    (hpending ▸ List.Subset.refl _) rfl rfl (p.firstFault.or c'.faults.head?)
  rw [List.append_nil, List.append_nil] at hinOrder
  refine ⟨hinOrder, ?_, ?_, hp.succeed, ?_⟩
  · rw [hp.firstFault, hfaults, hnone]
    rfl
  · rw [hsame, hfaults, hnone]
  · rw [hp.inTurn]
    simp only [Course.ahead, hlane, hpending]

/-- A lane of which all units have succeeded is closed. -/
theorem Unfailing.close (hp : p.Unfailing purpose answer lanes h₀ h done (c :: left) runs)
    (hstage : c.stage = .between []) :
    (⟨done ++ { c with stage := .closed } :: left, p.firstFault.or c.faults.head?⟩ :
      Progress ExecutionUnit α).Unfailing purpose answer lanes h₀
        (h ++ [.released c.lane.dataSource c.lane.connection])
        (done ++ [{ c with stage := .closed }]) left runs := by
  rcases faults_replaced { c with stage := .closed } hp.inOrder.alone.courses_eq hp.faults
    (p.firstFault.or c.faults.head?) with ⟨hnone, hsame⟩
  refine ⟨hp.inOrder.close _, ?_, ?_, hp.succeed, ?_⟩
  · rw [hp.firstFault, hnone]
    rfl
  · rw [hsame, hnone]
  · have hpending : c.pending = [] := by rw [Course.pending, hstage]
    rw [hp.inTurn, Course.ahead, hpending]
    simp [Lane.runsFrom]

/-- The unit that runs comes to its end: it has succeeded, or it is the first one that fails. -/
theorem Unfailing.finish (hp : p.Unfailing purpose answer lanes h₀ h done (c :: left) runs)
    {place : Nat} {u : ExecutionUnit} {units : List (Nat × ExecutionUnit)}
    (hstage : c.stage = .running place u units)
    (hc' : c' = c.note place units
      ((answer h (c.lane.call purpose u)).mapError (.unit c.lane.dataSource))) :
    let run : UnitRun := ⟨place, h, c.lane.call purpose u⟩
    let p' : Progress ExecutionUnit α := ⟨done ++ c' :: left, p.firstFault.or c'.faults.head?⟩
    p'.Unfailing purpose answer lanes h₀ (h ++ [run.event answer]) done (c' :: left)
        (runs ++ [run]) ∨
      ∃ reason, p'.FailedAt purpose answer lanes h₀ (h ++ [run.event answer]) done (c' :: left)
        runs run reason := by
  intro run p'
  have hlane : c'.lane = c.lane := hc' ▸ Course.note_lane ..
  have hstage' : c'.stage = .between units := hc' ▸ Course.note_stage ..
  have hpending : c.pending = (place, u) :: units := by rw [Course.pending, hstage]
  have hpending' : c'.pending = units := by rw [Course.pending, hstage']
  have hopen : c'.stage ≠ .closed := by simp [hstage']
  rcases faults_replaced c' hp.inOrder.alone.courses_eq hp.faults
    (p.firstFault.or c'.faults.head?) with ⟨hnone, hsame⟩
  have hinOrder := hp.inOrder.goOn [run.event answer] [run] hlane hopen
    (by rw [hpending, hpending']; exact List.subset_cons_self ..) rfl rfl
    (p.firstFault.or c'.faults.head?)
  have hturn : Lane.inTurn purpose answer lanes h₀ =
      runs ++ run :: Course.ahead purpose answer (c' :: left) (h ++ [run.event answer]) := by
    rw [hp.inTurn]
    simp [Course.ahead, hpending, hpending', hlane, Lane.runsFrom, run]
  cases hanswer : answer h (c.lane.call purpose u) with
  | ok a =>
      left
      have hfaults : c'.faults = [] := by rw [hc', hanswer]; exact hnone
      refine ⟨hinOrder, ?_, ?_, ?_, ?_⟩
      · show p.firstFault.or c'.faults.head? = none
        rw [hp.firstFault, hfaults]
        rfl
      · rw [hsame, hfaults]
      · refine List.forall_mem_append.mpr ⟨hp.succeed, fun d hd => ?_⟩
        exact List.mem_singleton.mp hd ▸ ⟨a, hanswer⟩
      · rw [hturn, List.append_assoc]
        rfl
  | error reason =>
      right
      have hfaults : c'.faults = [.unit c.lane.dataSource reason] := by
        rw [hc', hanswer]
        show c.faults ++ _ = _
        rw [hnone]
        rfl
      have hown : u.dataSource = c.lane.dataSource :=
        hp.inOrder.own c List.mem_cons_self (place, u) (hpending ▸ List.mem_cons_self)
      refine ⟨reason, hinOrder, ⟨⟨_, hturn⟩, hp.succeed, hanswer⟩, ?_, ?_, ?_⟩
      · show p.firstFault.or c'.faults.head? = some (.unit u.dataSource reason)
        rw [hp.firstFault, hfaults, hown]
        rfl
      · rw [hsame, hfaults]
        exact List.cons_ne_nil _ _
      · refine List.forall_mem_cons.mpr ⟨fun _ _ _ heq => ?_, fun d hd _ _ _ heq => ?_⟩
        · rw [hstage'] at heq
          cases heq
        · rw [hp.inOrder.alone.tail_waiting d hd] at heq
          cases heq

/-- What is true of a run until a unit fails is preserved by every step by which none does. -/
theorem Unfailing.step (htime : report.timeout = none)
    (hp : p.Unfailing purpose answer lanes h₀ h done (c :: left) runs) :
    let next := c.step b report (.asking purpose answer) false h
    let p' : Progress ExecutionUnit α :=
      ⟨done ++ next.1 :: left, p.firstFault.or next.1.faults.head?⟩
    (∃ done' left' runs', p'.Unfailing purpose answer lanes h₀ next.2 done' left' runs') ∨
      ∃ done' left' others first reason,
        p'.FailedAt purpose answer lanes h₀ next.2 done' left' others first reason := by
  have hexpired : ∀ elapsed, report.isExpired elapsed = false := by
    intro elapsed
    rw [Report.isExpired, htime]
  cases hstage : c.stage with
  | closed => exact absurd hstage (hp.inOrder.alone.left_open c List.mem_cons_self)
  | waiting =>
      have hstep : c.step b report (.asking purpose answer) false h =
          ({ c with stage := .between c.lane.units }, h) := by
        unfold Course.step
        rw [hstage]
        rfl
      simp only [hstep]
      refine .inl ⟨_, _, _, hp.goOn rfl (by simp) ?_ rfl⟩
      rw [Course.pending, Course.pending, hstage]
  | between units =>
      cases units with
      | nil =>
          have hstep : c.step b report (.asking purpose answer) false h =
              ({ c with stage := .closed },
                h ++ [.released c.lane.dataSource c.lane.connection]) := by
            unfold Course.step
            rw [hstage]
            rfl
          simp only [hstep]
          exact .inl ⟨_, _, _, hp.close hstage⟩
      | cons x units =>
          have hstep : c.step b report (.asking purpose answer) false h =
              ({ c with stage := .running x.1 x.2 units }, h) := by
            unfold Course.step
            rw [hstage]
            simp only [hexpired]
            rfl
          simp only [hstep]
          refine .inl ⟨_, _, _, hp.goOn rfl (by simp) ?_ rfl⟩
          rw [Course.pending, Course.pending, hstage]
  | running place u units =>
      have hstep : c.step b report (.asking purpose answer) false h =
          (c.note place units
            ((answer h (c.lane.call purpose u)).mapError (.unit c.lane.dataSource)),
            h ++ [UnitRun.event ⟨place, h, c.lane.call purpose u⟩ answer]) := by
        unfold Course.step
        rw [hstage]
        rfl
      simp only [hstep]
      rcases hp.finish hstage rfl with hgoing | ⟨reason, hfailed⟩
      · exact .inl ⟨_, _, _, hgoing⟩
      · exact .inr ⟨_, _, _, _, _, hfailed⟩

/-- What is true of a run after a unit has failed is preserved by every step: a lane is closed. -/
theorem FailedAt.step
    (hp : p.FailedAt purpose answer lanes h₀ h done (c :: left) others first reason) :
    let next := c.step b report (.asking purpose answer) true h
    (⟨done ++ next.1 :: left, p.firstFault.or next.1.faults.head?⟩ :
      Progress ExecutionUnit α).FailedAt purpose answer lanes h₀ next.2 (done ++ [next.1]) left
        others first reason := by
  have hstep : c.step b report (.asking purpose answer) true h =
      ({ c with stage := .closed }, h ++ [.released c.lane.dataSource c.lane.connection]) := by
    unfold Course.step
    cases hstage : c.stage with
    | closed => exact absurd hstage (hp.inOrder.alone.left_open c List.mem_cons_self)
    | waiting => rfl
    | between units => cases units <;> rfl
    | running place u units => exact absurd hstage (hp.stopped c List.mem_cons_self place u units)
  simp only [hstep]
  refine ⟨hp.inOrder.close _, hp.failing, ?_, ?_, ?_⟩
  · show p.firstFault.or c.faults.head? = _
    rw [hp.firstFault]
    rfl
  · intro hnone
    apply hp.faults
    rw [Progress.faults, hp.inOrder.alone.courses_eq]
    simpa [Progress.faults] using hnone
  · exact fun d hd => hp.stopped d (List.mem_cons_of_mem c hd)

end

end Progress

/-! ## Runs of a single worker -/

/-- The calls of lanes in order, lane by lane. -/
def Lane.calls (purpose : Purpose) (lanes : List (Lane ExecutionUnit)) : List Call :=
  lanes.flatMap fun lane => lane.units.map fun x => lane.call purpose x.2

/-- Units that are run in turn make all calls in order. -/
theorem Lane.map_call_inTurn (purpose : Purpose) (answer : History → Call → Except String α)
    (lanes : List (Lane ExecutionUnit)) (h : History) :
    (Lane.inTurn purpose answer lanes h).map (·.call) = Lane.calls purpose lanes := by
  have hlane : ∀ (lane : Lane ExecutionUnit) (units : List (Nat × ExecutionUnit)) (h : History),
      (lane.runsFrom purpose answer units h).map (·.call) =
        units.map fun x => lane.call purpose x.2 := by
    intro lane units
    induction units with
    | nil => exact fun _ => rfl
    | cons x units ih => exact fun h => congrArg (lane.call purpose x.2 :: ·) (ih _)
  induction lanes generalizing h with
  | nil => rfl
  | cons lane lanes ih =>
      rw [Lane.inTurn, List.map_append, hlane, ih, calls, calls, List.flatMap_cons]

namespace Runner

/-- A single worker runs units in turn until one fails, and then none. -/
theorem advance_inTurn (b : Backend) {report : Report} (htime : report.timeout = none)
    {purpose : Purpose} {answer : History → Call → Except String α}
    {lanes : List (Lane ExecutionUnit)} {h₀ : History} (fuel : Nat)
    {p : Progress ExecutionUnit α} {h : History}
    (hp : (∃ done left runs, p.Unfailing purpose answer lanes h₀ h done left runs) ∨
      ∃ done left others first reason,
        p.FailedAt purpose answer lanes h₀ h done left others first reason) :
    let ended := (⟨1, .failFast⟩ : Runner).advance b report (.asking purpose answer) fuel p h
    (∃ done left runs, ended.1.Unfailing purpose answer lanes h₀ ended.2 done left runs) ∨
      ∃ done left others first reason,
        ended.1.FailedAt purpose answer lanes h₀ ended.2 done left others first reason := by
  have hover : ∀ {q : Progress ExecutionUnit α} {done} (fuel : Nat) (h : History),
      q.Alone done [] → (⟨1, .failFast⟩ : Runner).advance b report (.asking purpose answer)
        (fuel + 1) q h = (q, h) := by
    intro q done fuel h hq
    rw [advance_succ, hq.choices_nil]
    rfl
  induction fuel generalizing p h with
  | zero => exact hp
  | succ fuel ih =>
      rcases hp with ⟨done, left, runs, hp⟩ | ⟨done, left, others, first, reason, hp⟩
      · cases left with
        | nil =>
            rw [hover fuel h hp.inOrder.alone]
            exact .inl ⟨done, [], runs, hp⟩
        | cons c left =>
            have hgoing : p.isCancelled .failFast = false := by
              rw [Progress.isCancelled, hp.firstFault]
              rfl
            rw [advance_alone b report _ rfl hp.inOrder.alone, hgoing]
            exact ih (hp.step b htime)
      · cases left with
        | nil =>
            rw [hover fuel h hp.inOrder.alone]
            exact .inr ⟨done, [], others, first, reason, hp⟩
        | cons c left =>
            have hcancelled : p.isCancelled .failFast = true := by
              rw [Progress.isCancelled, hp.firstFault]
              rfl
            rw [advance_alone b report _ rfl hp.inOrder.alone, hcancelled]
            exact ih (.inr ⟨_, _, _, _, _, hp.step b⟩)

/-- A single worker without a deadline that fails fast runs the units of open lanes in turn.  If
some unit fails, exactly those up to the first one that fails are run, the fault is that of this
unit, and the connection of every lane is handed back once. -/
theorem run_failFast {limits : LaneLimits} {b : Backend} {units : List ExecutionUnit}
    {lanes : List (Lane ExecutionUnit)} {h₀ h : History}
    (hopened : limits.openFor b (·.dataSource) units h₀ = (.ok lanes, h)) {report : Report}
    (htime : report.timeout = none) (purpose : Purpose)
    (answer : History → Call → Except String α)
    (hfails : ∃ run ∈ Lane.inTurn purpose answer lanes h, ¬ run.Succeeds answer) :
    (Lane.inTurn purpose answer lanes h).map (·.call) = Lane.calls purpose lanes ∧
    ∃ others first reason events,
      UnitRun.FirstFailing answer (Lane.inTurn purpose answer lanes h) others first reason ∧
      (⟨1, .failFast⟩ : Runner).run b report (.asking purpose answer) lanes h =
        (.error (.unit first.call.unit.dataSource reason), h ++ events) ∧
      events.calls = (others ++ [first]).map (·.call) ∧
      events.released = Lane.leases lanes := by
  refine ⟨Lane.map_call_inTurn purpose answer lanes h, ?_⟩
  have hstart := Progress.unfailing_start purpose answer
    (limits.hold_of_openFor hopened).own h
  let start : Progress ExecutionUnit α := .start lanes
  have hended := advance_inTurn b htime start.stepsLeft (.inl ⟨_, _, _, hstart⟩)
  have hclosed := closed_of_advance ⟨1, .failFast⟩ b report (.asking purpose answer)
    (Nat.le_refl start.stepsLeft) h
  rw [run_apply]
  generalize (⟨1, .failFast⟩ : Runner).advance b report (.asking purpose answer) start.stepsLeft
    start h = ended at hended hclosed
  have hover : ∀ {done left}, ended.1.Alone done left → left = [] := by
    intro done left halone
    by_contra hne
    rcases List.exists_mem_of_ne_nil left hne with ⟨c, hc⟩
    exact halone.left_open c hc
      (hclosed c (halone.courses_eq ▸ List.mem_append_right done hc))
  rcases hended with ⟨done, left, runs, hp⟩ | ⟨done, left, others, first, reason, hp⟩
  · -- All units have been run and have succeeded.
    cases hover hp.inOrder.alone
    rcases hfails with ⟨run, hrun, hfailed⟩
    rw [hp.inTurn, Course.ahead, List.append_nil] at hrun
    exact absurd (hp.succeed run hrun) hfailed
  · cases hover hp.inOrder.alone
    rcases hp.inOrder.events with ⟨events, hhistory, hcalls, hreleased⟩
    have hlanes : done.map (·.lane) = lanes := by
      rw [← hp.inOrder.lanes_eq, hp.inOrder.alone.courses_eq, List.append_nil]
    refine ⟨others, first, reason, events, hp.failing, ?_, hcalls, hlanes ▸ hreleased⟩
    refine Prod.ext ?_ hhistory
    show ended.1.settle .failFast _ = _
    unfold Progress.settle
    cases hfaults : ended.1.faults with
    | nil => exact absurd hfaults hp.faults
    | cons fault faults =>
        rw [hp.firstFault]
        rfl

/-- A target that cannot write one of the tables. -/
def fullDisk (_ : History) (call : Call) : Except String UpdateResult :=
  if call.unit.statement.sql = "UPDATE t_order_2 SET paid = 1" then .error "disk full"
  else .ok ⟨1, []⟩

/-- The lanes of the updates, one for each data source. -/
def tableLanes : List (Lane ExecutionUnit) :=
  [⟨"ds_0", 0, .shared, [(0, tableUpdates[0]), (1, tableUpdates[1])]⟩,
    ⟨"ds_1", 1, .perUnit, [(2, tableUpdates[2])]⟩]

/-- The second update on the first data source fails, so that the other data source is not reached;
both connections are handed back. -/
theorem run_failFast_tableUpdates :
    (⟨1, 1000⟩ : LaneLimits).openFor takingTurns (·.dataSource) tableUpdates [] =
        (.ok tableLanes, [.acquired "ds_0" 0, .acquired "ds_1" 1]) ∧
      (⟨"orders", none⟩ : Report).timeout = none ∧
      (∃ run ∈ Lane.inTurn .update fullDisk tableLanes
        [.acquired "ds_0" 0, .acquired "ds_1" 1], ¬ run.Succeeds fullDisk) ∧
      ∃ events : History, (⟨1, .failFast⟩ : Runner).run takingTurns ⟨"orders", none⟩
          (.asking .update fullDisk) tableLanes [.acquired "ds_0" 0, .acquired "ds_1" 1] =
            (.error (.unit "ds_0" "disk full"),
              [.acquired "ds_0" 0, .acquired "ds_1" 1] ++ events) ∧
        (events.calls.map (·.unit.statement.sql)) =
          ["UPDATE t_order_0 SET paid = 1", "UPDATE t_order_2 SET paid = 1"] ∧
        events.released = [("ds_0", 0), ("ds_1", 1)] := by
  have hopened : (⟨1, 1000⟩ : LaneLimits).openFor takingTurns (·.dataSource) tableUpdates [] =
      (.ok tableLanes, [.acquired "ds_0" 0, .acquired "ds_1" 1]) := rfl
  have htime : (⟨"orders", none⟩ : Report).timeout = none := rfl
  have hfails : ∃ run ∈ Lane.inTurn .update fullDisk tableLanes
      [.acquired "ds_0" 0, .acquired "ds_1" 1], ¬ run.Succeeds fullDisk := by
    refine ⟨_, List.mem_cons_of_mem _ List.mem_cons_self, ?_⟩
    rintro ⟨_, ⟨⟩⟩
  rcases run_failFast hopened htime .update fullDisk hfails with
    ⟨-, others, first, reason, events, -, hrun, -, hreleased⟩
  have hfault : ((⟨1, .failFast⟩ : Runner).run takingTurns ⟨"orders", none⟩
      (.asking .update fullDisk) tableLanes [.acquired "ds_0" 0, .acquired "ds_1" 1]).1 =
        .error (.unit "ds_0" "disk full") := rfl
  have hcalls : (History.calls ((⟨1, .failFast⟩ : Runner).run takingTurns ⟨"orders", none⟩
      (.asking .update fullDisk) tableLanes [.acquired "ds_0" 0, .acquired "ds_1" 1]).2).map
        (·.unit.statement.sql) =
      ["UPDATE t_order_0 SET paid = 1", "UPDATE t_order_2 SET paid = 1"] := by decide +kernel
  rw [hrun] at hfault hcalls
  rw [History.calls_append] at hcalls
  exact ⟨hopened, htime, hfails, events, hfault ▸ hrun, hcalls, hreleased⟩

end Runner

end ShardedSql
