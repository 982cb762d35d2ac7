import ShardedSql.Proofs.Execution.FailFast
import ShardedSql.Proofs.Execution.Statements

/-!
# Collecting all failures

A run that collects all failures comes to every unit once, whatever has failed before it, with any
number of workers and in whatever order the lanes go on.  Each lane looks at the time when it
reaches a unit: as long as there is time left the work for the unit is done, and otherwise the unit
is missed.  Work that fails and units that are missed are reported together, in the order of the
units on the lanes.

Main results:

- Theorem `Course.Moves.tracks`: every move of a lane is one visit or none.
- Theorem `Progress.Visiting.step`: what is true of the visits so far is preserved by every step.
- Theorem `Runner.run_collectAll`: what a run that collects all failures comes to.
-/

namespace ShardedSql

variable {υ α : Type}

/-! ## Visits -/

/-- The units of a lane, each with its place and the lane. -/
def Lane.stops (lane : Lane υ) : List (Lane υ × Nat × υ) :=
  lane.units.map (lane, ·)

/-- The stops of lanes are at the places of their units. -/
theorem Lane.map_place_stops (lanes : List (Lane υ)) :
    (lanes.flatMap (·.stops)).map (·.2.1) = (lanes.flatMap (·.units)).map (·.1) := by
  rw [List.map_flatMap, List.map_flatMap]
  refine List.flatMap_congr fun lane _ => ?_
  rw [stops, List.map_map]
  rfl

/-- What comes of a unit that its lane has reached. -/
inductive Visit (υ α : Type) where
  | done (reached : History) (job : Job υ α)
  | missed (reached : History) (lane : Lane υ) (place : Nat) (unit : υ)

namespace Visit

/-- The unit with its place and its lane. -/
def stop : Visit υ α → Lane υ × Nat × υ
  | done _ job => (job.lane, job.entry)
  | missed _ lane place unit => (lane, place, unit)

/-- The work for the unit, if it is done. -/
def job? : Visit υ α → Option (Job υ α)
  | done _ job => some job
  | missed _ _ _ _ => none

/-- What the unit has come to.  A fault names the data source of the unit. -/
def outcome (report : Report) (dataSource : υ → String) : Visit υ α → Except Fault α
  | done _ job => job.outcome.mapError (.unit (dataSource job.unit))
  | missed _ _ _ unit => .error (.deadline (dataSource unit) (report.timeout.getD 0))

/-- The result of the unit with its place, if there is one. -/
def result? (report : Report) (dataSource : υ → String) (visit : Visit υ α) : Option (Nat × α) :=
  (visit.outcome report dataSource).toOption.map (visit.stop.2.1, ·)

/-- The fault of the unit, if there is one. -/
def fault? (report : Report) (dataSource : υ → String) (visit : Visit υ α) : Option Fault :=
  match visit.outcome report dataSource with
  | .ok _ => none
  | .error fault => some fault

/-- The visit takes place between two histories, and the time decides what it is. -/
inductive TakesPlace (b : Backend) (report : Report) (work : UnitWork υ α) (h₀ h : History) :
    Visit υ α → Prop
  | done {reached : History} {job : Job υ α} (hstart : h₀ <+: reached)
      (htime : report.isExpired (b.elapsed reached) = false) (hbefore : reached <+: job.before)
      (hjob : job.IsOf work) (hend : job.before ++ job.events <+: h) :
      TakesPlace b report work h₀ h (.done reached job)
  | missed {reached : History} {lane : Lane υ} {place : Nat} {unit : υ} (hstart : h₀ <+: reached)
      (htime : report.isExpired (b.elapsed reached) = true) (hend : reached <+: h) :
      TakesPlace b report work h₀ h (.missed reached lane place unit)

variable {b : Backend} {report : Report} {work : UnitWork υ α} {h₀ h h' : History}
  {dataSource : υ → String} {visit : Visit υ α}

/-- A visit that has taken place has done so for ever. -/
theorem TakesPlace.mono (hvisit : visit.TakesPlace b report work h₀ h) (hle : h <+: h') :
    visit.TakesPlace b report work h₀ h' := by
  cases hvisit with
  | done hstart htime hbefore hjob hend => exact .done hstart htime hbefore hjob (hend.trans hle)
  | missed hstart htime hend => exact .missed hstart htime (hend.trans hle)

/-- A visit without a fault has a result. -/
theorem result_of_faultless (hvisit : visit.fault? report dataSource = none) :
    ∃ a, visit.outcome report dataSource = .ok a ∧
      visit.result? report dataSource = some (visit.stop.2.1, a) := by
  unfold fault? at hvisit
  cases houtcome : visit.outcome report dataSource with
  | ok a =>
      refine ⟨a, rfl, ?_⟩
      rw [result?, houtcome]
      rfl
  | error fault =>
      rw [houtcome] at hvisit
      cases hvisit

/-- Visits without faults have results, each at the place of the unit. -/
theorem map_result {visits : List (Visit υ α)}
    (hall : ∀ visit ∈ visits, visit.fault? report dataSource = none) :
    (visits.filterMap (·.result? report dataSource)).map (·.1) = visits.map (·.stop.2.1) := by
  induction visits with
  | nil => rfl
  | cons visit visits ih =>
      rw [List.forall_mem_cons] at hall
      rcases result_of_faultless hall.1 with ⟨a, -, ha⟩
      simp only [List.filterMap_cons, ha, List.map_cons, ih hall.2]

end Visit

/-! ## Visits of a lane -/

/-- What the units of a lane have come to between two histories: those it has reached have had their
visits, in order, and the unit that runs was reached while there was time left. -/
structure Course.Tracks (b : Backend) (report : Report) (dataSource : υ → String)
    (work : UnitWork υ α) (h₀ h : History) (c : Course υ α) (visits : List (Visit υ α)) :
    Prop where
  stops : visits.map (·.stop) ++ c.pending.map (c.lane, ·) = c.lane.stops
  results : c.results = visits.filterMap (·.result? report dataSource)
  faults : c.faults = visits.filterMap (·.fault? report dataSource)
  takePlace : ∀ visit ∈ visits, visit.TakesPlace b report work h₀ h
  inTime : ∀ place u left, c.stage = .running place u left →
    ∃ reached, h₀ <+: reached ∧ report.isExpired (b.elapsed reached) = false ∧ reached <+: h

section

variable {b : Backend} {report : Report} {dataSource : υ → String} {work : UnitWork υ α}
  {h₀ h h' : History} {c c' : Course υ α} {visits : List (Visit υ α)}

namespace Course.Tracks

/-- A track stays one when more has happened. -/
theorem mono (hc : c.Tracks b report dataSource work h₀ h visits) (hle : h <+: h') :
    c.Tracks b report dataSource work h₀ h' visits := by
  refine ⟨hc.stops, hc.results, hc.faults, fun visit hvisit => ?_, fun place u left hstage => ?_⟩
  · exact (hc.takePlace visit hvisit).mono hle
  · rcases hc.inTime place u left hstage with ⟨reached, hstart, htime, hend⟩
    exact ⟨reached, hstart, htime, hend.trans hle⟩

/-- The units that are pending are on the data source of the lane. -/
theorem own_of_pending (hc : c.Tracks b report dataSource work h₀ h visits)
    (hown : ∀ x ∈ c.lane.units, dataSource x.2 = c.lane.dataSource) :
    ∀ x ∈ c.pending, dataSource x.2 = c.lane.dataSource := by
  intro x hx
  have hstop : (c.lane, x) ∈ c.lane.stops :=
    hc.stops ▸ List.mem_append_right _ (List.mem_map_of_mem hx)
  rcases List.mem_map.mp hstop with ⟨y, hy, heq⟩
  cases heq
  exact hown x hy

/-- Another stage with the same units pending. -/
theorem calm (hc : c.Tracks b report dataSource work h₀ h visits) (stage : Stage υ)
    (hpending : ({ c with stage } : Course υ α).pending = c.pending)
    (hinTime : ∀ place u left, stage = .running place u left →
      ∃ reached, h₀ <+: reached ∧ report.isExpired (b.elapsed reached) = false ∧ reached <+: h) :
    Course.Tracks b report dataSource work h₀ h { c with stage } visits :=
  ⟨by rw [hpending]; exact hc.stops, hc.results, hc.faults, hc.takePlace, hinTime⟩

/-- The next unit has its visit. -/
theorem visit (hc : c.Tracks b report dataSource work h₀ h visits) {place : Nat} {u : υ}
    {left : List (Nat × υ)} (hpending : c.pending = (place, u) :: left) (hle : h <+: h')
    {visit : Visit υ α} (hvisit : visit.TakesPlace b report work h₀ h')
    (hstop : visit.stop = (c.lane, place, u)) :
    (c.note place left (visit.outcome report dataSource)).Tracks b report dataSource work h₀ h'
      (visits ++ [visit]) := by
  refine ⟨?_, ?_, ?_, ?_, ?_⟩
  · rw [note_lane, pending_note, ← hc.stops, hpending, List.map_append, List.append_assoc]
    simp [hstop]
  · cases houtcome : visit.outcome report dataSource <;>
      simp [note, hc.results, Visit.result?, houtcome, hstop, Except.toOption]
  · cases houtcome : visit.outcome report dataSource <;>
      simp [note, hc.faults, Visit.fault?, houtcome]
  · rw [List.forall_mem_append, List.forall_mem_singleton]
    exact ⟨(hc.mono hle).takePlace, hvisit⟩
  · intro _ _ _ hstage
    rw [note_stage] at hstage
    cases hstage

end Course.Tracks

/-- Every move of a lane is one visit or none, unless the run is cancelled. -/
theorem Course.Moves.tracks (hwork : work.Works) (hstart : h₀ <+: h)
    (hown : ∀ x ∈ c.lane.units, dataSource x.2 = c.lane.dataSource)
    (hc : c.Tracks b report dataSource work h₀ h visits)
    (hmove : c.Moves b report work false h c' h') :
    ∃ new : List (Visit υ α),
      c'.Tracks b report dataSource work h₀ h' (visits ++ new) ∧
      ∃ events, h' = h ++ events ∧
        History.runs events = (new.filterMap (·.job?)).flatMap (·.events.runs) := by
  have hpendingOwn := hc.own_of_pending hown
  cases hmove with
  | takeUp hstage =>
      refine ⟨[], ?_, [], (List.append_nil h).symm, rfl⟩
      rw [List.append_nil]
      refine hc.calm (.between c.lane.units) ?_ (fun _ _ _ heq => by cases heq)
      rw [pending, pending, hstage]
  | close hstage =>
      rcases hstage with hstage | ⟨hcancelled, -⟩
      · refine ⟨[], ?_, _, rfl, rfl⟩
        rw [List.append_nil]
        refine (hc.calm .closed ?_ (fun _ _ _ heq => by cases heq)).mono (List.prefix_append h _)
        rw [pending, pending, hstage]
      · cases hcancelled
  | @expire place u left hstage htime =>
      have hpending : c.pending = (place, u) :: left := by rw [pending, hstage]
      have hu : dataSource u = c.lane.dataSource :=
        hpendingOwn (place, u) (hpending ▸ List.mem_cons_self)
      refine ⟨[.missed h c.lane place u], ?_, [], (List.append_nil h).symm, rfl⟩
      rw [← hu]
      have hvisit : (Visit.missed h c.lane place u : Visit υ α).TakesPlace b report work h₀ h :=
        .missed hstart htime List.prefix_rfl
      exact hc.visit hpending List.prefix_rfl hvisit rfl
  | @start place u left hstage htime =>
      refine ⟨[], ?_, [], (List.append_nil h).symm, rfl⟩
      rw [List.append_nil]
      refine hc.calm (.running place u left) ?_ fun _ _ _ _ => ⟨h, hstart, htime, List.prefix_rfl⟩
      rw [pending, pending, hstage]
  | @finish place u left hstage =>
      have hpending : c.pending = (place, u) :: left := by rw [pending, hstage]
      have hu : dataSource u = c.lane.dataSource :=
        hpendingOwn (place, u) (hpending ▸ List.mem_cons_self)
      rcases hwork c.lane u h with ⟨events, hhistory, -⟩
      rcases hc.inTime place u left hstage with ⟨reached, hreached, htime, hbefore⟩
      let job : Job υ α := ⟨place, u, c.lane, h, events, (work c.lane u h).1⟩
      have hjob : job.IsOf work := Prod.ext rfl hhistory
      refine ⟨[.done reached job], ?_, events, hhistory, by simp [Visit.job?, job]⟩
      rw [← hu]
      have hvisit : (Visit.done reached job).TakesPlace b report work h₀ (work c.lane u h).2 :=
        .done hreached htime hbefore hjob (hhistory ▸ List.prefix_rfl)
      exact hc.visit hpending (hhistory ▸ List.prefix_append h events) hvisit rfl

end

/-! ## Visits of a run -/

namespace Progress

/-- The visits of a run so far, lane by lane, and the work that has been done, in order. -/
structure Visiting (b : Backend) (report : Report) (dataSource : υ → String) (work : UnitWork υ α)
    (lanes : List (Lane υ)) (h₀ : History) (p : Progress υ α) (h : History)
    (tracks : List (Course υ α × List (Visit υ α))) (jobs : List (Job υ α)) : Prop where
  lanes_eq : p.courses.map (·.lane) = lanes
  courses : tracks.map (·.1) = p.courses
  visited : ∀ track ∈ tracks, track.1.Tracks b report dataSource work h₀ h track.2
  events : ∃ events, h = h₀ ++ events ∧ History.runs events = jobs.flatMap (·.events.runs)
  jobs : jobs.Perm ((tracks.flatMap (·.2)).filterMap (·.job?))

variable {b : Backend} {report : Report} {dataSource : υ → String} {work : UnitWork υ α}
  {lanes : List (Lane υ)} {h₀ h h' : History} {p p' : Progress υ α}
  {tracks : List (Course υ α × List (Visit υ α))} {jobs : List (Job υ α)}

/-- At the start no stop has been visited. -/
theorem visiting_start (lanes : List (Lane υ)) (h : History) :
    (start lanes).Visiting b report dataSource work lanes h h
      ((start lanes : Progress υ α).courses.map (·, [])) [] := by
  refine ⟨?_, ?_, ?_, ⟨[], (List.append_nil h).symm, rfl⟩, ?_⟩
  · simp [start, Function.comp_def]
  · simp [Function.comp_def]
  · intro track htrack
    rcases List.mem_map.mp htrack with ⟨c, hc, rfl⟩
    rcases List.mem_map.mp hc with ⟨lane, -, rfl⟩
    exact ⟨rfl, rfl, rfl, List.forall_mem_nil _, fun _ _ _ heq => by cases heq⟩
  · simp [List.flatMap_map]

/-- What is true of the visits so far is preserved by every step of a run that collects all
failures. -/
theorem Visiting.step (hwork : work.Works)
    (hown : ∀ lane ∈ lanes, ∀ x ∈ lane.units, dataSource x.2 = lane.dataSource)
    (hp : p.Visiting b report dataSource work lanes h₀ h tracks jobs)
    (hstep : p.Steps b report work .collectAll h p' h') :
    ∃ tracks' jobs', p'.Visiting b report dataSource work lanes h₀ h' tracks' jobs' := by
  have hlanes := hstep.lanes_eq.trans hp.lanes_eq
  cases hstep with
  | @move before after c c' _ hcourses hmove =>
      have hc : c ∈ p.courses := hcourses ▸ List.mem_append_right before List.mem_cons_self
      have hlane : c.lane ∈ lanes := hp.lanes_eq ▸ List.mem_map_of_mem hc
      rcases List.map_eq_append_iff.mp (hp.courses.trans hcourses) with
        ⟨earlier, rest, rfl, hearlier, hrest⟩
      rcases List.map_eq_cons_iff.mp hrest with ⟨⟨_, visits⟩, later, rfl, rfl, hlater⟩
      have htracks := hp.visited
      rw [List.forall_mem_append, List.forall_mem_cons] at htracks
      rcases htracks with ⟨hbefore, hown', hafter⟩
      rcases hp.events with ⟨events, rfl, hruns⟩
      rcases hmove.tracks hwork (List.prefix_append h₀ events) (hown _ hlane) hown' with
        ⟨new, hnew, more, rfl, hmore⟩
      have hle : h₀ ++ events <+: h₀ ++ events ++ more := List.prefix_append _ _
      refine ⟨earlier ++ (c', visits ++ new) :: later, jobs ++ new.filterMap (·.job?), hlanes,
        ?_, ?_, ⟨events ++ more, List.append_assoc .., ?_⟩, ?_⟩
      · rw [List.map_append, List.map_cons, hearlier, hlater]
      · rw [List.forall_mem_append, List.forall_mem_cons]
        exact ⟨fun track htrack => (hbefore track htrack).mono hle, hnew,
          fun track htrack => (hafter track htrack).mono hle⟩
      · rw [History.runs_append, hruns, hmore, List.flatMap_append]
      · have hjobs := hp.jobs.append_right (new.filterMap (·.job?))
        refine hjobs.trans ?_
        simp only [List.flatMap_append, List.flatMap_cons, List.filterMap_append,
          List.append_assoc]
        exact ((List.perm_append_comm).append_left _).append_left _

/-- When all lanes are closed, every unit has had its visit, in order. -/
theorem Visiting.stops_of_closed (hp : p.Visiting b report dataSource work lanes h₀ h tracks jobs)
    (hclosed : ∀ c ∈ p.courses, c.stage = .closed) :
    (tracks.flatMap (·.2)).map (·.stop) = lanes.flatMap (·.stops) := by
  rw [← hp.lanes_eq, ← hp.courses, List.map_flatMap, List.flatMap_map, List.flatMap_map]
  refine List.flatMap_congr fun track htrack => ?_
  have hc : track.1 ∈ p.courses := hp.courses ▸ List.mem_map_of_mem htrack
  have hpending : track.1.pending = [] := by rw [Course.pending, hclosed _ hc]
  have hstops := (hp.visited track htrack).stops
  rwa [hpending, List.map_nil, List.append_nil] at hstops

/-- The results are those of the visits. -/
theorem Visiting.results_eq (hp : p.Visiting b report dataSource work lanes h₀ h tracks jobs) :
    p.results = (tracks.flatMap (·.2)).filterMap (·.result? report dataSource) := by
  rw [results, ← hp.courses, List.flatMap_map, List.filterMap_flatMap]
  exact List.flatMap_congr fun track htrack => (hp.visited track htrack).results

/-- The faults are those of the visits. -/
theorem Visiting.faults_eq (hp : p.Visiting b report dataSource work lanes h₀ h tracks jobs) :
    p.faults = (tracks.flatMap (·.2)).filterMap (·.fault? report dataSource) := by
  rw [faults, ← hp.courses, List.flatMap_map, List.filterMap_flatMap]
  exact List.flatMap_congr fun track htrack => (hp.visited track htrack).faults

/-- All failures are reported together. -/
theorem settle_collectAll (hfaults : p.faults ≠ []) (n : Nat) :
    p.settle .collectAll n = .error (.several p.faults) := by
  unfold settle
  cases hp : p.faults with
  | nil => exact absurd hp hfaults
  | cons fault faults => rfl

end Progress

/-! ## Runs that collect all failures -/

/-- What a run that collects all failures comes to, between two histories. -/
structure Collects (b : Backend) (report : Report) (dataSource : υ → String) (work : UnitWork υ α)
    (lanes : List (Lane υ)) (units : List υ) (h h' : History) (answer : Except Fault (List α))
    (visits : List (Visit υ α)) (jobs : List (Job υ α)) : Prop where
  stops : visits.map (·.stop) = lanes.flatMap (·.stops)
  takePlace : ∀ visit ∈ visits, visit.TakesPlace b report work h h'
  runs : ∃ events, h' = h ++ events ∧ History.runs events = jobs.flatMap (·.events.runs)
  jobs : jobs.Perm (visits.filterMap (·.job?))
  /-- If no unit fails, the results stand at the places of the units. -/
  ok : (∀ visit ∈ visits, visit.fault? report dataSource = none) →
    ∃ results, answer = .ok results ∧ results.length = units.length ∧
      ∀ visit ∈ visits, ∃ a, visit.outcome report dataSource = .ok a ∧
        results[visit.stop.2.1]? = some a
  /-- Otherwise all failures are reported, each once and in the order of the visits. -/
  error : (∃ visit ∈ visits, visit.fault? report dataSource ≠ none) →
    answer = .error (.several (visits.filterMap (·.fault? report dataSource)))

/-- When all lanes are closed, the answer of a run is that of its visits. -/
theorem Progress.Visiting.collects {b : Backend} {report : Report} {dataSource : υ → String}
    {work : UnitWork υ α} {lanes : List (Lane υ)} {units : List υ} {h h' : History}
    {p : Progress υ α} {tracks : List (Course υ α × List (Visit υ α))} {jobs : List (Job υ α)}
    (hp : p.Visiting b report dataSource work lanes h h' tracks jobs)
    (hclosed : ∀ c ∈ p.courses, c.stage = .closed)
    (hunits : (lanes.flatMap (·.units)).Perm (placed units)) :
    Collects b report dataSource work lanes units h h' (p.settle .collectAll units.length)
      (tracks.flatMap (·.2)) jobs := by
  have hstops := hp.stops_of_closed hclosed
  refine ⟨hstops, ?_, hp.events, hp.jobs, fun hall => ?_, fun ⟨visit, hvisit, hfault⟩ => ?_⟩
  · intro visit hvisit
    rcases List.mem_flatMap.mp hvisit with ⟨track, htrack, hmem⟩
    exact (hp.visited track htrack).takePlace visit hmem
  · have hfaults : p.faults = [] := by
      rw [hp.faults_eq]
      exact List.filterMap_eq_nil_iff.mpr hall
    have hplaces : (p.results.map (·.1)).Perm (List.range units.length) := by
      have hvisited := congrArg (List.map (·.2.1)) hstops
      rw [List.map_map, Lane.map_place_stops] at hvisited
      rw [hp.results_eq, Visit.map_result hall, ← map_fst_placed]
      exact hvisited ▸ hunits.map _
    rcases Progress.settle_eq_ok hfaults hplaces .collectAll with ⟨results, hok, hlength, hat⟩
    refine ⟨results, hok, hlength, fun visit hvisit => ?_⟩
    rcases Visit.result_of_faultless (hall visit hvisit) with ⟨a, houtcome, hresult⟩
    refine ⟨a, houtcome, hat _ a ?_⟩
    rw [hp.results_eq]
    exact List.mem_filterMap.mpr ⟨visit, hvisit, hresult⟩
  · rw [Progress.settle_collectAll ?_, hp.faults_eq]
    rw [hp.faults_eq]
    exact fun hnone => hfault (List.filterMap_eq_nil_iff.mp hnone visit hvisit)

namespace Runner

/-- A run of open lanes that collects all failures comes to every unit exactly once, with any number
of workers and in whatever order the lanes go on.  A unit that is reached when the time is up is not
executed and fails.  If no unit fails, the results come in the order of the units of the statement;
otherwise the failures are reported together, one for each unit that fails, in the order of the
units on the lanes. -/
theorem run_collectAll {limits : LaneLimits} {b : Backend} {dataSource : υ → String}
    {units : List υ} {lanes : List (Lane υ)} {h₀ h : History}
    (hopened : limits.openFor b dataSource units h₀ = (.ok lanes, h)) (workers : Nat)
    (report : Report) {work : UnitWork υ α} (hwork : work.Works) :
    (lanes.flatMap (·.units)).Perm (placed units) ∧
    (∀ lane ∈ lanes, ∀ x ∈ lane.units, dataSource x.2 = lane.dataSource) ∧
    ∃ answer h' visits jobs,
      (⟨workers, .collectAll⟩ : Runner).run b report work lanes h = (answer, h') ∧
      Collects b report dataSource work lanes units h h' answer visits jobs := by
  have hhold := limits.hold_of_openFor hopened
  refine ⟨hhold.units, hhold.own, ?_⟩
  have hstep : ∀ (p : Progress υ α) (h₁ : History) (p' : Progress υ α) (h₂ : History),
      p.Steps b report work .collectAll h₁ p' h₂ →
      (∃ tracks jobs, p.Visiting b report dataSource work lanes h h₁ tracks jobs) →
      ∃ tracks jobs, p'.Visiting b report dataSource work lanes h h₂ tracks jobs :=
    fun _ _ _ _ hstep ⟨_, _, hp⟩ => hp.step hwork hhold.own hstep
  rcases advance_induction ⟨workers, .collectAll⟩ b report work hstep
    (Progress.start lanes : Progress υ α).stepsLeft
    ⟨_, [], Progress.visiting_start lanes h⟩ with ⟨tracks, jobs, hdone⟩
  have hclosed := closed_of_advance ⟨workers, .collectAll⟩ b report work
    (Nat.le_refl (Progress.start lanes : Progress υ α).stepsLeft) h
  have hcount : Lane.unitCount lanes = units.length := by
    rw [Lane.unitCount_eq, hhold.units.length_eq, placed, List.length_map, List.length_zipIdx]
  have hcollects := hdone.collects hclosed hhold.units
  rw [← hcount] at hcollects
  exact ⟨_, _, _, jobs, rfl, hcollects⟩

/-- A backend on which every call takes a millisecond, and the lane taken up last goes on first. -/
def lastLaneFirst : Backend :=
  { takingTurns with elapsed h := 1000000 * h.calls.length, turn _ _ := 1 }

/-- A target on one data source that cannot write its table. -/
def locked (_ : History) (call : Call) : Except String UpdateResult :=
  if call.unit.dataSource = "ds_1" then .error "table is locked" else .ok ⟨1, []⟩

/-- The unit on the second data source fails at first; when the last unit on the first one is
reached, the time is up.  Both failures are reported, that on the first data source before the
other. -/
theorem run_collectAll_tableUpdates :
    (⟨1, 1000⟩ : LaneLimits).openFor lastLaneFirst (·.dataSource) tableUpdates [] =
        (.ok tableLanes, [.acquired "ds_0" 0, .acquired "ds_1" 1]) ∧
      (UnitWork.asking .update locked).Works ∧
      ∃ h' visits jobs, (⟨2, .collectAll⟩ : Runner).run lastLaneFirst ⟨"orders", some 1⟩
          (.asking .update locked) tableLanes [.acquired "ds_0" 0, .acquired "ds_1" 1] =
            (.error (.several [.deadline "ds_0" 1, .unit "ds_1" "table is locked"]), h') ∧
        Collects lastLaneFirst ⟨"orders", some 1⟩ (·.dataSource) (.asking .update locked) tableLanes
          tableUpdates [.acquired "ds_0" 0, .acquired "ds_1" 1] h'
          (.error (.several [.deadline "ds_0" 1, .unit "ds_1" "table is locked"])) visits jobs := by
  have hopened : (⟨1, 1000⟩ : LaneLimits).openFor lastLaneFirst (·.dataSource) tableUpdates [] =
      (.ok tableLanes, [.acquired "ds_0" 0, .acquired "ds_1" 1]) := rfl
  have hwork : (UnitWork.asking .update locked).Works := UnitWork.asking_works .update locked
  rcases run_collectAll hopened 2 ⟨"orders", some 1⟩ hwork with
    ⟨-, -, answer, h', visits, jobs, hrun, hcollects⟩
  have hanswer : ((⟨2, .collectAll⟩ : Runner).run lastLaneFirst ⟨"orders", some 1⟩
      (.asking .update locked) tableLanes [.acquired "ds_0" 0, .acquired "ds_1" 1]).1 =
        .error (.several [.deadline "ds_0" 1, .unit "ds_1" "table is locked"]) := rfl
  cases (congrArg Prod.fst hrun).symm.trans hanswer
  exact ⟨hopened, hwork, h', visits, jobs, hrun, hcollects⟩

end Runner

end ShardedSql
