import ShardedSql.Proofs.Execution.Additions
import ShardedSql.Proofs.Execution.Results

/-!
# Accounts of runs

A run is accounted for whatever the work for its units is, in whatever order its lanes go on, and
whether or not there is a deadline.  A job is the work done for one unit.  Every unit has one job or
is missed; the calls of the run are those of its jobs; and every fault is that of a job that has
failed, or of a unit that was missed because the time was up.

Main results:

- Theorem `Progress.Accounts.step`: an account is kept up by every step.
- Theorem `Runner.run_adds`: the account of a run.
-/

namespace ShardedSql

variable {υ α : Type}

/-! ## Jobs -/

/-- The work done for a unit. -/
structure Job (υ α : Type) where
  place : Nat
  unit : υ
  lane : Lane υ
  before : History
  events : History
  outcome : Except String α

namespace Job

/-- The unit with its place. -/
def entry (job : Job υ α) : Nat × υ := (job.place, job.unit)

/-- The result with the place of the unit, if there is one. -/
def result? (job : Job υ α) : Option (Nat × α) :=
  job.outcome.toOption.map (job.place, ·)

/-- It is the given work that was done. -/
def IsOf (job : Job υ α) (work : UnitWork υ α) : Prop :=
  work job.lane job.unit job.before = (job.outcome, job.before ++ job.events)

/-- A job that succeeds has its answer as a result. -/
theorem result_eq {job : Job υ α} {a : α} (ha : job.outcome = .ok a) :
    job.result? = some (job.place, a) := by
  rw [result?, ha]
  rfl

/-- Jobs that have succeeded have results, each at its place. -/
theorem map_result {jobs : List (Job υ α)} (hall : ∀ job ∈ jobs, ∃ a, job.outcome = .ok a) :
    (jobs.filterMap (·.result?)).map (·.1) = jobs.map (·.place) := by
  induction jobs with
  | nil => rfl
  | cons job jobs ih =>
      rw [List.forall_mem_cons] at hall
      rcases hall.1 with ⟨a, ha⟩
      simp only [List.filterMap_cons, result_eq ha, List.map_cons, ih hall.2]

end Job

/-- Work that runs units and asks for connections or hands them back, and nothing else. -/
def UnitWork.Works (work : UnitWork υ α) : Prop :=
  ∀ lane u h, Adds (work lane u) h fun _ events => ∀ e ∈ events, e.isWork = true

/-- The faults that come from jobs and from missed units. -/
inductive Blamed (b : Backend) (report : Report) (dataSource : υ → String)
    (jobs : List (Job υ α)) (missed : List (Nat × υ)) : Fault → Prop
  | failed {job : Job υ α} {reason : String} (hjob : job ∈ jobs)
      (houtcome : job.outcome = .error reason) :
      Blamed b report dataSource jobs missed (.unit (dataSource job.unit) reason)
  /-- The time was up before a unit could be begun. -/
  | expired {x : Nat × υ} {h : History} (hx : x ∈ missed)
      (htime : report.isExpired (b.elapsed h) = true) :
      Blamed b report dataSource jobs missed
        (.deadline (dataSource x.2) (report.timeout.getD 0))

section

variable {b : Backend} {report : Report} {dataSource : υ → String} {work : UnitWork υ α}

/-- A fault stays to blame when more is known. -/
theorem Blamed.mono {jobs jobs' : List (Job υ α)} {missed missed' : List (Nat × υ)} {fault : Fault}
    (hblamed : Blamed b report dataSource jobs missed fault) (hjobs : jobs ⊆ jobs')
    (hmissed : missed ⊆ missed') : Blamed b report dataSource jobs' missed' fault := by
  cases hblamed with
  | failed hjob houtcome => exact .failed (hjobs hjob) houtcome
  | expired hx htime => exact .expired (hmissed hx) htime

/-! ## Moves -/

/-- What a move adds to the account of a lane: jobs, and missed units. -/
structure Course.Gains (b : Backend) (report : Report) (dataSource : υ → String)
    (work : UnitWork υ α) (isCancelled : Bool) (c : Course υ α) (h : History) (c' : Course υ α)
    (h' : History) (jobs : List (Job υ α)) (missed : List (Nat × υ)) : Prop where
  adds : ∃ events, h' = h ++ events ∧ (∀ e ∈ events, e.isWork = true) ∧
    History.runs events = jobs.flatMap (·.events.runs)
  isOf : ∀ job ∈ jobs, job.IsOf work
  entries : (jobs.map (·.entry) ++ c'.pending ++ missed).Perm c.pending
  results : c'.results = c.results ++ jobs.filterMap (·.result?)
  kept : c.faults ⊆ c'.faults
  blamed : ∀ fault ∈ c'.faults, fault ∈ c.faults ∨ Blamed b report dataSource jobs missed fault
  /-- Without a fault nothing has failed, and units are missed only when the run is cancelled. -/
  faultless : c'.faults = [] → (∀ job ∈ jobs, ∃ a, job.outcome = .ok a) ∧
    (missed = [] ∨ isCancelled = true)

variable {isCancelled : Bool} {c c' : Course υ α} {h h' : History}

/-- A move that only leads to another stage: some units may be missed because the run is
cancelled. -/
theorem Course.gains_calm (stage : Stage υ) {missed : List (Nat × υ)}
    (hpending : ({ c with stage } : Course υ α).pending ++ missed = c.pending)
    (hmissed : missed = [] ∨ isCancelled = true) {events : History} (hhistory : h' = h ++ events)
    (hevents : ∀ e ∈ events, e.isLeasing = true) :
    c.Gains b report dataSource work isCancelled h { c with stage } h' [] missed := by
  refine ⟨⟨events, hhistory, ?_, History.runs_of_isLeasing hevents⟩, List.forall_mem_nil _, ?_,
    (List.append_nil _).symm, List.Subset.refl _, fun _ hfault => .inl hfault,
    fun _ => ⟨List.forall_mem_nil _, hmissed⟩⟩
  · exact fun e he => Event.isWork_of_isLeasing (hevents e he)
  · rw [List.map_nil, List.nil_append, hpending]

/-- What is left of a lane is pending after an outcome. -/
theorem Course.pending_note (c : Course υ α) (place : Nat) (left : List (Nat × υ))
    (x : Except Fault α) : (c.note place left x).pending = left := by
  cases x <;> rfl

/-- A fault is noted behind those before it. -/
theorem Course.note_faults (c : Course υ α) (place : Nat) (left : List (Nat × υ)) (fault : Fault) :
    (c.note place left (.error fault)).faults = c.faults ++ [fault] := rfl

/-- The time is up before the next unit. -/
theorem Course.gains_expire {place : Nat} {u : υ} {left : List (Nat × υ)}
    (hstage : c.stage = .between ((place, u) :: left))
    (htime : report.isExpired (b.elapsed h) = true) (hown : dataSource u = c.lane.dataSource) :
    c.Gains b report dataSource work isCancelled h
      (c.note place left (.error (.deadline c.lane.dataSource (report.timeout.getD 0)))) h
      [] [(place, u)] := by
  have hpending : c.pending = (place, u) :: left := by simp [pending, hstage]
  refine ⟨⟨[], by simp, by simp, rfl⟩, by simp, ?_, by simp [note], ?_, ?_, ?_⟩
  · rw [hpending, pending_note]
    exact List.perm_append_comm
  · exact List.subset_append_left _ _
  · intro fault hfault
    rw [note_faults, List.mem_append, List.mem_singleton] at hfault
    refine hfault.imp_right fun heq => ?_
    have hexpired : Blamed (α := α) b report dataSource [] [(place, u)]
        (.deadline (dataSource u) (report.timeout.getD 0)) :=
      .expired (List.mem_singleton_self (place, u)) htime
    rw [heq, ← hown]
    exact hexpired
  · simp [note]

/-- The unit that a lane runs comes to its end. -/
theorem Course.gains_finish (hwork : work.Works) {place : Nat} {u : υ} {left : List (Nat × υ)}
    (hstage : c.stage = .running place u left) (hown : dataSource u = c.lane.dataSource)
    (h : History) :
    ∃ jobs, c.Gains b report dataSource work isCancelled h
      (c.note place left ((work c.lane u h).1.mapError (.unit c.lane.dataSource)))
      (work c.lane u h).2 jobs [] := by
  rcases hwork c.lane u h with ⟨events, hhistory, hevents⟩
  have hpending : c.pending = (place, u) :: left := by simp [pending, hstage]
  refine ⟨[⟨place, u, c.lane, h, events, (work c.lane u h).1⟩], ⟨events, hhistory, hevents, ?_⟩,
    ?_, ?_, ?_, ?_, ?_, ?_⟩
  · simp
  · intro job hjob
    rw [List.mem_singleton.mp hjob]
    exact Prod.ext rfl hhistory
  · rw [hpending, pending_note]
    simp [Job.entry]
  · cases (work c.lane u h).1 <;> simp [note, Job.result?, Except.mapError, Except.toOption]
  · cases (work c.lane u h).1 with
    | ok a => exact List.Subset.refl _
    | error reason => exact List.subset_append_left _ _
  · intro fault hfault
    cases houtcome : (work c.lane u h).1 with
    | ok a =>
        rw [houtcome] at hfault
        exact .inl hfault
    | error reason =>
        rw [houtcome] at hfault
        rcases List.mem_append.mp hfault with hfault | hfault
        · exact .inl hfault
        · right
          rw [List.mem_singleton.mp hfault, ← hown]
          exact Blamed.failed (List.mem_singleton_self _) rfl
  · cases (work c.lane u h).1 <;> simp [note, Except.mapError]

/-- Every move adds to the account of its lane. -/
theorem Course.Moves.gains (hwork : work.Works)
    (hown : ∀ x ∈ c.pending, dataSource x.2 = c.lane.dataSource)
    (hmove : c.Moves b report work isCancelled h c' h') :
    ∃ jobs missed, c.Gains b report dataSource work isCancelled h c' h' jobs missed := by
  cases hmove with
  | takeUp hstage =>
      exact ⟨[], [], gains_calm (.between c.lane.units) (by simp [pending, hstage]) (.inl rfl)
        (List.append_nil h).symm (List.forall_mem_nil _)⟩
  | close hstage =>
      refine ⟨[], c.pending, gains_calm .closed rfl ?_ rfl (List.forall_mem_singleton.mpr rfl)⟩
      rcases hstage with hstage | ⟨hcancelled, -⟩
      · exact .inl (by simp [pending, hstage])
      · exact .inr hcancelled
  | @expire place u left hstage htime =>
      have hu : (place, u) ∈ c.pending := by simp [pending, hstage]
      exact ⟨[], [(place, u)], gains_expire hstage htime (hown _ hu)⟩
  | @start place u left hstage =>
      exact ⟨[], [], gains_calm (.running place u left) (by simp [pending, hstage]) (.inl rfl)
        (List.append_nil h).symm (List.forall_mem_nil _)⟩
  | @finish place u left hstage =>
      have hu : (place, u) ∈ c.pending := by simp [pending, hstage]
      rcases gains_finish hwork hstage (hown _ hu) h with ⟨jobs, hjobs⟩
      exact ⟨jobs, [], hjobs⟩

/-! ## Runs -/

namespace Progress

/-- The account of a run so far: its jobs, and the units that were missed. -/
structure Accounts (b : Backend) (report : Report) (dataSource : υ → String) (work : UnitWork υ α)
    (lanes : List (Lane υ)) (h₀ : History) (p : Progress υ α) (h : History)
    (jobs : List (Job υ α)) (missed : List (Nat × υ)) : Prop where
  lanes_eq : p.courses.map (·.lane) = lanes
  pending_subset : ∀ c ∈ p.courses, c.pending ⊆ c.lane.units
  adds : ∃ events, h = h₀ ++ events ∧ (∀ e ∈ events, e.isWork = true) ∧
    History.runs events = jobs.flatMap (·.events.runs)
  isOf : ∀ job ∈ jobs, job.IsOf work
  /-- A unit has had its job, is pending, or has been missed. -/
  entries : (jobs.map (·.entry) ++ p.courses.flatMap (·.pending) ++ missed).Perm
    (lanes.flatMap (·.units))
  results : p.results.Perm (jobs.filterMap (·.result?))
  blamed : ∀ fault ∈ p.faults, Blamed b report dataSource jobs missed fault
  faultless : p.faults = [] → missed = [] ∧ ∀ job ∈ jobs, ∃ a, job.outcome = .ok a
  firstFault : ∀ fault, p.firstFault = some fault → fault ∈ p.faults

variable {policy : FailurePolicy} {lanes : List (Lane υ)} {h₀ h h' : History}
  {p p' : Progress υ α} {jobs : List (Job υ α)} {missed : List (Nat × υ)}

/-- At the start nothing has been done and all units are pending. -/
theorem accounts_start (lanes : List (Lane υ)) (h : History) :
    (start lanes).Accounts b report dataSource work lanes h h [] [] := by
  refine ⟨?_, ?_, ⟨[], (List.append_nil h).symm, List.forall_mem_nil _, rfl⟩,
    List.forall_mem_nil _, ?_, ?_, ?_, fun _ => ⟨rfl, List.forall_mem_nil _⟩, ?_⟩
  · simp [start, Function.comp_def]
  · intro c hc
    rcases List.mem_map.mp hc with ⟨lane, -, rfl⟩
    exact List.Subset.refl _
  · have hpending : (start lanes : Progress υ α).courses.flatMap (·.pending) =
        lanes.flatMap (·.units) := List.flatMap_map ..
    rw [hpending, List.map_nil, List.nil_append, List.append_nil]
  · simp [start, Progress.results]
  · simp [start, Progress.faults]
  · simp [start]

section

variable {before after : List (Course υ α)} {c c' : Course υ α}

/-- A fault of a run is one of a lane: of an earlier one, of this one or of a later one. -/
theorem mem_faults_split (first : Option Fault) {fault : Fault} :
    fault ∈ (⟨before ++ c :: after, first⟩ : Progress υ α).faults ↔
      fault ∈ before.flatMap (·.faults) ∨ fault ∈ c.faults ∨ fault ∈ after.flatMap (·.faults) := by
  simp only [Progress.faults, List.flatMap_append, List.flatMap_cons, List.mem_append]

theorem mem_faults_of_courses (hcourses : p.courses = before ++ c :: after) {fault : Fault} :
    fault ∈ p.faults ↔ fault ∈ before.flatMap (·.faults) ∨ fault ∈ c.faults ∨
      fault ∈ after.flatMap (·.faults) := by
  rw [← mem_faults_split p.firstFault, ← hcourses]

/-- Faults are kept by a move of a lane that keeps its own. -/
theorem faults_subset_of_move (hcourses : p.courses = before ++ c :: after)
    (hkept : c.faults ⊆ c'.faults) (first : Option Fault) :
    p.faults ⊆ (⟨before ++ c' :: after, first⟩ : Progress υ α).faults := by
  intro fault hfault
  rw [mem_faults_of_courses hcourses] at hfault
  rw [mem_faults_split]
  exact hfault.imp_right (.imp_left fun hmem => hkept hmem)

/-- A fault after a move was there before, or it is a new one of the lane. -/
theorem mem_faults_of_move (hcourses : p.courses = before ++ c :: after) {P : Fault → Prop}
    (hblamed : ∀ fault ∈ c'.faults, fault ∈ c.faults ∨ P fault) {first : Option Fault}
    {fault : Fault} (hfault : fault ∈ (⟨before ++ c' :: after, first⟩ : Progress υ α).faults) :
    fault ∈ p.faults ∨ P fault := by
  rw [mem_faults_of_courses hcourses]
  rcases (mem_faults_split first).mp hfault with hmem | hmem | hmem
  · exact .inl (.inl hmem)
  · exact (hblamed fault hmem).imp_left fun hmem => .inr (.inl hmem)
  · exact .inl (.inr (.inr hmem))

end

/-- An account is kept up by every step. -/
theorem Accounts.step (hwork : work.Works)
    (hown : ∀ lane ∈ lanes, ∀ x ∈ lane.units, dataSource x.2 = lane.dataSource)
    (hp : p.Accounts b report dataSource work lanes h₀ h jobs missed)
    (hstep : p.Steps b report work policy h p' h') :
    ∃ jobs' missed', p'.Accounts b report dataSource work lanes h₀ h' jobs' missed' := by
  have hlanes := hstep.lanes_eq.trans hp.lanes_eq
  cases hstep with
  | @move before after c c' _ hcourses hmove =>
      have hc : c ∈ p.courses := hcourses ▸ List.mem_append_right before List.mem_cons_self
      have hlane : c.lane ∈ lanes := hp.lanes_eq ▸ List.mem_map_of_mem hc
      rcases hmove.gains hwork fun x hx => hown c.lane hlane x (hp.pending_subset c hc hx) with
        ⟨new, lost, hnew⟩
      have hkept := faults_subset_of_move (p := p) hcourses hnew.kept
        (p.firstFault.or c'.faults.head?)
      have hmoved : c'.faults ⊆
          (⟨before ++ c' :: after, p.firstFault.or c'.faults.head?⟩ : Progress υ α).faults :=
        fun fault hmem => (mem_faults_split _).mpr (.inr (.inl hmem))
      refine ⟨jobs ++ new, missed ++ lost, hlanes, ?_, ?_, ?_, ?_, ?_, ?_, ?_, ?_⟩
      · refine pending_subset_of_move hcourses hmove.lane_eq (fun x hx => ?_) hp.pending_subset
        exact hnew.entries.mem_iff.mp (List.mem_append_left _ (List.mem_append_right _ hx))
      · rcases hp.adds with ⟨events, rfl, hevents, hruns⟩
        rcases hnew.adds with ⟨later, rfl, hlater, hlaterRuns⟩
        refine ⟨events ++ later, List.append_assoc .., ?_, ?_⟩
        · exact List.forall_mem_append.mpr ⟨hevents, hlater⟩
        · rw [History.runs_append, hruns, hlaterRuns, List.flatMap_append]
      · exact List.forall_mem_append.mpr ⟨hp.isOf, hnew.isOf⟩
      · rw [List.map_append]
        exact perm_of_move hcourses hp.entries hnew.entries
      · rw [List.filterMap_append]
        exact results_of_move hcourses hp.results hnew.results _
      · intro fault hfault
        rcases mem_faults_of_move hcourses hnew.blamed hfault with hmem | hblamed
        · exact (hp.blamed fault hmem).mono (List.subset_append_left _ _)
            (List.subset_append_left _ _)
        · exact hblamed.mono (List.subset_append_right _ _) (List.subset_append_right _ _)
      · intro hnil
        rw [hnil] at hkept hmoved
        have hnone := List.subset_nil.mp hkept
        rcases hp.faultless hnone with ⟨hmissed, hjobs⟩
        rcases hnew.faultless (List.subset_nil.mp hmoved) with ⟨hnewJobs, hlost | hcancelled⟩
        · exact ⟨by rw [hmissed, hlost, List.append_nil],
            List.forall_mem_append.mpr ⟨hjobs, hnewJobs⟩⟩
        · -- A run is cancelled only because of a fault.
          rcases Option.isSome_iff_exists.mp (Bool.and_eq_true_iff.mp hcancelled).2 with
            ⟨fault, hfirst⟩
          have hfault := hp.firstFault fault hfirst
          rw [hnone] at hfault
          cases hfault
      · intro fault hfirst
        rcases Option.or_eq_some_iff.mp hfirst with hfirst | ⟨-, hfirst⟩
        · exact hkept (hp.firstFault fault hfirst)
        · exact hmoved (List.mem_of_head? hfirst)

variable {units : List υ}

/-- When all lanes are closed, every unit has had its job or has been missed. -/
theorem Accounts.entries_of_closed
    (hp : p.Accounts b report dataSource work lanes h₀ h jobs missed)
    (hclosed : ∀ c ∈ p.courses, c.stage = .closed)
    (hunits : (lanes.flatMap (·.units)).Perm (placed units)) :
    (jobs.map (·.entry) ++ missed).Perm (placed units) := by
  have hpending : p.courses.flatMap (·.pending) = [] := by
    rw [List.flatMap_eq_nil_iff]
    intro c hc
    rw [Course.pending, hclosed c hc]
  have hentries := hp.entries.trans hunits
  rwa [hpending, List.append_nil] at hentries

/-- When all lanes are closed and nothing has failed, the results are those of the jobs. -/
theorem Accounts.settle_of_faultless
    (hp : p.Accounts b report dataSource work lanes h₀ h jobs missed)
    (hclosed : ∀ c ∈ p.courses, c.stage = .closed)
    (hunits : (lanes.flatMap (·.units)).Perm (placed units)) (hfaults : p.faults = [])
    (policy : FailurePolicy) :
    ∃ results, p.settle policy units.length = .ok results ∧ missed = [] ∧
      results.length = units.length ∧
      ∀ job ∈ jobs, ∃ a, job.outcome = .ok a ∧ results[job.place]? = some a := by
  rcases hp.faultless hfaults with ⟨hmissed, hall⟩
  have hplaces : (p.results.map (·.1)).Perm (List.range units.length) := by
    have hjobs := hp.results.map (·.1)
    rw [Job.map_result hall] at hjobs
    have hentries := (hp.entries_of_closed hclosed hunits).map (·.1)
    rw [hmissed, List.append_nil, map_fst_placed, List.map_map] at hentries
    exact hjobs.trans hentries
  rcases settle_eq_ok hfaults hplaces policy with ⟨results, hresults, hlength, hat⟩
  refine ⟨results, hresults, hmissed, hlength, fun job hjob => ?_⟩
  rcases hall job hjob with ⟨a, ha⟩
  refine ⟨a, ha, hat job.place a (hp.results.mem_iff.mpr ?_)⟩
  exact List.mem_filterMap.mpr ⟨job, hjob, Job.result_eq ha⟩

end Progress

end

/-- One of some faults, or several of them together. -/
inductive Fault.Joins (base : Fault → Prop) : Fault → Prop
  | one {fault : Fault} (hfault : base fault) : Joins base fault
  | several {faults : List Fault} (hsome : faults ≠ []) (hall : ∀ fault ∈ faults, base fault) :
      Joins base (.several faults)

/-- A joined fault has a cause. -/
theorem Fault.Joins.exists_base {base : Fault → Prop} {fault : Fault}
    (hfault : fault.Joins base) : ∃ cause, base cause := by
  cases hfault with
  | one hbase => exact ⟨fault, hbase⟩
  | several hsome hall =>
      rcases List.exists_mem_of_ne_nil _ hsome with ⟨cause, hcause⟩
      exact ⟨cause, hall cause hcause⟩

/-- Causes of one kind are causes of any kind that includes it. -/
theorem Fault.Joins.mono {base base' : Fault → Prop} {fault : Fault} (hfault : fault.Joins base)
    (himp : ∀ cause, base cause → base' cause) : fault.Joins base' := by
  cases hfault with
  | one hbase => exact .one (himp _ hbase)
  | several hsome hall => exact .several hsome fun cause hcause => himp cause (hall cause hcause)

/-- A run that has no results reports faults of its units. -/
theorem Progress.joins_of_settle {p : Progress υ α} {policy : FailurePolicy} {n : Nat}
    {fault : Fault} (hfirst : ∀ fault, p.firstFault = some fault → fault ∈ p.faults)
    (hfaults : p.faults ≠ []) (herror : p.settle policy n = .error fault) :
    fault.Joins (· ∈ p.faults) := by
  unfold settle at herror
  cases hp : p.faults with
  | nil => exact absurd hp hfaults
  | cons first others =>
      rw [hp] at herror
      cases policy with
      | failFast =>
          cases herror
          refine .one ?_
          cases hfault : p.firstFault with
          | none => exact List.mem_cons_self
          | some fault =>
              rw [← hp]
              exact hfirst fault hfault
      | collectAll =>
          cases herror
          exact .several (List.cons_ne_nil _ _) fun _ hmem => hmem

/-- What running units comes to: their jobs, and the units that are missed. -/
structure Carries (b : Backend) (report : Report) (dataSource : υ → String) (work : UnitWork υ α)
    (units : List υ) (jobs : List (Job υ α)) (missed : List (Nat × υ))
    (answer : Except Fault (List α)) (events : History) : Prop where
  isWork : ∀ e ∈ events, e.isWork = true
  runs : History.runs events = jobs.flatMap (·.events.runs)
  isOf : ∀ job ∈ jobs, job.IsOf work
  entries : (jobs.map (·.entry) ++ missed).Perm (placed units)
  /-- An answer holds the results of all units, each at its place. -/
  ok : ∀ results, answer = .ok results → missed = [] ∧ results.length = units.length ∧
    ∀ job ∈ jobs, ∃ a, job.outcome = .ok a ∧ results[job.place]? = some a
  error : ∀ fault, answer = .error fault → fault.Joins (Blamed b report dataSource jobs missed)

/-- The account of a run. -/
theorem Runner.run_adds (r : Runner) (b : Backend) (report : Report) {work : UnitWork υ α}
    (hwork : work.Works) {dataSource : υ → String} {lanes : List (Lane υ)} {units : List υ}
    (hhold : Lane.Hold dataSource lanes (placed units)) (h : History) :
    Adds (r.run b report work lanes) h fun answer events =>
      ∃ jobs missed, Carries b report dataSource work units jobs missed answer events := by
  have hstep : ∀ (p : Progress υ α) (h₁ : History) (p' : Progress υ α) (h₂ : History),
      p.Steps b report work r.policy h₁ p' h₂ →
      (∃ jobs missed, p.Accounts b report dataSource work lanes h h₁ jobs missed) →
      ∃ jobs missed, p'.Accounts b report dataSource work lanes h h₂ jobs missed :=
    fun _ _ _ _ hstep ⟨_, _, hp⟩ => hp.step hwork hhold.own hstep
  rcases r.advance_induction b report work hstep (Progress.start lanes : Progress υ α).stepsLeft
    ⟨[], [], Progress.accounts_start lanes h⟩ with ⟨jobs, missed, hdone⟩
  have hclosed := r.closed_of_advance b report work
    (Nat.le_refl (Progress.start lanes : Progress υ α).stepsLeft) h
  have hcount : Lane.unitCount lanes = units.length := by
    rw [Lane.unitCount_eq, hhold.units.length_eq, placed, List.length_map, List.length_zipIdx]
  have hsettled := hdone.settle_of_faultless hclosed hhold.units
  rcases hdone.adds with ⟨events, hhistory, hevents, hruns⟩
  unfold Adds
  rw [run_apply]
  dsimp only
  rw [hcount]
  refine ⟨events, hhistory, jobs, missed, hevents, hruns, hdone.isOf,
    hdone.entries_of_closed hclosed hhold.units, ?_, ?_⟩
  · intro results hresults
    rcases hsettled (by_contra fun hfaults => Progress.settle_ne_ok hfaults _ _ results hresults)
      r.policy with ⟨settled, heq, hmissed, hlength, hjobs⟩
    cases hresults.symm.trans heq
    exact ⟨hmissed, hlength, hjobs⟩
  · intro fault hfault
    refine (Progress.joins_of_settle hdone.firstFault ?_ hfault).mono hdone.blamed
    intro hfaults
    rcases hsettled hfaults r.policy with ⟨settled, heq, -⟩
    cases hfault.symm.trans heq

end ShardedSql
