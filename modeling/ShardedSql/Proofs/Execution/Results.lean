import Mathlib.Data.List.Forall2
import ShardedSql.Proofs.Execution.Conservation
import ShardedSql.Proofs.Execution.Dealing
import ShardedSql.Proofs.Traversal

/-!
# Results in the order of the units

The units of a statement are dealt out over lanes, which go on in any order, and their results are
gathered again by place.  The places are never mixed up: where the statement succeeds, every unit
has been run once, on a connection to its own data source, and its result stands at its place.

Main results:

- Theorem `Progress.Recorded.step`: what the results of a run are is preserved by every step.
- Theorem `Progress.settle_eq_ok`: results at all places are put in order.
- Theorem `Runner.run_units`: what the results of units are.
-/

namespace ShardedSql

variable {α : Type}

/-! ## Units that were run -/

/-- A unit that was run: its place among the units, what had happened before, and the call. -/
structure UnitRun where
  place : Nat
  before : History
  call : Call

namespace UnitRun

/-- The target has delivered a result. -/
def Succeeds (run : UnitRun) (answer : History → Call → Except String α) : Prop :=
  ∃ a, answer run.before run.call = .ok a

/-- The result, if there is one, with the place of the unit. -/
def result? (run : UnitRun) (answer : History → Call → Except String α) : Option (Nat × α) :=
  match answer run.before run.call with
  | .ok a => some (run.place, a)
  | .error _ => none

/-- The run is part of a history. -/
def IsIn (run : UnitRun) (answer : History → Call → Except String α) (h : History) : Prop :=
  ∃ after, h = run.before ++ .ran run.call (failure? (answer run.before run.call)) :: after

/-- A run stays in the history. -/
theorem IsIn.append {run : UnitRun} {answer : History → Call → Except String α} {h : History}
    (hrun : run.IsIn answer h) (later : History) : run.IsIn answer (h ++ later) := by
  rcases hrun with ⟨after, rfl⟩
  exact ⟨after ++ later, List.append_assoc ..⟩

/-- It is a unit of one of some lanes that was run, on the connection of the lane, which was at
hand. -/
def IsOn (run : UnitRun) (purpose : Purpose) (lanes : List (Lane ExecutionUnit)) (h₀ : History) :
    Prop :=
  ∃ lane ∈ lanes, ∃ u, (run.place, u) ∈ lane.units ∧ run.call = lane.call purpose u ∧
    ∃ held, Balanced (Lane.leases lanes) h₀ run.before held ∧ lane.lease ∈ held

/-- It is the unit at its place that was run, for a purpose and on a connection that has been
acquired for its data source and is at hand. -/
structure IsOf (run : UnitRun) (purpose : Purpose) (units : List ExecutionUnit) (h₀ : History) :
    Prop where
  unit_eq : units[run.place]? = some run.call.unit
  purpose_eq : run.call.purpose = purpose
  /-- Its connection is at hand, and one to its data source. -/
  atHand : ∃ held, Balanced [] h₀ run.before held ∧
    (run.call.unit.dataSource, run.call.connection) ∈ held

end UnitRun

/-- All units that were run between two histories, in order. -/
structure Ran (purpose : Purpose) (answer : History → Call → Except String α)
    (units : List ExecutionUnit) (h h' : History) (runs : List UnitRun) : Prop where
  calls : h'.calls = h.calls ++ runs.map (·.call)
  isIn : ∀ run ∈ runs, run.IsIn answer h'
  isOf : ∀ run ∈ runs, run.IsOf purpose units h
  nodup : (runs.map (·.place)).Nodup

/-! ## What a lane yields -/

/-- The units of a lane that have not come to an end. -/
def Course.pending {υ : Type} (c : Course υ α) : List (Nat × υ) :=
  match c.stage with
  | .waiting => c.lane.units
  | .between left => left
  | .running place u left => (place, u) :: left
  | .closed => []

/-- What a lane yields by a move: the units that have been run, at most one. -/
structure Course.Yields (purpose : Purpose) (answer : History → Call → Except String α)
    (isCancelled : Bool) (c : Course ExecutionUnit α) (h : History) (c' : Course ExecutionUnit α)
    (h' : History) (runs : List UnitRun) : Prop where
  goesOn : ∃ events, h' = h ++ events
  calls : h'.calls = h.calls ++ runs.map (·.call)
  isIn : ∀ run ∈ runs, run.IsIn answer h'
  /-- A pending unit is run on the connection of the lane, which is at hand. -/
  isOwn : ∀ run ∈ runs, run.before = h ∧ c.leases = [c.lane.lease] ∧
    ∃ u, (run.place, u) ∈ c.pending ∧ run.call = c.lane.call purpose u
  pending_subset : c'.pending ⊆ c.pending
  /-- Units are dropped only when the run is cancelled. -/
  places : ∃ dropped,
    (runs.map (·.place) ++ c'.pending.map (·.1) ++ dropped).Perm (c.pending.map (·.1)) ∧
      (dropped ≠ [] → isCancelled = true)
  results : c'.results = c.results ++ runs.filterMap (·.result? answer)
  faults : c'.faults = [] ↔ c.faults = [] ∧ ∀ run ∈ runs, run.Succeeds answer

section

variable {b : Backend} {report : Report} {purpose : Purpose}
  {answer : History → Call → Except String α} {isCancelled : Bool}
  {c c' : Course ExecutionUnit α} {h h' : History}

/-- A move of a lane by which no unit comes to its end. -/
theorem Course.Yields.of_calm {events : History} (hevents : h' = h ++ events)
    (hcalls : History.calls events = []) (hresults : c'.results = c.results)
    (hfaults : c'.faults = c.faults)
    (hpending : c'.pending = c.pending ∨ c'.pending = [] ∧ isCancelled = true) :
    c.Yields purpose answer isCancelled h c' h' [] := by
  refine ⟨⟨events, hevents⟩, ?_, by simp, by simp, ?_, ?_, ?_, ?_⟩
  · rw [hevents, History.calls_append, hcalls, List.map_nil]
  · rcases hpending with hsame | ⟨hnone, -⟩
    · exact hsame ▸ List.Subset.refl _
    · exact hnone ▸ List.nil_subset _
  · rcases hpending with hsame | ⟨hnone, hcancelled⟩
    · exact ⟨[], by simp [hsame], fun hne => absurd rfl hne⟩
    · exact ⟨c.pending.map (·.1), by simp [hnone], fun _ => hcancelled⟩
  · simp [hresults]
  · simp [hfaults]

/-- The unit that a lane runs comes to its end. -/
theorem Course.yields_note {place : Nat} {u : ExecutionUnit} {left : List (Nat × ExecutionUnit)}
    (hstage : c.stage = .running place u left) (fault : String → Fault) (h : History) :
    c.Yields purpose answer isCancelled h
      (c.note place left ((answer h (c.lane.call purpose u)).mapError fault))
      (h ++ [.ran (c.lane.call purpose u) (failure? (answer h (c.lane.call purpose u)))])
      [⟨place, h, c.lane.call purpose u⟩] := by
  have hpending : c.pending = (place, u) :: left := by simp [pending, hstage]
  refine ⟨⟨_, rfl⟩, History.calls_append .., ?_, ?_, ?_, ⟨[], ?_, ?_⟩, ?_, ?_⟩
  · intro run hrun
    rw [List.mem_singleton.mp hrun]
    exact ⟨[], rfl⟩
  · intro run hrun
    rw [List.mem_singleton.mp hrun, hpending]
    exact ⟨rfl, by simp [leases, hstage], u, List.mem_cons_self, rfl⟩
  · simp [pending, hstage]
  · simp [pending, hstage]
  · exact fun hne => absurd rfl hne
  · cases hanswer : answer h (c.lane.call purpose u) <;>
      simp [note, UnitRun.result?, hanswer, Except.mapError]
  · cases hanswer : answer h (c.lane.call purpose u) <;>
      simp [note, UnitRun.Succeeds, hanswer, Except.mapError]

/-- Without a deadline every move of a lane yields the unit that has come to its end, if any. -/
theorem Course.Moves.yields (htime : report.timeout = none)
    (hmove : c.Moves b report (.asking purpose answer) isCancelled h c' h') :
    ∃ runs, c.Yields purpose answer isCancelled h c' h' runs := by
  cases hmove with
  | takeUp hstage =>
      exact ⟨[], .of_calm (List.append_nil h).symm rfl rfl rfl (.inl (by simp [pending, hstage]))⟩
  | close hstage =>
      refine ⟨[], .of_calm rfl rfl rfl rfl ?_⟩
      rcases hstage with hstage | ⟨hcancelled, -⟩
      · exact .inl (by simp [pending, hstage])
      · exact .inr ⟨rfl, hcancelled⟩
  | expire hstage hexpired => simp [Report.isExpired, htime] at hexpired
  | start hstage =>
      exact ⟨[], .of_calm (List.append_nil h).symm rfl rfl rfl (.inl (by simp [pending, hstage]))⟩
  | finish hstage => exact ⟨_, yields_note hstage _ h⟩

end

/-! ## Moves in a run -/

namespace Progress

section

variable {υ : Type} {p : Progress υ α} {before after : List (Course υ α)} {c c' : Course υ α}
  (hcourses : p.courses = before ++ c :: after)

include hcourses

/-- A move of one lane leaves the units of each lane its own. -/
theorem pending_subset_of_move (hlane : c'.lane = c.lane) (hpending : c'.pending ⊆ c.pending)
    (hall : ∀ c ∈ p.courses, c.pending ⊆ c.lane.units) :
    ∀ d ∈ before ++ c' :: after, d.pending ⊆ d.lane.units := by
  rw [hcourses, List.forall_mem_append, List.forall_mem_cons] at hall
  rw [List.forall_mem_append, List.forall_mem_cons, hlane]
  exact ⟨hall.1, List.Subset.trans hpending hall.2.1, hall.2.2⟩

/-- What a lane has done or given up by a move, the run has done or given up. -/
theorem perm_of_move {κ : Type} {waiting : Course υ α → List κ}
    {done others given left total : List κ}
    (hall : (done ++ p.courses.flatMap waiting ++ given).Perm total)
    (hone : (others ++ waiting c' ++ left).Perm (waiting c)) :
    (done ++ others ++ (before ++ c' :: after).flatMap waiting ++ (given ++ left)).Perm total := by
  classical
  rw [List.perm_iff_count] at hall hone ⊢
  intro x
  have hrun := hall x
  have hlane := hone x
  simp only [hcourses, List.flatMap_append, List.flatMap_cons, List.count_append] at hrun hlane ⊢
  omega

/-- A move of one lane adds its result to those of the run. -/
theorem results_of_move {results others : List (Nat × α)} (hall : p.results.Perm results)
    (hone : c'.results = c.results ++ others) (first : Option Fault) :
    (⟨before ++ c' :: after, first⟩ : Progress υ α).results.Perm (results ++ others) := by
  refine List.Perm.trans ?_ (hall.append_right _)
  simp only [Progress.results, hcourses, List.flatMap_append, List.flatMap_cons, hone,
    List.append_assoc]
  exact (List.perm_append_comm.append_left _).append_left _

end

/-! ## Invariant -/

/-- What the results of a run are, given the units that were run. -/
structure Recorded (purpose : Purpose) (answer : History → Call → Except String α)
    (lanes : List (Lane ExecutionUnit)) (h₀ : History) (p : Progress ExecutionUnit α) (h : History)
    (runs : List UnitRun) : Prop where
  lanes_eq : p.courses.map (·.lane) = lanes
  pending_subset : ∀ c ∈ p.courses, c.pending ⊆ c.lane.units
  balanced : Balanced (Lane.leases lanes) h₀ h p.leases
  calls : h.calls = h₀.calls ++ runs.map (·.call)
  isIn : ∀ run ∈ runs, run.IsIn answer h
  isOn : ∀ run ∈ runs, run.IsOn purpose lanes h₀
  /-- A unit has been run, is pending, or is skipped because another one has failed. -/
  places : ∃ skipped,
    (runs.map (·.place) ++ (p.courses.flatMap (·.pending)).map (·.1) ++ skipped).Perm
      ((lanes.flatMap (·.units)).map (·.1)) ∧ (skipped ≠ [] → p.faults ≠ [])
  results : p.results.Perm (runs.filterMap (·.result? answer))
  faults : p.faults = [] ↔ ∀ run ∈ runs, run.Succeeds answer
  firstFault : p.firstFault.isSome → p.faults ≠ []

variable {purpose : Purpose} {answer : History → Call → Except String α}
  {lanes : List (Lane ExecutionUnit)} {h₀ h h' : History} {p p' : Progress ExecutionUnit α}
  {runs : List UnitRun}

/-- At the start nothing has been run. -/
theorem recorded_start (lanes : List (Lane ExecutionUnit)) (h : History) :
    (start lanes).Recorded purpose answer lanes h h [] := by
  have hresults : (start lanes : Progress ExecutionUnit α).results = [] := by
    simp [start, Progress.results]
  have hfaults : (start lanes : Progress ExecutionUnit α).faults = [] := by
    simp [start, Progress.faults]
  refine ⟨?_, ?_, ?_, ?_, ?_, ?_, ⟨[], ?_, ?_⟩, ?_, ?_, ?_⟩
  · simp [start, Function.comp_def]
  · intro c hc
    rcases List.mem_map.mp hc with ⟨lane, -, rfl⟩
    exact List.Subset.refl _
  · rw [leases_start]
    exact .refl _ h
  · simp
  · simp
  · simp
  · have hpending : (start lanes : Progress ExecutionUnit α).courses.flatMap (·.pending) =
        lanes.flatMap (·.units) := List.flatMap_map ..
    rw [hpending, List.map_nil, List.nil_append, List.append_nil]
  · exact fun hne => absurd rfl hne
  · rw [hresults]
    exact .refl _
  · simp [hfaults]
  · simp [start]

/-- What the results of a run are is preserved by every step. -/
theorem Recorded.step {b : Backend} {report : Report} (htime : report.timeout = none)
    {policy : FailurePolicy} (hp : p.Recorded purpose answer lanes h₀ h runs)
    (hstep : p.Steps b report (.asking purpose answer) policy h p' h') :
    ∃ runs', p'.Recorded purpose answer lanes h₀ h' runs' := by
  have hlanes := hstep.lanes_eq.trans hp.lanes_eq
  have hbalanced := hp.balanced.trans (hstep.balanced (UnitWork.asking_quiet purpose answer))
  cases hstep with
  | @move before after c c' _ hcourses hmove =>
      rcases hmove.yields htime with ⟨new, hnew⟩
      have hc : c ∈ p.courses := hcourses ▸ List.mem_append_right before List.mem_cons_self
      have hfaults : ∀ first,
          (⟨before ++ c' :: after, first⟩ : Progress ExecutionUnit α).faults = [] ↔
            p.faults = [] ∧ ∀ run ∈ new, run.Succeeds answer := by
        intro first
        simp only [Progress.faults, hcourses, List.flatMap_append, List.flatMap_cons,
          List.append_eq_nil_iff, hnew.faults]
        tauto
      have hfailed : ∀ first, p.faults ≠ [] →
          (⟨before ++ c' :: after, first⟩ : Progress ExecutionUnit α).faults ≠ [] :=
        fun first hne hnil => hne ((hfaults first).mp hnil).1
      refine ⟨runs ++ new, hlanes, ?_, hbalanced, ?_, ?_, ?_, ?_, ?_, ?_, ?_⟩
      · exact pending_subset_of_move hcourses hmove.lane_eq hnew.pending_subset hp.pending_subset
      · rw [hnew.calls, hp.calls, List.map_append, List.append_assoc]
      · rcases hnew.goesOn with ⟨events, rfl⟩
        rw [List.forall_mem_append]
        exact ⟨fun run hrun => (hp.isIn run hrun).append events, hnew.isIn⟩
      · rw [List.forall_mem_append]
        refine ⟨hp.isOn, fun run hrun => ?_⟩
        rcases hnew.isOwn run hrun with ⟨hbefore, hheld, u, hu, hcall⟩
        refine ⟨c.lane, hp.lanes_eq ▸ List.mem_map_of_mem hc, u, hp.pending_subset c hc hu, hcall,
          p.leases, ?_, ?_⟩
        · rw [hbefore]
          exact hp.balanced
        · exact List.mem_flatMap.mpr ⟨c, hc, hheld ▸ List.mem_singleton_self _⟩
      · rcases hp.places with ⟨skipped, hplaces, hskipped⟩
        rcases hnew.places with ⟨dropped, hown, hdropped⟩
        refine ⟨skipped ++ dropped, ?_, ?_⟩
        · rw [List.map_flatMap] at hplaces ⊢
          rw [List.map_append]
          exact perm_of_move hcourses hplaces hown
        · intro hne
          apply hfailed
          by_cases hkept : dropped = []
          · rw [hkept, List.append_nil] at hne
            exact hskipped hne
          · exact hp.firstFault (Bool.and_eq_true_iff.mp (hdropped hkept)).2
      · rw [List.filterMap_append]
        exact results_of_move hcourses hp.results hnew.results _
      · rw [hfaults, hp.faults, List.forall_mem_append]
      · -- The first fault was there before, or it is one of the lane that has moved.
        intro hfirst hnil
        rcases (hfaults _).mp hnil with ⟨hnone, -⟩
        have hempty : c'.faults = [] := by
          rw [Progress.faults, List.flatMap_eq_nil_iff] at hnil
          exact hnil c' (List.mem_append_right _ List.mem_cons_self)
        rw [hempty, List.head?_nil, Option.or_none] at hfirst
        exact hp.firstFault hfirst hnone

/-! ## Settling -/

section

variable {υ : Type} {p : Progress υ α}

/-- A run in which a unit has failed has no results. -/
theorem settle_ne_ok (hfaults : p.faults ≠ []) (policy : FailurePolicy) (n : Nat)
    (results : List α) : p.settle policy n ≠ .ok results := by
  unfold settle
  cases hp : p.faults with
  | nil => exact absurd hp hfaults
  | cons fault faults => cases policy <;> exact fun heq => nomatch heq

/-- The result at a place is the one recorded there. -/
theorem resultAt_eq_ok (hkeys : (p.results.map (·.1)).Nodup) {place : Nat} {a : α}
    (hmem : (place, a) ∈ p.results) : p.resultAt place = .ok a := by
  rcases List.append_of_mem hmem with ⟨before, after, hsplit⟩
  rw [hsplit, List.map_append, List.map_cons, List.nodup_append] at hkeys
  have hlookup : p.results.lookup place = some a := by
    rw [List.lookup_eq_some_iff]
    refine ⟨before, after, hsplit, fun x hx => bne_iff_ne.mpr ?_⟩
    exact (hkeys.2.2 x.1 (List.mem_map_of_mem hx) place List.mem_cons_self).symm
  simp only [resultAt, hlookup]

/-- Results at all places are put in order. -/
theorem settle_eq_ok (hfaults : p.faults = []) {n : Nat}
    (hplaces : (p.results.map (·.1)).Perm (List.range n)) (policy : FailurePolicy) :
    ∃ results, p.settle policy n = .ok results ∧ results.length = n ∧
      ∀ place a, (place, a) ∈ p.results → results[place]? = some a := by
  have hkeys : (p.results.map (·.1)).Nodup := hplaces.nodup_iff.mpr List.nodup_range
  have hall : ∀ place < n, ∃ a, p.resultAt place = .ok a := by
    intro place hlt
    rcases List.mem_map.mp (hplaces.mem_iff.mpr (List.mem_range.mpr hlt)) with ⟨⟨_, a⟩, hmem, rfl⟩
    exact ⟨a, resultAt_eq_ok hkeys hmem⟩
  rcases mapM_range hall with ⟨results, hresults, hlength, hat⟩
  refine ⟨results, ?_, hlength, fun place a hmem => hat place ?_ a (resultAt_eq_ok hkeys hmem)⟩
  · unfold settle
    rw [hfaults]
    exact hresults
  · exact List.mem_range.mp (hplaces.mem_iff.mp (List.mem_map_of_mem hmem))

end

end Progress

/-! ## Units -/

namespace UnitRun

variable {purpose : Purpose} {answer : History → Call → Except String α} {run : UnitRun}

/-- A run that succeeds has its answer as a result. -/
theorem result_eq {a : α} (ha : answer run.before run.call = .ok a) :
    run.result? answer = some (run.place, a) := by
  simp only [result?, ha]

/-- Units that succeed have results, each with its place. -/
theorem map_result {runs : List UnitRun} (hall : ∀ run ∈ runs, run.Succeeds answer) :
    (runs.filterMap (·.result? answer)).map (·.1) = runs.map (·.place) := by
  induction runs with
  | nil => rfl
  | cons run runs ih =>
      rw [List.forall_mem_cons] at hall
      rcases hall.1 with ⟨a, ha⟩
      simp only [List.filterMap_cons, result_eq ha, List.map_cons, ih hall.2]

/-- A unit that is run on its lane is the one at its place, on a connection to its data source. -/
theorem IsOn.isOf {lanes : List (Lane ExecutionUnit)} {units : List ExecutionUnit} {h h₁ : History}
    (hon : run.IsOn purpose lanes h₁) (hhold : Lane.Hold (·.dataSource) lanes (placed units))
    (hopened : Balanced [] h h₁ (Lane.leases lanes)) : run.IsOf purpose units h := by
  rcases hon with ⟨lane, hlane, u, hu, hcall, held, hheld, hmem⟩
  have hunit : run.call.unit = u := by rw [hcall]; rfl
  have hlease : (run.call.unit.dataSource, run.call.connection) = lane.lease := by
    rw [hunit, hhold.own lane hlane _ hu, hcall]
    rfl
  refine ⟨?_, ?_, held, hopened.trans hheld, ?_⟩
  · rw [hunit, ← mem_placed]
    exact hhold.units.mem_iff.mp (List.mem_flatMap.mpr ⟨lane, hlane, hu⟩)
  · rw [hcall]
    rfl
  · rw [hlease]
    exact hmem

end UnitRun

section

variable {purpose : Purpose} {answer : History → Call → Except String α}
  {lanes : List (Lane ExecutionUnit)} {h₀ h : History} {p : Progress ExecutionUnit α}
  {runs : List UnitRun} {n : Nat}

/-- When all lanes are closed, every unit has been run once or skipped because another failed. -/
theorem Progress.Recorded.places_of_closed (hp : p.Recorded purpose answer lanes h₀ h runs)
    (hclosed : ∀ c ∈ p.courses, c.stage = .closed)
    (hunits : ((lanes.flatMap (·.units)).map (·.1)).Perm (List.range n)) :
    (runs.map (·.place)).Nodup ∧
      (p.faults = [] → (runs.map (·.place)).Perm (List.range n)) := by
  have hpending : p.courses.flatMap (·.pending) = [] := by
    rw [List.flatMap_eq_nil_iff]
    intro c hc
    rw [Course.pending, hclosed c hc]
  rcases hp.places with ⟨skipped, hplaces, hskipped⟩
  rw [hpending, List.map_nil, List.append_nil] at hplaces
  have hall := hplaces.trans hunits
  constructor
  · exact (List.nodup_append.mp (hall.nodup_iff.mpr List.nodup_range)).1
  · intro hfaults
    have hnone : skipped = [] := by
      by_contra hne
      exact hskipped hne hfaults
    rwa [hnone, List.append_nil] at hall

/-- When all lanes are closed, the results of a run are those of its units. -/
theorem Progress.Recorded.settle_of_closed (hp : p.Recorded purpose answer lanes h₀ h runs)
    (hclosed : ∀ c ∈ p.courses, c.stage = .closed)
    (hunits : ((lanes.flatMap (·.units)).map (·.1)).Perm (List.range n)) (policy : FailurePolicy)
    (hall : ∀ run ∈ runs, run.Succeeds answer) :
    ∃ results, p.settle policy n = .ok results ∧ results.length = n ∧
      (runs.map (·.place)).Perm (List.range n) ∧
      ∀ run ∈ runs, ∃ a, answer run.before run.call = .ok a ∧ results[run.place]? = some a := by
  have hfaults := hp.faults.mpr hall
  have hplaces := (hp.places_of_closed hclosed hunits).2 hfaults
  have hkeys : (p.results.map (·.1)).Perm (List.range n) := by
    have hmapped := hp.results.map (·.1)
    rw [UnitRun.map_result hall] at hmapped
    exact hmapped.trans hplaces
  rcases Progress.settle_eq_ok hfaults hkeys policy with ⟨results, hresults, hlength, hat⟩
  refine ⟨results, hresults, hlength, hplaces, fun run hrun => ?_⟩
  rcases hall run hrun with ⟨a, ha⟩
  refine ⟨a, ha, hat run.place a (hp.results.mem_iff.mpr ?_)⟩
  exact List.mem_filterMap.mpr ⟨run, hrun, UnitRun.result_eq ha⟩

end

theorem Lane.unitCount_eq {υ : Type} (lanes : List (Lane υ)) :
    unitCount lanes = (lanes.flatMap (·.units)).length := by
  rw [unitCount, List.length_flatMap, List.sum_eq_foldr]

namespace Runner

variable (r : Runner) (b : Backend)

/-- A run advances the lanes until all are closed and then reports. -/
theorem run_apply {υ : Type} (report : Report) (work : UnitWork υ α) (lanes : List (Lane υ))
    (h : History) :
    r.run b report work lanes h =
      let done := r.advance b report work (Progress.start lanes : Progress υ α).stepsLeft
        (.start lanes) h
      (done.1.settle r.policy (Lane.unitCount lanes), done.2) := rfl

/-- What is true at the end of a run without a deadline. -/
theorem recorded_advance {report : Report} (htime : report.timeout = none) (purpose : Purpose)
    (answer : History → Call → Except String α) (lanes : List (Lane ExecutionUnit)) (h : History) :
    ∃ done h' runs, r.advance b report (.asking purpose answer)
        (Progress.start lanes : Progress ExecutionUnit α).stepsLeft (.start lanes) h = (done, h') ∧
      (∀ c ∈ done.courses, c.stage = .closed) ∧
      done.Recorded purpose answer lanes h h' runs := by
  have hstep : ∀ (p : Progress ExecutionUnit α) (h₁ : History) (p' : Progress ExecutionUnit α)
      (h₂ : History), p.Steps b report (.asking purpose answer) r.policy h₁ p' h₂ →
      (∃ runs, p.Recorded purpose answer lanes h h₁ runs) →
      ∃ runs, p'.Recorded purpose answer lanes h h₂ runs :=
    fun _ _ _ _ hstep ⟨_, hp⟩ => hp.step htime hstep
  rcases r.advance_induction b report _ hstep (Progress.start lanes).stepsLeft
    ⟨[], Progress.recorded_start lanes h⟩ with ⟨runs, hruns⟩
  exact ⟨_, _, runs, rfl, r.closed_of_advance b report _ (Nat.le_refl _) h, hruns⟩

/-- Where all connections are granted and there is no deadline, units succeed together when each
does, and their results come in the order of the units; no unit is run twice, and each is run on a
connection to its own data source. -/
theorem run_units (limits : LaneLimits) (hgrants : b.GrantsAll) {report : Report}
    (htime : report.timeout = none) (purpose : Purpose)
    (answer : History → Call → Except String α) (units : List ExecutionUnit) (h : History) :
    ∃ outcome h' runs,
      (limits.openFor b (·.dataSource) units >>= r.run b report (.asking purpose answer)) h =
        (outcome, h') ∧
      Ran purpose answer units h h' runs ∧
      ((∃ results, outcome = .ok results) ↔ ∀ run ∈ runs, run.Succeeds answer) ∧
      ∀ results, outcome = .ok results →
        results.length = units.length ∧
        (runs.map (·.place)).Perm (List.range units.length) ∧
        ∀ run ∈ runs, ∃ a, answer run.before run.call = .ok a ∧ results[run.place]? = some a := by
  rcases limits.openFor_granted hgrants (·.dataSource) units h with
    ⟨lanes, h₁, hlanes, hcalls, hhold⟩
  have hopened : Balanced [] h h₁ (Lane.leases lanes) := by
    have hleaves := limits.openFor_leaves b (·.dataSource) units h
    rw [Action.Leaves, hlanes] at hleaves
    exact hleaves
  have hunits : ((lanes.flatMap (·.units)).map (·.1)).Perm (List.range units.length) :=
    map_fst_placed units ▸ hhold.units.map (·.1)
  have hcount : Lane.unitCount lanes = units.length := by
    rw [Lane.unitCount_eq, ← List.length_map (·.1), hunits.length_eq, List.length_range]
  rcases r.recorded_advance b htime purpose answer lanes h₁ with
    ⟨done, h', runs, hdone, hclosed, hruns⟩
  have hsucceed : ∀ results, done.settle r.policy units.length = .ok results →
      ∀ run ∈ runs, run.Succeeds answer := by
    intro results hresults
    apply hruns.faults.mp
    by_contra hfaults
    exact Progress.settle_ne_ok hfaults _ _ results hresults
  have hsettle := hruns.settle_of_closed hclosed hunits r.policy
  refine ⟨done.settle r.policy units.length, h', runs, ?_, ⟨?_, hruns.isIn, ?_, ?_⟩, ⟨?_, ?_⟩, ?_⟩
  · rw [bind_apply, hlanes]
    simp only [run_apply, hdone, hcount]
  · rw [hruns.calls, hcalls]
  · exact fun run hrun => (hruns.isOn run hrun).isOf hhold hopened
  · exact (hruns.places_of_closed hclosed hunits).1
  · exact fun ⟨results, hresults⟩ => hsucceed results hresults
  · exact fun hall => (hsettle hall).imp fun _ hresults => hresults.1
  · intro results hresults
    rcases hsettle (hsucceed results hresults) with ⟨settled, hsettled, hrest⟩
    cases hresults.symm.trans hsettled
    exact hrest

/-- A backend that grants all connections and lets the lanes take turns.  The count of an update is
the number of calls before it. -/
def takingTurns : Backend where
  acquire h _ := .granted h.acquired.length
  query _ _ := .error "no rows"
  update h _ := .ok ⟨.ofNat h.calls.length, []⟩
  control _ _ := .ok ()
  inTransaction _ := false
  elapsed _ := 0
  turn _ left := left

/-- Updates of three tables, two of them on one data source. -/
def tableUpdates : List ExecutionUnit :=
  [⟨"ds_0", ⟨"UPDATE t_order_0 SET paid = 1", []⟩⟩, ⟨"ds_0", ⟨"UPDATE t_order_2 SET paid = 1", []⟩⟩,
    ⟨"ds_1", ⟨"UPDATE t_order_1 SET paid = 1", []⟩⟩]

/-- The third unit is run before the second one, and their results still come in order. -/
theorem run_units_takingTurns :
    takingTurns.GrantsAll ∧ (⟨"orders", none⟩ : Report).timeout = none ∧
    ∃ h' runs,
      ((⟨1, 1000⟩ : LaneLimits).openFor takingTurns (·.dataSource) tableUpdates >>=
        (⟨2, .failFast⟩ : Runner).run takingTurns ⟨"orders", none⟩
          (.asking .update takingTurns.update)) [] =
        (.ok [⟨0, []⟩, ⟨2, []⟩, ⟨1, []⟩], h') ∧
      Ran .update takingTurns.update tableUpdates [] h' runs ∧
      (runs.map (·.place)).Perm [0, 1, 2] := by
  have hgrants : takingTurns.GrantsAll := fun h _ => ⟨h.acquired.length, rfl⟩
  have htime : (⟨"orders", none⟩ : Report).timeout = none := rfl
  rcases run_units ⟨2, .failFast⟩ takingTurns ⟨1, 1000⟩ hgrants htime .update takingTurns.update
      tableUpdates [] with ⟨outcome, h', runs, hrun, hran, -, hresults⟩
  have hok : outcome = .ok [⟨0, []⟩, ⟨2, []⟩, ⟨1, []⟩] :=
    (congrArg Prod.fst hrun).symm
  exact ⟨hgrants, htime, h', runs, hok ▸ hrun, hran, (hresults _ hok).2.1⟩

end Runner

end ShardedSql
