import ShardedSql.Proofs.Execution.Results

/-!
# Runs of a single worker

A single worker takes up the lanes one after the other and closes each before it takes up the next
one, whatever the scheduler chooses.

Main results:

- Theorem `Progress.Alone.choices_eq`: a single worker has one lane to go on with.
- Theorem `Runner.advance_alone`: a step of a single worker.
- Theorems `Progress.InOrder.goOn` and `Progress.InOrder.close`: what a step leaves in order.
-/

namespace ShardedSql

variable {υ α : Type}

/-! ## Steps of a single worker -/

/-- A single worker has closed some lanes and, of the others, has taken up at most the first one. -/
structure Progress.Alone (p : Progress υ α) (done left : List (Course υ α)) : Prop where
  courses_eq : p.courses = done ++ left
  done_closed : ∀ c ∈ done, c.stage = .closed
  left_open : ∀ c ∈ left, c.stage ≠ .closed
  tail_waiting : ∀ c ∈ left.tail, c.stage = .waiting

namespace Progress

/-- At the start no lane is under way. -/
theorem alone_start (lanes : List (Lane υ)) :
    (start lanes : Progress υ α).Alone [] (start lanes : Progress υ α).courses := by
  have hwaiting : ∀ c ∈ (start lanes : Progress υ α).courses, c.stage = .waiting := by
    intro c hc
    rcases List.mem_map.mp hc with ⟨lane, -, rfl⟩
    rfl
  refine ⟨rfl, List.forall_mem_nil _, fun c hc => ?_, fun c hc => ?_⟩
  · rw [hwaiting c hc]
    exact fun heq => nomatch heq
  · exact hwaiting c (List.mem_of_mem_tail hc)

variable {p : Progress υ α} {c : Course υ α} {done left : List (Course υ α)}

/-- No lane is at a stage that is asked for. -/
theorem filter_stage_eq_nil (wanted : Stage υ → Bool) {courses : List (Course υ α)}
    {stage : Stage υ} (hstage : ∀ d ∈ courses, d.stage = stage) (hwanted : wanted stage = false)
    (n : Nat) : ((courses.zipIdx n).filter fun x => wanted x.1.stage) = [] := by
  rw [List.filter_eq_nil_iff]
  intro x hx
  rw [hstage x.1 (List.fst_mem_of_mem_zipIdx hx), hwanted]
  exact Bool.false_ne_true

/-- When no lane is left, none can go on. -/
theorem Alone.choices_nil (hp : p.Alone done []) (workers : Nat) : p.choices workers = [] := by
  have hclosed : ∀ d ∈ p.courses, d.stage = .closed := by
    rw [hp.courses_eq, List.append_nil]
    exact hp.done_closed
  have hunderWay := filter_stage_eq_nil Stage.isUnderWay hclosed rfl 0
  have hwaiting := filter_stage_eq_nil Stage.isWaiting hclosed rfl 0
  rw [choices, hunderWay, hwaiting, List.take_nil, ite_self, List.append_nil]

/-- The first lane that is left is the only one that can go on. -/
theorem Alone.choices_eq (hp : p.Alone done (c :: left)) : p.choices 1 = [(c, done.length)] := by
  have hdone := fun wanted hclosed => filter_stage_eq_nil wanted hp.done_closed hclosed 0
  have hleft := filter_stage_eq_nil Stage.isUnderWay hp.tail_waiting rfl
    (done.length + 1)
  rw [List.tail_cons] at hleft
  unfold choices
  rw [hp.courses_eq, List.zipIdx_append, List.zipIdx_cons, List.filter_append, List.filter_append,
    hdone Stage.isUnderWay rfl, hdone Stage.isWaiting rfl, Nat.zero_add, List.filter_cons,
    List.filter_cons, hleft]
  cases hstage : c.stage with
  | closed => exact absurd hstage (hp.left_open c List.mem_cons_self)
  | waiting =>
      have hunderWay : c.stage.isUnderWay = false := by rw [hstage]; rfl
      have hwaiting : c.stage.isWaiting = true := by rw [hstage]; rfl
      simp [hunderWay, hwaiting]
  | between _ | running _ _ _ =>
      have hunderWay : c.stage.isUnderWay = true := by rw [hstage]; rfl
      simp [hunderWay]

end Progress

namespace Runner

variable {r : Runner} (b : Backend) (report : Report) (work : UnitWork υ α)
  {p : Progress υ α} {c : Course υ α} {done left : List (Course υ α)}

/-- A single worker goes on with the first lane that is left. -/
theorem advance_alone (hworkers : r.workerCount = 1) (hp : p.Alone done (c :: left)) (fuel : Nat)
    (h : History) :
    r.advance b report work (fuel + 1) p h =
      let next := c.step b report work (p.isCancelled r.policy) h
      r.advance b report work fuel
        ⟨done ++ next.1 :: left, p.firstFault.or next.1.faults.head?⟩ next.2 := by
  rw [advance_succ, hworkers, hp.choices_eq, List.length_singleton, Nat.mod_one,
    List.getElem?_cons_zero]
  simp only [Progress.put, hp.courses_eq, List.set_append_right _ _ (Nat.le_refl _), Nat.sub_self,
    List.set_cons_zero]

end Runner

/-! ## Lanes in order -/

theorem History.released_append (h later : History) :
    (h ++ later).released = h.released ++ later.released :=
  List.filterMap_append ..

namespace Progress

/-- Some units have been run, and the lanes before the ones that are left have been closed. -/
structure InOrder (lanes : List (Lane ExecutionUnit)) (h₀ : History)
    (p : Progress ExecutionUnit α) (h : History)
    (done left : List (Course ExecutionUnit α)) (runs : List UnitRun) : Prop where
  alone : p.Alone done left
  lanes_eq : p.courses.map (·.lane) = lanes
  own : ∀ c ∈ left, ∀ x ∈ c.pending, x.2.dataSource = c.lane.dataSource
  events : ∃ events, h = h₀ ++ events ∧ events.calls = runs.map (·.call) ∧
    events.released = Lane.leases (done.map (·.lane))

variable {lanes : List (Lane ExecutionUnit)} {h₀ h : History} {p : Progress ExecutionUnit α}
  {c c' : Course ExecutionUnit α} {done left : List (Course ExecutionUnit α)}
  {runs : List UnitRun}

/-- The first lane that is left is closed. -/
theorem InOrder.close (hp : p.InOrder lanes h₀ h done (c :: left) runs) (first : Option Fault) :
    (⟨done ++ { c with stage := .closed } :: left, first⟩ : Progress ExecutionUnit α).InOrder lanes
      h₀ (h ++ [.released c.lane.dataSource c.lane.connection])
      (done ++ [{ c with stage := .closed }]) left runs := by
  refine ⟨⟨?_, ?_, ?_, ?_⟩, ?_, ?_, ?_⟩
  · rw [List.append_assoc, List.singleton_append]
  · intro d hd
    rcases List.mem_append.mp hd with hd | hd
    · exact hp.alone.done_closed d hd
    · rw [List.mem_singleton.mp hd]
  · exact fun d hd => hp.alone.left_open d (List.mem_cons_of_mem c hd)
  · exact fun d hd => hp.alone.tail_waiting d (List.mem_of_mem_tail hd)
  · rw [← hp.lanes_eq, hp.alone.courses_eq]
    simp
  · exact fun d hd => hp.own d (List.mem_cons_of_mem c hd)
  · rcases hp.events with ⟨events, rfl, hcalls, hreleased⟩
    refine ⟨_, List.append_assoc .., ?_, ?_⟩
    · rw [History.calls_append, hcalls]
      exact List.append_nil _
    · rw [History.released_append, hreleased, Lane.leases, Lane.leases, List.map_append,
        List.map_append]
      rfl

/-- The first lane that is left goes on and stays open. -/
theorem InOrder.goOn (hp : p.InOrder lanes h₀ h done (c :: left) runs) (events : History)
    (others : List UnitRun) (hlane : c'.lane = c.lane) (hopen : c'.stage ≠ .closed)
    (hpending : c'.pending ⊆ c.pending) (hcalls : events.calls = others.map (·.call))
    (hreleased : events.released = []) (first : Option Fault) :
    (⟨done ++ c' :: left, first⟩ : Progress ExecutionUnit α).InOrder lanes h₀ (h ++ events) done
      (c' :: left) (runs ++ others) := by
  refine ⟨⟨rfl, hp.alone.done_closed, ?_, hp.alone.tail_waiting⟩, ?_, ?_, ?_⟩
  · exact List.forall_mem_cons.mpr ⟨hopen, (List.forall_mem_cons.mp hp.alone.left_open).2⟩
  · rw [← hp.lanes_eq, hp.alone.courses_eq]
    simp [hlane]
  · have hown := List.forall_mem_cons.mp hp.own
    refine List.forall_mem_cons.mpr ⟨fun x hx => ?_, hown.2⟩
    rw [hlane]
    exact hown.1 x (hpending hx)
  · rcases hp.events with ⟨before, rfl, hbefore, hreleasedBefore⟩
    refine ⟨before ++ events, List.append_assoc .., ?_, ?_⟩
    · rw [History.calls_append, hbefore, hcalls, List.map_append]
    · rw [History.released_append, hreleasedBefore, hreleased, List.append_nil]

end Progress

end ShardedSql
