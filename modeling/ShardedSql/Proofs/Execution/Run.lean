import ShardedSql.Execution.Runner

/-!
# Steps of a run

Whatever the scheduler chooses, a run consists of steps, each of which moves one lane.  What every
step preserves is true at the end of a run, and at the end all lanes are closed.

Main results:

- Theorem `Course.step_moves`: a step of a lane that is not closed is one of the moves of `Moves`.
- Theorem `Runner.advance_induction`: what every step preserves is true at the end of a run.
- Theorem `Runner.closed_of_advance`: at the end of a run with enough steps all lanes are closed.
-/

namespace ShardedSql

variable {υ α : Type}

/-! ## Moves of a lane -/

/-- What a step can do to a lane and to the history. -/
inductive Course.Moves (b : Backend) (report : Report) (work : UnitWork υ α) (isCancelled : Bool)
    (c : Course υ α) (h : History) : Course υ α → History → Prop
  | takeUp (hstage : c.stage = .waiting) (hgoing : isCancelled = false) :
      Moves b report work isCancelled c h { c with stage := .between c.lane.units } h
  /-- The lane is closed: no unit is left, or the run is cancelled. -/
  | close (hstage : c.stage = .between [] ∨
        isCancelled = true ∧ (c.stage = .waiting ∨ ∃ left, c.stage = .between left)) :
      Moves b report work isCancelled c h { c with stage := .closed }
        (h ++ [.released c.lane.dataSource c.lane.connection])
  /-- The time is up, so that the next unit fails. -/
  | expire {place : Nat} {u : υ} {left : List (Nat × υ)}
      (hstage : c.stage = .between ((place, u) :: left))
      (htime : report.isExpired (b.elapsed h) = true) :
      Moves b report work isCancelled c h
        (c.note place left (.error (.deadline c.lane.dataSource (report.timeout.getD 0)))) h
  /-- There is time left, and the next unit is begun. -/
  | start {place : Nat} {u : υ} {left : List (Nat × υ)}
      (hstage : c.stage = .between ((place, u) :: left))
      (htime : report.isExpired (b.elapsed h) = false) :
      Moves b report work isCancelled c h { c with stage := .running place u left } h
  | finish {place : Nat} {u : υ} {left : List (Nat × υ)}
      (hstage : c.stage = .running place u left) :
      Moves b report work isCancelled c h
        (c.note place left ((work c.lane u h).1.mapError (.unit c.lane.dataSource)))
        (work c.lane u h).2

namespace Course

variable {b : Backend} {report : Report} {work : UnitWork υ α} {isCancelled : Bool}
  {c c' : Course υ α} {h h' : History}

/-- A step of a lane that is not closed is a move. -/
theorem step_moves (hopen : c.stage ≠ .closed) (h : History) :
    c.Moves b report work isCancelled h (c.step b report work isCancelled h).1
      (c.step b report work isCancelled h).2 := by
  unfold step
  cases hstage : c.stage with
  | waiting =>
      cases isCancelled with
      | true => exact .close (.inr ⟨rfl, .inl hstage⟩)
      | false => exact .takeUp hstage rfl
  | between left =>
      match left with
      | [] => exact .close (.inl hstage)
      | (place, u) :: left =>
          cases isCancelled with
          | true => exact .close (.inr ⟨rfl, .inr ⟨_, hstage⟩⟩)
          | false =>
              by_cases htime : report.isExpired (b.elapsed h)
              · simp only [htime, if_true]
                exact .expire hstage htime
              · simp only [htime]
                exact .start hstage (Bool.not_eq_true _ ▸ htime)
  | running place u left => exact .finish hstage
  | closed => exact absurd hstage hopen

@[simp]
theorem note_lane (c : Course υ α) (place : Nat) (left : List (Nat × υ)) (x : Except Fault α) :
    (c.note place left x).lane = c.lane := by
  cases x <;> rfl

@[simp]
theorem note_stage (c : Course υ α) (place : Nat) (left : List (Nat × υ)) (x : Except Fault α) :
    (c.note place left x).stage = .between left := by
  cases x <;> rfl

/-- A move leaves the lane as it is. -/
theorem Moves.lane_eq (hmove : c.Moves b report work isCancelled h c' h') : c'.lane = c.lane := by
  cases hmove <;> simp

/-- Every move leaves fewer steps. -/
theorem Moves.stepsLeft_lt (hmove : c.Moves b report work isCancelled h c' h') :
    c'.stepsLeft < c.stepsLeft := by
  cases hmove with
  | takeUp hstage => simp [stepsLeft, hstage]
  | close hstage =>
      rcases hstage with hstage | ⟨-, hstage | ⟨left, hstage⟩⟩ <;> simp [stepsLeft, hstage]
  | expire hstage | start hstage | finish hstage =>
      simp only [stepsLeft, hstage, note_stage, List.length_cons]
      omega

end Course

/-! ## Steps of a run -/

namespace Progress

/-- What a step can do to a run and to the history: one lane makes a move. -/
inductive Steps (b : Backend) (report : Report) (work : UnitWork υ α) (policy : FailurePolicy)
    (p : Progress υ α) (h : History) : Progress υ α → History → Prop
  | move {before after : List (Course υ α)} {c c' : Course υ α} {h' : History}
      (hcourses : p.courses = before ++ c :: after)
      (hmove : c.Moves b report work (p.isCancelled policy) h c' h') :
      Steps b report work policy p h
        ⟨before ++ c' :: after, p.firstFault.or c'.faults.head?⟩ h'

variable {b : Backend} {report : Report} {work : UnitWork υ α} {policy : FailurePolicy}
  {p p' : Progress υ α} {h h' : History}

/-- Every step leaves fewer of them to be taken. -/
theorem Steps.stepsLeft_lt (hstep : p.Steps b report work policy h p' h') :
    p'.stepsLeft < p.stepsLeft := by
  cases hstep with
  | move hcourses hmove =>
      have hlt := hmove.stepsLeft_lt
      simp only [stepsLeft, hcourses, List.map_append, List.map_cons, ← List.sum_eq_foldr,
        List.sum_append, List.sum_cons]
      omega

/-- A lane has no more steps left than the run. -/
theorem le_stepsLeft {c : Course υ α} (hc : c ∈ p.courses) : c.stepsLeft ≤ p.stepsLeft := by
  rcases List.append_of_mem hc with ⟨before, after, hcourses⟩
  simp only [stepsLeft, hcourses, List.map_append, List.map_cons, ← List.sum_eq_foldr,
    List.sum_append, List.sum_cons]
  omega

/-- A step leaves all lanes as they are. -/
theorem Steps.lanes_eq (hstep : p.Steps b report work policy h p' h') :
    p'.courses.map (·.lane) = p.courses.map (·.lane) := by
  cases hstep with
  | move hcourses hmove => simp [hcourses, hmove.lane_eq]

/-- A lane that can go on is not closed. -/
theorem of_mem_choices {workers : Nat} {c : Course υ α} {position : Nat}
    (hmem : (c, position) ∈ p.choices workers) :
    p.courses[position]? = some c ∧ c.stage ≠ .closed := by
  have hstage : ∀ wanted : Stage υ → Bool, wanted .closed = false →
      (c, position) ∈ (p.courses.zipIdx.filter fun x => wanted x.1.stage) →
      p.courses[position]? = some c ∧ c.stage ≠ .closed := by
    intro wanted hclosed hmem
    rcases List.mem_filter.mp hmem with ⟨hmem, hwanted⟩
    refine ⟨List.mem_zipIdx_iff_getElem?.mp hmem, ?_⟩
    intro hstage
    simp [hstage, hclosed] at hwanted
  unfold choices at hmem
  rcases List.mem_append.mp hmem with hmem | hmem
  · exact hstage Stage.isUnderWay rfl hmem
  · split at hmem
    · exact hstage Stage.isWaiting rfl (List.mem_of_mem_take hmem)
    · cases hmem

/-- When no lane can go on, all lanes are closed. -/
theorem closed_of_choices {workers : Nat} (hworkers : 0 < workers)
    (hnone : p.choices workers = []) : ∀ c ∈ p.courses, c.stage = .closed := by
  simp only [choices, List.append_eq_nil_iff] at hnone
  rcases hnone with ⟨hunderWay, hwaiting⟩
  rw [hunderWay, List.length_nil, if_pos hworkers, List.take_eq_nil_iff] at hwaiting
  intro c hc
  rcases List.getElem?_of_mem hc with ⟨position, hposition⟩
  have hmem : (c, position) ∈ p.courses.zipIdx := List.mem_zipIdx_iff_getElem?.mpr hposition
  cases hstage : c.stage with
  | closed => rfl
  | waiting =>
      rcases hwaiting with hwaiting | hwaiting
      · cases hwaiting
      · exact absurd (by simp [hstage, Stage.isWaiting]) (List.filter_eq_nil_iff.mp hwaiting _ hmem)
  | between _ | running _ _ _ =>
      exact absurd (by simp [hstage, Stage.isUnderWay]) (List.filter_eq_nil_iff.mp hunderWay _ hmem)

end Progress

namespace Runner

variable (r : Runner) (b : Backend) (report : Report) (work : UnitWork υ α)

/-- A run takes the step of a lane that can go on, as the backend chooses. -/
theorem advance_succ (fuel : Nat) (p : Progress υ α) (h : History) :
    r.advance b report work (fuel + 1) p h =
      match (p.choices r.workerCount)[b.turn h fuel % (p.choices r.workerCount).length]? with
      | some (c, position) =>
          r.advance b report work fuel
            (p.put position (c.step b report work (p.isCancelled r.policy) h).1)
            (c.step b report work (p.isCancelled r.policy) h).2
      | none => (p, h) := rfl

/-- A run goes on with a step, unless no lane can go on. -/
theorem advance_succ_cases (fuel : Nat) (p : Progress υ α) (h : History) :
    (∃ p' h', p.Steps b report work r.policy h p' h' ∧
      r.advance b report work (fuel + 1) p h = r.advance b report work fuel p' h') ∨
    r.advance b report work (fuel + 1) p h = (p, h) ∧ ∀ c ∈ p.courses, c.stage = .closed := by
  rw [advance_succ]
  cases hchoice : (p.choices r.workerCount)[b.turn h fuel % (p.choices r.workerCount).length]? with
  | some choice =>
      rcases choice with ⟨c, position⟩
      rcases Progress.of_mem_choices (List.mem_of_getElem? hchoice) with ⟨hposition, hopen⟩
      rcases List.getElem?_eq_some_iff.mp hposition with ⟨hlt, hc⟩
      have hcourses :
          p.courses = p.courses.take position ++ c :: p.courses.drop (position + 1) := by
        rw [← hc, List.getElem_cons_drop, List.take_append_drop]
      refine .inl ⟨_, _, .move hcourses (Course.step_moves hopen h), ?_⟩
      simp only [Progress.put, List.set_eq_take_append_cons_drop, hlt, if_true]
  | none =>
      refine .inr ⟨rfl, Progress.closed_of_choices (Nat.le_max_left 1 r.workers) ?_⟩
      have hle := List.getElem?_eq_none_iff.mp hchoice
      refine List.eq_nil_of_length_eq_zero (Nat.eq_zero_of_not_pos fun hpos => ?_)
      exact absurd (Nat.mod_lt _ hpos) (Nat.not_lt.mpr hle)

/-- What every step preserves is true at the end of a run. -/
theorem advance_induction {P : Progress υ α → History → Prop}
    (hstep : ∀ p h p' h', p.Steps b report work r.policy h p' h' → P p h → P p' h')
    (fuel : Nat) {p : Progress υ α} {h : History} (hp : P p h) :
    P (r.advance b report work fuel p h).1 (r.advance b report work fuel p h).2 := by
  induction fuel generalizing p h with
  | zero => exact hp
  | succ fuel ih =>
      rcases r.advance_succ_cases b report work fuel p h with ⟨p', h', hmove, heq⟩ | ⟨heq, -⟩
      · rw [heq]
        exact ih (hstep p h p' h' hmove hp)
      · rw [heq]
        exact hp

/-- At the end of a run with enough steps all lanes are closed. -/
theorem closed_of_advance {fuel : Nat} {p : Progress υ α} (hfuel : p.stepsLeft ≤ fuel)
    (h : History) : ∀ c ∈ (r.advance b report work fuel p h).1.courses, c.stage = .closed := by
  induction fuel generalizing p h with
  | zero =>
      intro c hc
      have hzero : c.stepsLeft = 0 := Nat.eq_zero_of_le_zero (Nat.le_trans
        (Progress.le_stepsLeft hc) hfuel)
      cases hstage : c.stage <;> simp [Course.stepsLeft, hstage] at hzero
      rfl
  | succ fuel ih =>
      rcases r.advance_succ_cases b report work fuel p h with ⟨p', h', hmove, heq⟩ | ⟨heq, hclosed⟩
      · rw [heq]
        exact ih (by have := hmove.stepsLeft_lt; omega) h'
      · rw [heq]
        exact hclosed

end Runner

end ShardedSql
