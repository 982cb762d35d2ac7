import ShardedSql.Proofs.Execution.Atomicity

/-!
# Phases and answers

The phase that a session is in after a statement tells whether the statement has an answer.  There
is one exception: a statement is done before the transaction it got for itself is committed, so that
a commit that fails leaves it in the last phase without an answer.

Main results:

- Theorem `Transacts.concludes`: the phase of a statement in a transaction of its own.
- Theorem `Session.phase_tells`: what the phase after a statement tells.
-/

namespace ShardedSql

variable {α : Type}

/-- The phase tells whether there is an answer: the last phase is reached with an answer, and
otherwise the execution has failed or has not begun. -/
structure Reply.PhaseTells (r : Reply α) : Prop where
  done_iff : r.history.phase = .done ↔ ∃ a, r.answer = .ok a
  otherwise : (∀ a, r.answer ≠ .ok a) → r.history.phase = .failed ∨ r.history.phase = .idle

/-- A statement that was not begun. -/
theorem Reply.phaseTells_of_idle {r : Reply α} {fault : Fault} (hanswer : r.answer = .error fault)
    (hphase : r.history.phase = .idle) : r.PhaseTells := by
  refine ⟨?_, fun _ => .inr hphase⟩
  rw [hphase, hanswer]
  exact ⟨fun heq => (nomatch heq), fun ⟨_, heq⟩ => (nomatch heq)⟩

/-- The phase after a routed statement and the mark of its fault. -/
theorem History.phase_of_marked {h h' events : History} {answer : Except Fault α}
    (hhistory : h' = h ++ [.entered .idle, .entered .routed] ++ events ++
      marked answer (phaseFrom .routed events)) :
    h'.phase = phaseFrom (phaseFrom .routed events) (marked answer (phaseFrom .routed events)) := by
  rw [hhistory, phase_append, phase_append, Session.phase_routed]

/-- A fault is marked where the phase can fail. -/
theorem Reply.phaseTells_of_concludes {r : Reply α} {h events : History}
    (hhistory : r.history = h ++ [.entered .idle, .entered .routed] ++ events ++
      marked r.answer (History.phaseFrom .routed events))
    (hconcludes : Concludes r.answer events) : r.PhaseTells := by
  have hphase := History.phase_of_marked hhistory
  cases hanswer : r.answer with
  | ok a =>
      have hdone : r.history.phase = .done := by
        rw [hphase, hanswer]
        exact hconcludes.done a hanswer
      exact ⟨⟨fun _ => ⟨a, hanswer⟩, fun _ => hdone⟩, fun hnone => absurd hanswer (hnone a)⟩
  | error fault =>
      have hfailed : r.history.phase = .failed := by
        rw [hphase, hanswer, marked, if_pos (hconcludes.canFail fault hanswer)]
        rfl
      refine ⟨?_, fun _ => .inl hfailed⟩
      rw [hfailed, hanswer]
      exact ⟨fun heq => (nomatch heq), fun ⟨_, heq⟩ => (nomatch heq)⟩

/-! ## Transactions -/

/-- Rolling back keeps the phase. -/
theorem RollsBack.phaseFrom_eq {fault : Fault} {ending : History} (hending : RollsBack fault ending)
    (phase : Phase) : History.phaseFrom phase ending = phase := by
  cases hending <;> rfl

section

variable {work : Except Fault α → History → Prop} {answer : Except Fault α} {events : History}

/-- The phase of a statement in a transaction of its own, unless the commit fails. -/
theorem Transacts.concludes (htransacts : Transacts work answer events)
    (hwork : ∀ answer events, work answer events → Concludes answer events)
    (hcommit : ∀ reason, .controlled .commit (some reason) ∉ events) :
    Concludes answer events := by
  cases htransacts with
  | notStarted => exact ⟨fun _ heq => (nomatch heq), fun _ _ => rfl⟩
  | started hends =>
      cases hends with
      | committed hdone =>
          refine ⟨fun _ _ => ?_, fun _ heq => (nomatch heq)⟩
          rw [History.phaseFrom_cons, History.phaseFrom_append]
          exact (hwork _ _ hdone).done _ rfl
      | @notCommitted _ _ _ reason _ _ => exact absurd (by simp) (hcommit reason)
      | failed hfailed hending =>
          refine ⟨fun _ heq => (nomatch heq), fun _ _ => ?_⟩
          rw [History.phaseFrom_cons, History.phaseFrom_append, hending.phaseFrom_eq]
          exact (hwork _ _ hfailed).canFail _ rfl

/-- A commit that fails comes after the work is done, and is the fault. -/
theorem Transacts.of_commit_failed (htransacts : Transacts work answer events)
    (hwork : ∀ answer events, work answer events →
      Concludes answer events ∧ ∀ e ∈ events, e.isControl = false)
    {reason : String} (hcommit : .controlled .commit (some reason) ∈ events) :
    answer = .error (.transaction (.commit reason)) ∧
      History.phaseFrom .routed events = .done := by
  have hcalm : ∀ answer events, work answer events →
      .controlled .commit (some reason) ∉ events := by
    intro answer events hevents hmem
    cases (hwork answer events hevents).2 _ hmem
  have hnever : TransactionStep.commit ≠ .rollback := by decide
  cases htransacts with
  | notStarted => simp at hcommit
  | started hends =>
      rw [List.mem_cons] at hcommit
      cases hends with
      | committed hdone => simp [hcalm _ _ hdone] at hcommit
      | @notCommitted _ _ _ reported hdone hending =>
          have hreason : reason = reported := by
            simpa [hcalm _ _ hdone, hending.notMem hnever] using hcommit
          subst hreason
          refine ⟨rfl, ?_⟩
          rw [History.phaseFrom_cons, History.phaseFrom_append, History.phaseFrom_cons,
            hending.phaseFrom_eq]
          exact (hwork _ _ hdone).1.done _ rfl
      | failed hfailed hending =>
          simp [hcalm _ _ hfailed, hending.notMem hnever] at hcommit

end

/-! ## Statements -/

/-- A backend on which no commit succeeds. -/
def Backend.lostAtCommit : Backend :=
  { Backend.untroubled with
    control := fun _ step => if step = .commit then .error "connection lost" else .ok () }

namespace Session

/-- The last phase of a query tells whether there is an answer. -/
theorem query_phaseTells (db : Database) (b : Backend) (statement : Statement) (s : Session)
    (h : History) : (s.query db b statement h).PhaseTells := by
  cases hroute : (s.route db (b.inTransaction (h ++ [.entered .idle])) statement).1 with
  | error fault =>
      rcases request_of_error (db.query b statement) hroute with ⟨hanswer, hhistory⟩
      refine Reply.phaseTells_of_idle hanswer ?_
      rw [query, hhistory, History.phase_append_singleton]
      rfl
  | ok destination =>
      rcases request_of_ok (db.query b statement) hroute
        (db.query_adds b statement destination (phase_routed h)) with ⟨events, hevents, hhistory⟩
      exact Reply.phaseTells_of_concludes hhistory hevents

/-- The phase after a statement tells whether it has an answer, unless the commit of a transaction
of its own has failed. -/
theorem phase_tells (db : Database) (b : Backend) (statement : Statement) (s : Session)
    (h : History) :
    (s.query db b statement h).PhaseTells ∧
    ∃ events, (s.update db b statement h).history = h ++ events ∧
      ((∀ reason, .controlled .commit (some reason) ∉ events) →
        (s.update db b statement h).PhaseTells) ∧
      ∀ reason, .controlled .commit (some reason) ∈ events →
        (s.update db b statement h).answer = .error (.transaction (.commit reason)) ∧
        (s.update db b statement h).history.phase = .done := by
  refine ⟨query_phaseTells db b statement s h, ?_⟩
  cases hroute : (s.route db (b.inTransaction (h ++ [.entered .idle])) statement).1 with
  | error fault =>
      have hidle : (h ++ [Event.entered .idle]).phase = .idle := History.phase_append_singleton ..
      rcases request_of_error (fun destination => db.write b statement.kind destination.dataSources
        (db.update b statement destination)) hroute with ⟨hupdate, hupdated⟩
      refine ⟨[.entered .idle], hupdated, fun _ => ?_, fun reason hmem => absurd hmem (by simp)⟩
      exact Reply.phaseTells_of_idle hupdate (hupdated ▸ hidle)
  | ok destination =>
      rcases update_of_ok hroute with ⟨events, hevents, hupdated⟩
      have hmem : ∀ reason, .controlled .commit (some reason) ∈
          [Event.entered .idle, .entered .routed] ++ (events ++
            marked (s.update db b statement h).answer (History.phaseFrom .routed events)) ↔
          .controlled .commit (some reason) ∈ events := by
        intro reason
        have hmarked : .controlled .commit (some reason) ∉
            marked (s.update db b statement h).answer (History.phaseFrom .routed events) :=
          fun hmem => nomatch eq_failed_of_mem_marked _ hmem
        simp [hmarked]
      have hsplit := hupdated
      rw [List.append_assoc, List.append_assoc] at hsplit
      refine ⟨_, hsplit, ?_⟩
      simp only [hmem]
      split at hevents
      · refine ⟨fun hcommit => Reply.phaseTells_of_concludes hupdated ?_, fun reason hcommit => ?_⟩
        · exact hevents.concludes (fun _ _ hupdates => hupdates.concludes) hcommit
        · rcases hevents.of_commit_failed (fun _ _ hupdates =>
            ⟨hupdates.concludes, hupdates.uncontrolled⟩) hcommit with ⟨hanswer, hdone⟩
          refine ⟨hanswer, ?_⟩
          rw [History.phase_of_marked hupdated, hdone, hanswer]
          rfl
      · refine ⟨fun _ => Reply.phaseTells_of_concludes hupdated hevents.concludes, ?_⟩
        exact fun reason hcommit => nomatch hevents.uncontrolled _ hcommit

/-- The commit of `orderPurge` fails: it has no answer, and is done. -/
theorem phase_not_tells_orderPurge :
    ¬ (Session.update orderDatabase .lostAtCommit orderPurge {} []).PhaseTells ∧
    (∀ a, (Session.update orderDatabase .lostAtCommit orderPurge {} []).answer ≠ .ok a) ∧
    (Session.update orderDatabase .lostAtCommit orderPurge {} []).history.phase = .done := by
  have hanswer :
      (Session.update orderDatabase .lostAtCommit orderPurge {} []).answer.toOption = none := by
    decide +kernel
  have hdone : (Session.update orderDatabase .lostAtCommit orderPurge {} []).history.phase =
      .done := by
    decide +kernel
  have hfault : ∀ a,
      (Session.update orderDatabase .lostAtCommit orderPurge {} []).answer ≠ .ok a := by
    intro a heq
    rw [heq] at hanswer
    cases hanswer
  refine ⟨fun htells => ?_, hfault, hdone⟩
  rcases htells.done_iff.mp hdone with ⟨a, ha⟩
  exact hfault a ha

end Session

end ShardedSql
