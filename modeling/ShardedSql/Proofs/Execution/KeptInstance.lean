import ShardedSql.Proofs.Execution.Executed
import ShardedSql.Proofs.Execution.PassedThrough
import ShardedSql.Proofs.Route.Renaming

/-!
# Kept compute instances

A redirected statement goes to a compute instance that has a label of the first strategy that
recognises it.  As long as a transaction is under way, a session stays with the instance of the last
redirected statement wherever that is eligible, whatever is done in between and whether it fails.
Outside a transaction the instance is forgotten.

Main results:

- Theorem `SessionStep.keptInstance_next`: what a step keeps.
- Theorem `Unbroken.keptInstance_eq`: what is kept in the course of a transaction.
- Theorem `Session.redirection_kept`: where statements are redirected to.
-/

namespace ShardedSql

variable {α : Type}

/-! ## Eligible instances -/

/-- A computation that succeeds does so whatever fault stands for its own. -/
theorem Balancing.orFault_eq_ok {x : Balancing α} {fault : Fault} {turns : Turns} {a : α} :
    (x.orFault fault turns).1 = .ok a ↔ (x turns).1 = .ok a := by
  unfold orFault
  rcases x turns with ⟨_ | _, _⟩ <;> simp

namespace TrafficRule

variable {rule : TrafficRule} {statement : Statement} {id : String}

/-- A compute instance may take a statement: it has a label of the first strategy that recognises
the statement. -/
def Admits (rule : TrafficRule) (statement : Statement) (id : String) : Prop :=
  ∃ strategy, rule.strategy? statement = some strategy ∧
    ∃ i ∈ rule.instances, i.id = id ∧ ∃ label ∈ i.labels, label ∈ strategy.labels

/-- An instance is eligible if it has one of the labels. -/
theorem mem_eligible {strategy : TrafficStrategy} :
    id ∈ rule.eligible strategy ↔
      ∃ i ∈ rule.instances, i.id = id ∧ ∃ label ∈ i.labels, label ∈ strategy.labels := by
  simp only [eligible, List.mem_map, List.mem_filter, List.any_eq_true, decide_eq_true_eq]
  constructor
  · rintro ⟨i, ⟨hi, hlabel⟩, hid⟩
    exact ⟨i, hi, hid, hlabel⟩
  · rintro ⟨i, hi, hid, hlabel⟩
    exact ⟨i, ⟨hi, hlabel⟩, hid⟩

/-- A statement is redirected to an instance that may take it. -/
theorem admits_of_route {kept : Option String} {turns : Turns}
    (hroute : (rule.route statement kept turns).1 = .ok (some id)) : rule.Admits statement id := by
  unfold route at hroute
  cases hstrategy : rule.strategy? statement with
  | none =>
      simp only [hstrategy] at hroute
      cases hroute
  | some strategy =>
      refine ⟨strategy, hstrategy, mem_eligible.mp ?_⟩
      simp only [hstrategy] at hroute
      cases hkept : kept.filter (· ∈ rule.eligible strategy) with
      | some instanceId =>
          simp only [hkept] at hroute
          cases hroute
          exact of_decide_eq_true (Option.mem_filter_iff.mp hkept).2
      | none =>
          simp only [hkept, map_eq_pure_bind, bind_apply] at hroute
          split at hroute
          · rename_i picked later hpicked
            cases hroute
            have hchosen := congrArg Prod.fst hpicked
            rw [Balancing.orFault_eq_ok] at hchosen
            exact BalancePolicy.mem_of_pick hchosen
          · cases hroute

/-- The kept instance takes a statement again if it may, and no load balancer picks. -/
theorem route_of_admits (hadmits : rule.Admits statement id) (turns : Turns) :
    rule.route statement (some id) turns = (.ok (some id), turns) := by
  rcases hadmits with ⟨strategy, hstrategy, hi⟩
  have hkept : (some id).filter (· ∈ rule.eligible strategy) = some id := by
    simp [mem_eligible.mpr hi]
  unfold route
  simp only [hstrategy, hkept]
  rfl

end TrafficRule

/-! ## Steps -/

/-- The compute instance that a destination is, if it is one. -/
def Destination.instance? : Destination → Option String
  | computeInstance id => some id
  | units _ => none

namespace Session

variable {db : Database} {b : Backend} {statement : Statement} {s : Session} {h : History}

/-- The compute instance that a statement is redirected to, if it is. -/
def redirection? (db : Database) (b : Backend) (statement : Statement) (s : Session) (h : History) :
    Option String :=
  (s.route db (b.inTransaction (h ++ [.entered .idle])) statement).1.toOption.bind (·.instance?)

/-- A redirected statement is routed to the compute instance. -/
theorem route_eq_of_redirection {id : String} (hid : s.redirection? db b statement h = some id) :
    (s.route db (b.inTransaction (h ++ [.entered .idle])) statement).1 =
      .ok (.computeInstance id) := by
  unfold redirection? at hid
  rcases hroute : (s.route db (b.inTransaction (h ++ [.entered .idle])) statement).1 with
    fault | id' | units
  · rw [hroute] at hid
    cases hid
  · rw [hroute] at hid
    cases hid
    exact hroute
  · rw [hroute] at hid
    cases hid

/-- A statement that is redirected goes to an instance that may take it. -/
theorem admits_of_route {inTransaction : Bool} {id : String}
    (hroute : (s.route db inTransaction statement).1 = .ok (.computeInstance id)) :
    db.traffic.Admits statement id := by
  unfold route at hroute
  dsimp only at hroute
  split at hroute
  · cases hroute
  · rename_i id' turns htraffic
    cases hroute
    exact TrafficRule.admits_of_route (congrArg Prod.fst htraffic)
  · generalize db.unitsFor statement inTransaction s.routeTurns = placed at hroute
    rcases placed with ⟨_ | _, _⟩ <;> cases hroute

/-- A statement that the kept instance may take goes there in a transaction, and the session is as
before. -/
theorem route_of_admits {id : String} (hkept : s.keptInstance = some id)
    (hadmits : db.traffic.Admits statement id) :
    s.route db true statement = (.ok (.computeInstance id), s) := by
  unfold route
  simp only [if_true, hkept, TrafficRule.route_of_admits hadmits]
  rw [← hkept]

/-- What is kept in a transaction is the instance of the last statement that was redirected. -/
theorem keptInstance_route (db : Database) (statement : Statement) (s : Session) :
    (s.route db true statement).2.keptInstance =
      ((s.route db true statement).1.toOption.bind (·.instance?)).or s.keptInstance := by
  unfold route
  dsimp only
  split
  · rfl
  · rfl
  · rcases db.unitsFor statement true s.routeTurns with ⟨_ | _, _⟩ <;> rfl

/-- Outside a transaction it does not matter what is kept. -/
theorem route_outside (db : Database) (statement : Statement) (s : Session)
    (kept : Option String) :
    ({ s with keptInstance := kept } : Session).route db false statement =
      s.route db false statement := by
  unfold route
  simp only [Bool.false_eq_true, if_false]

/-- Nothing is kept outside a transaction. -/
theorem keptInstance_route_outside (db : Database) (statement : Statement) (s : Session) :
    (s.route db false statement).2.keptInstance = none := by
  unfold route
  dsimp only
  split <;> rfl

/-- Outside a transaction a request is answered alike whatever is kept. -/
theorem request_outside (work : Destination → Action α)
    (houtside : b.inTransaction (h ++ [.entered .idle]) = false) (kept : Option String) :
    request db b statement work { s with keptInstance := kept } h =
      request db b statement work s h := by
  unfold request
  dsimp only
  rw [houtside, route_outside]

end Session

/-- What a session can be asked to do. -/
inductive SessionRequest where
  | rows (statement : Statement)
  | count (statement : Statement)
  | entry (statement : Statement)
  | batch

/-- The statement that is executed at a request, if one is. -/
def SessionRequest.executed? : SessionRequest → Option Statement
  | rows statement | count statement => some statement
  | entry _ | batch => none

/-- A request of a session, and the backend at that time. -/
structure SessionStep where
  request : SessionRequest
  backend : Backend

namespace SessionStep

variable {db : Database} {s : Session} {h : History}

/-- The session and the history after a step. -/
def next (db : Database) (step : SessionStep) (s : Session) (h : History) : Session × History :=
  match step.request with
  | .rows statement =>
      let reply := s.query db step.backend statement h
      (reply.session, reply.history)
  | .count statement =>
      let reply := s.update db step.backend statement h
      (reply.session, reply.history)
  | .entry statement =>
      let reply := s.addBatch db step.backend statement h
      (reply.session, reply.history)
  | .batch =>
      let reply := s.executeBatch db step.backend h
      (reply.session, reply.history)

/-- The compute instance that the statement of a step is redirected to, if it is. -/
def redirection? (db : Database) (step : SessionStep) (s : Session) (h : History) : Option String :=
  step.request.executed?.bind fun statement => s.redirection? db step.backend statement h

/-- A transaction is under way when the statement of a step is routed. -/
def InTransaction (step : SessionStep) (h : History) : Prop :=
  step.request.executed?.isSome → step.backend.inTransaction (h ++ [.entered .idle]) = true

/-- In a transaction a step keeps the instance that its statement is redirected to, and otherwise
the one that was kept. -/
theorem keptInstance_next {step : SessionStep} (hstep : step.InTransaction h) :
    (step.next db s h).1.keptInstance = (step.redirection? db s h).or s.keptInstance := by
  rcases step with ⟨request, b⟩
  have hrouted : ∀ statement, b.inTransaction (h ++ [.entered .idle]) = true →
      (s.route db (b.inTransaction (h ++ [.entered .idle])) statement).2.keptInstance =
        (s.redirection? db b statement h).or s.keptInstance := by
    intro statement hin
    unfold Session.redirection?
    rw [hin]
    exact s.keptInstance_route db statement
  cases request with
  | rows statement => exact hrouted statement (hstep rfl)
  | count statement => exact hrouted statement (hstep rfl)
  | entry statement =>
      show (s.addBatch db b statement h).session.keptInstance = s.keptInstance
      unfold Session.addBatch
      rcases db.unitsFor statement (b.inTransaction h) s.routeTurns with ⟨_ | _, _⟩ <;> rfl
  | batch =>
      show (s.executeBatch db b h).session.keptInstance = s.keptInstance
      unfold Session.executeBatch
      dsimp only
      split
      · rfl
      · split
        · split <;> rfl
        · rfl

end SessionStep

/-! ## Transactions -/

/-- Steps one after the other, whose statements are executed while a transaction is under way; with
the compute instance of the last statement that was redirected. -/
inductive Unbroken (db : Database) (s : Session) (h : History) :
    Option String → Session → History → Prop
  | start : Unbroken db s h none s h
  | step {last : Option String} {s' : Session} {h' : History} (step : SessionStep)
      (hearlier : Unbroken db s h last s' h') (hstep : step.InTransaction h') :
      Unbroken db s h ((step.redirection? db s' h').or last) (step.next db s' h').1
        (step.next db s' h').2

/-- In the course of a transaction the instance of the last redirected statement is kept. -/
theorem Unbroken.keptInstance_eq {db : Database} {s s' : Session} {h h' : History}
    {last : Option String} (hunbroken : Unbroken db s h last s' h') :
    s'.keptInstance = last.or s.keptInstance := by
  induction hunbroken with
  | start => rfl
  | step step hearlier hstep ih => rw [step.keptInstance_next hstep, ih, Option.or_assoc]

namespace Session

/-- A redirected statement goes to a compute instance that has a label of the first strategy that
recognises it, and is only run there.  In the course of a transaction it goes again to the instance
of the last redirected statement if that may take it, and no load balancer picks.  Outside a
transaction it is answered alike whatever instance was kept, and none is kept then. -/
theorem redirection_kept {db : Database} {s s' : Session} {h h' : History} {last : Option String}
    (hunbroken : Unbroken db s h last s' h') (b : Backend) (statement : Statement) :
    (∀ id, s'.redirection? db b statement h' = some id →
      db.traffic.Admits statement id ∧
      (s'.query db b statement h').RunsOnly h' [statement.unitOn id] ∧
      (s'.update db b statement h').RunsOnly h' [statement.unitOn id]) ∧
    (b.inTransaction (h' ++ [.entered .idle]) = true →
      ∀ id, last = some id → db.traffic.Admits statement id →
        s'.redirection? db b statement h' = some id ∧
        (s'.query db b statement h').session = s' ∧ (s'.update db b statement h').session = s') ∧
    (b.inTransaction (h' ++ [.entered .idle]) = false →
      (s'.query db b statement h').session.keptInstance = none ∧
      (s'.update db b statement h').session.keptInstance = none ∧
      ∀ kept : Option String,
        ({ s' with keptInstance := kept } : Session).query db b statement h' =
          s'.query db b statement h' ∧
        ({ s' with keptInstance := kept } : Session).update db b statement h' =
          s'.update db b statement h') := by
  refine ⟨fun id hid => ?_, fun hin id hlast hadmits => ?_, fun hout => ?_⟩
  · have hroute := route_eq_of_redirection hid
    exact ⟨admits_of_route hroute, query_runsOnly hroute, update_runsOnly hroute⟩
  · have hkept : s'.keptInstance = some id := by
      rw [hunbroken.keptInstance_eq, hlast]
      rfl
    have hroute := route_of_admits hkept hadmits
    have hsession : (s'.route db (b.inTransaction (h' ++ [.entered .idle])) statement).2 = s' := by
      rw [hin, hroute]
    refine ⟨?_, hsession, hsession⟩
    unfold redirection?
    rw [hin, hroute]
    rfl
  · have hnone : (s'.route db (b.inTransaction (h' ++ [.entered .idle]))
        statement).2.keptInstance = none := by
      rw [hout, keptInstance_route_outside]
    exact ⟨hnone, hnone, fun kept => ⟨request_outside _ hout kept, request_outside _ hout kept⟩⟩

end Session

/-- A logical database that redirects reports to two compute instances in turn. -/
def reportDatabase : Database :=
  { orderDatabase with
    traffic :=
      { strategies := [
          { name := "reports", labels := ["olap"], algorithm := .hint
            balancer := { key := .own 0 0, policy := .roundRobin } }]
        instances := [
          { id := "proxy_0", labels := ["olap"] }, { id := "proxy_1", labels := ["olap"] }] } }

/-- A backend on which a transaction is under way and all connections are refused. -/
def Backend.exhausted : Backend :=
  { Backend.untroubled with
    acquire := fun _ _ => .refused "no connection is left"
    inTransaction := fun _ => true }

/-- A statement that asks to be redirected. -/
def orderReport : Statement :=
  { sql := "SELECT * FROM t_order", tables := ["t_order"], useTraffic := true }

/-- A statement on a table that does not exist. -/
def missingReport : Statement :=
  { sql := "SELECT * FROM t_missing", tables := ["t_missing"] }

/-- The session after `orderReport` and `missingReport`, both of which fail. -/
def reported : Session :=
  { keptInstance := some "proxy_0", trafficTurns := [(.own 0 0, 1)] }

/-- Another report goes to the instance of the first one in a transaction, although it is the turn
of the other instance. -/
theorem Session.redirection_kept_reports :
    ∃ h, Unbroken reportDatabase {} [] (some "proxy_0") reported h ∧
      reported.redirection? reportDatabase .exhausted orderReport h = some "proxy_0" ∧
      (reported.query reportDatabase .exhausted orderReport h).session = reported ∧
      (reportDatabase.traffic.route orderReport none reported.trafficTurns).1 =
        .ok (some "proxy_1") := by
  have hunbroken : Unbroken reportDatabase {} [] (some "proxy_0") reported _ :=
    .step ⟨.rows missingReport, .exhausted⟩
      (.step ⟨.rows orderReport, .exhausted⟩ .start fun _ => rfl) fun _ => rfl
  have hadmits : reportDatabase.traffic.Admits orderReport "proxy_0" :=
    ⟨_, rfl, _, List.mem_cons_self, rfl, "olap", List.mem_cons_self, List.mem_cons_self⟩
  have hkept := (redirection_kept hunbroken .exhausted orderReport).2.1 rfl "proxy_0" rfl hadmits
  exact ⟨_, hunbroken, hkept.1, hkept.2.1, rfl⟩

end ShardedSql
