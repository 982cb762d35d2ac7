import ShardedSql.Proofs.Execution.Statements
import ShardedSql.Proofs.Route.Targets
import ShardedSql.Sql.Reader

/-!
# Transactions of statements

A write that reaches several data sources outside a transaction gets a transaction of its own, and
no other statement takes a transaction step.  The transaction is started before any unit is run.  It
is committed exactly when all units have been run with success.  When the work or the commit fails,
it is rolled back, and the fault is that of the failure, not that of the rollback.

Main results:

- Theorem `needsTransaction_iff`: which statements get a transaction of their own.
- Theorem `Action.inOwnTransaction_adds`: what is done in a transaction of its own.
- Theorem `Session.update_transacts`: the transaction steps of a statement.
-/

namespace ShardedSql

variable {α : Type}

/-! ## The decision -/

/-- More than one key is left exactly if two of them differ. -/
theorem one_lt_length_distinctly {κ : Type} [DecidableEq κ] {keys : List κ} :
    1 < (distinctly keys).length ↔ ∃ x ∈ keys, ∃ y ∈ keys, x ≠ y := by
  have hmem : ∀ x, x ∈ distinctly keys ↔ x ∈ keys := fun _ => mem_distinctly
  have hnodup := nodup_distinctly keys
  simp only [← hmem]
  match distinctly keys, hnodup with
  | [], _ => simp
  | [_], _ => simp
  | x :: y :: rest, hnodup =>
      rw [List.nodup_cons] at hnodup
      refine ⟨fun _ => ⟨x, by simp, y, by simp, fun heq => hnodup.1 (by simp [heq])⟩, fun _ => ?_⟩
      simp

/-- A statement gets a transaction of its own when it writes to several data sources while no
transaction is under way. -/
theorem needsTransaction_iff {implicitCommit inTransaction : Bool} {kind : StatementKind}
    {dataSources : List String} :
    needsTransaction implicitCommit kind dataSources inTransaction = true ↔
      implicitCommit = true ∧ kind.isWrite = true ∧ inTransaction = false ∧
        ∃ x ∈ dataSources, ∃ y ∈ dataSources, x ≠ y := by
  simp only [needsTransaction, Bool.and_eq_true, decide_eq_true_eq, one_lt_length_distinctly,
    Bool.not_eq_true', and_assoc]

/-! ## Work in a transaction -/

/-- Rolling back after a fault; that this fails is only logged. -/
inductive RollsBack (fault : Fault) : History → Prop
  | quietly : RollsBack fault [.controlled .rollback none]
  | inVain (reason : String) : RollsBack fault
      [.controlled .rollback (some reason),
        .warned ("Rollback after failed statement also failed: " ++ reason ++
          " (original error: " ++ fault.message ++ ")")]

/-- Rolling back runs no unit. -/
theorem RollsBack.runs_eq {fault : Fault} {ending : History} (hending : RollsBack fault ending) :
    History.runs ending = [] := by
  cases hending <;> rfl

/-- No other step is taken when rolling back. -/
theorem RollsBack.notMem {fault : Fault} {ending : History} (hending : RollsBack fault ending)
    {step : TransactionStep} (hstep : step ≠ .rollback) (failure : Option String) :
    .controlled step failure ∉ ending := by
  cases hending <;> simp [hstep]

/-- How a transaction is concluded whose work has a property. -/
inductive Ends (work : Except Fault α → History → Prop) : Except Fault α → History → Prop
  | committed {a : α} {events : History} (hwork : work (.ok a) events) :
      Ends work (.ok a) (events ++ [.controlled .commit none])
  | notCommitted {a : α} {events ending : History} {reason : String} (hwork : work (.ok a) events)
      (hending : RollsBack (.transaction (.commit reason)) ending) :
      Ends work (.error (.transaction (.commit reason)))
        (events ++ .controlled .commit (some reason) :: ending)
  | failed {fault : Fault} {events ending : History} (hwork : work (.error fault) events)
      (hending : RollsBack fault ending) : Ends work (.error fault) (events ++ ending)

/-- What is done in a transaction of its own, by work that has a property. -/
inductive Transacts (work : Except Fault α → History → Prop) : Except Fault α → History → Prop
  | notStarted {reason : String} :
      Transacts work (.error (.transaction (.start reason))) [.controlled .start (some reason)]
  | started {answer : Except Fault α} {events : History} (hends : Ends work answer events) :
      Transacts work answer (.controlled .start none :: events)

namespace Action

variable {b : Backend} {work : Action α} {mid : Except Fault α → History → Prop} {h : History}

/-- A failed execution is rolled back after what it has added. -/
theorem rollBack_apply (b : Backend) (fault : Fault) (h : History) :
    ∃ events, (rollBack b fault h).2 = h ++ events ∧ RollsBack fault events := by
  unfold rollBack Backend.take
  cases hanswer : b.control h .rollback with
  | ok _ =>
      refine ⟨_, ?_, .quietly⟩
      simp only [bind, StateT.bind, hanswer]
      rfl
  | error reason =>
      refine ⟨_, ?_, .inVain reason⟩
      simp only [bind, StateT.bind, hanswer, record, failure?, List.append_assoc]
      rfl

/-- A transaction step is taken, and an action follows if that succeeds. -/
theorem take_bind_adds {step : TransactionStep} {cause : String → Fault} {f : Unit → Action α}
    {post : Except Fault α → History → Prop}
    (hok : Adds (f ()) (h ++ [.controlled step none]) fun answer later =>
      post answer (.controlled step none :: later))
    (herror : ∀ reason, b.control h step = .error reason →
      post (.error (cause reason)) [.controlled step (some reason)]) :
    Adds (ofAttempt cause (b.take step) >>= f) h post := by
  unfold Adds
  rw [bind_apply]
  unfold ofAttempt Backend.take
  cases hanswer : b.control h step with
  | error reason => exact ⟨_, rfl, herror reason hanswer⟩
  | ok _ =>
      rcases hok with ⟨later, hhistory, hlater⟩
      exact ⟨_, hhistory.trans (List.append_assoc ..), hlater⟩

/-- How a transaction is concluded: after a fault, rolling back is still to come. -/
theorem commit_adds (hwork : Adds work h mid) :
    Adds (do
      let a ← work
      ofAttempt (fun reason => .transaction (.commit reason)) (b.take .commit)
      return a : Action α) h fun answer events =>
        (∀ a, answer = .ok a → Ends mid (.ok a) events) ∧
        ∀ fault, answer = .error fault → ∀ ending, RollsBack fault ending →
          Ends mid (.error fault) (events ++ ending) := by
  refine hwork.bind (fun a events hevents => take_bind_adds (.pure ?_) fun reason _ => ?_) ?_
  · refine ⟨fun a' heq => ?_, fun _ heq => (nomatch heq)⟩
    cases heq
    exact .committed hevents
  · refine ⟨fun _ heq => (nomatch heq), fun fault heq ending hending => ?_⟩
    cases heq
    rw [List.append_assoc]
    exact .notCommitted hevents hending
  · intro fault events hevents
    refine ⟨fun _ heq => (nomatch heq), fun fault' heq ending hending => ?_⟩
    cases heq
    exact .failed hevents hending

/-- How a transaction is concluded. -/
theorem concludeTransaction_adds (hwork : Adds work h mid) :
    Adds (concludeTransaction b work) h (Ends mid) := by
  rcases commit_adds (b := b) hwork with ⟨events, hhistory, hok, herror⟩
  unfold Adds concludeTransaction
  dsimp only
  split
  · next a h' heq =>
      rw [heq] at hhistory hok
      exact ⟨events, hhistory, hok a rfl⟩
  · next fault h' heq =>
      rw [heq] at hhistory herror
      cases hhistory
      rcases rollBack_apply b fault (h ++ events) with ⟨ending, hrolled, hending⟩
      exact ⟨events ++ ending, hrolled.trans (List.append_assoc ..),
        herror fault rfl ending hending⟩

/-- What is done in a transaction of its own. -/
theorem inOwnTransaction_adds (hwork : ∀ h', h'.phase = h.phase → Adds work h' mid) :
    Adds (inOwnTransaction b work) h (Transacts mid) := by
  refine take_bind_adds ?_ fun reason _ => .notStarted
  refine (concludeTransaction_adds (hwork _ ?_)).mono fun _ _ hends => .started hends
  exact History.phase_append_singleton ..

end Action

/-- A write is done in a transaction of its own if it needs one, and by itself otherwise. -/
theorem Database.write_adds (db : Database) (b : Backend) (kind : StatementKind)
    (dataSources : List String) {work : Action α} {mid : Except Fault α → History → Prop}
    {h : History} (hwork : ∀ h', h'.phase = h.phase → Adds work h' mid) :
    Adds (db.write b kind dataSources work) h fun answer events =>
      if needsTransaction db.implicitCommit kind dataSources (b.inTransaction h) then
        Transacts mid answer events
      else mid answer events := by
  unfold Adds write
  split
  · exact Action.inOwnTransaction_adds hwork
  · exact hwork h rfl

/-! ## Statements -/

/-- A transaction that ends with some work ends with any property of that work. -/
theorem Ends.mono {work work' : Except Fault α → History → Prop} {answer : Except Fault α}
    {events : History} (hends : Ends work answer events)
    (himp : ∀ answer events, work answer events → work' answer events) :
    Ends work' answer events := by
  cases hends with
  | committed hwork => exact .committed (himp _ _ hwork)
  | notCommitted hwork hending => exact .notCommitted (himp _ _ hwork) hending
  | failed hwork hending => exact .failed (himp _ _ hwork) hending

/-- A transaction is not started again. -/
theorem Ends.start_notMem {work : Except Fault α → History → Prop} {answer : Except Fault α}
    {events : History} (hends : Ends work answer events)
    (hwork : ∀ answer events, work answer events → ∀ e ∈ events, e.isControl = false)
    (failure : Option String) : .controlled .start failure ∉ events := by
  have hcalm : ∀ answer events, work answer events → .controlled .start failure ∉ events := by
    intro answer events hevents hmem
    cases hwork answer events hevents _ hmem
  have hnever : TransactionStep.start ≠ .rollback := by decide
  cases hends with
  | committed hdone => simp [hcalm _ _ hdone]
  | notCommitted hdone hending => simp [hcalm _ _ hdone, hending.notMem hnever]
  | failed hfailed hending => simp [hcalm _ _ hfailed, hending.notMem hnever]

/-- A transaction with some work is one with any property of that work. -/
theorem Transacts.mono {work work' : Except Fault α → History → Prop} {answer : Except Fault α}
    {events : History} (htransacts : Transacts work answer events)
    (himp : ∀ answer events, work answer events → work' answer events) :
    Transacts work' answer events := by
  cases htransacts with
  | notStarted => exact .notStarted
  | started hends => exact .started (hends.mono himp)

/-- Work with an answer has been committed. -/
theorem Transacts.of_ok {work : Except Fault α → History → Prop} {a : α} {events : History}
    (htransacts : Transacts work (.ok a) events) : ∃ own, work (.ok a) own := by
  cases htransacts with
  | started hends =>
      cases hends with
      | committed hwork => exact ⟨_, hwork⟩

/-- The units of a statement are executed without a transaction step. -/
structure Database.Writes (db : Database) (b : Backend) (units : List ExecutionUnit)
    (answer : Except Fault UpdateResult) (events : History) : Prop where
  uncontrolled : ∀ e ∈ events, e.isControl = false
  performs : ∃ skipped, Performs b db.report units skipped answer events

namespace Session

/-- A statement is a write to several data sources, outside a transaction, on a logical database
that commits by itself. -/
structure WritesAcross (s : Session) (db : Database) (b : Backend) (statement : Statement)
    (h : History) (units : List ExecutionUnit) : Prop where
  route_eq : (s.route db (b.inTransaction (h ++ [.entered .idle])) statement).1 = .ok (.units units)
  isWrite : statement.kind = .insert ∨ statement.kind = .update ∨ statement.kind = .delete
  across : ∃ u ∈ units, ∃ v ∈ units, u.dataSource ≠ v.dataSource
  implicitCommit : db.implicitCommit = true
  outside : b.inTransaction (h ++ [.entered .idle, .entered .routed]) = false

variable {s : Session} {db : Database} {b : Backend} {statement : Statement} {h : History}

/-- A statement writes across data sources exactly if it needs a transaction of its own. -/
theorem writesAcross_iff {units : List ExecutionUnit}
    (hroute : (s.route db (b.inTransaction (h ++ [.entered .idle])) statement).1 =
      .ok (.units units)) :
    s.WritesAcross db b statement h units ↔
      needsTransaction db.implicitCommit statement.kind (Destination.units units).dataSources
        (b.inTransaction (h ++ [.entered .idle, .entered .routed])) = true := by
  have hkind : statement.kind.isWrite = true ↔
      statement.kind = .insert ∨ statement.kind = .update ∨ statement.kind = .delete := by
    cases statement.kind <;> simp [StatementKind.isWrite]
  rw [needsTransaction_iff, hkind]
  simp only [Destination.dataSources, List.mem_map, exists_exists_and_eq_and]
  constructor
  · exact fun hacross =>
      ⟨hacross.implicitCommit, hacross.isWrite, hacross.outside, hacross.across⟩
  · exact fun ⟨himplicit, hwrite, houtside, hacross⟩ =>
      ⟨hroute, hwrite, hacross, himplicit, houtside⟩

/-- What is redirected goes to one place. -/
theorem needsTransaction_computeInstance {id : String} {implicitCommit inTransaction : Bool}
    {kind : StatementKind} :
    needsTransaction implicitCommit kind (Destination.computeInstance id).dataSources
      inTransaction ≠ true := by
  rw [ne_eq, needsTransaction_iff]
  rintro ⟨-, -, -, x, hx, y, hy, hne⟩
  exact hne ((List.mem_singleton.mp hx).trans (List.mem_singleton.mp hy).symm)

/-- A failure is marked by nothing but its phase. -/
theorem eq_failed_of_mem_marked {answer : Except Fault α} {phase : Phase} :
    ∀ e ∈ marked answer phase, e = .entered .failed := by
  unfold marked
  intro e he
  cases answer with
  | ok a => cases he
  | error fault =>
      dsimp only at he
      split at he
      · exact List.mem_singleton.mp he
      · cases he

/-- What a routed request for an update count comes to, in a transaction of its own or not. -/
theorem update_of_ok {destination : Destination}
    (hroute : (s.route db (b.inTransaction (h ++ [.entered .idle])) statement).1 =
      .ok destination) :
    ∃ events,
      (if needsTransaction db.implicitCommit statement.kind destination.dataSources
          (b.inTransaction (h ++ [.entered .idle, .entered .routed])) then
        Transacts (destination.Updates db statement b) (s.update db b statement h).answer events
      else destination.Updates db statement b (s.update db b statement h).answer events) ∧
      (s.update db b statement h).history =
        h ++ [.entered .idle, .entered .routed] ++ events ++
          marked (s.update db b statement h).answer (History.phaseFrom .routed events) :=
  request_of_ok (fun destination =>
      db.write b statement.kind destination.dataSources (db.update b statement destination))
    hroute (db.write_adds b statement.kind destination.dataSources fun _ hphase =>
      db.update_adds b statement destination (hphase.trans (phase_routed h)))

/-- A write to several data sources outside a transaction is done in a transaction of its own; no
other statement takes a transaction step. -/
theorem update_transacts (db : Database) (b : Backend) (statement : Statement) (s : Session)
    (h : History) :
    (∀ units, s.WritesAcross db b statement h units → ∃ events ending,
      (s.update db b statement h).history =
        h ++ [.entered .idle, .entered .routed] ++ events ++ ending ∧
      Transacts (db.Writes b units) (s.update db b statement h).answer events ∧
      ∀ e ∈ ending, e = .entered .failed) ∧
    ((∀ units, ¬ s.WritesAcross db b statement h units) → ∃ events,
      (s.update db b statement h).history = h ++ events ∧ ∀ e ∈ events, e.isControl = false) := by
  cases hroute : (s.route db (b.inTransaction (h ++ [.entered .idle])) statement).1 with
  | error fault =>
      refine ⟨fun units hacross => ?_, fun _ => ⟨[.entered .idle], ?_, ?_⟩⟩
      · cases hroute.symm.trans hacross.route_eq
      · exact (request_of_error _ hroute).2
      · exact List.forall_mem_singleton.mpr rfl
  | ok destination =>
      rcases update_of_ok hroute with ⟨events, hevents, hhistory⟩
      constructor
      · intro units hacross
        cases hroute.symm.trans hacross.route_eq
        rw [if_pos ((writesAcross_iff hroute).mp hacross)] at hevents
        refine ⟨events, _, hhistory, hevents.mono fun _ _ hupdates => ?_, eq_failed_of_mem_marked⟩
        exact ⟨hupdates.uncontrolled, hupdates.performs units rfl⟩
      · intro hnever
        have hneeds : ¬ needsTransaction db.implicitCommit statement.kind destination.dataSources
            (b.inTransaction (h ++ [.entered .idle, .entered .routed])) = true := by
          cases destination with
          | computeInstance id => exact needsTransaction_computeInstance
          | units units => exact fun hneeds => hnever units ((writesAcross_iff hroute).mpr hneeds)
        rw [if_neg hneeds] at hevents
        rw [List.append_assoc, List.append_assoc] at hhistory
        refine ⟨_, hhistory, ?_⟩
        simp only [List.forall_mem_append]
        refine ⟨?_, hevents.uncontrolled, fun e he => ?_⟩
        · simp [Event.isControl]
        · rw [eq_failed_of_mem_marked e he]
          rfl

end Session

/-! ### Orders on two data sources -/

/-- A logical database whose orders are on two data sources. -/
def orderDatabase : Database where
  name := "logic_db"
  timeout := none
  rules := RuleSet.orderRuleSet
  adapt := adapterFor (Sql.reader .postgres)
  limits := ⟨1, 30000⟩
  runner := ⟨1, .failFast⟩
  merger := ⟨.binary, .none⟩
  implicitCommit := true
  traffic := .none

/-- The rules for orders make up `orderDatabase`. -/
theorem setUp_orderDatabase :
    Database.setUp (Sql.reader .postgres) Pattern.library Settings.default RuleSet.orderRules =
      .ok orderDatabase := by
  unfold Database.setUp
  simp only [Settings.default, RuleSet.setUp_orderRules, bind, Except.bind]
  rfl

/-- A statement that deletes all orders. -/
def orderPurge : Statement :=
  { sql := "DELETE FROM t_order", kind := .delete, tables := ["t_order"] }

/-- The units of `orderPurge`. -/
def orderPurgeUnits : List ExecutionUnit :=
  [⟨"ds_0", ⟨"DELETE FROM t_order_0", []⟩⟩, ⟨"ds_1", ⟨"DELETE FROM t_order_1", []⟩⟩]

/-- The purge of orders has one unit on each data source. -/
theorem unitsFor_orderPurge (turns : Turns) :
    orderDatabase.unitsFor orderPurge false turns = (.ok orderPurgeUnits, turns) := by
  have hroute : orderDatabase.rules.route orderPurge false turns =
      (.ok ⟨[⟨.identity "ds_0", [⟨"t_order", "t_order_0"⟩]⟩,
        ⟨.identity "ds_1", [⟨"t_order", "t_order_1"⟩]⟩]⟩, turns) := by
    rfl
  have hunits : buildUnits orderDatabase.adapt orderPurge
      ⟨[⟨.identity "ds_0", [⟨"t_order", "t_order_0"⟩]⟩,
        ⟨.identity "ds_1", [⟨"t_order", "t_order_1"⟩]⟩]⟩ = .ok orderPurgeUnits := by
    apply eq_ok_of_toOption
    decide +kernel
  unfold Database.unitsFor
  rw [bind_apply, hroute]
  simp only [hunits]
  rfl

/-- A backend on which nothing fails and every update concerns one row. -/
def Backend.untroubled : Backend where
  acquire h _ := .granted h.length
  query _ _ := .error "no rows"
  update _ _ := .ok ⟨1, []⟩
  control _ _ := .ok ()
  inTransaction _ := false
  elapsed _ := 0

/-- A backend whose targets answer with two rows. -/
def Backend.listing : Backend :=
  { Backend.untroubled with
    query := fun _ _ => .ok (.ofRows [⟨"name", "name"⟩, ⟨"id", "id"⟩]
      [[.text "Carol", .int 3], [.text "Bob", .int 2]]) }

/-- A backend on which the updates of one data source fail. -/
def Backend.lockedOut : Backend :=
  { Backend.untroubled with
    update := fun _ call =>
      if call.unit.dataSource = "ds_1" then .error "deadlock detected" else .ok ⟨1, []⟩ }

namespace Session

/-- The purge of orders is routed to these units in any session. -/
theorem route_orderPurge (s : Session) :
    (s.route orderDatabase false orderPurge).1 = .ok (.units orderPurgeUnits) := by
  have htraffic : orderDatabase.traffic.route orderPurge none s.trafficTurns =
      (.ok none, s.trafficTurns) := rfl
  unfold route
  simp only [Bool.false_eq_true, if_false, htraffic, unitsFor_orderPurge]
  rfl

/-- The transaction of `orderPurge` is rolled back when its second unit fails. -/
theorem update_transacts_orderPurge :
    Session.WritesAcross {} orderDatabase .lockedOut orderPurge [] orderPurgeUnits ∧
    (∃ events ending,
      (Session.update orderDatabase .lockedOut orderPurge {} []).history =
        [.entered .idle, .entered .routed] ++ events ++ ending ∧
      Transacts (orderDatabase.Writes .lockedOut orderPurgeUnits)
        (Session.update orderDatabase .lockedOut orderPurge {} []).answer events ∧
      ∀ e ∈ ending, e = .entered .failed) ∧
    (Session.update orderDatabase .lockedOut orderPurge {} []).history =
      [.entered .idle, .entered .routed, .controlled .start none,
        .acquired "ds_0" 3, .acquired "ds_1" 4, .entered .prepared, .entered .executing,
        .ran ⟨.update, 3, .perUnit, ⟨"ds_0", ⟨"DELETE FROM t_order_0", []⟩⟩⟩ none,
        .released "ds_0" 3,
        .ran ⟨.update, 4, .perUnit, ⟨"ds_1", ⟨"DELETE FROM t_order_1", []⟩⟩⟩
          (some "deadlock detected"),
        .released "ds_1" 4, .controlled .rollback none, .entered .failed] := by
  have hacross :
      Session.WritesAcross {} orderDatabase .lockedOut orderPurge [] orderPurgeUnits := by
    refine ⟨route_orderPurge {}, .inr (.inr rfl), ?_, rfl, rfl⟩
    exact ⟨_, List.mem_cons_self, _, List.mem_cons_of_mem _ List.mem_cons_self, by decide⟩
  refine ⟨hacross, ?_, by decide +kernel⟩
  exact (update_transacts orderDatabase .lockedOut orderPurge {} []).1 orderPurgeUnits hacross

end Session

end ShardedSql
