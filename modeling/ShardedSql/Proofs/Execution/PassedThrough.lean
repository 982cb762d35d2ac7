import ShardedSql.Proofs.Adaptation.Units
import ShardedSql.Proofs.Execution.Atomicity
import ShardedSql.Proofs.Execution.Handover
import ShardedSql.Proofs.Merge.SingleResult
import ShardedSql.Proofs.Route.SingleTarget

/-!
# Statements that are passed on

A statement whose tables are neither sharded nor broadcast has one target.  Without masks and
traffic strategies it is passed on to this target as it is, and so are the rows of the target to the
sender, whatever the statement asks for.

Main results:

- Theorem `Database.query_handsOver`: what executing the only unit of a statement for its rows comes
  to.
- Theorem `Session.query_passesOn`: a statement is passed on, or it cannot be routed.
-/

namespace ShardedSql

/-- A statement as it is, to be run on a data source. -/
def Statement.unitOn (statement : Statement) (target : String) : ExecutionUnit :=
  { dataSource := target
    statement := { sql := statement.sql, parameters := statement.parameters } }

/-- A connection to a data source is always granted, and the time is never up. -/
structure Backend.Admits (b : Backend) (report : Report) (dataSource : String) : Prop where
  grants : ∀ h, ∃ connection, b.acquire h dataSource = .granted connection
  inTime : ∀ h, report.isExpired (b.elapsed h) = false

/-- The reply to a statement that is passed on to a target, from a history on. -/
structure Reply.PassesOn (reply : Reply MergedResult) (b : Backend) (report : Report)
    (statement : Statement) (target : String) (h : History) : Prop where
  /-- Nothing but the statement is sent, to its target and at most once. -/
  calls : reply.history.calls = h.calls ∨ ∃ connection,
    reply.history.calls = h.calls ++ [(statement.unitOn target).callOn .query connection]
  sent : b.Admits report target → reply.history.calls ≠ h.calls
  /-- The rows are those of the target's answer, up to the columns that are not visible. -/
  answer : ∀ merged, reply.answer = .ok merged → ∃ before connection after result,
    reply.history =
      before ++ .ran ((statement.unitOn target).callOn .query connection) none :: after ∧
    before.calls = h.calls ∧ History.calls after = [] ∧
    b.query before ((statement.unitOn target).callOn .query connection) = .ok result ∧
    merged.Narrows (Merger.visibleWidth statement result.width) result
  /-- There is an answer if it is admitted and the target answers. -/
  exists_ok : b.Admits report target →
    (∀ h' call, call.unit = statement.unitOn target → ∃ result, b.query h' call = .ok result) →
    ∃ merged, reply.answer = .ok merged

/-! ## Requests for rows -/

/-- What a request for the rows of the only unit of a statement comes to, given what executing the
unit comes to. -/
inductive Relays (statement : Statement) :
    Except Fault (List ResultCursor) → History → Except Fault MergedResult → History → Prop
  | error {fault : Fault} {events : History} :
      Relays statement (.error fault) events (.error fault) events
  | ok {result : ResultCursor} {merged : MergedResult} {events : History}
      (hnarrows : merged.Narrows (Merger.visibleWidth statement result.width) result) :
      Relays statement (.ok [result]) events (.ok merged)
        (events ++ [.entered .merging, .entered .done])

/-- A unit that has been run leaves the executing phase. -/
theorem History.phaseFrom_handed (u : ExecutionUnit) (connection : ConnectionId) (call : Call)
    (failure : Option String) :
    History.phaseFrom .routed (u.readied connection ++
      ([.ran call failure, .released u.dataSource connection] : History)) = .executing := rfl

/-- What executing the only unit of a statement for its rows comes to. -/
theorem Database.query_handsOver {db : Database} (hmasks : db.merger.masks = .none) (b : Backend)
    (statement : Statement) (u : ExecutionUnit) {h : History} (hphase : h.phase = .routed) :
    Adds (db.query b statement (.units [u])) h fun answer events => ∃ outcome handed,
      HandsOver b db.report db.runner.policy .query b.query u h outcome handed ∧
        Relays statement outcome handed answer events := by
  rw [query_eq]
  refine (db.executed_handsOver b statement u .query b.query hphase).bind ?_ ?_
  · intro results events hevents
    cases hevents with
    | @answered connection result hgranted hanswer =>
        have hexecuting : History.phase (h ++ (u.readied connection ++
            ([.ran (u.callOn .query connection) none, .released u.dataSource connection] :
              History))) = .executing := by
          rw [History.phase_append, hphase, History.phaseFrom_handed]
        rcases Merger.exists_narrows hmasks statement result with ⟨merged, hmerged, hnarrows⟩
        refine Action.enter_bind_adds (by rw [hexecuting]; rfl) ?_
        refine Action.ofExcept_bind_adds (fun merged' heq => ?_) fun fault heq => ?_
        · cases hmerged.symm.trans heq
          refine Action.enter_bind_adds (by rw [History.phase_append_singleton]; rfl) (.pure ?_)
          exact ⟨_, _, .answered hgranted hanswer, .ok hnarrows⟩
        · cases hmerged.symm.trans heq
  · exact fun fault events hevents => ⟨_, _, hevents, .error⟩

/-! ## Routing -/

/-- Without a mask rule and a traffic rule nothing is masked and nothing is redirected. -/
theorem Database.setUp_plain {sql : Sql.Library} {patterns : PatternLibrary} {settings : Settings}
    {rules : Rules} {db : Database} (hsetUp : Database.setUp sql patterns settings rules = .ok db)
    (hmask : rules.mask = none) (htraffic : rules.traffic = none) :
    db.merger.masks = .none ∧ db.traffic = .none ∧ db.adapt = adapterFor sql := by
  unfold Database.setUp at hsetUp
  rcases Except.bind_eq_ok.mp hsetUp with ⟨ruleSet, -, hrest⟩
  rw [hmask, htraffic] at hrest
  cases hrest
  exact ⟨rfl, rfl, rfl⟩

/-- Without a traffic rule a statement goes to data sources. -/
theorem Session.route_of_noTraffic {db : Database} (htraffic : db.traffic = .none)
    (inTransaction : Bool) (statement : Statement) (s : Session) :
    (s.route db inTransaction statement).1 =
      ((db.rules.route statement inTransaction s.routeTurns).1 >>=
        buildUnits db.adapt statement).map .units := by
  have hkept : ∀ kept turns, db.traffic.route statement kept turns = (.ok none, turns) := by
    rw [htraffic]
    exact fun _ _ => rfl
  unfold Session.route Database.unitsFor
  simp only [hkept, bind_apply]
  cases db.rules.route statement inTransaction s.routeTurns with
  | mk route turns => cases route <;> rfl

/-! ## Statements with one target -/

namespace Reply

variable {b : Backend} {report : Report} {policy : FailurePolicy} {statement : Statement}
  {target : String} {h : History} {outcome : Except Fault (List ResultCursor)}
  {handed events : History} {reply : Reply MergedResult}

/-- A reply that relays what its target has said to a statement passes the statement on. -/
theorem passesOn_of_handsOver
    (hhanded : HandsOver b report policy .query b.query (statement.unitOn target)
      (h ++ [.entered .idle, .entered .routed]) outcome handed)
    (hrelays : Relays statement outcome handed reply.answer events) {phase : Phase}
    (hhistory : reply.history = h ++ [.entered .idle, .entered .routed] ++ events ++
      marked reply.answer phase) :
    reply.PassesOn b report statement target h := by
  have hcalls : reply.history.calls = h.calls ++ History.calls events := by
    rw [hhistory, History.calls_append, History.calls_append, History.calls_append, calls_marked]
    simp [History.calls]
  have hsent : ∀ call, reply.history.calls = h.calls ++ [call] → reply.history.calls ≠ h.calls :=
    fun call heq hsame => by simp [hsame] at heq
  generalize hanswer : reply.answer = answer at hrelays hhistory
  cases hhanded with
  | denied hdenied =>
      cases hrelays
      have hnever : ¬ b.Admits report target := by
        intro hadmits
        rcases hadmits.grants (h ++ [.entered .idle, .entered .routed]) with ⟨connection, hgranted⟩
        exact hdenied connection hgranted
      refine ⟨.inl (hcalls.trans (List.append_nil _)), fun hadmits => absurd hadmits hnever,
        fun merged heq => ?_, fun hadmits => absurd hadmits hnever⟩
      cases hanswer.symm.trans heq
  | expired hgranted htime =>
      cases hrelays
      have hnever : ¬ b.Admits report target := fun hadmits =>
        nomatch (hadmits.inTime _).symm.trans htime
      refine ⟨.inl (hcalls.trans (List.append_nil _)), fun hadmits => absurd hadmits hnever,
        fun merged heq => ?_, fun hadmits => absurd hadmits hnever⟩
      cases hanswer.symm.trans heq
  | @failed connection reason hgranted hfailed =>
      cases hrelays
      refine ⟨.inr ⟨connection, hcalls⟩, fun _ => hsent _ hcalls, fun merged heq => ?_,
        fun _ hanswers => ?_⟩
      · cases hanswer.symm.trans heq
      · rcases hanswers _ ((statement.unitOn target).callOn .query connection) rfl with
          ⟨result, hresult⟩
        cases hresult.symm.trans hfailed
  | @answered connection result hgranted hresult =>
      cases hrelays with
      | @ok _ merged _ hnarrows =>
          refine ⟨.inr ⟨connection, hcalls⟩, fun _ => hsent _ hcalls, fun merged' heq => ?_,
            fun _ _ => ⟨merged, hanswer⟩⟩
          cases hanswer.symm.trans heq
          refine ⟨h ++ [.entered .idle, .entered .routed] ++
            (statement.unitOn target).readied connection, connection,
            [.released target connection, .entered .merging, .entered .done], result, ?_, ?_, rfl,
            hresult, hnarrows⟩
          · rw [hhistory]
            simp [marked, Statement.unitOn]
          · simp [History.calls, ExecutionUnit.readied]

end Reply

/-- A statement without sharded and broadcast tables cannot be routed, or it is passed on to its
only target, whatever its shape. -/
theorem Session.query_passesOn {sql : Sql.Library} {patterns : PatternLibrary}
    {settings : Settings} {rules : Rules} {db : Database}
    (hsetUp : Database.setUp sql patterns settings rules = .ok db) (hmask : rules.mask = none)
    (htraffic : rules.traffic = none) {statement : Statement} (htables : statement.tables ≠ [])
    (hsharded : ¬ db.rules.ShardsSome statement)
    (hbroadcast : ∀ t ∈ statement.tables, ¬ db.rules.BroadcastsTo t) (b : Backend) (s : Session)
    (h : History) :
    (∃ fault,
      (db.rules.route statement (b.inTransaction (h ++ [.entered .idle])) s.routeTurns).1 =
        .error fault ∧
      (s.query db b statement h).answer = .error fault ∧
      (s.query db b statement h).history.calls = h.calls) ∨
    ∃ u, (db.rules.route statement (b.inTransaction (h ++ [.entered .idle])) s.routeTurns).1 =
        .ok ⟨[u]⟩ ∧
      (s.query db b statement h).PassesOn b db.report statement u.dataSource.actual h := by
  rcases Database.setUp_plain hsetUp hmask htraffic with ⟨hmasks, hnoTraffic, hadapt⟩
  have hroute := s.route_of_noTraffic hnoTraffic (b.inTransaction (h ++ [.entered .idle])) statement
  cases hrouted :
      (db.rules.route statement (b.inTransaction (h ++ [.entered .idle])) s.routeTurns).1 with
  | error fault =>
      rw [hrouted] at hroute
      rcases request_of_error (db.query b statement) hroute with ⟨hanswer, hhistory⟩
      refine .inl ⟨fault, rfl, hanswer, ?_⟩
      show (request db b statement (db.query b statement) s h).history.calls = _
      rw [hhistory, History.calls_append]
      exact List.append_nil _
  | ok route =>
      rcases List.exists_mem_of_ne_nil _ htables with ⟨t, ht⟩
      rcases RuleSet.single_of_route hsharded ht (hbroadcast t ht) hrouted with ⟨u, hu, hidentity⟩
      have hone : route = ⟨[u]⟩ := congrArg Route.mk hu
      rw [hrouted, hone, hadapt] at hroute
      have hunits : (s.route db (b.inTransaction (h ++ [.entered .idle])) statement).1 =
          .ok (.units [statement.unitOn u.dataSource.actual]) := by
        rw [hroute]
        show (buildUnits (adapterFor sql) statement ⟨[u]⟩).map _ = _
        rw [buildUnits_unrenamed sql statement hidentity]
        rfl
      rcases request_of_ok (db.query b statement) hunits
        (Database.query_handsOver hmasks b statement _ (phase_routed h)) with
        ⟨events, ⟨outcome, handed, hhanded, hrelays⟩, hhistory⟩
      exact .inr ⟨u, by rw [hone], Reply.passesOn_of_handsOver hhanded hrelays hhistory⟩

/-- A statement that asks for a page of the distinct names of users in order. -/
def userPage : Statement :=
  { sql := "SELECT DISTINCT name FROM t_user ORDER BY id LIMIT 2 OFFSET 1"
    tables := ["t_user"]
    shape := { Shape.plain with
      orderBy := [⟨1, .ascending, .last⟩], page := some ⟨1, some 2⟩, distinct := true
      visibleColumns := some 1 } }

/-- The page is not cut again and the rows are not sorted: they are those of the target. -/
theorem Session.query_passesOn_userPage :
    Database.setUp (Sql.reader .postgres) Pattern.library Settings.default RuleSet.orderRules =
      .ok orderDatabase ∧
    RuleSet.orderRules.mask = none ∧ RuleSet.orderRules.traffic = none ∧ userPage.tables ≠ [] ∧
    ¬ orderDatabase.rules.ShardsSome userPage ∧
    (∀ t ∈ userPage.tables, ¬ orderDatabase.rules.BroadcastsTo t) ∧
    (Session.query orderDatabase .listing userPage {} []).PassesOn .listing orderDatabase.report
      userPage "ds_1" [] ∧
    ∃ merged, (Session.query orderDatabase .listing userPage {} []).answer = .ok merged ∧
      merged.rows.1 = .ok [[.text "Carol"], [.text "Bob"]] := by
  have hsharded : ¬ orderDatabase.rules.ShardsSome userPage := by
    rintro ⟨rule, hrule, t, ht, hshards⟩
    rw [List.mem_singleton.mp ht] at hshards
    rcases List.mem_cons.mp hrule with hrule | hrule
    · cases hrule
      revert hshards
      decide
    · cases List.mem_singleton.mp hrule
  have hbroadcast : ∀ t ∈ userPage.tables, ¬ orderDatabase.rules.BroadcastsTo t := by
    rintro t ht ⟨rule, hrule, hbroadcasts⟩
    rw [List.mem_singleton.mp ht] at hbroadcasts
    rcases List.mem_cons.mp hrule with hrule | hrule
    · cases hrule
    · cases List.mem_singleton.mp hrule
      revert hbroadcasts
      decide
  have hroute : (orderDatabase.rules.route userPage false []).1 =
      .ok ⟨[⟨.identity "ds_1", [.identity "t_user"]⟩]⟩ := by
    rfl
  have hpasses : (Session.query orderDatabase .listing userPage {} []).PassesOn .listing
      orderDatabase.report userPage "ds_1" [] := by
    rcases Session.query_passesOn setUp_orderDatabase rfl rfl (List.cons_ne_nil _ _) hsharded
      hbroadcast .listing {} [] with ⟨fault, hfault, -⟩ | ⟨u, hu, hpasses⟩
    · cases hroute.symm.trans hfault
    · cases hroute.symm.trans hu
      exact hpasses
  refine ⟨setUp_orderDatabase, rfl, rfl, List.cons_ne_nil _ _, hsharded, hbroadcast, hpasses, ?_⟩
  have hadmits : Backend.listing.Admits orderDatabase.report "ds_1" :=
    ⟨fun h => ⟨h.length, rfl⟩, fun _ => rfl⟩
  rcases hpasses.exists_ok hadmits (fun _ _ _ => ⟨_, rfl⟩) with ⟨merged, hmerged⟩
  rcases hpasses.answer merged hmerged with ⟨before, connection, after, result, -, -, -, hresult,
    hnarrows⟩
  cases hresult
  refine ⟨merged, hmerged, hnarrows.rows ?_ ?_⟩
  · exact (ResultCursor.ofRows_uninterrupted _ _).neverFails
  · unfold Wide
    decide

end ShardedSql
